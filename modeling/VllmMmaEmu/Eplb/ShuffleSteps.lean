import Mathlib.Data.List.GetD
import Mathlib.Data.List.Sort
import VllmMmaEmu.Eplb.RebalanceExecute
import VllmMmaEmu.Library.Fanout

/-!
# What each rank does in a rearrangement

The ranks of an expert are read off the global maps, so every rank finds the same lists, and
the assignment of receivers to senders is the same seen from either side. The local copies serve
exactly the slots whose expert the rank already holds, and the two dictionaries name one slot for
every expert to send and for every expert to receive.
-/

namespace Eplb

open Python Fanout

/-- The expert in slot `i` of rank `r`; an empty slot holds `-1`. -/
def expertAt (indices : List Int) (numLocal r i : Nat) : Int :=
  indices.getD (idxLocalToGlobal i numLocal r) (-1)

/-- Rank `r` holds `e` in one of its slots. -/
def Holds (indices : List Int) (numLocal r : Nat) (e : Int) : Prop :=
  ∃ i < numLocal, expertAt indices numLocal r i = e

instance (indices : List Int) (numLocal r : Nat) (e : Int) :
    Decidable (Holds indices numLocal r e) :=
  inferInstanceAs (Decidable (∃ i < numLocal, expertAt indices numLocal r i = e))

section

variable {numRanks numLocal : Nat} {indices oldIndices newIndices : List Int}

lemma local_lt {r i : Nat} (hr : r < numRanks) (hi : i < numLocal) :
    idxLocalToGlobal i numLocal r < numRanks * numLocal :=
  calc r * numLocal + i < (r + 1) * numLocal := by rw [Nat.succ_mul]; omega
    _ ≤ numRanks * numLocal := Nat.mul_le_mul_right _ hr

lemma pyIndex_expertAt (hlen : indices.length = numRanks * numLocal) {r i : Nat}
    (hr : r < numRanks) (hi : i < numLocal) :
    pyIndex indices (idxLocalToGlobal i numLocal r) = .ok (expertAt indices numLocal r i) := by
  have hlt : idxLocalToGlobal i numLocal r < indices.length := hlen ▸ local_lt hr hi
  rw [pyIndex_eq_ok, expertAt, List.getD_eq_getElem?_getD, List.getElem?_eq_getElem hlt]
  rfl

lemma holds_iff (hlen : indices.length = numRanks * numLocal) {r : Nat} {e : Int} :
    (r < numRanks ∧ Holds indices numLocal r e) ↔
      ∃ k : Nat, indices[k]? = some e ∧ k / numLocal = r := by
  constructor
  · rintro ⟨hr, i, hi, rfl⟩
    refine ⟨idxLocalToGlobal i numLocal r, pyIndex_eq_ok.mp (pyIndex_expertAt hlen hr hi), ?_⟩
    rw [idxLocalToGlobal, Nat.add_comm, Nat.add_mul_div_right _ _ (Nat.zero_lt_of_lt hi),
      Nat.div_eq_of_lt hi, Nat.zero_add]
  · rintro ⟨k, hk, rfl⟩
    obtain ⟨hlt, -⟩ := List.getElem?_eq_some_iff.mp hk
    rw [hlen] at hlt
    have hdiv : idxLocalToGlobal (k % numLocal) numLocal (k / numLocal) = k := by
      rw [idxLocalToGlobal, Nat.mul_comm]
      exact Nat.div_add_mod k numLocal
    refine ⟨Nat.div_lt_of_lt_mul (by rwa [Nat.mul_comm]), k % numLocal,
      Nat.mod_lt _ (Nat.pos_of_lt_mul_left hlt), ?_⟩
    rw [expertAt, hdiv, List.getD_eq_getElem?_getD, hk, Option.getD_some]

/-- Two increasing lists with the same members are one list. -/
lemma eq_of_increasing {α : Type} [LinearOrder α] {l l' : List α} (h : l.Pairwise (· < ·))
    (h' : l'.Pairwise (· < ·)) (hmem : ∀ x, x ∈ l ↔ x ∈ l') : l = l' :=
  List.Perm.eq_of_pairwise (fun _ _ _ _ hab hba => absurd hab (lt_asymm hba)) h h'
    ((List.perm_ext_iff_of_nodup (h.imp ne_of_lt) (h'.imp ne_of_lt)).mpr hmem)

/-- An increasing list that has an upper bound of its members ends with it. -/
lemma getLast?_of_bound {l : List Nat} {x : Nat} (h : l.Pairwise (· < ·)) (hx : x ∈ l)
    (hle : ∀ y ∈ l, y ≤ x) : l.getLast? = some x := by
  obtain ⟨l', y, rfl⟩ : ∃ l' y, l = l' ++ [y] :=
    ⟨_, _, (List.dropLast_append_getLast (List.ne_nil_of_mem hx)).symm⟩
  rw [List.getLast?_concat]
  rcases List.mem_append.mp hx with hx | hx
  · have hlt := (List.pairwise_append.mp h).2.2 x hx y (List.mem_singleton_self y)
    have := hle y (by simp)
    omega
  · rw [List.mem_singleton.mp hx]

lemma zipIdx_split {l : List Int} {done rest : List (Int × Nat)} {x : Int × Nat}
    (h : l.zipIdx = done ++ x :: rest) :
    x.2 = done.length ∧ l[x.2]? = some x.1 ∧ ∀ y ∈ done, y.2 < done.length := by
  have hget : ∀ k (hk : k < l.zipIdx.length), (l.zipIdx)[k].2 = k := by
    intro k hk
    rw [List.getElem_zipIdx, Nat.zero_add]
  have hlt : done.length < l.zipIdx.length := by rw [h]; simp
  have hx : (l.zipIdx)[done.length]? = some x := by rw [h]; simp
  refine ⟨?_, ?_, fun y hy => ?_⟩
  · have := hget _ hlt
    rw [(List.getElem?_eq_some_iff.mp hx).2] at this
    exact this
  · have hmem : x ∈ l.zipIdx := List.mem_of_getElem? hx
    rwa [← List.mk_mem_zipIdx_iff_getElem?]
  · obtain ⟨k, hk, rfl⟩ := List.getElem_of_mem hy
    have hk' : k < l.zipIdx.length := hk.trans hlt
    have := hget k hk'
    rw [List.getElem_of_eq h hk', List.getElem_append_left hk] at this
    omega

/-- The loop collects the ranks of the slots it has passed, in increasing order. -/
lemma ranksWithExpert_eq (hlen : indices.length = numRanks * numLocal) (e : Int) :
    ranksWithExpert e numLocal indices =
      .ok ((List.range numRanks).filter fun r => Holds indices numLocal r e) := by
  have hstep : ∀ (done : List (Int × Nat)) (x : Int × Nat) (rest : List (Int × Nat))
      (ranks : List Nat), indices.zipIdx = done ++ x :: rest →
      (ranks.Pairwise (· < ·) ∧ ∀ r, r ∈ ranks ↔ ∃ y ∈ done, y.1 = e ∧ y.2 / numLocal = r) →
      ∃ ranks', (if x.1 = e then do
            let rank ← globalIdxToRank x.2 numLocal
            .ok (if ranks.getLast? = some rank then ranks else ranks ++ [rank])
          else .ok ranks : Except PyError (List Nat)) = .ok ranks' ∧
        (ranks'.Pairwise (· < ·) ∧
          ∀ r, r ∈ ranks' ↔ ∃ y ∈ done ++ [x], y.1 = e ∧ y.2 / numLocal = r) := by
    rintro done x rest ranks hsplit ⟨hsorted, hmem⟩
    obtain ⟨hx, hget, hdone⟩ := zipIdx_split hsplit
    have hlt := (List.getElem?_eq_some_iff.mp hget).1
    rw [hlen] at hlt
    by_cases he : x.1 = e
    · have hbound : ∀ r ∈ ranks, r ≤ x.2 / numLocal := by
        intro r hr
        obtain ⟨y, hy, -, rfl⟩ := (hmem r).mp hr
        exact Nat.div_le_div_right (hx ▸ (hdone y hy).le)
      rw [if_pos he, globalIdxToRank, pyFloorDiv_of_pos _ (Nat.pos_of_lt_mul_left hlt), ok_bind]
      by_cases hlast : ranks.getLast? = some (x.2 / numLocal)
      · rw [if_pos hlast]
        refine ⟨ranks, rfl, hsorted, fun r => ?_⟩
        rw [hmem]
        constructor
        · rintro ⟨y, hy, h⟩
          exact ⟨y, List.mem_append_left _ hy, h⟩
        · rintro ⟨y, hy, h⟩
          rcases List.mem_append.mp hy with hy | hy
          · exact ⟨y, hy, h⟩
          · rw [List.mem_singleton.mp hy] at h
            exact (hmem r).mp (h.2 ▸ List.mem_of_getLast? hlast)
      · rw [if_neg hlast]
        have hnew : x.2 / numLocal ∉ ranks := fun hin =>
          hlast (getLast?_of_bound hsorted hin hbound)
        refine ⟨_, rfl, List.pairwise_append.mpr ⟨hsorted, List.pairwise_singleton _ _, ?_⟩,
          fun r => ?_⟩
        · intro r hr k hk
          rw [List.mem_singleton.mp hk]
          exact lt_of_le_of_ne (hbound r hr) fun h => hnew (h ▸ hr)
        · simp only [List.mem_append, List.mem_singleton, hmem]
          constructor
          · rintro (⟨y, hy, h⟩ | rfl)
            · exact ⟨y, Or.inl hy, h⟩
            · exact ⟨x, Or.inr rfl, he, rfl⟩
          · rintro ⟨y, hy | rfl, h⟩
            · exact Or.inl ⟨y, hy, h⟩
            · exact Or.inr h.2.symm
    · rw [if_neg he]
      refine ⟨ranks, rfl, hsorted, fun r => ?_⟩
      rw [hmem]
      constructor
      · rintro ⟨y, hy, h⟩
        exact ⟨y, List.mem_append_left _ hy, h⟩
      · rintro ⟨y, hy, h⟩
        rcases List.mem_append.mp hy with hy | hy
        · exact ⟨y, hy, h⟩
        · rw [List.mem_singleton.mp hy] at h
          exact absurd h.1 he
  obtain ⟨ranks, hrun, hsorted, hmem⟩ :=
    foldlM_of_step (a := []) hstep ⟨List.Pairwise.nil, by simp⟩
  rw [ranksWithExpert]
  refine hrun.trans (congrArg Except.ok (eq_of_increasing hsorted ?_ fun r => ?_))
  · exact List.Pairwise.filter _ List.pairwise_lt_range
  · simp only [List.mem_filter, List.mem_range, decide_eq_true_eq, hmem, holds_iff hlen,
      Prod.exists, List.mk_mem_zipIdx_iff_getElem?]
    constructor
    · rintro ⟨a, k, hk, rfl, hr⟩
      exact ⟨k, hk, hr⟩
    · rintro ⟨k, hk, hr⟩
      exact ⟨e, k, hk, rfl, hr⟩

/-- The ranks that hold `e` before the exchange. -/
def sendRanks (numRanks numLocal : Nat) (oldIndices : List Int) (e : Int) : List Nat :=
  (List.range numRanks).filter fun r => Holds oldIndices numLocal r e

/-- The ranks that hold `e` after the exchange and not before it. -/
def recvRanks (numRanks numLocal : Nat) (oldIndices newIndices : List Int) (e : Int) : List Nat :=
  (List.range numRanks).filter fun r =>
    Holds newIndices numLocal r e ∧ ¬ Holds oldIndices numLocal r e

lemma mem_sendRanks {e : Int} {r : Nat} :
    r ∈ sendRanks numRanks numLocal oldIndices e ↔ r < numRanks ∧ Holds oldIndices numLocal r e := by
  simp [sendRanks]

lemma mem_recvRanks {e : Int} {r : Nat} :
    r ∈ recvRanks numRanks numLocal oldIndices newIndices e ↔
      r < numRanks ∧ Holds newIndices numLocal r e ∧ ¬ Holds oldIndices numLocal r e := by
  simp [recvRanks]

lemma sendRanks_nodup (e : Int) : (sendRanks numRanks numLocal oldIndices e).Nodup :=
  List.nodup_range.filter _

lemma recvRanks_nodup (e : Int) : (recvRanks numRanks numLocal oldIndices newIndices e).Nodup :=
  List.nodup_range.filter _

lemma getEpRanksWithExpert_eq (hold : oldIndices.length = numRanks * numLocal)
    (hnew : newIndices.length = numRanks * numLocal) (e : Int) :
    getEpRanksWithExpert e numLocal oldIndices newIndices =
      .ok (sendRanks numRanks numLocal oldIndices e,
        recvRanks numRanks numLocal oldIndices newIndices e) := by
  rw [getEpRanksWithExpert, ranksWithExpert_eq hold, ok_bind, ranksWithExpert_eq hnew, ok_bind,
    List.filter_filter]
  refine congrArg (fun l => Except.ok (sendRanks numRanks numLocal oldIndices e, l)) ?_
  refine List.filter_congr fun r hr => ?_
  have hr := List.mem_range.mp hr
  simp [List.mem_filter, hr, and_comm]

lemma slice_eq_filterMap {α : Type} (l : List α) (a q : Nat) (h : a + q ≤ l.length) :
    slice l a (a + q) = (List.range' a q).filterMap fun j => l[j]? := by
  induction q generalizing a with
  | zero => simp [slice]
  | succ q ih =>
    have hlt : a < l.length := by omega
    have hrest := ih (a + 1) (by omega)
    have hcons : slice l a (a + (q + 1)) = l[a] :: slice l (a + 1) (a + 1 + q) := by
      simp only [slice, Nat.add_sub_cancel_left]
      rw [List.drop_eq_getElem_cons hlt, List.take_succ_cons]
    rw [hcons, hrest, List.range'_succ, List.filterMap_cons_some (List.getElem?_eq_getElem hlt)]

/-- A sender computes the receivers that the assignment gives it. -/
lemma recvRanksOf_eq {S R : List Nat} {s : Nat} (hs : s ∈ S) :
    recvRanksOf S R s = .ok (receiversOf S R s) := by
  have hi := List.idxOf_lt_length_of_mem hs
  have hpos : 0 < S.length := Nat.zero_lt_of_lt hi
  have hend := (block_end_le hi (R.length / S.length)).trans (Nat.mul_div_le R.length S.length)
  rw [recvRanksOf, pyFloorDiv_of_pos _ hpos, ok_bind, pyListIndex, if_pos hs, ok_bind, receiversOf,
    served, List.filterMap_append, ← slice_eq_filterMap _ _ _ hend]
  by_cases hlt : S.length * (R.length / S.length) + S.idxOf s < R.length
  · rw [if_pos hlt, if_pos hlt, pyIndex_eq_ok.mpr (List.getElem?_eq_getElem hlt), ok_bind]
    simp [hlt]
  · rw [if_neg hlt, if_neg hlt]
    simp

/-- A receiver computes the sender that the assignment gives it. -/
lemma sendRankOf_eq {S R : List Nat} {r s : Nat} (hS : S ≠ []) (hr : r ∈ R)
    (hs : senderOf S R r = some s) : sendRankOf S R r = .ok s := by
  have hpos : 0 < S.length := List.length_pos_iff.mpr hS
  rw [senderOf, server] at hs
  rw [sendRankOf, pyFloorDiv_of_pos _ hpos, ok_bind, pyListIndex, if_pos hr, ok_bind]
  by_cases hlt : R.idxOf r < S.length * (R.length / S.length)
  · have hq : 0 < R.length / S.length := by
      rcases Nat.eq_zero_or_pos (R.length / S.length) with h | h
      · simp [h] at hlt
      · exact h
    rw [if_pos hlt] at hs ⊢
    rw [pyFloorDiv_of_pos _ hq, ok_bind, pyIndex_eq_ok, hs]
  · rw [if_neg hlt] at hs ⊢
    rw [pyIndex_eq_ok, hs]

end

variable {V : Type} {numRanks numLocal r : Nat} {oldIndices newIndices : List Int}

/-- The slot keeps its expert. -/
def Unchanged (oldIndices newIndices : List Int) (numLocal r i : Nat) : Prop :=
  expertAt oldIndices numLocal r i = expertAt newIndices numLocal r i

/-- Slot `src` holds what slot `dst` is to hold. -/
def Copyable (oldIndices newIndices : List Int) (numLocal r src dst : Nat) : Prop :=
  expertAt oldIndices numLocal r src ≠ -1 ∧
    expertAt oldIndices numLocal r src = expertAt newIndices numLocal r dst

lemma pyIndex_getD {α : Type} {l : List α} {i : Nat} {d : α} (h : i < l.length) :
    pyIndex l i = .ok (l.getD i d) := by
  rw [pyIndex_eq_ok, List.getElem?_eq_getElem h, List.getD_eq_getElem _ _ h]

lemma getD_set_iff {l : List Bool} {i k : Nat} (hi : i < l.length) :
    (l.set i true).getD k false = true ↔ k = i ∨ l.getD k false = true := by
  by_cases hki : k = i
  · subst hki
    simp [List.getD_eq_getElem?_getD, hi]
  · simp [List.getD_eq_getElem?_getD, List.getElem?_set_ne (Ne.symm hki), hki]

section Copies

variable {weights : Memory V} {C : Nat → Nat → Prop} {s : LocalCopies V} {src dst : Nat}

/-- The double loop has passed the pairs `C`. -/
structure Copied (oldIndices newIndices : List Int) (numLocal r : Nat) (weights : Memory V)
    (C : Nat → Nat → Prop) (s : LocalCopies V) : Prop where
  length : s.isReceivedLocally.length = numLocal
  received : ∀ dst < numLocal, s.isReceivedLocally.getD dst false = true ↔
    Unchanged oldIndices newIndices numLocal r dst ∨
      ∃ src, C src dst ∧ Copyable oldIndices newIndices numLocal r src dst
  buffer : ∀ dst < numLocal, ¬ Unchanged oldIndices newIndices numLocal r dst →
    s.isReceivedLocally.getD dst false = true → ∃ src < numLocal,
      Copyable oldIndices newIndices numLocal r src dst ∧ s.buffer dst = weights src

lemma Copied.mono {D : Nat → Nat → Prop}
    (h : Copied oldIndices newIndices numLocal r weights C s)
    (hD : ∀ src dst, D src dst ↔ C src dst) :
    Copied oldIndices newIndices numLocal r weights D s where
  length := h.length
  received dst hdst := by simpa only [hD] using h.received dst hdst
  buffer := h.buffer

lemma Copied.step (h : Copied oldIndices newIndices numLocal r weights C s)
    (hold : oldIndices.length = numRanks * numLocal) (hnew : newIndices.length = numRanks * numLocal)
    (hr : r < numRanks) (hsrc : src < numLocal) (hdst : dst < numLocal) :
    ∃ s', copyLocal numLocal r oldIndices newIndices weights src dst s = .ok s' ∧
      Copied oldIndices newIndices numLocal r weights
        (fun a b => C a b ∨ a = src ∧ b = dst) s' := by
  have hlen := h.length
  rw [copyLocal, pyIndex_getD (d := false) (hlen ▸ hdst), ok_bind]
  by_cases hrecv : s.isReceivedLocally.getD dst false = true
  · rw [if_pos hrecv]
    refine ⟨s, rfl, hlen, fun b hb => ?_, h.buffer⟩
    rw [h.received b hb]
    constructor
    · rintro (hu | ⟨a, hC, ha⟩)
      · exact Or.inl hu
      · exact Or.inr ⟨a, Or.inl hC, ha⟩
    · rintro (hu | ⟨a, hC | ⟨rfl, rfl⟩, ha⟩)
      · exact Or.inl hu
      · exact Or.inr ⟨a, hC, ha⟩
      · exact (h.received b hb).mp hrecv
  · rw [if_neg hrecv, pyIndex_expertAt hold hr hsrc, ok_bind, pyIndex_expertAt hnew hr hdst, ok_bind]
    by_cases hcopy : Copyable oldIndices newIndices numLocal r src dst
    · rw [if_neg (fun hor => hor.elim hcopy.1 (hcopy.2 ▸ hcopy.1)), if_pos hcopy.2]
      refine ⟨_, rfl, by simpa using hlen, fun b hb => ?_, fun b hb hu hb' => ?_⟩
      · rw [getD_set_iff (hlen ▸ hdst), h.received b hb]
        constructor
        · rintro (rfl | hu | ⟨a, hC, ha⟩)
          · exact Or.inr ⟨src, Or.inr ⟨rfl, rfl⟩, hcopy⟩
          · exact Or.inl hu
          · exact Or.inr ⟨a, Or.inl hC, ha⟩
        · rintro (hu | ⟨a, hC | ⟨rfl, rfl⟩, ha⟩)
          · exact Or.inr (Or.inl hu)
          · exact Or.inr (Or.inr ⟨a, hC, ha⟩)
          · exact Or.inl rfl
      · by_cases hbd : b = dst
        · subst hbd
          exact ⟨src, hsrc, hcopy, Function.update_self ..⟩
        · obtain ⟨a, ha, hca, hbuf⟩ :=
            h.buffer b hb hu (((getD_set_iff (hlen ▸ hdst)).mp hb').resolve_left hbd)
          exact ⟨a, ha, hca, (Function.update_of_ne hbd ..).trans hbuf⟩
    · have hskip : (if expertAt oldIndices numLocal r src = -1 ∨
            expertAt newIndices numLocal r dst = -1 then .ok s
          else if expertAt oldIndices numLocal r src = expertAt newIndices numLocal r dst then
            .ok ⟨s.isReceivedLocally.set dst true, Function.update s.buffer dst (weights src)⟩
          else .ok s : Except PyError (LocalCopies V)) = .ok s := by
        split_ifs with hor heq
        · rfl
        · exact absurd ⟨fun hneg => hor (Or.inl hneg), heq⟩ hcopy
        · rfl
      rw [hskip]
      refine ⟨s, rfl, hlen, fun b hb => ?_, h.buffer⟩
      rw [h.received b hb]
      constructor
      · rintro (hu | ⟨a, hC, ha⟩)
        · exact Or.inl hu
        · exact Or.inr ⟨a, Or.inl hC, ha⟩
      · rintro (hu | ⟨a, hC | ⟨rfl, rfl⟩, ha⟩)
        · exact Or.inl hu
        · exact Or.inr ⟨a, hC, ha⟩
        · exact absurd ha hcopy

/-- The loop receives locally whatever the rank held before. -/
lemma copyLocals_spec (hold : oldIndices.length = numRanks * numLocal)
    (hnew : newIndices.length = numRanks * numLocal) (hr : r < numRanks) (weights buffer : Memory V)
    {unchanged : List Bool} (hlen : unchanged.length = numLocal)
    (hunchanged : ∀ i < numLocal, unchanged.getD i false = true ↔
      Unchanged oldIndices newIndices numLocal r i) :
    ∃ s, copyLocals numLocal r oldIndices newIndices weights buffer unchanged = .ok s ∧
      Copied oldIndices newIndices numLocal r weights
        (fun src dst => src < numLocal ∧ dst < numLocal) s := by
  have hmemAppend : ∀ (done : List Nat) (x a : Nat), a ∈ done ++ [x] ↔ a ∈ done ∨ a = x := by
    intro done x a
    simp
  have hlt : ∀ (done : List Nat) (x : Nat) (rest : List Nat),
      List.range numLocal = done ++ x :: rest → x < numLocal := by
    intro done x rest hsplit
    rw [← List.mem_range, hsplit]
    simp
  have houter : ∀ done src rest s, List.range numLocal = done ++ src :: rest →
      Copied oldIndices newIndices numLocal r weights (fun a b => a ∈ done ∧ b < numLocal) s →
      ∃ s', (List.range numLocal).foldlM (fun s dst =>
          copyLocal numLocal r oldIndices newIndices weights src dst s) s = .ok s' ∧
        Copied oldIndices newIndices numLocal r weights
          (fun a b => a ∈ done ++ [src] ∧ b < numLocal) s' := by
    intro done src rest s hsplit h
    have hsrc := hlt done src rest hsplit
    have hinner : ∀ seen dst rest s, List.range numLocal = seen ++ dst :: rest →
        Copied oldIndices newIndices numLocal r weights
          (fun a b => a ∈ done ∧ b < numLocal ∨ a = src ∧ b ∈ seen) s →
        ∃ s', copyLocal numLocal r oldIndices newIndices weights src dst s = .ok s' ∧
          Copied oldIndices newIndices numLocal r weights
            (fun a b => a ∈ done ∧ b < numLocal ∨ a = src ∧ b ∈ seen ++ [dst]) s' := by
      intro seen dst rest s hsplit h
      obtain ⟨s', hrun, h'⟩ := h.step hold hnew hr hsrc (hlt seen dst rest hsplit)
      refine ⟨s', hrun, h'.mono fun a b => ?_⟩
      rw [hmemAppend]
      tauto
    obtain ⟨s', hrun, h'⟩ := foldlM_of_step hinner (h.mono fun a b => by simp)
    refine ⟨s', hrun, h'.mono fun a b => ?_⟩
    rw [hmemAppend, List.mem_range]
    tauto
  obtain ⟨s, hrun, h⟩ := foldlM_of_step (a := ⟨unchanged, buffer⟩) houter
    ⟨hlen, fun dst hdst => (hunchanged dst hdst).trans (by simp),
      fun dst hdst hu hrecv => absurd ((hunchanged dst hdst).mp hrecv) hu⟩
  exact ⟨s, hrun, h.mono fun a b => by simp⟩

end Copies

lemma isUnchanged_eq (hold : oldIndices.length = numRanks * numLocal)
    (hnew : newIndices.length = numRanks * numLocal) (hr : r < numRanks) :
    isUnchanged numLocal r oldIndices newIndices =
      .ok ((List.range numLocal).map fun i =>
        decide (expertAt oldIndices numLocal r i = expertAt newIndices numLocal r i)) :=
  mapM_range_of_forall fun i hi => by
    rw [pyIndex_expertAt hold hr hi, ok_bind, pyIndex_expertAt hnew hr hi, ok_bind]

/-- The loop names, for every expert of a selected slot, one such slot. -/
structure Located (sel : Nat → Prop) (expert : Nat → Int) (loc : Dict Int Nat) : Prop where
  sound : ∀ e i, loc.get? e = some i → sel i ∧ expert i = e
  found : ∀ i, sel i → (loc.get? (expert i)).isSome

lemma Located.mono {sel sel' : Nat → Prop} {expert : Nat → Int} {loc : Dict Int Nat}
    (h : Located sel expert loc) (hsel : ∀ i, sel' i ↔ sel i) : Located sel' expert loc where
  sound e i hi := by
    rw [hsel]
    exact h.sound e i hi
  found i hi := h.found i ((hsel i).mp hi)

/-- A pass that skips the slots outside `sel` and the experts already located. -/
lemma locate_spec {n : Nat} {sel : Nat → Prop} {expert : Nat → Int}
    {step : Dict Int Nat → Nat → Except PyError (Dict Int Nat)}
    (hskip : ∀ loc i, i < n → ¬ sel i → step loc i = .ok loc)
    (hstep : ∀ loc i, i < n → sel i → step loc i =
      if (loc.get? (expert i)).isSome then .ok loc else .ok (loc.set (expert i) i)) :
    ∃ loc, (List.range n).foldlM step Dict.empty = .ok loc ∧
      Located (fun i => i < n ∧ sel i) expert loc := by
  have hpass : ∀ done i rest loc, List.range n = done ++ i :: rest →
      Located (fun k => k ∈ done ∧ sel k) expert loc →
      ∃ loc', step loc i = .ok loc' ∧
        Located (fun k => k ∈ done ++ [i] ∧ sel k) expert loc' := by
    intro done i rest loc hsplit h
    have hi : i < n := by
      rw [← List.mem_range, hsplit]
      simp
    have hmem : ∀ k, k ∈ done ++ [i] ↔ k ∈ done ∨ k = i := fun k => by simp
    by_cases hsel : sel i
    · rw [hstep loc i hi hsel]
      by_cases hin : (loc.get? (expert i)).isSome
      · rw [if_pos hin]
        refine ⟨loc, rfl, fun e k hk => ?_, fun k hk => ?_⟩
        · obtain ⟨⟨hd, hs⟩, he⟩ := h.sound e k hk
          exact ⟨⟨(hmem k).mpr (Or.inl hd), hs⟩, he⟩
        · rcases (hmem k).mp hk.1 with hd | rfl
          · exact h.found k ⟨hd, hk.2⟩
          · exact hin
      · rw [if_neg hin]
        refine ⟨_, rfl, fun e k hk => ?_, fun k hk => ?_⟩
        · rw [Dict.get?_set] at hk
          split_ifs at hk with he
          · obtain rfl := Option.some.inj hk
            exact ⟨⟨(hmem _).mpr (Or.inr rfl), hsel⟩, he⟩
          · obtain ⟨⟨hd, hs⟩, he⟩ := h.sound e k hk
            exact ⟨⟨(hmem k).mpr (Or.inl hd), hs⟩, he⟩
        · rw [Dict.get?_set]
          split_ifs with he
          · rfl
          · rcases (hmem k).mp hk.1 with hd | rfl
            · exact h.found k ⟨hd, hk.2⟩
            · exact absurd rfl he
    · rw [hskip loc i hi hsel]
      refine ⟨loc, rfl, h.mono fun k => ?_⟩
      rw [hmem]
      constructor
      · rintro ⟨hd | rfl, hs⟩
        · exact ⟨hd, hs⟩
        · exact absurd hs hsel
      · rintro ⟨hd, hs⟩
        exact ⟨Or.inl hd, hs⟩
  obtain ⟨loc, hrun, h⟩ := foldlM_of_step (a := Dict.empty) hpass ⟨by simp, by simp⟩
  exact ⟨loc, hrun, h.mono fun i => by simp⟩

lemma expertsSendLoc_spec (hold : oldIndices.length = numRanks * numLocal) (hr : r < numRanks) :
    ∃ loc, expertsSendLoc numLocal r oldIndices = .ok loc ∧
      Located (fun i => i < numLocal ∧ expertAt oldIndices numLocal r i ≠ -1)
        (expertAt oldIndices numLocal r) loc := by
  refine locate_spec ?_ ?_
  · intro loc i hi hsel
    rw [pyIndex_expertAt hold hr hi, ok_bind, if_pos (not_not.mp hsel)]
  · intro loc i hi hsel
    rw [pyIndex_expertAt hold hr hi, ok_bind, if_neg hsel]

lemma expertsRecvLoc_spec (hnew : newIndices.length = numRanks * numLocal) (hr : r < numRanks)
    {received : List Bool} (hlen : received.length = numLocal) :
    ∃ loc, expertsRecvLoc numLocal r newIndices received = .ok loc ∧
      Located (fun i => i < numLocal ∧ received.getD i false = false ∧
        expertAt newIndices numLocal r i ≠ -1) (expertAt newIndices numLocal r) loc := by
  refine locate_spec ?_ ?_
  · intro loc i hi hsel
    rw [pyIndex_getD (d := false) (hlen ▸ hi), ok_bind]
    by_cases hrecv : received.getD i false = true
    · rw [if_pos hrecv]
    · have hneg : expertAt newIndices numLocal r i = -1 := by
        by_contra h
        exact hsel ⟨by simpa using hrecv, h⟩
      rw [if_neg hrecv, pyIndex_expertAt hnew hr hi, ok_bind, if_pos hneg]
  · intro loc i hi hsel
    rw [pyIndex_getD (d := false) (hlen ▸ hi), ok_bind, hsel.1, if_neg (by simp),
      pyIndex_expertAt hnew hr hi, ok_bind, if_neg hsel.2]

end Eplb
