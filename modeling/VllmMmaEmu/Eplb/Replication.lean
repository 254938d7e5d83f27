import Mathlib.Data.List.MinMax
import VllmMmaEmu.Eplb.Packing
import VllmMmaEmu.Library.Apportionment

/-!
# Replication minimises the greatest load

With loads that divide exactly and a maximum that is one, whichever of several is taken,
`replicate_experts` hands out its replicas greedily.
-/

namespace Eplb

open Python Torch Numbering Apportionment

/-- Rational loads: division is exact and `max` finds a greatest one. -/
structure ExactOps (T : FloatOps ℚ) : Prop where
  div_eq : ∀ w c, T.div w c = w / c
  argmax_max : ∀ (ws : List ℚ) (i : Nat), i < ws.length → ws.getD i 0 ≤ ws.getD (T.argmax ws) 0

variable {T : FloatOps ℚ} {w : List ℚ} {n numPhy : Nat}

/-- The replicas of a row so far were handed out greedily. -/
structure GreedyRow (w : List ℚ) (s : Replicas) (cnt : Nat → Nat) : Prop where
  logcnt : s.logcnt = (List.range w.length).map fun e => (cnt e : Int)
  pos : ∀ e ∈ Finset.range w.length, 0 < cnt e
  greedy : Greedy (Finset.range w.length) (fun e => w.getD e 0) cnt

lemma getD_zipWith_div (hT : ExactOps T) {s : Replicas} {cnt : Nat → Nat}
    (hlog : s.logcnt = (List.range w.length).map fun e => (cnt e : Int)) {e : Nat}
    (he : e < w.length) :
    (List.zipWith T.div w s.logcnt).getD e 0 = share (fun e => w.getD e 0) cnt e := by
  simp [hlog, List.getD_eq_getElem?_getD, he, hT.div_eq, share]

lemma GreedyRow.add (hT : ExactOps T) (hw : ∀ x ∈ w, 0 ≤ x) {s s' : Replicas} {cnt : Nat → Nat}
    {i : Nat} (h : GreedyRow w s cnt) (hrun : addReplica T w s i = .ok s') :
    ∃ cnt', GreedyRow w s' cnt' := by
  unfold addReplica at hrun
  split_ifs at hrun with hempty
  obtain rfl := Except.ok.inj hrun
  have hlen : (List.zipWith T.div w s.logcnt).length = w.length := by simp [h.logcnt]
  have hne : w ≠ [] := by simpa using hempty
  have hm : T.argmax (List.zipWith T.div w s.logcnt) < w.length := by
    rw [← hlen]
    refine T.argmax_lt _ ?_
    rw [← List.length_pos_iff, hlen]
    exact List.length_pos_iff.mpr hne
  generalize hargmax : T.argmax (List.zipWith T.div w s.logcnt) = m at hm
  have hmax : ∀ e ∈ Finset.range w.length,
      share (fun e => w.getD e 0) cnt e ≤ share (fun e => w.getD e 0) cnt m := by
    intro e he
    have he := Finset.mem_range.mp he
    have hle := hT.argmax_max (List.zipWith T.div w s.logcnt) e (hlen ▸ he)
    rwa [hargmax, getD_zipWith_div hT h.logcnt he, getD_zipWith_div hT h.logcnt hm] at hle
  have hweight : ∀ e ∈ Finset.range w.length, 0 ≤ w.getD e 0 := by
    intro e he
    rw [List.getD_eq_getElem _ 0 (Finset.mem_range.mp he)]
    exact hw _ (List.getElem_mem _)
  refine ⟨Function.update cnt m (cnt m + 1), ?_, ?_, h.greedy.add hweight h.pos hmax⟩
  · rw [Replicas.add, h.logcnt, getD_map_range hm, set_map_range]
    refine List.map_congr_left fun k _ => ?_
    by_cases hk : k = m
    · subst hk
      simp
    · simp [Function.update_of_ne hk]
  · intro e he
    by_cases hem : e = m
    · simp [hem]
    · rw [Function.update_of_ne hem]
      exact h.pos e he

lemma replicateRow_greedy (hT : ExactOps T) (hw : ∀ x ∈ w, 0 ≤ x) {s : Replicas}
    (hrun : replicateRow T w numPhy = .ok s) : ∃ cnt, GreedyRow w s cnt := by
  refine foldlM_invariant (P := fun s => ∃ cnt, GreedyRow w s cnt) ?_ ⟨fun _ => 1, ?_⟩ hrun
  · rintro i _ b b' ⟨cnt, h⟩ hb
    exact h.add hT hw hb
  · exact ⟨by simp [List.map_const'], fun _ _ => Nat.one_pos, greedy_one⟩

lemma ofFn_row_getD {rows : Nat} (f : Nat → Nat → ℚ) {i e : Nat} (hi : i < rows) (he : e < n) :
    ((Tensor.ofFn rows n f).row i).getD e 0 = f i e := by
  rw [Tensor.row, Tensor.ofFn_cols, getD_map_range he, Tensor.get_ofFn hi he]

lemma greedy_of_row (hT : ExactOps T) {rows : Nat} {f : Nat → Nat → ℚ} {i : Nat} (hi : i < rows)
    (hf : ∀ e < n, 0 ≤ f i e) {s : Replicas} {label rank cnt : Nat → Nat}
    (hrun : replicateRow T ((Tensor.ofFn rows n f).row i) numPhy = .ok s)
    (h : Replicated n numPhy numPhy s label rank cnt) :
    Greedy (Finset.range n) (f i) cnt := by
  have hlen : ((Tensor.ofFn rows n f).row i).length = n := by simp [Tensor.row]
  have hnonneg : ∀ x ∈ (Tensor.ofFn rows n f).row i, 0 ≤ x := by
    intro x hx
    obtain ⟨e, he, rfl⟩ := List.mem_map.mp hx
    have he : e < n := List.mem_range.mp he
    rw [Tensor.get_ofFn hi he]
    exact hf e he
  obtain ⟨cnt', hlog, -, hgreedy⟩ := replicateRow_greedy hT hnonneg hrun
  rw [hlen] at hlog hgreedy
  refine hgreedy.congr (fun e he => ofFn_row_getD f hi (Finset.mem_range.mp he)) fun e he => ?_
  have hsame := congrArg (·.getD e 0) (hlog.symm.trans h.logcnt)
  simp only [getD_map_range (Finset.mem_range.mp he)] at hsame
  exact Int.ofNat_inj.mp hsame

/-- The counts minimise the greatest load of a replica among all allocations, and the replicas
of an expert have the ranks below its count. -/
structure OptimalRow (n numPhy : Nat) (w : Nat → ℚ) (label rank cnt : Nat → Nat) : Prop where
  alloc : IsAllocation (Finset.range n) numPhy cnt
  least : ∀ counts, IsAllocation (Finset.range n) numPhy counts →
    maxShare (Finset.range n) w cnt ≤ maxShare (Finset.range n) w counts
  ranks : ∀ e < n, Set.BijOn rank {p | p ∈ Finset.range numPhy ∧ label p = e} (Set.Iio (cnt e))

/-- Unless no allocation exists, replication succeeds and is optimal in every row. -/
theorem replicateExperts_optimal (hT : ExactOps T) (rows : Nat) (hle : n ≤ numPhy)
    (f : Nat → Nat → ℚ) (hf : ∀ i < rows, ∀ e < n, 0 ≤ f i e) :
    (∀ counts, ¬ IsAllocation (Finset.range n) numPhy counts) ∨
    ∃ label rank cnt : Nat → Nat → Nat, replicateExperts T (Tensor.ofFn rows n f) numPhy =
        .ok (Tensor.ofFn rows numPhy fun i p => (label i p : Int),
          Tensor.ofFn rows numPhy fun i p => (rank i p : Int),
          Tensor.ofFn rows n fun i e => (cnt i e : Int)) ∧
      ∀ i < rows, OptimalRow n numPhy (f i) (label i) (rank i) (cnt i) := by
  by_cases hnone : n = 0 ∧ 0 < numPhy
  · left
    intro counts h
    have hsum := h.sum
    rw [hnone.1, Finset.range_zero, Finset.sum_empty] at hsum
    omega
  · right
    have hrow : ∀ i, ∃ s label rank cnt,
        replicateRow T ((Tensor.ofFn rows n f).row i) numPhy = .ok s ∧
        Replicated n numPhy numPhy s label rank cnt := by
      intro i
      rcases Nat.eq_zero_or_pos n with rfl | hn
      · obtain rfl : numPhy = 0 := by omega
        exact ⟨_, _, _, _, rfl, Replicated.start le_rfl⟩
      · exact replicateRow_ofFn rows hn hle f i
    choose s label rank cnt hrun h using hrow
    refine ⟨label, rank, cnt, replicateExperts_of_rows hle hrun h, fun i hi => ?_⟩
    have hgreedy := greedy_of_row hT hi (hf i hi) (hrun i) (h i)
    have halloc : IsAllocation (Finset.range n) numPhy (cnt i) :=
      ⟨fun e he => (h i).pos e (Finset.mem_range.mp he),
        (h i).exact.sum_cnt.trans (Finset.card_range numPhy)⟩
    refine ⟨halloc, fun counts hcounts => ?_, fun e he => ?_⟩
    · exact hgreedy.maxShare_le (fun e he => hf i hi e (Finset.mem_range.mp he)) halloc hcounts
    · exact (h i).exact.bijOn_rank (Finset.mem_range.mpr he)

/-- Exact loads; the first of several greatest ones is taken. -/
def rationalOps : FloatOps ℚ where
  zero := 0
  add := (· + ·)
  div w c := w / c
  sum := List.sum
  lt x y := x < y
  sortIndices ws := (List.range ws.length).mergeSort fun i j => ws.getD j 0 ≤ ws.getD i 0
  argmax ws := ((List.range ws.length).argmax fun i => ws.getD i 0).getD 0
  empty _ _ := 0
  sortIndices_perm ws := List.mergeSort_perm _ _
  argmax_lt ws hne := by
    cases h : (List.range ws.length).argmax fun i => ws.getD i 0 with
    | none => exact absurd (List.argmax_eq_none.mp h) (by simpa using hne)
    | some m => exact List.mem_range.mp (List.argmax_mem h)

lemma rationalOps_exact : ExactOps rationalOps where
  div_eq _ _ := rfl
  argmax_max ws i hi := by
    change ws.getD i 0 ≤ ws.getD (((List.range ws.length).argmax fun i => ws.getD i 0).getD 0) 0
    cases h : (List.range ws.length).argmax fun i => ws.getD i 0 with
    | none =>
      rw [List.argmax_eq_none, List.range_eq_nil] at h
      omega
    | some m => exact List.le_of_mem_argmax (List.mem_range.mpr hi) h

/-- Two experts with loads 3 and 1 on five places. -/
theorem replicateExperts_optimal_two_experts :
    (∀ counts, ¬ IsAllocation (Finset.range 2) 5 counts) ∨
    ∃ label rank cnt : Nat → Nat → Nat,
      replicateExperts rationalOps (Tensor.ofFn 1 2 fun _ e => if e = 0 then 3 else 1) 5 =
        .ok (Tensor.ofFn 1 5 fun i p => (label i p : Int),
          Tensor.ofFn 1 5 fun i p => (rank i p : Int),
          Tensor.ofFn 1 2 fun i e => (cnt i e : Int)) ∧
      ∀ i < 1, OptimalRow 2 5 (fun e => if e = 0 then 3 else 1) (label i) (rank i) (cnt i) :=
  replicateExperts_optimal rationalOps_exact 1 (by decide) (fun _ e => if e = 0 then 3 else 1)
    fun _ _ e _ => by split_ifs <;> decide

end Eplb
