import VllmMmaEmu.Eplb.ShuffleSteps

/-!
# Every weight arrives

What a rank posts to send to another is, expert by expert in increasing order, what the other
posts to receive from it. So the batch completes, and each slot ends with its new expert.
-/

namespace Eplb

open Python Fanout

variable {V β : Type} {numRanks numLocal numTensors r : Nat} {oldIndices newIndices : List Int}

section SortedItems

variable {loc : Dict Int Nat}

lemma mem_sortedItems {e : Int} {i : Nat} : (e, i) ∈ sortedItems loc ↔ loc.get? e = some i := by
  rw [sortedItems, List.mem_mergeSort, Dict.get?_eq_some_iff]

lemma sortedItems_increasing : ((sortedItems loc).map Prod.fst).Pairwise (· < ·) := by
  have hsorted : (sortedItems loc).Pairwise fun a b => itemLe a b = true := by
    refine List.pairwise_mergeSort ?_ ?_ _
    · intro a b c hab hbc
      simp only [itemLe, decide_eq_true_eq] at hab hbc ⊢
      omega
    · intro a b
      simp only [itemLe, Bool.or_eq_true, decide_eq_true_eq]
      omega
  have hkeys : ((sortedItems loc).map Prod.fst).Nodup :=
    ((List.mergeSort_perm loc.entries itemLe).map Prod.fst).nodup_iff.mpr loc.nodup
  rw [List.pairwise_map]
  refine (hsorted.and (List.pairwise_map.mp hkeys)).imp ?_
  intro a b h
  obtain ⟨hle, hne⟩ := h
  simp only [itemLe, decide_eq_true_eq] at hle
  omega

lemma mem_sortedItems_keys {e : Int} :
    e ∈ (sortedItems loc).map Prod.fst ↔ (loc.get? e).isSome := by
  rw [List.mem_map, Option.isSome_iff_exists]
  constructor
  · rintro ⟨⟨a, i⟩, h, rfl⟩
    exact ⟨i, mem_sortedItems.mp h⟩
  · rintro ⟨i, h⟩
    exact ⟨(e, i), mem_sortedItems.mpr h, rfl⟩

end SortedItems

/-- The receivers of `e` that rank `r` serves. -/
def receivers (numRanks numLocal : Nat) (oldIndices newIndices : List Int) (e : Int) (r : Nat) :
    List Nat :=
  receiversOf (sendRanks numRanks numLocal oldIndices e)
    (recvRanks numRanks numLocal oldIndices newIndices e) r

/-- The rank that serves `e` to rank `r`. -/
def sender (numRanks numLocal : Nat) (oldIndices newIndices : List Int) (e : Int) (r : Nat) :
    Option Nat :=
  senderOf (sendRanks numRanks numLocal oldIndices e)
    (recvRanks numRanks numLocal oldIndices newIndices e) r

/-- The operations of rank `r`, one block for each expert to send and to receive. -/
def postedOps (numRanks numLocal numTensors : Nat) (oldIndices newIndices : List Int) (r : Nat)
    (sendLoc recvLoc : Dict Int Nat) : List P2POp :=
  ((sortedItems sendLoc).flatMap fun p =>
    (receivers numRanks numLocal oldIndices newIndices p.1 r).flatMap fun dst =>
      (List.range numTensors).map fun tensor => .isend tensor p.2 dst) ++
  (sortedItems recvLoc).flatMap fun p =>
    (sender numRanks numLocal oldIndices newIndices p.1 r).elim [] fun src =>
      (List.range numTensors).map fun tensor => .irecv tensor p.2 src

/-- Rank `r` has done its steps 0 to 3. -/
structure Posting (numRanks numLocal numTensors : Nat) (oldIndices newIndices : List Int)
    (r : Nat) (weights : Memory V) (posted : Posted V) (sendLoc : Dict Int Nat) : Prop where
  unchanged : posted.unchanged = (List.range numLocal).map fun i =>
    decide (expertAt oldIndices numLocal r i = expertAt newIndices numLocal r i)
  copied : Copied oldIndices newIndices numLocal r weights
    (fun src dst => src < numLocal ∧ dst < numLocal) ⟨posted.isReceivedLocally, posted.buffer⟩
  sends : Located (fun i => i < numLocal ∧ expertAt oldIndices numLocal r i ≠ -1)
    (expertAt oldIndices numLocal r) sendLoc
  recvs : Located (fun i => i < numLocal ∧ posted.isReceivedLocally.getD i false = false ∧
    expertAt newIndices numLocal r i ≠ -1) (expertAt newIndices numLocal r) posted.recvLoc
  ops : posted.ops =
    postedOps numRanks numLocal numTensors oldIndices newIndices r sendLoc posted.recvLoc

section Posting

variable (hold : oldIndices.length = numRanks * numLocal)
  (hnew : newIndices.length = numRanks * numLocal)
  (hmem : ∀ e ∈ newIndices, e ≠ -1 → e ∈ oldIndices)

include hold hnew hmem

/-- An expert of a slot is held by some rank before the exchange. -/
lemma sendRanks_ne_nil {i : Nat} (hr : r < numRanks) (hi : i < numLocal)
    (hne : expertAt newIndices numLocal r i ≠ -1) :
    sendRanks numRanks numLocal oldIndices (expertAt newIndices numLocal r i) ≠ [] := by
  have hget := pyIndex_eq_ok.mp (pyIndex_expertAt hnew hr hi)
  obtain ⟨k, hk⟩ := List.getElem?_of_mem (hmem _ (List.mem_of_getElem? hget) hne)
  exact List.ne_nil_of_mem (mem_sendRanks.mpr ((holds_iff hold).mpr ⟨k, hk, rfl⟩))

omit hold hnew hmem in
/-- A slot that is not received locally waits for an expert that its rank does not hold. -/
lemma mem_recvRanks_of_pending {weights : Memory V} {s : LocalCopies V}
    (h : Copied oldIndices newIndices numLocal r weights
      (fun src dst => src < numLocal ∧ dst < numLocal) s) {i : Nat} (hr : r < numRanks)
    (hi : i < numLocal) (hpending : s.isReceivedLocally.getD i false = false)
    (hne : expertAt newIndices numLocal r i ≠ -1) :
    r ∈ recvRanks numRanks numLocal oldIndices newIndices (expertAt newIndices numLocal r i) := by
  refine mem_recvRanks.mpr ⟨hr, ⟨i, hi, rfl⟩, ?_⟩
  rintro ⟨src, hsrc, heq⟩
  have hrecv := (h.received i hi).mpr (Or.inr ⟨src, ⟨hsrc, hi⟩, heq ▸ hne, heq⟩)
  rw [hrecv] at hpending
  exact Bool.noConfusion hpending

lemma postShuffle_spec (numTensors : Nat) (hr : r < numRanks) (weights buffer : Memory V) :
    ∃ posted sendLoc, postShuffle numLocal r numTensors oldIndices newIndices weights buffer =
        .ok posted ∧
      Posting numRanks numLocal numTensors oldIndices newIndices r weights posted sendLoc := by
  have hlen : ((List.range numLocal).map fun i =>
      decide (expertAt oldIndices numLocal r i = expertAt newIndices numLocal r i)).length =
      numLocal := by simp
  obtain ⟨copies, hcopies, hcopied⟩ := copyLocals_spec hold hnew hr weights buffer hlen
    (fun i hi => by simp [List.getD_eq_getElem?_getD, hi, Unchanged])
  obtain ⟨sendLoc, hsendLoc, hsends⟩ := expertsSendLoc_spec hold hr
  obtain ⟨recvLoc, hrecvLoc, hrecvs⟩ := expertsRecvLoc_spec hnew hr hcopied.length
  have hsendsOf : ∀ p ∈ sortedItems sendLoc,
      sendsOf numLocal r numTensors oldIndices newIndices p.1 p.2 =
        .ok ((receivers numRanks numLocal oldIndices newIndices p.1 r).flatMap fun dst =>
          (List.range numTensors).map fun tensor => .isend tensor p.2 dst) := by
    rintro ⟨e, i⟩ hp
    obtain ⟨⟨hi, -⟩, he⟩ := hsends.sound e i (mem_sortedItems.mp hp)
    have hmemS : r ∈ sendRanks numRanks numLocal oldIndices e := mem_sendRanks.mpr ⟨hr, i, hi, he⟩
    rw [sendsOf, getEpRanksWithExpert_eq hold hnew, ok_bind]
    simp only
    rw [recvRanksOf_eq hmemS, ok_bind, receivers]
  have hrecvsOf : ∀ p ∈ sortedItems recvLoc,
      recvsOf numLocal r numTensors oldIndices newIndices p.1 p.2 =
        .ok ((sender numRanks numLocal oldIndices newIndices p.1 r).elim [] fun src =>
          (List.range numTensors).map fun tensor => .irecv tensor p.2 src) := by
    rintro ⟨e, i⟩ hp
    obtain ⟨⟨hi, hpending, hne⟩, rfl⟩ := hrecvs.sound e i (mem_sortedItems.mp hp)
    have hmemR := mem_recvRanks_of_pending hcopied hr hi hpending hne
    have hS := sendRanks_ne_nil hold hnew hmem hr hi hne
    obtain ⟨s, -, hs⟩ := senderOf_mem hS hmemR
    rw [recvsOf, getEpRanksWithExpert_eq hold hnew, ok_bind]
    simp only
    rw [sendRankOf_eq hS hmemR hs, ok_bind, sender, hs]
    rfl
  refine ⟨{
      unchanged := (List.range numLocal).map fun i =>
        decide (expertAt oldIndices numLocal r i = expertAt newIndices numLocal r i)
      isReceivedLocally := copies.isReceivedLocally
      recvLoc
      buffer := copies.buffer
      ops := postedOps numRanks numLocal numTensors oldIndices newIndices r sendLoc recvLoc },
    sendLoc, ?_, rfl, hcopied, hsends, hrecvs, rfl⟩
  rw [postShuffle, isUnchanged_eq hold hnew hr, ok_bind, hcopies, ok_bind, hsendLoc, ok_bind,
    mapM_of_forall hsendsOf, ok_bind, hrecvLoc, ok_bind, mapM_of_forall hrecvsOf, ok_bind]
  simp only [postedOps, List.flatMap_def]

end Posting

/-- What a rank posts to receive from rank `src`, in order. -/
def receivedFrom (ops : List P2POp) (row : Memory β) (src : Nat) : List β :=
  ops.filterMap fun
    | .irecv tensor slot peer => if peer = src then some (row slot tensor) else none
    | .isend .. => none

lemma flatMap_ite_nodup {α : Type} [DecidableEq α] {l : List α} (hl : l.Nodup) (a : α)
    (c : List β) : (l.flatMap fun x => if x = a then c else []) = if a ∈ l then c else [] := by
  induction l with
  | nil => rfl
  | cons x l ih =>
    obtain ⟨hx, hl⟩ := List.nodup_cons.mp hl
    rw [List.flatMap_cons, ih hl]
    by_cases hxa : x = a
    · subst hxa
      simp [hx]
    · simp [hxa, Ne.symm hxa]

lemma sentTo_sendBlock {dsts : List Nat} (hdsts : dsts.Nodup) (row : Memory β) (slot d : Nat) :
    sentTo (dsts.flatMap fun dst =>
      (List.range numTensors).map fun tensor => .isend tensor slot dst) row d =
      if d ∈ dsts then (List.range numTensors).map (row slot) else [] := by
  rw [sentTo, List.filterMap_flatMap, ← flatMap_ite_nodup hdsts]
  refine congrArg (fun g => dsts.flatMap g) (funext fun dst => ?_)
  rw [List.filterMap_map]
  by_cases h : dst = d
  · simp [h, List.filterMap_eq_map']
  · simp [h]

lemma receivedFrom_recvBlock (o : Option Nat) (row : Memory β) (slot s : Nat) :
    receivedFrom (o.elim [] fun src =>
      (List.range numTensors).map fun tensor => .irecv tensor slot src) row s =
      if o = some s then (List.range numTensors).map (row slot) else [] := by
  cases o with
  | none => rfl
  | some src =>
    rw [receivedFrom, Option.elim_some, List.filterMap_map]
    by_cases h : src = s
    · simp [h, List.filterMap_eq_map']
    · simp [h]

lemma flatMap_items {loc : Dict Int Nat} {p : Int → Bool} {g : Int → List β}
    {block : Int × Nat → List β} (h : ∀ e i, loc.get? e = some i → block (e, i) =
      if p e then g e else []) :
    (sortedItems loc).flatMap block = (((sortedItems loc).map Prod.fst).filter p).flatMap g := by
  have hall : ∀ l : List (Int × Nat), (∀ x ∈ l, block x = if p x.1 then g x.1 else []) →
      l.flatMap block = ((l.map Prod.fst).filter p).flatMap g := by
    intro l
    induction l with
    | nil => exact fun _ => rfl
    | cons x l ih =>
      intro hl
      rw [List.flatMap_cons, hl x List.mem_cons_self, ih fun y hy => hl y (List.mem_cons_of_mem _ hy),
        List.map_cons, List.filter_cons]
      split_ifs <;> simp
  exact hall _ fun ⟨e, i⟩ hx => h e i (mem_sortedItems.mp hx)

section Traffic

variable {weights : Memory V} {posted : Posted V} {sendLoc : Dict Int Nat} {row : Memory β}
  {f : Int → Nat → β} {s d : Nat}

lemma Posting.sentTo_eq
    (h : Posting numRanks numLocal numTensors oldIndices newIndices s weights posted sendLoc)
    (hs : s < numRanks) (hrow : ∀ i < numLocal, expertAt oldIndices numLocal s i ≠ -1 →
      ∀ t < numTensors, row i t = f (expertAt oldIndices numLocal s i) t) :
    sentTo posted.ops row d = (((sortedItems sendLoc).map Prod.fst).filter fun e =>
        d ∈ receivers numRanks numLocal oldIndices newIndices e s).flatMap
      fun e => (List.range numTensors).map (f e) := by
  have hrecv : sentTo ((sortedItems posted.recvLoc).flatMap fun p =>
      (sender numRanks numLocal oldIndices newIndices p.1 s).elim [] fun src =>
        (List.range numTensors).map fun tensor => .irecv tensor p.2 src) row d = [] := by
    rw [sentTo, List.filterMap_eq_nil_iff]
    intro op hop
    obtain ⟨p, -, hop⟩ := List.mem_flatMap.mp hop
    cases hsender : sender numRanks numLocal oldIndices newIndices p.1 s with
    | none => simp [hsender] at hop
    | some src =>
      rw [hsender, Option.elim_some] at hop
      obtain ⟨t, -, rfl⟩ := List.mem_map.mp hop
      rfl
  rw [h.ops, postedOps, sentTo, List.filterMap_append, ← sentTo, ← sentTo, hrecv, List.append_nil,
    sentTo, List.filterMap_flatMap]
  refine flatMap_items fun e i hi => ?_
  obtain ⟨⟨hlt, hne⟩, rfl⟩ := h.sends.sound e i hi
  have hmem : s ∈ sendRanks numRanks numLocal oldIndices (expertAt oldIndices numLocal s i) :=
    mem_sendRanks.mpr ⟨hs, i, hlt, rfl⟩
  rw [← sentTo, receivers, sentTo_sendBlock (receiversOf_nodup (recvRanks_nodup _) hmem)]
  have hrows : (List.range numTensors).map (row i) =
      (List.range numTensors).map (f (expertAt oldIndices numLocal s i)) :=
    List.map_congr_left fun t ht => hrow i hlt hne t (List.mem_range.mp ht)
  rw [hrows]
  simp

lemma Posting.receivedFrom_eq
    (h : Posting numRanks numLocal numTensors oldIndices newIndices d weights posted sendLoc)
    (hrow : ∀ i < numLocal, expertAt newIndices numLocal d i ≠ -1 →
      ∀ t < numTensors, row i t = f (expertAt newIndices numLocal d i) t) :
    receivedFrom posted.ops row s = (((sortedItems posted.recvLoc).map Prod.fst).filter fun e =>
        sender numRanks numLocal oldIndices newIndices e d = some s).flatMap
      fun e => (List.range numTensors).map (f e) := by
  have hsend : receivedFrom ((sortedItems sendLoc).flatMap fun p =>
      (receivers numRanks numLocal oldIndices newIndices p.1 d).flatMap fun dst =>
        (List.range numTensors).map fun tensor => .isend tensor p.2 dst) row s = [] := by
    rw [receivedFrom, List.filterMap_eq_nil_iff]
    intro op hop
    obtain ⟨p, -, hop⟩ := List.mem_flatMap.mp hop
    obtain ⟨dst, -, hop⟩ := List.mem_flatMap.mp hop
    obtain ⟨t, -, rfl⟩ := List.mem_map.mp hop
    rfl
  rw [h.ops, postedOps, receivedFrom, List.filterMap_append, ← receivedFrom, ← receivedFrom, hsend,
    List.nil_append, receivedFrom, List.filterMap_flatMap]
  refine flatMap_items fun e i hi => ?_
  obtain ⟨⟨hlt, -, hne⟩, rfl⟩ := h.recvs.sound e i hi
  rw [← receivedFrom, receivedFrom_recvBlock]
  have hrows : (List.range numTensors).map (row i) =
      (List.range numTensors).map (f (expertAt newIndices numLocal d i)) :=
    List.map_congr_left fun t ht => hrow i hlt hne t (List.mem_range.mp ht)
  rw [hrows]
  simp

lemma Posting.keys_eq {weights' : Memory V} {posted' : Posted V} {sendLoc' : Dict Int Nat}
    (h : Posting numRanks numLocal numTensors oldIndices newIndices s weights posted sendLoc)
    (h' : Posting numRanks numLocal numTensors oldIndices newIndices d weights' posted' sendLoc')
    (hs : s < numRanks) (hd : d < numRanks) :
    (((sortedItems sendLoc).map Prod.fst).filter fun e =>
        d ∈ receivers numRanks numLocal oldIndices newIndices e s) =
      ((sortedItems posted'.recvLoc).map Prod.fst).filter fun e =>
        sender numRanks numLocal oldIndices newIndices e d = some s := by
  have hserves : ∀ e, s ∈ sendRanks numRanks numLocal oldIndices e →
      (d ∈ receivers numRanks numLocal oldIndices newIndices e s ↔
        d ∈ recvRanks numRanks numLocal oldIndices newIndices e ∧
          sender numRanks numLocal oldIndices newIndices e d = some s) :=
    fun e he => mem_receiversOf (sendRanks_nodup e) (recvRanks_nodup e) he
  refine eq_of_increasing (sortedItems_increasing.filter _) (sortedItems_increasing.filter _)
    fun e => ?_
  simp only [List.mem_filter, mem_sortedItems_keys, decide_eq_true_eq, Option.isSome_iff_exists]
  constructor
  · rintro ⟨⟨i, hi⟩, hserve⟩
    obtain ⟨⟨hlt, hne⟩, he⟩ := h.sends.sound e i hi
    have hmem := mem_sendRanks.mpr ⟨hs, i, hlt, he⟩
    obtain ⟨hrecv, hsender⟩ := (hserves e hmem).mp hserve
    obtain ⟨-, ⟨k, hk, rfl⟩, hnot⟩ := mem_recvRanks.mp hrecv
    refine ⟨Option.isSome_iff_exists.mp (h'.recvs.found k ⟨hk, ?_, he ▸ hne⟩), hsender⟩
    -- the rank does not hold the expert, so the slot is neither unchanged nor copied
    by_contra hrecv
    rw [Bool.not_eq_false] at hrecv
    rcases (h'.copied.received k hk).mp hrecv with hu | ⟨src, ⟨hsrc, -⟩, -, heq⟩
    · exact hnot ⟨k, hk, hu⟩
    · exact hnot ⟨src, hsrc, heq⟩
  · rintro ⟨⟨i, hi⟩, hsender⟩
    obtain ⟨⟨hlt, hpending, hne⟩, rfl⟩ := h'.recvs.sound e i hi
    have hrecv := mem_recvRanks_of_pending h'.copied hd hlt hpending hne
    have hmem : s ∈ sendRanks numRanks numLocal oldIndices (expertAt newIndices numLocal d i) :=
      List.mem_of_getElem? hsender
    obtain ⟨-, k, hk, he⟩ := mem_sendRanks.mp hmem
    have hfound := h.sends.found k ⟨hk, he ▸ hne⟩
    rw [he] at hfound
    exact ⟨Option.isSome_iff_exists.mp hfound, (hserves _ hmem).mpr ⟨hrecv, hsender⟩⟩

end Traffic

/-- When every sender's queue holds what the receives ask of it, each receive gets its row. -/
lemma receiveAll_spec {ops : List P2POp} {q : Nat → List V} {b row : Memory V}
    {S : Nat → Prop} (hpeers : ∀ t slot src, .irecv t slot src ∈ ops → S src)
    (hqueues : ∀ src, S src → q src = receivedFrom ops row src) :
    ∃ b' q', receiveAll ops q b = some (b', q') ∧
      (∀ src, S src → q' src = []) ∧
      (∀ slot t, (∃ src, .irecv t slot src ∈ ops) → b' slot t = row slot t) ∧
      ∀ slot t, (∀ src, .irecv t slot src ∉ ops) → b' slot t = b slot t := by
  induction ops generalizing q b with
  | nil => exact ⟨b, q, rfl, hqueues, by simp, fun _ _ _ => rfl⟩
  | cons op ops ih =>
    cases op with
    | isend t slot dst =>
      obtain ⟨b', q', hrun, hempty, hrecv, hkeep⟩ := ih (b := b)
        (fun t slot src h => hpeers t slot src (List.mem_cons_of_mem _ h)) hqueues
      exact ⟨b', q', hrun, hempty, by simpa using hrecv, by simpa using hkeep⟩
    | irecv t slot src =>
      have hqueue : q src = row slot t :: receivedFrom ops row src := by
        rw [hqueues src (hpeers t slot src List.mem_cons_self), receivedFrom,
          List.filterMap_cons_some (b := row slot t) (by simp)]
        rfl
      obtain ⟨b', q', hrun, hempty, hrecv, hkeep⟩ := ih
        (q := Function.update q src (receivedFrom ops row src))
        (b := Function.update b slot (Function.update (b slot) t (row slot t)))
        (fun t slot src h => hpeers t slot src (List.mem_cons_of_mem _ h)) (by
          intro peer hpeer
          by_cases hp : peer = src
          · subst hp
            exact Function.update_self ..
          · rw [Function.update_of_ne hp, hqueues peer hpeer, receivedFrom,
              List.filterMap_cons_none (by simp [Ne.symm hp])]
            rfl)
      refine ⟨b', q', ?_, hempty, ?_, ?_⟩
      · rw [receiveAll, hqueue]
        exact hrun
      · rintro slot' t' ⟨src', hmem⟩
        by_cases hlater : ∃ src', .irecv t' slot' src' ∈ ops
        · exact hrecv slot' t' hlater
        · rcases List.mem_cons.mp hmem with heq | hin
          · cases heq
            rw [hkeep _ _ fun src' h => hlater ⟨src', h⟩, Function.update_self,
              Function.update_self]
          · exact absurd ⟨src', hin⟩ hlater
      · intro slot' t' hno
        rw [hkeep slot' t' fun src' h => hno src' (List.mem_cons_of_mem _ h)]
        by_cases hslot : slot' = slot
        · subst hslot
          have ht : t' ≠ t := fun h => hno src (h ▸ List.mem_cons_self)
          rw [Function.update_self, Function.update_of_ne ht]
        · rw [Function.update_of_ne hslot]

section Run

variable {weights : Nat → Memory V} {posted : Nat → Posted V} {sendLoc : Nat → Dict Int Nat}
  {W : Int → Nat → V}

/-- The receives of a rank come from ranks, into slots that are not received locally. -/
lemma Posting.mem_ops {w : Memory V} {p : Posted V} {loc : Dict Int Nat} {t slot src : Nat}
    (h : Posting numRanks numLocal numTensors oldIndices newIndices r w p loc)
    (hop : .irecv t slot src ∈ p.ops) :
    src < numRanks ∧ slot < numLocal ∧ p.isReceivedLocally.getD slot false = false := by
  rw [h.ops, postedOps] at hop
  rcases List.mem_append.mp hop with hop | hop
  · obtain ⟨x, -, hop⟩ := List.mem_flatMap.mp hop
    obtain ⟨dst, -, hop⟩ := List.mem_flatMap.mp hop
    obtain ⟨k, -, hop⟩ := List.mem_map.mp hop
    cases hop
  · obtain ⟨⟨e, i⟩, hitem, hop⟩ := List.mem_flatMap.mp hop
    cases hsender : sender numRanks numLocal oldIndices newIndices e r with
    | none => simp [hsender] at hop
    | some s =>
      simp only [hsender, Option.elim_some] at hop
      obtain ⟨k, -, hop⟩ := List.mem_map.mp hop
      cases hop
      obtain ⟨⟨hi, hpending, -⟩, -⟩ := h.recvs.sound e slot (mem_sortedItems.mp hitem)
      exact ⟨(mem_sendRanks.mp (List.mem_of_getElem? hsender)).1, hi, hpending⟩

/-- The batch completes, with the expected row in every slot that is received into. -/
lemma exchange_spec
    (hposted : ∀ s < numRanks, Posting numRanks numLocal numTensors oldIndices newIndices s
      (weights s) (posted s) (sendLoc s))
    (hW : ∀ s < numRanks, ∀ i < numLocal, expertAt oldIndices numLocal s i ≠ -1 →
      ∀ t < numTensors, weights s i t = W (expertAt oldIndices numLocal s i) t)
    (hr : r < numRanks) :
    ∃ b, exchange numRanks posted weights r = some b ∧
      (∀ slot t, (∃ src, .irecv t slot src ∈ (posted r).ops) →
        b slot t = W (expertAt newIndices numLocal r slot) t) ∧
      ∀ slot t, (∀ src, .irecv t slot src ∉ (posted r).ops) → b slot t = (posted r).buffer slot t := by
  have hqueues : ∀ src, src < numRanks → sentTo (posted src).ops (weights src) r =
      receivedFrom (posted r).ops (fun slot t => W (expertAt newIndices numLocal r slot) t) src := by
    intro src hsrc
    rw [(hposted src hsrc).sentTo_eq hsrc (hW src hsrc),
      (hposted src hsrc).keys_eq (hposted r hr) hsrc hr]
    exact ((hposted r hr).receivedFrom_eq (f := W) fun _ _ _ _ _ => rfl).symm
  obtain ⟨b, q, hrun, hempty, hrecv, hkeep⟩ := receiveAll_spec (b := (posted r).buffer)
    (q := fun src => sentTo (posted src).ops (weights src) r)
    (fun t slot src hop => ((hposted r hr).mem_ops hop).1) hqueues
  refine ⟨b, ?_, hrecv, hkeep⟩
  rw [exchange, hrun]
  simp only
  rw [if_pos fun src hsrc => by rw [hempty src hsrc]; rfl]

lemma copyBackSlot_spec {w b m : Memory V} {p : Posted V} {loc : Dict Int Nat} {dst : Nat}
    (hnew : newIndices.length = numRanks * numLocal) (hr : r < numRanks)
    (h : Posting numRanks numLocal numTensors oldIndices newIndices r w p loc)
    (hsender : ∀ i < numLocal, p.isReceivedLocally.getD i false = false →
      expertAt newIndices numLocal r i ≠ -1 →
      ∃ src, sender numRanks numLocal oldIndices newIndices (expertAt newIndices numLocal r i) r =
        some src)
    (hW : ∀ i < numLocal, expertAt oldIndices numLocal r i ≠ -1 →
      ∀ t < numTensors, w i t = W (expertAt oldIndices numLocal r i) t)
    (hrecv : ∀ slot t, (∃ src, .irecv t slot src ∈ p.ops) →
      b slot t = W (expertAt newIndices numLocal r slot) t)
    (hkeep : ∀ slot t, (∀ src, .irecv t slot src ∉ p.ops) → b slot t = p.buffer slot t)
    (hdst : dst < numLocal) (hm : m dst = w dst) :
    ∃ m', copyBackSlot numLocal r newIndices p b m dst = .ok m' ∧
      (expertAt newIndices numLocal r dst ≠ -1 →
        ∀ t < numTensors, m' dst t = W (expertAt newIndices numLocal r dst) t) ∧
      ∀ i, i ≠ dst → m' i = m i := by
  have hunchanged : p.unchanged.getD dst false =
      decide (expertAt oldIndices numLocal r dst = expertAt newIndices numLocal r dst) := by
    rw [h.unchanged]
    simp [List.getD_eq_getElem?_getD, hdst]
  rw [copyBackSlot, pyIndex_getD (d := false) (by simpa [h.unchanged] using hdst), ok_bind,
    hunchanged]
  by_cases hu : expertAt oldIndices numLocal r dst = expertAt newIndices numLocal r dst
  · rw [if_pos (by simpa using hu)]
    refine ⟨m, rfl, fun hne t ht => ?_, fun _ _ => rfl⟩
    rw [hm, hW dst hdst (hu ▸ hne) t ht, hu]
  · rw [if_neg (by simpa using hu),
      pyIndex_getD (d := false) (by rw [h.copied.length]; exact hdst), ok_bind]
    by_cases hlocal : p.isReceivedLocally.getD dst false = true
    · rw [if_pos hlocal]
      refine ⟨_, rfl, fun hne t ht => ?_, fun i hi => Function.update_of_ne hi ..⟩
      obtain ⟨src, hsrc, ⟨-, heq⟩, hbuffer⟩ := h.copied.buffer dst hdst hu hlocal
      have hno : ∀ src, .irecv t dst src ∉ p.ops := by
        intro src hop
        have hpending := (h.mem_ops hop).2.2
        rw [hlocal] at hpending
        exact Bool.noConfusion hpending
      have hrow := hW src hsrc (heq ▸ hne) t ht
      rw [heq] at hrow
      rw [Function.update_self, hkeep dst t hno, ← hrow]
      exact congrFun hbuffer t
    · rw [if_neg hlocal, pyIndex_expertAt hnew hr hdst, ok_bind]
      by_cases hneg : expertAt newIndices numLocal r dst = -1
      · rw [if_pos hneg]
        exact ⟨m, rfl, fun hne => absurd hneg hne, fun _ _ => rfl⟩
      · rw [if_neg hneg]
        have hpending : p.isReceivedLocally.getD dst false = false := by simpa using hlocal
        obtain ⟨i, hi⟩ := Option.isSome_iff_exists.mp (h.recvs.found dst ⟨hdst, hpending, hneg⟩)
        rw [Dict.getItem_eq_ok.mpr hi, ok_bind]
        refine ⟨_, rfl, fun _ t ht => ?_, fun k hk => Function.update_of_ne hk ..⟩
        obtain ⟨src, hsrc⟩ := hsender dst hdst hpending hneg
        have hop : .irecv t i src ∈ p.ops := by
          rw [h.ops, postedOps]
          refine List.mem_append_right _ (List.mem_flatMap.mpr
            ⟨_, mem_sortedItems.mpr hi, ?_⟩)
          rw [hsrc]
          exact List.mem_map.mpr ⟨t, List.mem_range.mpr ht, rfl⟩
        obtain ⟨-, he⟩ := h.recvs.sound _ i hi
        rw [Function.update_self, hrecv i t ⟨src, hop⟩, he]

lemma copyBack_spec {w b : Memory V} {p : Posted V} {loc : Dict Int Nat}
    (hnew : newIndices.length = numRanks * numLocal) (hr : r < numRanks)
    (h : Posting numRanks numLocal numTensors oldIndices newIndices r w p loc)
    (hsender : ∀ i < numLocal, p.isReceivedLocally.getD i false = false →
      expertAt newIndices numLocal r i ≠ -1 →
      ∃ src, sender numRanks numLocal oldIndices newIndices (expertAt newIndices numLocal r i) r =
        some src)
    (hW : ∀ i < numLocal, expertAt oldIndices numLocal r i ≠ -1 →
      ∀ t < numTensors, w i t = W (expertAt oldIndices numLocal r i) t)
    (hrecv : ∀ slot t, (∃ src, .irecv t slot src ∈ p.ops) →
      b slot t = W (expertAt newIndices numLocal r slot) t)
    (hkeep : ∀ slot t, (∀ src, .irecv t slot src ∉ p.ops) → b slot t = p.buffer slot t) :
    ∃ w', copyBack numLocal r newIndices p w b = .ok w' ∧
      ∀ i < numLocal, expertAt newIndices numLocal r i ≠ -1 →
        ∀ t < numTensors, w' i t = W (expertAt newIndices numLocal r i) t := by
  have hlt : ∀ done x rest, List.range numLocal = done ++ x :: rest → x < numLocal ∧ x ∉ done := by
    intro done x rest hsplit
    have hnodup : (done ++ x :: rest).Nodup := hsplit ▸ List.nodup_range
    refine ⟨?_, fun hin => (List.nodup_append.mp hnodup).2.2 x hin x List.mem_cons_self rfl⟩
    rw [← List.mem_range, hsplit]
    simp
  have hpass : ∀ done dst rest (m : Memory V), List.range numLocal = done ++ dst :: rest →
      ((∀ i ∈ done, expertAt newIndices numLocal r i ≠ -1 →
          ∀ t < numTensors, m i t = W (expertAt newIndices numLocal r i) t) ∧
        ∀ i, i ∉ done → m i = w i) →
      ∃ m', copyBackSlot numLocal r newIndices p b m dst = .ok m' ∧
        (∀ i ∈ done ++ [dst], expertAt newIndices numLocal r i ≠ -1 →
          ∀ t < numTensors, m' i t = W (expertAt newIndices numLocal r i) t) ∧
        ∀ i, i ∉ done ++ [dst] → m' i = w i := by
    rintro done dst rest m hsplit ⟨hdone, hrest⟩
    obtain ⟨hdst, hfresh⟩ := hlt done dst rest hsplit
    obtain ⟨m', hrun, hrows, hothers⟩ :=
      copyBackSlot_spec hnew hr h hsender hW hrecv hkeep hdst (hrest dst hfresh)
    refine ⟨m', hrun, fun i hi => ?_, fun i hi => ?_⟩
    · by_cases hid : i = dst
      · subst hid
        exact hrows
      · rw [hothers i hid]
        exact hdone i (by simpa [hid] using hi)
    · have hid : i ≠ dst := fun heq => hi (heq ▸ by simp)
      rw [hothers i hid]
      exact hrest i fun hin => hi (List.mem_append_left _ hin)
  obtain ⟨w', hrun, hrows, -⟩ := foldlM_of_step (a := w) hpass ⟨by simp, fun _ _ => rfl⟩
  exact ⟨w', hrun, fun i hi => hrows i (List.mem_range.mpr hi)⟩

end Run

/-- Equal experts hold equal weights, so a weight is named by its expert and tensor. -/
lemma exists_rows {weights : Nat → Memory V} (hequal : ∀ s < numRanks, ∀ i < numLocal,
      ∀ s' < numRanks, ∀ i' < numLocal, expertAt oldIndices numLocal s i ≠ -1 →
      expertAt oldIndices numLocal s i = expertAt oldIndices numLocal s' i' →
      ∀ t < numTensors, weights s i t = weights s' i' t) :
    ∃ W : Int → Nat → V, ∀ s < numRanks, ∀ i < numLocal, expertAt oldIndices numLocal s i ≠ -1 →
      ∀ t < numTensors, weights s i t = W (expertAt oldIndices numLocal s i) t := by
  classical
  refine ⟨fun e t => if h : ∃ s i, s < numRanks ∧ i < numLocal ∧ expertAt oldIndices numLocal s i = e
    then weights h.choose h.choose_spec.choose t else weights 0 0 t, ?_⟩
  intro s hs i hi hne t ht
  have h : ∃ s' i', s' < numRanks ∧ i' < numLocal ∧
      expertAt oldIndices numLocal s' i' = expertAt oldIndices numLocal s i := ⟨s, i, hs, hi, rfl⟩
  obtain ⟨hs', hi', heq⟩ := h.choose_spec.choose_spec
  simp only [dif_pos h]
  exact hequal s hs i hi _ hs' _ hi' hne heq.symm t ht

/-- When every rank runs the exchange, each pair's sends and receives match in order and number,
nothing raises, the batch completes, and every slot ends with the old weights of its expert. -/
theorem shuffle_layer_exchanges (numRanks numLocal numTensors : Nat) (oldIndices newIndices : List Int)
    (weights buffers : Nat → Memory V) (hold : oldIndices.length = numRanks * numLocal)
    (hnew : newIndices.length = numRanks * numLocal)
    (hmem : ∀ e ∈ newIndices, e ≠ -1 → e ∈ oldIndices)
    (hequal : ∀ s < numRanks, ∀ i < numLocal, ∀ s' < numRanks, ∀ i' < numLocal,
      expertAt oldIndices numLocal s i ≠ -1 →
      expertAt oldIndices numLocal s i = expertAt oldIndices numLocal s' i' →
      ∀ t < numTensors, weights s i t = weights s' i' t) :
    ∃ posted : Nat → Posted V,
      (∀ r < numRanks, postShuffle numLocal r numTensors oldIndices newIndices (weights r)
        (buffers r) = .ok (posted r)) ∧
      (∀ s < numRanks, ∀ r < numRanks,
        sentTo (posted s).ops (fun slot t => (expertAt oldIndices numLocal s slot, t)) r =
          receivedFrom (posted r).ops (fun slot t => (expertAt newIndices numLocal r slot, t)) s) ∧
      ∃ received final : Nat → Memory V,
        (∀ r < numRanks, exchange numRanks posted weights r = some (received r)) ∧
        (∀ r < numRanks, copyBack numLocal r newIndices (posted r) (weights r) (received r) =
          .ok (final r)) ∧
        ∀ r < numRanks, ∀ i < numLocal, expertAt newIndices numLocal r i ≠ -1 →
          ∀ s < numRanks, ∀ k < numLocal,
            expertAt oldIndices numLocal s k = expertAt newIndices numLocal r i →
            ∀ t < numTensors, final r i t = weights s k t := by
  obtain ⟨W, hW⟩ := exists_rows hequal
  have hposts : ∀ r, ∃ posted sendLoc, r < numRanks →
      postShuffle numLocal r numTensors oldIndices newIndices (weights r) (buffers r) =
        .ok posted ∧
      Posting numRanks numLocal numTensors oldIndices newIndices r (weights r) posted sendLoc := by
    intro r
    by_cases hr : r < numRanks
    · obtain ⟨posted, sendLoc, h⟩ := postShuffle_spec hold hnew hmem numTensors hr
        (weights r) (buffers r)
      exact ⟨posted, sendLoc, fun _ => h⟩
    · exact ⟨⟨[], [], Dict.empty, buffers r, []⟩, Dict.empty, fun h => absurd h hr⟩
  choose posted sendLoc hposts using hposts
  have hposting := fun r hr => (hposts r hr).2
  have hbatch : ∀ r, ∃ received, r < numRanks →
      exchange numRanks posted weights r = some received ∧
      (∀ slot t, (∃ src, .irecv t slot src ∈ (posted r).ops) →
        received slot t = W (expertAt newIndices numLocal r slot) t) ∧
      ∀ slot t, (∀ src, .irecv t slot src ∉ (posted r).ops) →
        received slot t = (posted r).buffer slot t := by
    intro r
    by_cases hr : r < numRanks
    · obtain ⟨received, h⟩ := exchange_spec hposting hW hr
      exact ⟨received, fun _ => h⟩
    · exact ⟨buffers r, fun h => absurd h hr⟩
  choose received hbatch using hbatch
  have hback : ∀ r, ∃ final, r < numRanks →
      copyBack numLocal r newIndices (posted r) (weights r) (received r) = .ok final ∧
      ∀ i < numLocal, expertAt newIndices numLocal r i ≠ -1 →
        ∀ t < numTensors, final i t = W (expertAt newIndices numLocal r i) t := by
    intro r
    by_cases hr : r < numRanks
    · have hsender : ∀ i < numLocal, (posted r).isReceivedLocally.getD i false = false →
          expertAt newIndices numLocal r i ≠ -1 → ∃ src, sender numRanks numLocal oldIndices
            newIndices (expertAt newIndices numLocal r i) r = some src := by
        intro i hi hpending hne
        obtain ⟨src, -, hsrc⟩ := senderOf_mem (sendRanks_ne_nil hold hnew hmem hr hi hne)
          (mem_recvRanks_of_pending (hposting r hr).copied hr hi hpending hne)
        exact ⟨src, hsrc⟩
      obtain ⟨final, h⟩ := copyBack_spec hnew hr (hposting r hr) hsender (hW r hr)
        (hbatch r hr).2.1 (hbatch r hr).2.2
      exact ⟨final, fun _ => h⟩
    · exact ⟨buffers r, fun h => absurd h hr⟩
  choose final hback using hback
  refine ⟨posted, fun r hr => (hposts r hr).1, fun s hs r hr => ?_, received, final,
    fun r hr => (hbatch r hr).1, fun r hr => (hback r hr).1, ?_⟩
  · rw [(hposting s hs).sentTo_eq (f := Prod.mk) hs fun _ _ _ _ _ => rfl,
      (hposting s hs).keys_eq (hposting r hr) hs hr]
    exact ((hposting r hr).receivedFrom_eq (f := Prod.mk) fun _ _ _ _ _ => rfl).symm
  · intro r hr i hi hne s hs k hk heq t ht
    rw [(hback r hr).2 i hi hne t ht, hW s hs k hk (heq ▸ hne) t ht, heq]

/-- Three ranks of two slots: expert 2 goes to two ranks, expert 1 moves, slot 5 was empty. -/
theorem shuffle_layer_exchanges_three_ranks :
    ∃ posted : Nat → Posted Int,
      (∀ r < 3, postShuffle 2 r 2 [0, 1, 0, 2, 3, -1] [0, 2, 1, 0, 2, 3]
        (fun i t => 10 * expertAt [0, 1, 0, 2, 3, -1] 2 r i + t) (fun _ _ => 0) =
          .ok (posted r)) ∧
      (∀ s < 3, ∀ r < 3,
        sentTo (posted s).ops (fun slot t => (expertAt [0, 1, 0, 2, 3, -1] 2 s slot, t)) r =
          receivedFrom (posted r).ops
            (fun slot t => (expertAt [0, 2, 1, 0, 2, 3] 2 r slot, t)) s) ∧
      ∃ received final : Nat → Memory Int,
        (∀ r < 3, exchange 3 posted
          (fun s i t => 10 * expertAt [0, 1, 0, 2, 3, -1] 2 s i + t) r = some (received r)) ∧
        (∀ r < 3, copyBack 2 r [0, 2, 1, 0, 2, 3] (posted r)
          (fun i t => 10 * expertAt [0, 1, 0, 2, 3, -1] 2 r i + t) (received r) =
          .ok (final r)) ∧
        ∀ r < 3, ∀ i < 2, expertAt [0, 2, 1, 0, 2, 3] 2 r i ≠ -1 →
          ∀ s < 3, ∀ k < 2,
            expertAt [0, 1, 0, 2, 3, -1] 2 s k = expertAt [0, 2, 1, 0, 2, 3] 2 r i →
            ∀ t < 2, final r i t = 10 * expertAt [0, 1, 0, 2, 3, -1] 2 s k + t :=
  shuffle_layer_exchanges 3 2 2 [0, 1, 0, 2, 3, -1] [0, 2, 1, 0, 2, 3]
    (fun s i t => 10 * expertAt [0, 1, 0, 2, 3, -1] 2 s i + t) (fun _ _ _ => 0) (by decide)
    (by decide) (by decide) (fun s _ i _ s' _ i' _ _ heq t _ => by rw [heq])

end Eplb
