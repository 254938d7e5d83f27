import Mathlib.Algebra.BigOperators.Group.Finset.Piecewise
import Mathlib.Algebra.BigOperators.Ring.Finset
import VllmMmaEmu.Worker.InputBatch

/-!
# How the processors replay a step

A batch update is a log of changes of the rows. Each processor keeps for each row what the
request on it prescribes, and every part of the update keeps this when the occupants are
changed in the same order. When a processor skips the removals and the moves, no occupant
prescribes anything.
-/

namespace VllmV1.Worker

open Python

variable {F T : Type} {fl : FloatOps F}

/-- What a batch update tells of a request. -/
structure BatchMember (F : Type) where
  params : SamplingParams F
  promptTokIds : Option (List Int)
  outputTokIds : ListRef

abbrev Members (F : Type) := Nat → Option (BatchMember F)

def AddedRequest.member (a : AddedRequest F) : BatchMember F :=
  ⟨a.params, a.promptTokIds, a.outputTokIds⟩

def MovedRequest.shift (m : MovedRequest) : Rows.Shift := ⟨m.src, m.tgt, decide (m.direct = .swap)⟩

def BatchUpdate.changes (u : BatchUpdate F) : Rows.Changes (BatchMember F) :=
  ⟨u.added.map fun a => (a.index, a.member), u.removed, u.moved.map MovedRequest.shift⟩

/-- The rows of the batch are below `n`, and a request that moves one way changes its row. -/
structure BatchUpdate.Within (u : BatchUpdate F) (n : Nat) : Prop where
  added : ∀ a ∈ u.added, a.index < n
  removed : ∀ i ∈ u.removed, i < n
  moved : ∀ m ∈ u.moved, m.src < n ∧ m.tgt < n ∧ (m.src = m.tgt → m.direct = .swap)

lemma MovedRequest.shift_swap {m : MovedRequest} (h : m.direct = .swap) (rows : Members F) :
    m.shift.apply rows = Rows.swap rows m.src m.tgt := by
  simp [shift, Rows.Shift.apply, h]

lemma MovedRequest.shift_move {m : MovedRequest} (h : m.direct = .unidirectional)
    (rows : Members F) : m.shift.apply rows = Rows.moveOccupant rows m.src m.tgt := by
  simp [shift, Rows.Shift.apply, h]

/-- What each part of an update keeps is kept by the whole of it. -/
lemma BatchUpdate.replay_rel {S : Type} {u : BatchUpdate F} (rel : Members F → S → Prop)
    {add : S → AddedRequest F → S} {remove : S → Nat → S} {move : S → MovedRequest → S}
    (hadd : ∀ a ∈ u.added, ∀ rows s, rel rows s →
      rel (Function.update rows a.index (some a.member)) (add s a))
    (hremove : ∀ i ∈ u.removed, ∀ rows s, rel rows s →
      rel (Function.update rows i none) (remove s i))
    (hmove : ∀ m ∈ u.moved, ∀ rows s, rel rows s → rel (m.shift.apply rows) (move s m))
    {rows : Members F} {s : S} (h : rel rows s) :
    rel (Rows.takeAll u.changes.added rows) (u.added.foldl add s) ∧
      rel (u.changes.replay rows)
        (u.moved.foldl move (u.removed.foldl remove (u.added.foldl add s))) := by
  have hadded : rel (Rows.takeAll u.changes.added rows) (u.added.foldl add s) := by
    rw [Rows.takeAll, BatchUpdate.changes, List.foldl_map]
    exact List.foldl_rel h fun a ha rows s => hadd a ha rows s
  refine ⟨hadded, ?_⟩
  have hremoved : rel (Rows.leaveAll u.changes.removed (Rows.takeAll u.changes.added rows))
      (u.removed.foldl remove (u.added.foldl add s)) :=
    List.foldl_rel hadded fun i hi rows s => hremove i hi rows s
  rw [Rows.Changes.replay, Rows.shiftAll, BatchUpdate.changes, List.foldl_map]
  exact List.foldl_rel hremoved fun m hm rows s => hmove m hm rows s

lemma BatchUpdate.forall_replay {u : BatchUpdate F} {X : Option (BatchMember F) → Prop}
    (hnone : X none) {rows : Members F} (h : ∀ i, X (Rows.takeAll u.changes.added rows i)) (i : Nat) :
    X (u.changes.replay rows i) :=
  Rows.forall_shiftAll hnone (Rows.forall_leaveAll hnone h _) _ i

/-- Zero is the only number that is not true, and numbers that compare equal are stored as
the same one. -/
structure FloatOps.Lawful (fl : FloatOps F) : Prop where
  truthy_zero : ∀ x, fl.truthy x = false ↔ x = fl.zero
  zero : fl.toFloat32 fl.zero = fl.zero
  idem : ∀ x, fl.toFloat32 (fl.toFloat32 x) = fl.toFloat32 x
  eq_stored : ∀ x y, fl.ne (fl.toFloat32 x) y = false → fl.toFloat32 y = fl.toFloat32 x

/-- A number that is not zero is not stored as zero. -/
def FloatOps.Keeps (fl : FloatOps F) (x : F) : Prop := x ≠ fl.zero → fl.toFloat32 x ≠ fl.zero

namespace MinPLogitsProcessor

variable {n i j : Nat} {p : MinPLogitsProcessor F} {rows : Members F} {f : Nat → F}

/-- What the array holds for a row. -/
def stored (fl : FloatOps F) : Option (BatchMember F) → F
  | some m => fl.toFloat32 m.params.minP
  | none => fl.zero

/-- The number of the entries below `n` that are not zero. -/
def nonZeros (fl : FloatOps F) (n : Nat) (f : Nat → F) : Nat :=
  ((Finset.range n).filter fun i => fl.truthy (f i)).card

/-- The processor has the minimum probabilities of the occupants, and their number. -/
structure Holds (fl : FloatOps F) (n : Nat) (rows : Members F) (p : MinPLogitsProcessor F) :
    Prop where
  cpu : ∀ i, p.minPCpu i = stored fl (rows i)
  count : p.minPCount = nonZeros fl n p.minPCpu

/-- One if the number is not zero. -/
def unit (fl : FloatOps F) (x : F) : Int := if fl.truthy x then 1 else 0

lemma nonZeros_update (fl : FloatOps F) (h : i < n) (x : F) :
    (nonZeros fl n (Function.update f i x) : Int) = nonZeros fl n f - unit fl (f i) + unit fl x := by
  have hsum : ∀ f : Nat → F, (nonZeros fl n f : Int) = ∑ k ∈ Finset.range n, unit fl (f k) :=
    fun f => Finset.natCast_card_filter _ _
  have hmem := Finset.mem_range.mpr h
  have hunit : (fun k => unit fl (Function.update f i x k)) =
      Function.update (fun k => unit fl (f k)) i (unit fl x) := by
    funext k
    by_cases hk : k = i
    · subst hk
      simp
    · simp [hk]
  rw [hsum, hsum, hunit, Finset.sum_update_of_mem hmem, Finset.sdiff_singleton_eq_erase]
  have hold := Finset.add_sum_erase (Finset.range n) (fun k => unit fl (f k)) hmem
  omega

lemma unit_zero (hfl : fl.Lawful) : unit fl fl.zero = 0 := by
  rw [unit, (hfl.truthy_zero _).mpr rfl]
  rfl

lemma unit_of_true {x : F} (h : fl.truthy x = true) : unit fl x = 1 := if_pos h

/-- The count follows the entry of a row that has a new occupant. -/
lemma count_added (x y : F) (c : Int) :
    (if fl.truthy y ∧ ¬ fl.truthy x then c + 1 else if ¬ fl.truthy y ∧ fl.truthy x then c - 1 else c) =
      c - unit fl x + unit fl y := by
  unfold unit
  by_cases hx : fl.truthy x = true
  · by_cases hy : fl.truthy y = true
    · simp [hx, hy]
    · simp [hx, hy]
  · by_cases hy : fl.truthy y = true
    · simp [hx, hy]
    · simp [hx, hy]

lemma nonZeros_swap (hi : i < n) (hj : j < n) :
    nonZeros fl n (Rows.swap f i j) = nonZeros fl n f := by
  have hfirst := nonZeros_update (f := f) fl hi (f j)
  have hsecond := nonZeros_update (f := Function.update f i (f j)) fl hj (f i)
  rw [Rows.swap]
  by_cases hij : i = j
  · subst hij
    rw [Function.update_eq_self, Function.update_eq_self]
  · rw [Function.update_of_ne (Ne.symm hij)] at hsecond
    omega

/-- A one-way move of an entry loses the entry of the target. -/
lemma nonZeros_move (hfl : fl.Lawful) (hi : i < n) (hj : j < n) (hne : i ≠ j) :
    (nonZeros fl n (Function.update (Rows.move f i j) i fl.zero) : Int) =
      nonZeros fl n f - unit fl (f j) := by
  have hfirst := nonZeros_update (f := f) fl hj (f i)
  have hsecond := nonZeros_update (f := Function.update f j (f i)) fl hi fl.zero
  rw [Function.update_of_ne hne, unit_zero hfl] at hsecond
  rw [Rows.move]
  omega

lemma stored_eq (hfl : fl.Lawful) (o : Option (BatchMember F)) :
    ∃ x, stored fl o = fl.toFloat32 x := by
  cases o with
  | none => exact ⟨fl.zero, hfl.zero.symm⟩
  | some m => exact ⟨m.params.minP, rfl⟩

lemma Holds.eq_stored (h : Holds fl n rows p) (hfl : fl.Lawful) {y : F}
    (heq : ¬ fl.ne (p.minPCpu i) y = true) : p.minPCpu i = fl.toFloat32 y := by
  obtain ⟨x, hx⟩ := stored_eq hfl (rows i)
  rw [← h.cpu] at hx
  rw [hx] at heq ⊢
  exact (hfl.eq_stored x y (by simpa using heq)).symm

lemma Holds.eq_entry (h : Holds fl n rows p) (hfl : fl.Lawful)
    (heq : ¬ fl.ne (p.minPCpu i) (p.minPCpu j) = true) : p.minPCpu i = p.minPCpu j := by
  obtain ⟨y, hy⟩ := stored_eq hfl (rows j)
  rw [h.eq_stored hfl heq, h.cpu j, hy, hfl.idem]

lemma Holds.of_cpu (h : Rows.Agrees (fun x o => x = stored fl o) rows p.minPCpu)
    (hcount : p.minPCount = nonZeros fl n p.minPCpu) : Holds fl n rows p := ⟨h, hcount⟩

lemma Holds.processAdded (h : Holds fl n rows p) (hfl : fl.Lawful) {a : AddedRequest F}
    (ha : a.index < n) (hkeeps : fl.Keeps a.params.minP) :
    Holds fl n (Function.update rows a.index (some a.member)) (p.processAdded fl a) := by
  have hagrees : Rows.Agrees (fun x o => x = stored fl o) rows p.minPCpu := h.cpu
  have hcount := h.count
  by_cases hne : fl.ne (p.minPCpu a.index) a.params.minP = true
  · have hupdate := nonZeros_update (f := p.minPCpu) fl ha (fl.toFloat32 a.params.minP)
    have hunit : unit fl (fl.toFloat32 a.params.minP) = unit fl a.params.minP := by
      by_cases hzero : a.params.minP = fl.zero
      · rw [hzero, hfl.zero]
      · have htrue : ∀ x, x ≠ fl.zero → fl.truthy x = true := fun x hx => by
          simpa using mt (hfl.truthy_zero x).mp hx
        rw [unit_of_true (htrue _ hzero), unit_of_true (htrue _ (hkeeps hzero))]
    rw [MinPLogitsProcessor.processAdded, if_pos hne]
    refine .of_cpu (hagrees.update a.index rfl) ?_
    dsimp only
    rw [hupdate, hunit, count_added, hcount]
  · rw [MinPLogitsProcessor.processAdded, if_neg hne]
    exact .of_cpu (hagrees.update_rows a.index (h.eq_stored hfl hne)) hcount

lemma Holds.processRemoved (h : Holds fl n rows p) (hfl : fl.Lawful) (hi : i < n) :
    Holds fl n (Function.update rows i none) (p.processRemoved fl i) := by
  have hagrees : Rows.Agrees (fun x o => x = stored fl o) rows p.minPCpu := h.cpu
  have hcount := h.count
  by_cases htrue : fl.truthy (p.minPCpu i) = true
  · have hupdate := nonZeros_update (f := p.minPCpu) fl hi fl.zero
    rw [unit_zero hfl, unit_of_true htrue] at hupdate
    rw [MinPLogitsProcessor.processRemoved, if_pos htrue]
    refine .of_cpu (hagrees.update i rfl) ?_
    dsimp only
    omega
  · rw [MinPLogitsProcessor.processRemoved, if_neg htrue]
    refine .of_cpu (hagrees.update_rows i ?_) hcount
    exact (hfl.truthy_zero _).mp (by simpa using htrue)

lemma Holds.processMoved (h : Holds fl n rows p) (hfl : fl.Lawful) {m : MovedRequest}
    (hsrc : m.src < n) (htgt : m.tgt < n) (hne : m.src = m.tgt → m.direct = .swap) :
    Holds fl n (m.shift.apply rows) (p.processMoved fl m) := by
  have hagrees : Rows.Agrees (fun x o => x = stored fl o) rows p.minPCpu := h.cpu
  have hcount := h.count
  have heq : ¬ fl.ne (p.minPCpu m.src) (p.minPCpu m.tgt) = true →
      p.minPCpu m.src = p.minPCpu m.tgt := h.eq_entry hfl
  cases hdirect : m.direct with
  | swap =>
    have hcpu : (p.processMoved fl m).minPCpu = Rows.swap p.minPCpu m.src m.tgt := by
      simp only [MinPLogitsProcessor.processMoved, hdirect, if_true, reduceCtorEq, if_false]
      split_ifs with hdiff
      · rw [Rows.swap]
        by_cases hst : m.src = m.tgt
        · rw [hst, Function.update_eq_self]
        · rw [Function.update_comm hst]
      · rw [Rows.swap, ← heq hdiff, Function.update_eq_self, heq hdiff, Function.update_eq_self]
    rw [MovedRequest.shift_swap hdirect]
    refine .of_cpu (hcpu ▸ hagrees.swap m.src m.tgt) ?_
    rw [hcpu, nonZeros_swap hsrc htgt, ← hcount]
    simp [MinPLogitsProcessor.processMoved, hdirect]
  | unidirectional =>
    have hst : m.src ≠ m.tgt := fun hst => by
      rw [hdirect] at hne
      cases hne hst
    have hcpu : (p.processMoved fl m).minPCpu =
        Function.update (Rows.move p.minPCpu m.src m.tgt) m.src fl.zero := by
      have hmoved : (if fl.ne (p.minPCpu m.src) (p.minPCpu m.tgt) then
          Function.update p.minPCpu m.tgt (p.minPCpu m.src) else p.minPCpu) =
          Rows.move p.minPCpu m.src m.tgt := by
        split_ifs with hdiff
        · rfl
        · rw [Rows.move, heq hdiff, Function.update_eq_self]
      simp only [MinPLogitsProcessor.processMoved, hdirect, if_true, reduceCtorEq, if_false, hmoved]
      split_ifs with htrue
      · rfl
      · have hzero : p.minPCpu m.src = fl.zero := (hfl.truthy_zero _).mp (by simpa using htrue)
        rw [eq_comm, Function.update_eq_self_iff, Rows.move, Function.update_of_ne hst, hzero]
    rw [MovedRequest.shift_move hdirect]
    refine .of_cpu (hcpu ▸ hagrees.move_clear m.src m.tgt rfl) ?_
    rw [hcpu, nonZeros_move hfl hsrc htgt hst, ← hcount]
    simp only [MinPLogitsProcessor.processMoved, hdirect, if_true, unit]
    split_ifs
    · rfl
    · exact (sub_zero _).symm

/-- No occupant asks for a minimum probability when the count is zero. -/
lemma Holds.stored_zero (h : Holds fl n rows p) (hfl : fl.Lawful)
    (houtside : ∀ i, n ≤ i → rows i = none) (hzero : p.minPCount = 0) (i : Nat) :
    stored fl (rows i) = fl.zero := by
  by_cases hi : i < n
  · have hcard : nonZeros fl n p.minPCpu = 0 := by
      have hcount := h.count
      omega
    rw [nonZeros, Finset.card_eq_zero, Finset.filter_eq_empty_iff] at hcard
    rw [← h.cpu, ← hfl.truthy_zero]
    simpa using hcard (Finset.mem_range.mpr hi)
  · rw [houtside i (Nat.le_of_not_lt hi)]
    rfl

theorem Holds.updateState (h : Holds fl n rows p) (hfl : fl.Lawful) {u : BatchUpdate F}
    (hu : u.Within n) (hkeeps : ∀ a ∈ u.added, fl.Keeps a.params.minP)
    (houtside : ∀ i, n ≤ i → rows i = none) :
    Holds fl n (u.changes.replay rows) (p.updateState fl (some u)) := by
  obtain ⟨hadded, hall⟩ := BatchUpdate.replay_rel (Holds fl n)
    (fun a ha rows p h => h.processAdded hfl (hu.added a ha) (hkeeps a ha))
    (fun i hi rows p h => h.processRemoved hfl (hu.removed i hi))
    (fun m hm rows p h => h.processMoved hfl (hu.moved m hm).1 (hu.moved m hm).2.1
      (hu.moved m hm).2.2) h
  rw [MinPLogitsProcessor.updateState]
  split_ifs with hzero
  · exact hall
  · have hstored := hadded.stored_zero hfl (fun i hi => ?_) (not_not.mp hzero)
    · refine ⟨fun i => ?_, hadded.count⟩
      rw [hadded.cpu, hstored]
      exact (BatchUpdate.forall_replay (X := fun o => stored fl o = fl.zero) rfl hstored i).symm
    · have hnot : ∀ a ∈ u.changes.added, a.1 ≠ i := by
        intro a ha heq
        obtain ⟨a', ha', rfl⟩ := List.mem_map.mp ha
        exact absurd (hu.added a' ha') (by dsimp only at heq; omega)
      rw [Rows.takeAll]
      refine List.foldlRecOn (motive := fun (rows : Members F) => rows i = none) _ _ (houtside i hi) ?_
      intro rows hrows a ha
      rwa [Function.update_of_ne (hnot a ha).symm]

end MinPLogitsProcessor

lemma get?_erase_eq (d : Dict Nat T) (i : Nat) : (d.erase i).get? = Function.update d.get? i none := by
  funext k
  rw [Dict.get?_erase, Function.update_apply]
  simp only [eq_comm]

lemma get?_set_eq (d : Dict Nat T) (i : Nat) (v : T) :
    (d.set i v).get? = Function.update d.get? i (some v) := by
  funext k
  rw [Dict.get?_set, Function.update_apply]
  simp only [eq_comm]

lemma get?_foldl_erase (l : List Nat) (d : Dict Nat T) (i : Nat) :
    (l.foldl Dict.erase d).get? i = if i ∈ l then none else d.get? i := by
  induction l generalizing d with
  | nil => rfl
  | cons k rest ih =>
    rw [List.foldl_cons, ih, Dict.get?_erase]
    by_cases hi : i ∈ rest
    · rw [if_pos hi, if_pos (List.mem_cons_of_mem k hi)]
    · by_cases hk : k = i
      · rw [if_neg hi, if_pos hk, if_pos (hk ▸ List.mem_cons_self ..)]
      · rw [if_neg hi, if_neg hk, if_neg (by simp [hi, Ne.symm hk])]

section Entries

variable {newState : NewState F T} {entries : Dict Nat T} {m : MovedRequest}

lemma processDictAdded_get? (a : AddedRequest F) :
    (processDictAdded newState entries a).get? =
      Function.update entries.get? a.index (newState a.params a.promptTokIds a.outputTokIds) := by
  unfold processDictAdded
  cases newState a.params a.promptTokIds a.outputTokIds with
  | none => exact get?_erase_eq entries a.index
  | some state => exact get?_set_eq entries a.index state

lemma setIfGiven_get? {d : Dict Nat T} {k : Nat} (h : d.get? k = none) (o : Option T) :
    (setIfGiven d k o).get? = Function.update d.get? k o := by
  cases o with
  | none => exact (Function.update_eq_self_iff.mpr h.symm).symm
  | some v => exact get?_set_eq d k v

lemma processDictMoved_eq (entries : Dict Nat T) (m : MovedRequest) :
    processDictMoved entries m =
      let taken := (entries.erase m.src).erase m.tgt
      let moved := setIfGiven taken m.tgt (entries.get? m.src)
      if m.direct = .swap then setIfGiven moved m.src ((entries.erase m.src).get? m.tgt)
      else moved := by
  dsimp only [processDictMoved]
  cases entries.get? m.src with
  | none =>
    cases (entries.erase m.src).get? m.tgt with
    | none => split_ifs <;> rfl
    | some b => rfl
  | some a =>
    cases (entries.erase m.src).get? m.tgt with
    | none => split_ifs <;> rfl
    | some b => rfl

/-- Both rows give their entries up, and the target has that of the source. -/
lemma setIfGiven_taken (d : Dict Nat T) (src tgt : Nat) :
    (setIfGiven ((d.erase src).erase tgt) tgt (d.get? src)).get? =
      Function.update (Function.update d.get? src none) tgt (d.get? src) := by
  rw [setIfGiven_get? (Dict.get?_erase_self ..), get?_erase_eq, get?_erase_eq, Function.update_idem]

lemma processDictMoved_swap (h : m.direct = .swap) :
    (processDictMoved entries m).get? = Rows.swap entries.get? m.src m.tgt := by
  rw [processDictMoved_eq]
  dsimp only
  rw [if_pos h]
  by_cases hst : m.src = m.tgt
  · rw [← hst, Dict.get?_erase_self, setIfGiven, setIfGiven_taken, Function.update_idem, Rows.swap,
      Function.update_idem]
  · rw [setIfGiven_get?, setIfGiven_taken, Dict.get?_erase_of_ne hst, Rows.swap,
      Function.update_comm (Ne.symm hst), Function.update_idem]
    rw [setIfGiven_taken, Function.update_of_ne hst, Function.update_self]

lemma processDictMoved_move (h : m.direct = .unidirectional) (hst : m.src ≠ m.tgt) :
    (processDictMoved entries m).get? =
      Function.update (Rows.move entries.get? m.src m.tgt) m.src none := by
  rw [processDictMoved_eq]
  dsimp only
  rw [if_neg (by rw [h]; exact MoveDirectionality.noConfusion), setIfGiven_taken, Rows.move,
    Function.update_comm (Ne.symm hst)]

variable {P : Option T → Option (BatchMember F) → Prop} {rows : Members F} {n : Nat}

theorem processDictUpdates_agrees (hnone : P none none)
    (hnew : ∀ m, P (newState m.params m.promptTokIds m.outputTokIds) (some m))
    (h : Rows.Agrees P rows entries.get?) {u : BatchUpdate F} (hu : u.Within n) :
    Rows.Agrees P (u.changes.replay rows)
      (processDictUpdates newState entries (some u)).get? := by
  have hmoved : ∀ m ∈ u.moved, ∀ rows (d : Dict Nat T), Rows.Agrees P rows d.get? →
      Rows.Agrees P (m.shift.apply rows) (processDictMoved d m).get? := by
    intro m hm rows d h
    cases hdirect : m.direct with
    | swap =>
      rw [processDictMoved_swap hdirect, MovedRequest.shift_swap hdirect]
      exact h.swap m.src m.tgt
    | unidirectional =>
      have hst : m.src ≠ m.tgt := fun hst => by
        have hswap := (hu.moved m hm).2.2 hst
        rw [hdirect] at hswap
        cases hswap
      rw [processDictMoved_move hdirect hst, MovedRequest.shift_move hdirect]
      exact h.move_clear m.src m.tgt hnone
  obtain ⟨hadded, hall⟩ := BatchUpdate.replay_rel (fun rows (d : Dict Nat T) =>
      Rows.Agrees P rows d.get?)
    (fun a _ rows d h => by
      rw [processDictAdded_get?]
      exact h.update a.index (hnew a.member))
    (fun i _ rows d h => by
      rw [get?_erase_eq]
      exact h.update i hnone) hmoved h
  rw [processDictUpdates]
  split_ifs with hempty
  · -- no occupant has an entry, so none has to be moved
    have hget : ∀ i, (u.added.foldl (processDictAdded newState) entries).get? i = none := by
      intro i
      rw [List.isEmpty_iff] at hempty
      rw [Dict.get?_eq_none_iff, Dict.keys, hempty]
      exact List.not_mem_nil
    intro i
    rw [hget]
    refine BatchUpdate.forall_replay (X := P none) hnone (fun i => ?_) i
    rw [← hget i]
    exact hadded i
  · exact hall

end Entries

namespace MinTokensLogitsProcessor

variable {heap heap' : Heap} {rows : Members F} {p : MinTokensLogitsProcessor} {n : Nat}

/-- What the processor keeps for a request that has not attained its minimum length. -/
def owed (heap : Heap) (m : BatchMember F) : Option (Nat × ListRef × List Int) :=
  addRequest heap m.params m.promptTokIds m.outputTokIds

/-- The entry, unless its list has attained the minimum length. -/
def unattained (heap : Heap) (o : Option (Nat × ListRef × List Int)) :
    Option (Nat × ListRef × List Int) :=
  o.filter fun e => ¬ (heap e.2.1).length ≥ e.1

/-- An entry may stay for a while after its list attained the minimum length. -/
def Awaits (heap : Heap) (o : Option (Nat × ListRef × List Int)) (m : Option (BatchMember F)) :
    Prop := unattained heap o = m.bind (owed heap)

lemma unattained_owed (hle : ∀ ref, (heap ref).length ≤ (heap' ref).length) (m : BatchMember F) :
    unattained heap' (owed heap m) = owed heap' m := by
  have hlen := hle m.outputTokIds
  unfold owed addRequest
  by_cases hold : m.params.minTokens = 0 ∨ (heap m.outputTokIds).length ≥ m.params.minTokens
  · rw [if_pos hold, if_pos (hold.imp_right fun hge => hge.trans hlen)]
    rfl
  · rw [if_neg hold, unattained, Option.filter_some]
    rw [not_or] at hold
    by_cases hnew : (heap' m.outputTokIds).length ≥ m.params.minTokens
    · simp [hnew]
    · simp [hold.1, hnew]

lemma unattained_unattained (hle : ∀ ref, (heap ref).length ≤ (heap' ref).length)
    (o : Option (Nat × ListRef × List Int)) :
    unattained heap' (unattained heap o) = unattained heap' o := by
  unfold unattained
  rw [Option.filter_filter]
  congr 1
  funext e
  have hlen := hle e.2.1
  simp only [← Bool.decide_and, decide_eq_decide]
  omega

lemma Awaits.grow {o : Option (Nat × ListRef × List Int)} {m : Option (BatchMember F)}
    (h : Awaits heap o m) (hle : ∀ ref, (heap ref).length ≤ (heap' ref).length) :
    Awaits heap' o m := by
  rw [Awaits, ← unattained_unattained hle, h]
  cases m with
  | none => rfl
  | some m => exact unattained_owed hle m

lemma get?_foldl_toRemove (d : Dict Nat (Nat × ListRef × List Int)) (i : Nat) :
    ((toRemove heap d).foldl Dict.erase d).get? i = unattained heap (d.get? i) := by
  have hmem : i ∈ toRemove heap d ↔ ∃ e, d.get? i = some e ∧ (heap e.2.1).length ≥ e.1 := by
    simp only [toRemove, List.mem_map, List.mem_filter, decide_eq_true_eq, Dict.get?_eq_some_iff]
    constructor
    · rintro ⟨⟨k, e⟩, ⟨he, hlen⟩, rfl⟩
      exact ⟨e, he, hlen⟩
    · rintro ⟨e, he, hlen⟩
      exact ⟨(i, e), ⟨he, hlen⟩, rfl⟩
  rw [get?_foldl_erase]
  cases hget : d.get? i with
  | none =>
    rw [if_neg]
    · rfl
    · rw [hmem, hget]
      exact fun ⟨e, he, _⟩ => nomatch he
  | some e =>
    rw [hget] at hmem
    by_cases hlen : (heap e.2.1).length ≥ e.1
    · rw [if_pos (hmem.mpr ⟨e, rfl, hlen⟩)]
      simp [unattained, Option.filter_some, hlen]
    · rw [if_neg (fun hi => ?_)]
      · simp [unattained, Option.filter_some, hlen]
      · obtain ⟨e', he', hlen'⟩ := hmem.mp hi
        obtain rfl := Option.some.inj he'
        exact hlen hlen'

/-- After every update, changed or not, the entries are those that are owed. -/
theorem updateState_eq (h : Rows.Agrees (Awaits heap) rows p.minToks.get?) {u : Option (BatchUpdate F)}
    (hu : ∀ v ∈ u, v.Within n) (i : Nat) :
    (p.updateState heap u).minToks.get? i =
      ((u.elim rows fun v => v.changes.replay rows) i).bind (owed heap) := by
  rw [updateState, get?_foldl_toRemove]
  cases u with
  | none => exact h i
  | some u =>
    exact processDictUpdates_agrees (P := Awaits heap) rfl
      (fun m => unattained_owed (fun _ => le_rfl) m) h (hu u rfl) i

end MinTokensLogitsProcessor

/-- What the processors have for the rows; entries of lists that have attained their minimum
length may be left. -/
structure LogitsProcessors.Follow (fl : FloatOps F) (heap : Heap) (n : Nat) (rows : Members F)
    (p : LogitsProcessors F) : Prop where
  minP : p.minP.Holds fl n rows
  logitBias : ∀ i, p.logitBias.biases.get? i = (rows i).bind fun m =>
    LogitBiasLogitsProcessor.newState m.params m.promptTokIds m.outputTokIds
  minTokens : Rows.Agrees (MinTokensLogitsProcessor.Awaits heap) rows p.minTokens.minToks.get?

theorem LogitsProcessors.Follow.updateState {heap : Heap} {n : Nat} {rows : Members F}
    {p : LogitsProcessors F} (h : p.Follow fl heap n rows) (hfl : fl.Lawful)
    {u : Option (BatchUpdate F)} (hu : ∀ v ∈ u, v.Within n)
    (hkeeps : ∀ v ∈ u, ∀ a ∈ v.added, fl.Keeps a.params.minP)
    (houtside : ∀ i, n ≤ i → rows i = none) :
    let rows' := u.elim rows fun v => v.changes.replay rows
    (p.updateState fl heap u).Follow fl heap n rows' ∧
      ∀ i, (p.updateState fl heap u).minTokens.minToks.get? i =
        (rows' i).bind (MinTokensLogitsProcessor.owed heap) := by
  have htokens := MinTokensLogitsProcessor.updateState_eq h.minTokens hu
  refine ⟨⟨?_, ?_, fun i => ?_⟩, htokens⟩
  · cases u with
    | none => exact h.minP
    | some u => exact h.minP.updateState hfl (hu u rfl) (hkeeps u rfl) houtside
  · cases u with
    | none => exact h.logitBias
    | some u =>
      exact processDictUpdates_agrees (P := fun o m => o = m.bind fun m =>
        LogitBiasLogitsProcessor.newState m.params m.promptTokIds m.outputTokIds) rfl
        (fun _ => rfl) h.logitBias (hu u rfl)
  · rw [LogitsProcessors.updateState, htokens]
    cases (u.elim rows fun v => v.changes.replay rows) i with
    | none => rfl
    | some m => exact MinTokensLogitsProcessor.unattained_owed (fun _ => le_rfl) m

end VllmV1.Worker
