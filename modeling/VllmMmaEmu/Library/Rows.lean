import Mathlib.Logic.Function.Basic
import Mathlib.Tactic.SplitIfs

/-!
# Parallel arrays with occupants

An array has an entry for each row. Rows are taken by occupants, left, moved and exchanged,
and the array is changed along with them. A relation says which entries a row may have with
its occupant, or without one.

A step leaves rows, gives rows to new occupants, and moves occupants, in this order; a row
that was left may be taken in the same step. The log of the step drops the rows that were left
and taken again, and is replayed with the new occupants first, then the rows left, then the
moves. The replay ends with the same occupants when no recorded move touches a row that the
log still has as left.
-/

namespace Rows

universe u v

section

variable {β : Type u} {R : Type v}

/-- `a[i], a[j] = a[j], a[i]` for an array of scalars: both entries are read first. -/
def swap (f : Nat → β) (i j : Nat) : Nat → β :=
  Function.update (Function.update f i (f j)) j (f i)

/-- `a[i], a[j] = a[j], a[i]` when `a[i]` is a view: the second assignment copies an entry
that the first one has overwritten. -/
def swapViews (f : Nat → β) (i j : Nat) : Nat → β :=
  let first := Function.update f i (f j)
  Function.update first j (first i)

/-- `a[tgt] = a[src]`. -/
def move (f : Nat → β) (src tgt : Nat) : Nat → β := Function.update f tgt (f src)

/-- The occupant of `src` goes to `tgt` and leaves `src` empty. -/
def moveOccupant (rows : Nat → Option R) (src tgt : Nat) : Nat → Option R :=
  Function.update (move rows src tgt) src none

lemma swap_apply (f : Nat → β) (i j k : Nat) :
    swap f i j k = if k = j then f i else if k = i then f j else f k := by
  simp only [swap, Function.update_apply]

lemma update_eq_some {rows : Nat → Option R} {i k : Nat} {o : Option R} {q : R}
    (h : Function.update rows i o k = some q) : k = i ∧ o = some q ∨ k ≠ i ∧ rows k = some q := by
  by_cases hk : k = i
  · subst hk
    rw [Function.update_self] at h
    exact Or.inl ⟨rfl, h⟩
  · rw [Function.update_of_ne hk] at h
    exact Or.inr ⟨hk, h⟩

lemma moveOccupant_eq_some {rows : Nat → Option R} {src tgt k : Nat} {q : R}
    (h : moveOccupant rows src tgt k = some q) :
    k = tgt ∧ rows src = some q ∨ k ≠ tgt ∧ rows k = some q := by
  rcases update_eq_some h with ⟨-, hnone⟩ | ⟨-, hmoved⟩
  · cases hnone
  · exact update_eq_some hmoved

/-- Every row has an entry that the relation allows with its occupant. -/
def Agrees (P : β → Option R → Prop) (rows : Nat → Option R) (f : Nat → β) : Prop :=
  ∀ i, P (f i) (rows i)

/-- A relation that says nothing about empty rows. -/
def Occupied (P : β → R → Prop) (b : β) (o : Option R) : Prop := ∀ r, o = some r → P b r

lemma Occupied.some {P : β → R → Prop} {b : β} {r : R} (h : P b r) : Occupied P b (some r) := by
  rintro _ ⟨⟩
  exact h

lemma Occupied.none {P : β → R → Prop} {b : β} : Occupied P b none := fun _ h => nomatch h

variable {P : β → Option R → Prop} {rows : Nat → Option R} {f : Nat → β}

/-- One row has a new occupant, and its entry is the only one that changes. -/
lemma Agrees.of_update (h : Agrees P rows f) {i : Nat} {g : Nat → β} {o : Option R}
    (hothers : ∀ k, k ≠ i → g k = f k) (hi : P (g i) o) :
    Agrees P (Function.update rows i o) g := by
  intro k
  by_cases hk : k = i
  · subst hk
    simpa using hi
  · rw [hothers k hk]
    simpa [hk] using h k

lemma Agrees.update (h : Agrees P rows f) (i : Nat) {b : β} {o : Option R} (hb : P b o) :
    Agrees P (Function.update rows i o) (Function.update f i b) := by
  intro k
  by_cases hk : k = i
  · subst hk
    simpa using hb
  · simpa [hk] using h k

lemma Agrees.update_rows (h : Agrees P rows f) (i : Nat) {o : Option R} (hb : P (f i) o) :
    Agrees P (Function.update rows i o) f := by
  intro k
  by_cases hk : k = i
  · subst hk
    simpa using hb
  · simpa [hk] using h k

lemma Agrees.swap (h : Agrees P rows f) (i j : Nat) : Agrees P (swap rows i j) (swap f i j) := by
  intro k
  rw [swap_apply, swap_apply]
  split_ifs
  · exact h i
  · exact h j
  · exact h k

/-- An occupant moves with its entry, and the old row is cleared. -/
lemma Agrees.move_clear (h : Agrees P rows f) (src tgt : Nat) {b : β} (hempty : P b none) :
    Agrees P (moveOccupant rows src tgt) (Function.update (Rows.move f src tgt) src b) :=
  (h.update tgt (h src)).update src hempty

end

variable {R : Type v}

/-- An occupant goes to another row, or two rows are exchanged. -/
structure Shift where
  src : Nat
  tgt : Nat
  swaps : Bool

def Shift.apply (m : Shift) (rows : Nat → Option R) : Nat → Option R :=
  if m.swaps then swap rows m.src m.tgt else moveOccupant rows m.src m.tgt

/-- The log of a step. -/
structure Changes (R : Type v) where
  added : List (Nat × R)
  removed : List Nat
  moved : List Shift

def takeAll (added : List (Nat × R)) (rows : Nat → Option R) : Nat → Option R :=
  added.foldl (fun rows a => Function.update rows a.1 (some a.2)) rows

def leaveAll (removed : List Nat) (rows : Nat → Option R) : Nat → Option R :=
  removed.foldl (fun rows i => Function.update rows i none) rows

def shiftAll (moved : List Shift) (rows : Nat → Option R) : Nat → Option R :=
  moved.foldl (fun rows m => m.apply rows) rows

def Changes.replay (c : Changes R) (rows : Nat → Option R) : Nat → Option R :=
  shiftAll c.moved (leaveAll c.removed (takeAll c.added rows))

lemma leaveAll_apply (removed : List Nat) (rows : Nat → Option R) (i : Nat) :
    leaveAll removed rows i = if i ∈ removed then none else rows i := by
  induction removed generalizing rows with
  | nil => rfl
  | cons j rest ih =>
    rw [leaveAll, List.foldl_cons]
    refine (ih _).trans ?_
    by_cases hi : i ∈ rest
    · rw [if_pos hi, if_pos (List.mem_cons_of_mem j hi)]
    · by_cases hij : i = j
      · subst hij
        rw [if_neg hi, if_pos (List.mem_cons_self ..), Function.update_self]
      · rw [if_neg hi, Function.update_of_ne hij, if_neg (by simp [hij, hi])]

/-- An occupant that comes in while the others leave. -/
lemma leaveAll_update {removed removed' : List Nat} {i : Nat} (rows : Nat → Option R) (r : R)
    (hothers : ∀ k, k ≠ i → (k ∈ removed ↔ k ∈ removed')) (hi : i ∉ removed') :
    leaveAll removed' (Function.update rows i (some r)) =
      Function.update (leaveAll removed rows) i (some r) := by
  funext k
  rw [leaveAll_apply]
  by_cases hk : k = i
  · subst hk
    rw [if_neg hi, Function.update_self, Function.update_self]
  · rw [Function.update_of_ne hk, Function.update_of_ne hk, leaveAll_apply]
    simp only [hothers k hk]

lemma Shift.apply_update {m : Shift} {k : Nat} (hsrc : m.src ≠ k) (htgt : m.tgt ≠ k)
    (rows : Nat → Option R) (o : Option R) :
    m.apply (Function.update rows k o) = Function.update (m.apply rows) k o := by
  unfold Shift.apply
  split_ifs
  · rw [swap, swap, Function.update_of_ne hsrc, Function.update_of_ne htgt,
      Function.update_comm hsrc.symm, Function.update_comm htgt.symm]
  · rw [moveOccupant, moveOccupant, move, move, Function.update_of_ne hsrc,
      Function.update_comm htgt.symm, Function.update_comm hsrc.symm]

/-- A row that no move touches keeps what it has. -/
lemma shiftAll_update {moved : List Shift} {k : Nat}
    (h : ∀ m ∈ moved, m.src ≠ k ∧ m.tgt ≠ k) (rows : Nat → Option R) (o : Option R) :
    shiftAll moved (Function.update rows k o) = Function.update (shiftAll moved rows) k o := by
  induction moved generalizing rows with
  | nil => rfl
  | cons m rest ih =>
    obtain ⟨hsrc, htgt⟩ := h m (List.mem_cons_self ..)
    simp only [shiftAll, List.foldl_cons, Shift.apply_update hsrc htgt]
    exact ih (fun m' hm' => h m' (List.mem_cons_of_mem _ hm')) _

section Forall

variable {X : Option R → Prop} {rows : Nat → Option R}

lemma forall_leaveAll (hnone : X none) (h : ∀ i, X (rows i)) (removed : List Nat) (i : Nat) :
    X (leaveAll removed rows i) := by
  rw [leaveAll_apply]
  split_ifs
  · exact hnone
  · exact h i

lemma Shift.forall_apply (hnone : X none) (h : ∀ i, X (rows i)) (m : Shift) (i : Nat) :
    X (m.apply rows i) := by
  unfold Shift.apply
  split_ifs
  · rw [swap_apply]
    split_ifs
    · exact h m.src
    · exact h m.tgt
    · exact h i
  · simp only [moveOccupant, move, Function.update_apply]
    split_ifs
    · exact hnone
    · exact h m.src
    · exact h i

lemma forall_shiftAll (hnone : X none) (h : ∀ i, X (rows i)) (moved : List Shift) (i : Nat) :
    X (shiftAll moved rows i) := by
  induction moved generalizing rows with
  | nil => exact h i
  | cons m rest ih => exact ih (m.forall_apply hnone h)

end Forall

/-- The log turns the occupants at the start of the step into those that are there now, and
its moves do not touch the rows that it has as left. -/
structure Records (start : Nat → Option R) (c : Changes R) (rows : Nat → Option R) : Prop where
  result : c.replay start = rows
  apart : ∀ m ∈ c.moved, m.src ∉ c.removed ∧ m.tgt ∉ c.removed

namespace Records

variable {start rows : Nat → Option R} {c : Changes R} {i j src tgt : Nat} {r : R}
  {removed : List Nat}

lemma nil (rows : Nat → Option R) : Records rows ⟨[], [], []⟩ rows :=
  ⟨rfl, fun _ hm => (nomatch hm)⟩

lemma perm (h : Records start c rows) (hremoved : ∀ k, k ∈ c.removed ↔ k ∈ removed) :
    Records start { c with removed := removed } rows := by
  refine ⟨?_, fun m hm => ?_⟩
  · rw [← h.result, Changes.replay, Changes.replay]
    congr 1
    funext k
    simp only [leaveAll_apply, hremoved]
  · simpa only [hremoved] using h.apart m hm

lemma apart_of_mem (h : Records start c rows) (hi : i ∈ c.removed) :
    ∀ m ∈ c.moved, m.src ≠ i ∧ m.tgt ≠ i := by
  intro m hm
  obtain ⟨hsrc, htgt⟩ := h.apart m hm
  exact ⟨fun heq => hsrc (heq ▸ hi), fun heq => htgt (heq ▸ hi)⟩

/-- Rows that were left are empty. -/
lemma eq_none (h : Records start c rows) (hi : i ∈ c.removed) : rows i = none := by
  rw [← h.result, Changes.replay]
  have hleft : leaveAll c.removed (takeAll c.added start) =
      Function.update (leaveAll c.removed (takeAll c.added start)) i none := by
    rw [eq_comm, Function.update_eq_self_iff, leaveAll_apply, if_pos hi]
  rw [hleft, shiftAll_update (h.apart_of_mem hi), Function.update_self]

lemma not_mem (h : Records start c rows) (hi : rows i = some r) : i ∉ c.removed := by
  intro hmem
  rw [h.eq_none hmem] at hi
  cases hi

/-- A row is left before any occupant was moved. -/
lemma leave (h : Records start c rows) (hmoved : c.moved = []) :
    Records start { c with removed := c.removed ++ [i] } (Function.update rows i none) := by
  refine ⟨?_, fun m hm => ?_⟩
  · rw [← h.result, Changes.replay, Changes.replay, hmoved]
    exact List.foldl_append
  · rw [show m ∈ c.moved ↔ m ∈ [] by rw [hmoved]] at hm
    cases hm

/-- A new occupant takes a row before any was moved; when it had been left, the log forgets
that. -/
lemma take (h : Records start c rows) (hmoved : c.moved = [])
    (hothers : ∀ k, k ≠ i → (k ∈ c.removed ↔ k ∈ removed)) (hi : i ∉ removed) :
    Records start { c with added := c.added ++ [(i, r)], removed := removed }
      (Function.update rows i (some r)) := by
  refine ⟨?_, fun m hm => ?_⟩
  · rw [← h.result, Changes.replay, Changes.replay, hmoved]
    dsimp only
    rw [takeAll, List.foldl_append]
    exact leaveAll_update _ r hothers hi
  · rw [show m ∈ c.moved ↔ m ∈ [] by rw [hmoved]] at hm
    cases hm

/-- An occupant moves to a row that was left, and the log forgets that it was. -/
lemma moveDown (h : Records start c rows) (hsrc : rows src = some r) (htgt : tgt ∈ c.removed)
    (hothers : ∀ k, k ≠ tgt → (k ∈ c.removed ↔ k ∈ removed)) (hnot : tgt ∉ removed) :
    Records start { c with removed := removed, moved := c.moved ++ [⟨src, tgt, false⟩] }
      (moveOccupant rows src tgt) := by
  have hsrcnot := h.not_mem hsrc
  have hne : src ≠ tgt := fun heq => hsrcnot (heq ▸ htgt)
  have hkeep : ∀ k, k ∉ c.removed → k ∉ removed := by
    intro k hk hmem
    by_cases hkt : k = tgt
    · exact hnot (hkt ▸ hmem)
    · exact hk ((hothers k hkt).mpr hmem)
  refine ⟨?_, fun m hm => ?_⟩
  · -- without its last entry the log differs only in what it has for `tgt`
    have hleft : leaveAll c.removed (takeAll c.added start) =
        Function.update (leaveAll removed (takeAll c.added start)) tgt none := by
      funext k
      by_cases hk : k = tgt
      · subst hk
        rw [Function.update_self, leaveAll_apply, if_pos htgt]
      · rw [Function.update_of_ne hk, leaveAll_apply, leaveAll_apply]
        simp only [hothers k hk]
    rw [← h.result, Changes.replay, Changes.replay, hleft,
      shiftAll_update (h.apart_of_mem htgt), shiftAll]
    rw [List.foldl_append]
    simp only [List.foldl_cons, List.foldl_nil, Shift.apply, Bool.false_eq_true, if_false,
      moveOccupant, move]
    rw [Function.update_of_ne hne, Function.update_idem]
    rfl
  · rcases List.mem_append.mp hm with hm | hm
    · obtain ⟨hs, ht⟩ := h.apart m hm
      exact ⟨hkeep _ hs, hkeep _ ht⟩
    · obtain rfl := List.mem_singleton.mp hm
      exact ⟨hkeep src hsrcnot, hnot⟩

/-- Two rows that are taken are exchanged. -/
lemma swap {q : R} (h : Records start c rows) (hi : rows i = some r) (hj : rows j = some q) :
    Records start { c with moved := c.moved ++ [⟨i, j, true⟩] } (Rows.swap rows i j) := by
  refine ⟨?_, fun m hm => ?_⟩
  · rw [← h.result, Changes.replay, Changes.replay]
    exact List.foldl_append
  · rcases List.mem_append.mp hm with hm | hm
    · exact h.apart m hm
    · obtain rfl := List.mem_singleton.mp hm
      exact ⟨h.not_mem hi, h.not_mem hj⟩

end Records

end Rows
