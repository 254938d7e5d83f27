import Mathlib.Algebra.Order.Group.Multiset
import Mathlib.Control.Monad.Writer
import Mathlib.Data.List.Basic
import Mathlib.Tactic.Lemma

/-!
# A log of changes, replayed to the contents

Some of the cells 0, 1, … have a value. A log tells which values came and which went, and a
reader who replays it has the values with their multiplicities. The values may be renamed on
the way to the reader, also so that two of them get one name.
-/

namespace EventLog

universe u v

variable {α : Type u} {β : Type v}

/-- What one entry of the log tells. -/
inductive Change (α : Type u) where
  | stored (values : List α)
  | removed (value : α)
  | cleared
  deriving DecidableEq, Repr

namespace Change

/-- The reader's side: a removal takes away one occurrence. -/
def apply [DecidableEq α] (held : Multiset α) : Change α → Multiset α
  | stored values => held + values
  | removed value => held.erase value
  | cleared => 0

/-- The entry with other names for the values. -/
def rename (f : α → β) : Change α → Change β
  | stored values => stored (values.map f)
  | removed value => removed (f value)
  | cleared => cleared

end Change

def replay [DecidableEq α] (held : Multiset α) (log : List (Change α)) : Multiset α :=
  log.foldl Change.apply held

/-- A log that removes only what is there, from the first contents to the second. -/
inductive Tells [DecidableEq α] : List (Change α) → Multiset α → Multiset α → Prop where
  | nil (held : Multiset α) : Tells [] held held
  | stored {log : List (Change α)} {held held' : Multiset α} {values : List α}
      (rest : Tells log (held + values) held') : Tells (.stored values :: log) held held'
  | removed {log : List (Change α)} {held held' : Multiset α} {value : α} (there : value ∈ held)
      (rest : Tells log (held.erase value) held') : Tells (.removed value :: log) held held'
  | cleared {log : List (Change α)} {held held' : Multiset α} (rest : Tells log 0 held') :
      Tells (.cleared :: log) held held'

section Reader

variable [DecidableEq α] [DecidableEq β] {log more : List (Change α)}
  {held held' held'' : Multiset α}

theorem Tells.append (h : Tells log held held') (h' : Tells more held' held'') :
    Tells (log ++ more) held held'' := by
  induction h with
  | nil => exact h'
  | stored _ ih => exact .stored (ih h')
  | removed there _ ih => exact .removed there (ih h')
  | cleared _ ih => exact .cleared (ih h')

/-- The reader gets the contents under the new names, whatever the names are: what is removed
was there before, so taking away its name takes away the right number. -/
theorem Tells.replay_rename (h : Tells log held held') (f : α → β) :
    replay (held.map f) (log.map (Change.rename f)) = held'.map f := by
  induction h with
  | nil => rfl
  | @stored _ held _ values _ ih =>
    have hstep : (Change.stored (values.map f)).apply (held.map f) =
        (held + values).map f := by
      rw [Multiset.map_add, Change.apply, Multiset.map_coe]
    exact (congrArg (replay · _) hstep).trans ih
  | @removed _ held _ value there _ ih =>
    have hstep : (Change.removed (f value)).apply (held.map f) = (held.erase value).map f :=
      (Multiset.map_erase_of_mem f held there).symm
    exact (congrArg (replay · _) hstep).trans ih
  | cleared _ ih => exact ih

end Reader

/-- The values of the first `n` cells. -/
def contents (n : Nat) (value : Nat → Option α) : Multiset α :=
  ((List.range n).filterMap value : List α)

variable {n c : Nat} {value : Nat → Option α}

theorem contents_succ : contents (n + 1) value = contents n value + (value n).toList := by
  rw [contents, List.range_succ, List.filterMap_append, ← Multiset.coe_add]
  cases hn : value n with
  | none => simp [contents, hn]
  | some a => simp [contents, hn]

/-- The old value of a cell goes and the new one comes. -/
theorem contents_set (hc : c < n) (new : Option α) :
    contents n (fun i => if i = c then new else value i) + (value c).toList =
      contents n value + new.toList := by
  induction n with
  | zero => omega
  | succ n ih =>
    rw [contents_succ, contents_succ]
    by_cases hcn : c = n
    · subst hcn
      have hsame : contents c (fun i => if i = c then new else value i) = contents c value := by
        unfold contents
        congr 1
        refine List.filterMap_congr fun i hi => if_neg ?_
        exact (List.mem_range.mp hi).ne
      rw [hsame, if_pos rfl, add_right_comm]
    · rw [if_neg (Ne.symm hcn), add_right_comm, ih (by omega), add_right_comm]

theorem contents_store (hc : c < n) (hnone : value c = none) (a : α) :
    contents n (fun i => if i = c then some a else value i) = contents n value + [a] := by
  have h : contents n (fun i => if i = c then some a else value i) + (value c).toList =
      contents n value + (some a).toList := contents_set hc (some a)
  rwa [hnone, Option.toList_none, Multiset.coe_nil, add_zero, Option.toList_some] at h

theorem mem_contents {a : α} : a ∈ contents n value ↔ ∃ i < n, value i = some a := by
  simp [contents]

theorem contents_remove [DecidableEq α] {a : α} (hc : c < n) (hsome : value c = some a) :
    contents n (fun i => if i = c then none else value i) = (contents n value).erase a := by
  have h : contents n (fun i => if i = c then none else value i) + (value c).toList =
      contents n value + (none : Option α).toList := contents_set hc none
  rw [hsome, Option.toList_none, Multiset.coe_nil, add_zero, Option.toList_some] at h
  rw [← h, Multiset.coe_singleton, Multiset.erase_add_right_pos _ (Multiset.mem_singleton_self a),
    Multiset.erase_singleton, add_zero]

/-- A value occurs as often as there are cells that have it. -/
theorem count_contents [DecidableEq α] (a : α) :
    (contents n value).count a = ((List.range n).filter fun i => value i = some a).length := by
  induction n with
  | zero => rfl
  | succ n ih =>
    rw [contents_succ, Multiset.count_add, ih, List.range_succ, List.filter_append,
      List.length_append, Multiset.coe_count]
    by_cases hn : value n = some a
    · simp [hn]
    · cases hv : value n with
      | none => simp [hv]
      | some a' =>
        have hne : a' ≠ a := fun heq => hn (hv.trans (congrArg some heq))
        simp [hv, hne]

end EventLog
