import Mathlib.Data.List.Basic
import Mathlib.Data.List.Infix
import Mathlib.Data.Nat.Find
import Mathlib.Order.Bounds.Basic
import Mathlib.Tactic.ByContra

/-!
# Occurrences of words in a text

A search for a word may start late in a text whose beginning is known to hold no occurrence.
Where several words are searched for, the first position at which any of them begins is the one
that does not depend on their order.
-/

namespace Occurrences

variable {α : Type*} {word text more : List α} {words : List (List α)} {i j n : ℕ}

/-- The word begins at position `i` of the text. -/
def Occurs (word text : List α) (i : ℕ) : Prop := word <+: text.drop i

instance [DecidableEq α] : Decidable (Occurs word text i) :=
  inferInstanceAs (Decidable (word <+: text.drop i))

/-- An occurrence ends inside the text. -/
lemma Occurs.end_le (h : Occurs word text i) (hword : word ≠ []) :
    i + word.length ≤ text.length := by
  have hpos := List.length_pos_iff.mpr hword
  have hlen := h.length_le
  rw [List.length_drop] at hlen
  omega

/-- An occurrence that ends before the added text was there before. -/
lemma Occurs.of_append (h : Occurs word (text ++ more) i)
    (hend : i + word.length ≤ text.length) : Occurs word text i := by
  rw [Occurs, List.drop_append_of_le_length (by omega)] at h
  apply List.prefix_of_prefix_length_le h (List.prefix_append _ _)
  rw [List.length_drop]
  omega

lemma Occurs.of_take (h : Occurs word (text.take n) i) : Occurs word text i := by
  rw [Occurs, List.drop_take] at h
  exact h.trans (List.take_prefix _ _)

/-- Some word begins somewhere in the text. -/
def Holds (words : List (List α)) (text : List α) : Prop :=
  ∃ word ∈ words, ∃ i, Occurs word text i

/-- The first position at which any of the words begins. -/
structure IsFirst (words : List (List α)) (text : List α) (p : ℕ) : Prop where
  begins : ∃ word ∈ words, Occurs word text p
  first : ∀ word ∈ words, ∀ i, Occurs word text i → p ≤ i

lemma IsFirst.holds {p : ℕ} (h : IsFirst words text p) : Holds words text := by
  obtain ⟨word, hmem, hocc⟩ := h.begins
  exact ⟨word, hmem, p, hocc⟩

lemma Holds.exists_isFirst (h : Holds words text) : ∃ p, IsFirst words text p := by
  classical
  have hex : ∃ i, ∃ word ∈ words, Occurs word text i := by
    obtain ⟨word, hmem, i, hocc⟩ := h
    exact ⟨i, word, hmem, hocc⟩
  refine ⟨Nat.find hex, Nat.find_spec hex, fun word hmem i hocc => ?_⟩
  exact Nat.find_min' hex ⟨word, hmem, hocc⟩

/-- A text cut off where the first word begins holds none. -/
lemma IsFirst.not_holds_take {p : ℕ} (h : IsFirst words text p) (hwords : [] ∉ words) :
    ¬ Holds words (text.take p) := by
  rintro ⟨word, hmem, i, hocc⟩
  have hword : word ≠ [] := fun heq => hwords (heq ▸ hmem)
  have hpos := List.length_pos_iff.mpr hword
  have hend := hocc.end_le hword
  have hfirst := h.first word hmem i hocc.of_take
  rw [List.length_take] at hend
  omega

/-- What the added text brings ends in it. -/
lemma Occurs.lt_end (h : Occurs word (text ++ more) i) (hnone : ¬ Holds words text)
    (hmem : word ∈ words) : text.length < i + word.length := by
  by_contra! hend
  exact hnone ⟨word, hmem, i, h.of_append hend⟩

variable [DecidableEq α]

/-- The first position from `start` on at which the word begins. -/
def indexFrom (word text : List α) (start : ℕ) : Option ℕ :=
  (List.range' start (text.length + 1 - start)).find? fun i => decide (Occurs word text i)

lemma indexFrom_eq_none_iff (hword : word ≠ []) {start : ℕ} :
    indexFrom word text start = none ↔ ∀ i, start ≤ i → ¬ Occurs word text i := by
  rw [indexFrom, List.find?_eq_none]
  constructor
  · intro hnone i hi hocc
    have hend := hocc.end_le hword
    refine hnone i ?_ (decide_eq_true hocc)
    rw [List.mem_range'_1]
    omega
  · intro hnone i hi
    rw [decide_eq_true_eq]
    exact hnone i (List.mem_range'_1.mp hi).1

lemma occurs_of_indexFrom {start : ℕ} (h : indexFrom word text start = some i) :
    Occurs word text i ∧ start ≤ i := by
  constructor
  · simpa using List.find?_some h
  · exact (List.mem_range'_1.mp (List.mem_of_find?_eq_some h)).1

lemma le_of_indexFrom {start : ℕ} (hword : word ≠ []) (h : indexFrom word text start = some i)
    (hstart : start ≤ j) (hj : Occurs word text j) : i ≤ j := by
  by_contra! hlt
  obtain ⟨hocc, before, after, hsplit, hbefore⟩ := List.find?_eq_some_iff_append.mp h
  have hend := hj.end_le hword
  have hmem : j ∈ List.range' start (text.length + 1 - start) := by
    rw [List.mem_range'_1]
    omega
  have hsorted : (before ++ i :: after).Pairwise (· < ·) := hsplit ▸ List.pairwise_lt_range'
  rw [hsplit, List.mem_append, List.mem_cons] at hmem
  rcases hmem with hmem | rfl | hmem
  · simpa [hj] using hbefore j hmem
  · exact lt_irrefl _ hlt
  · have hafter := (List.pairwise_cons.mp (List.pairwise_append.mp hsorted).2.1).1 j hmem
    omega

/-- A search may begin late when no occurrence begins earlier. -/
lemma indexFrom_eq_of_forall_le (hword : word ≠ []) {start : ℕ}
    (h : ∀ i, Occurs word text i → start ≤ i) :
    indexFrom word text start = indexFrom word text 0 := by
  cases hzero : indexFrom word text 0 with
  | none =>
    apply (indexFrom_eq_none_iff hword).mpr
    exact fun i _ => (indexFrom_eq_none_iff hword).mp hzero i (Nat.zero_le i)
  | some p =>
    have hp := (occurs_of_indexFrom hzero).1
    cases hlate : indexFrom word text start with
    | none => exact absurd hp ((indexFrom_eq_none_iff hword).mp hlate p (h p hp))
    | some q =>
      have hq := (occurs_of_indexFrom hlate).1
      have hpq := le_of_indexFrom hword hzero (Nat.zero_le q) hq
      have hqp := le_of_indexFrom hword hlate (h p hp) hp
      exact congrArg some (Nat.le_antisymm hqp hpq)

/-- The first of the words, in the order of the list, that begins somewhere in the text. -/
def firstListed (words : List (List α)) (text : List α) : Option (List α) :=
  words.find? fun word => (indexFrom word text 0).isSome

lemma firstListed_eq_none (h : ¬ Holds words text) :
    firstListed words text = none := by
  rw [firstListed, List.find?_eq_none]
  intro word hmem hsome
  obtain ⟨i, hi⟩ := Option.isSome_iff_exists.mp hsome
  exact h ⟨word, hmem, i, (occurs_of_indexFrom hi).1⟩

lemma not_holds_of_firstListed (hwords : [] ∉ words) (h : firstListed words text = none) :
    ¬ Holds words text := by
  rintro ⟨word, hmem, i, hocc⟩
  have hword : word ≠ [] := fun heq => hwords (heq ▸ hmem)
  have hnone : indexFrom word text 0 = none := by
    simpa using List.find?_eq_none.mp h word hmem
  exact (indexFrom_eq_none_iff hword).mp hnone i (Nat.zero_le i) hocc

lemma mem_of_firstListed (h : firstListed words text = some word) : word ∈ words :=
  List.mem_of_find?_eq_some h

lemma index_of_firstListed (h : firstListed words text = some word) :
    ∃ p, indexFrom word text 0 = some p := by
  rw [firstListed] at h
  exact Option.isSome_iff_exists.mp (by simpa using List.find?_some h)

end Occurrences
