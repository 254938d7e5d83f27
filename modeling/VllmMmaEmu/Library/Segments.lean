import Mathlib.Algebra.BigOperators.Group.List.Lemmas
import Mathlib.Algebra.GroupWithZero.Nat
import Mathlib.Algebra.Order.BigOperators.Group.List
import Mathlib.Data.List.GetD
import Mathlib.Data.Nat.Find

/-!
# Consecutive segments

A list of lengths cuts a range into segments that follow each other. The starts of the segments are
the partial sums of the lengths; every index lies in one segment, at one place.
-/

namespace Segments

universe u v w

/-- Where segment `i` starts. -/
def start (lens : List Nat) (i : Nat) : Nat := (lens.take i).sum

/-- The length of segment `i`. -/
def len (lens : List Nat) (i : Nat) : Nat := lens.getD i 0

/-- The starts of the segments, and the end of the last one. -/
def starts (lens : List Nat) : List Int :=
  (List.range (lens.length + 1)).map fun i => (start lens i : Int)

/-- `xs[1:] - xs[:-1]`. -/
def diffs (xs : List Int) : List Int := List.zipWith (· - ·) xs.tail xs

variable {lens : List Nat} {i j k l t n : Nat}

@[simp] lemma start_zero : start lens 0 = 0 := rfl

lemma start_succ (lens : List Nat) (i : Nat) : start lens (i + 1) = start lens i + len lens i := by
  unfold start len
  by_cases h : i < lens.length
  · rw [List.take_add_one, List.getElem?_eq_getElem h, Option.toList_some, List.sum_append,
      List.sum_singleton, List.getD_eq_getElem _ _ h]
  · rw [List.take_of_length_le (by omega), List.take_of_length_le (by omega),
      List.getD_eq_default _ _ (by omega), Nat.add_zero]

lemma start_length (lens : List Nat) : start lens lens.length = lens.sum := by
  rw [start, List.take_length]

lemma start_mono (lens : List Nat) (h : i ≤ j) : start lens i ≤ start lens j := by
  induction h with
  | refl => exact Nat.le_refl _
  | step _ ih => exact ih.trans (by rw [start_succ]; omega)

lemma start_le_sum (lens : List Nat) (i : Nat) : start lens i ≤ lens.sum := by
  rcases Nat.le_total i lens.length with h | h
  · exact (start_mono lens h).trans_eq (start_length lens)
  · rw [start, List.take_of_length_le h]

lemma start_append_left (xs ys : List Nat) : start (xs ++ ys) xs.length = xs.sum := by
  rw [start, List.take_left]

@[simp] lemma length_starts (lens : List Nat) : (starts lens).length = lens.length + 1 := by
  simp [starts]

lemma getElem?_starts (h : i ≤ lens.length) : (starts lens)[i]? = some (start lens i : Int) := by
  rw [starts, List.getElem?_map, List.getElem?_range (by omega), Option.map_some]

lemma getElem?_len (h : i < lens.length) : lens[i]? = some (len lens i) := by
  rw [len, List.getD_eq_getElem _ _ h, List.getElem?_eq_getElem h]

lemma map_len_range (lens : List Nat) : (List.range lens.length).map (len lens) = lens := by
  refine List.ext_getElem? fun i => ?_
  rw [List.getElem?_map]
  by_cases hi : i < lens.length
  · rw [List.getElem?_range hi, Option.map_some, getElem?_len hi]
  · rw [List.getElem?_eq_none (by simpa using hi), List.getElem?_eq_none (by omega)]
    rfl

/-- The differences of the starts are the lengths. -/
lemma diffs_starts (lens : List Nat) : diffs (starts lens) = lens.map Nat.cast := by
  apply List.ext_getElem?
  intro i
  rw [diffs, List.getElem?_zipWith, List.getElem?_tail, List.getElem?_map]
  by_cases h : i < lens.length
  · rw [getElem?_starts (Nat.succ_le_of_lt h), getElem?_starts h.le, getElem?_len h, start_succ]
    simp
  · have hlen := length_starts lens
    rw [List.getElem?_eq_none (Nat.le_of_not_lt h), List.getElem?_eq_none (by omega)]
    rfl

/-- Index `t` is at place `k` of segment `i`. -/
structure Locates (lens : List Nat) (t i k : Nat) : Prop where
  lt : k < len lens i
  eq : t = start lens i + k

lemma Locates.lt_length (h : Locates lens t i k) : i < lens.length := by
  by_contra hge
  have hlt := h.lt
  rw [len, List.getD_eq_default _ _ (by omega)] at hlt
  exact Nat.not_lt_zero _ hlt

lemma Locates.lt_start_succ (h : Locates lens t i k) : t < start lens (i + 1) := by
  have hlt := h.lt
  rw [h.eq, start_succ]
  omega

lemma Locates.lt_sum (h : Locates lens t i k) : t < lens.sum :=
  h.lt_start_succ.trans_le (start_le_sum _ _)

lemma Locates.unique (h : Locates lens t i k) (h' : Locates lens t j l) : i = j ∧ k = l := by
  have hi := h.lt_start_succ
  have hj := h'.lt_start_succ
  have heq := h.eq
  have heq' := h'.eq
  rcases Nat.lt_trichotomy i j with hij | rfl | hij
  · have hmono : start lens (i + 1) ≤ start lens j := start_mono lens hij
    omega
  · exact ⟨rfl, by omega⟩
  · have hmono : start lens (j + 1) ≤ start lens i := start_mono lens hij
    omega

lemma exists_locates (h : t < lens.sum) : ∃ i k, Locates lens t i k := by
  have hex : ∃ i, t < start lens (i + 1) := by
    refine ⟨lens.length, ?_⟩
    rw [start, List.take_of_length_le (Nat.le_succ _)]
    exact h
  classical
  have hspec := Nat.find_spec hex
  have hstart : start lens (Nat.find hex) ≤ t := by
    cases hfind : Nat.find hex with
    | zero => exact Nat.zero_le _
    | succ i =>
      have hmin := Nat.find_min hex (m := i) (by omega)
      omega
  rw [start_succ] at hspec
  exact ⟨Nat.find hex, t - start lens (Nat.find hex), by omega, by omega⟩

section spread

variable {α : Type u} {β : Type v} {γ : Type w}

/-- A value for every place of every segment, in order. -/
def spread (lens : List Nat) (f : Nat → Nat → α) : List α :=
  (List.range lens.length).flatMap fun i => (List.range (len lens i)).map (f i)

lemma length_flatMap_range (lens : List Nat) (f : Nat → Nat → α) (n : Nat) :
    ((List.range n).flatMap fun i => (List.range (len lens i)).map (f i)).length =
      start lens n := by
  induction n with
  | zero => rfl
  | succ n ih =>
    rw [List.range_succ, List.flatMap_append, List.length_append, ih, start_succ]
    simp

@[simp] lemma length_spread (lens : List Nat) (f : Nat → Nat → α) :
    (spread lens f).length = lens.sum := by
  rw [spread, length_flatMap_range, start_length]

lemma Locates.getElem?_spread (h : Locates lens t i k) (f : Nat → Nat → α) :
    (spread lens f)[t]? = some (f i k) := by
  have hupto : ∀ n, i < n → ((List.range n).flatMap fun i =>
      (List.range (len lens i)).map (f i))[t]? = some (f i k) := by
    intro n hi
    induction n with
    | zero => exact absurd hi (Nat.not_lt_zero _)
    | succ n ih =>
      have hlength := length_flatMap_range lens f n
      rw [List.range_succ, List.flatMap_append]
      rcases Nat.lt_succ_iff_lt_or_eq.mp hi with hlt | rfl
      · have hmono : start lens (i + 1) ≤ start lens n := start_mono lens hlt
        have ht := h.lt_start_succ
        rw [List.getElem?_append_left (by omega), ih hlt]
      · have ht := h.eq
        rw [List.getElem?_append_right (by omega), hlength, ht, Nat.add_sub_cancel_left]
        simp [h.lt]
  exact hupto lens.length h.lt_length

/-- A list with the right length and the right values is the values spread. -/
lemma eq_spread {xs : List α} {f : Nat → Nat → α} (hlength : xs.length = lens.sum)
    (h : ∀ t i k, Locates lens t i k → xs[t]? = some (f i k)) : xs = spread lens f := by
  apply List.ext_getElem?
  intro t
  by_cases ht : t < lens.sum
  · obtain ⟨i, k, hlocates⟩ := exists_locates ht
    rw [h t i k hlocates, hlocates.getElem?_spread]
  · rw [List.getElem?_eq_none (by omega), List.getElem?_eq_none (by rw [length_spread]; omega)]

lemma spread_congr {f g : Nat → Nat → α} (h : ∀ i < lens.length, ∀ k < len lens i, f i k = g i k) :
    spread lens f = spread lens g := by
  apply eq_spread (length_spread lens f)
  intro t i k hlocates
  rw [hlocates.getElem?_spread, h i hlocates.lt_length k hlocates.lt]

lemma map_spread (g : α → β) (f : Nat → Nat → α) :
    (spread lens f).map g = spread lens fun i k => g (f i k) := by
  apply eq_spread (by simp)
  intro t i k hlocates
  rw [List.getElem?_map, hlocates.getElem?_spread, Option.map_some]

lemma zipWith_spread (g : α → β → γ) (f : Nat → Nat → α) (f' : Nat → Nat → β) :
    List.zipWith g (spread lens f) (spread lens f') = spread lens fun i k => g (f i k) (f' i k) := by
  apply eq_spread (by simp)
  intro t i k hlocates
  rw [List.getElem?_zipWith, hlocates.getElem?_spread, hlocates.getElem?_spread]

lemma mem_spread {f : Nat → Nat → α} {x : α} :
    x ∈ spread lens f ↔ ∃ i < lens.length, ∃ k < len lens i, f i k = x := by
  simp [spread]

end spread

/-- Segments that are cut into pieces: a place in a piece of a segment is the place in the segment
where the piece puts it. -/
lemma Locates.flatten {pieces : List (List Nat)} {r : Nat}
    (h : Locates (pieces.map List.sum) t r k) (h' : Locates (pieces.getD r []) k j i) :
    Locates pieces.flatten t (start (pieces.map List.length) r + j) i := by
  have hr : r < pieces.length := by simpa using h.lt_length
  have hj := h'.lt_length
  have hpiece : pieces.drop r = pieces.getD r [] :: pieces.drop (r + 1) := by
    rw [List.drop_eq_getElem_cons hr, List.getD_eq_getElem _ _ hr]
  have hdrop : pieces.flatten.drop (start (pieces.map List.length) r) =
      pieces.getD r [] ++ (pieces.drop (r + 1)).flatten := by
    rw [start, List.drop_sum_flatten, hpiece, List.flatten_cons]
  constructor
  · have hlen : len pieces.flatten (start (pieces.map List.length) r + j) =
        len (pieces.getD r []) j := by
      rw [len, List.getD_eq_getElem?_getD, ← List.getElem?_drop, hdrop,
        List.getElem?_append_left hj, ← List.getD_eq_getElem?_getD, len]
    exact hlen ▸ h'.lt
  · have hsum : (pieces.take r).flatten.sum = start (pieces.map List.sum) r := by
      rw [List.sum_flatten, start, List.map_take]
    rw [start, List.take_add, hdrop, List.sum_append]
    rw [show (pieces.flatten.take (start (pieces.map List.length) r)) = (pieces.take r).flatten from
      List.take_sum_flatten pieces r, hsum, List.take_append_of_le_length hj.le, h.eq, h'.eq, start,
      start, Nat.add_assoc]

end Segments
