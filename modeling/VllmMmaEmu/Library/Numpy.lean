import Mathlib.Algebra.BigOperators.Group.List.Basic
import Mathlib.Data.List.Perm.Subperm
import Mathlib.Data.List.Range
import VllmMmaEmu.Library.Segments

/-!
# Array operations on lists

Cumulative sums, repetition and writes at given indices or where a mask is set. Made of the first
two, a batched `arange` counts each of several ranges from zero.
-/

namespace Numpy

open Segments

universe u v

variable {α : Type u}

/-- `np.cumsum(xs)` -/
def cumsum {M : Type u} [AddMonoid M] (xs : List M) : List M := (xs.scanl (· + ·) 0).tail

section cumsum

variable {M : Type u} [AddMonoid M]

lemma getElem?_scanl (xs : List M) (a : M) {i : ℕ} (h : i ≤ xs.length) :
    (xs.scanl (· + ·) a)[i]? = some (a + (xs.take i).sum) := by
  induction xs generalizing a i with
  | nil =>
    obtain rfl : i = 0 := Nat.le_zero.mp h
    simp
  | cons x rest ih =>
    cases i with
    | zero => simp
    | succ i =>
      rw [List.scanl_cons, List.getElem?_cons_succ, ih (a + x) (Nat.le_of_succ_le_succ h),
        List.take_succ_cons, List.sum_cons, add_assoc]

@[simp] lemma length_cumsum (xs : List M) : (cumsum xs).length = xs.length := by
  rw [cumsum, List.length_tail, List.length_scanl, Nat.add_sub_cancel]

lemma getElem?_cumsum (xs : List M) {i : ℕ} (h : i < xs.length) :
    (cumsum xs)[i]? = some (xs.take (i + 1)).sum := by
  rw [cumsum, List.getElem?_tail, getElem?_scanl xs 0 h, zero_add]

lemma getLast?_cumsum {xs : List M} (h : xs ≠ []) : (cumsum xs).getLast? = some xs.sum := by
  have hpos := List.length_pos_iff.mpr h
  rw [List.getLast?_eq_getElem?, length_cumsum, getElem?_cumsum xs (by omega),
    List.take_of_length_le (by omega)]

end cumsum

/-- `np.repeat(xs, counts)` -/
def npRepeat (xs : List α) (counts : List ℕ) : List α :=
  (xs.zip counts).flatMap fun p => List.replicate p.2 p.1

@[simp] lemma npRepeat_nil (counts : List ℕ) : npRepeat ([] : List α) counts = [] := rfl

lemma npRepeat_cons (x : α) (xs : List α) (n : ℕ) (counts : List ℕ) :
    npRepeat (x :: xs) (n :: counts) = List.replicate n x ++ npRepeat xs counts := rfl

/-- `npRepeat` of a value for each item of a list. -/
lemma npRepeat_map {ι : Type v} (items : List ι) (f : ι → α) (count : ι → ℕ) :
    npRepeat (items.map f) (items.map count) =
      items.flatMap fun i => List.replicate (count i) (f i) := by
  induction items with
  | nil => rfl
  | cons i rest ih =>
    rw [List.map_cons, List.map_cons, npRepeat_cons, ih, List.flatMap_cons]

/-- As often as before, each time more often. -/
lemma npRepeat_map_mul (xs : List α) (counts : List ℕ) (n : ℕ) :
    npRepeat xs (counts.map (· * n)) = (npRepeat xs counts).flatMap fun x => List.replicate n x := by
  have hreplicate : ∀ (m : ℕ) (x : α), (List.replicate m x).flatMap (fun x => List.replicate n x) =
      List.replicate (m * n) x := by
    intro m x
    induction m with
    | zero => rw [Nat.zero_mul]; rfl
    | succ m ih =>
      rw [List.replicate_succ, List.flatMap_cons, ih, List.replicate_append_replicate,
        Nat.succ_mul, Nat.add_comm n]
  induction xs generalizing counts with
  | nil => rfl
  | cons x rest ih =>
    cases counts with
    | nil => rfl
    | cons m counts =>
      rw [List.map_cons, npRepeat_cons, npRepeat_cons, ih, List.flatMap_append, hreplicate]

/-- What is repeated has one value for each segment. -/
lemma npRepeat_eq_spread (counts : List ℕ) (f : ℕ → α) :
    npRepeat ((List.range counts.length).map f) counts = spread counts fun i _ => f i := by
  have h := npRepeat_map (List.range counts.length) f (len counts)
  rw [map_len_range] at h
  rw [h, spread]
  simp

lemma cumsum_eq_map (counts : List ℕ) :
    cumsum counts = (List.range counts.length).map fun i => start counts (i + 1) := by
  apply List.ext_getElem?
  intro i
  rw [List.getElem?_map]
  by_cases hi : i < counts.length
  · rw [List.getElem?_range hi, getElem?_cumsum counts hi]
    rfl
  · rw [List.getElem?_eq_none (by rw [length_cumsum]; omega),
      List.getElem?_eq_none (l := List.range _) (by simpa using hi), Option.map_none]

/-- With a zero in front, the sums are where the segments start. -/
lemma cons_cumsum_cast (counts : List ℕ) :
    0 :: cumsum (counts.map (Nat.cast : ℕ → ℤ)) = starts counts := by
  have hsums : ∀ xs : List ℕ, (xs.map (Nat.cast : ℕ → ℤ)).sum = (xs.sum : ℤ) := by
    intro xs
    induction xs with
    | nil => rfl
    | cons x rest ih => rw [List.map_cons, List.sum_cons, List.sum_cons, ih, Int.natCast_add]
  apply List.ext_getElem?
  intro i
  by_cases hi : i ≤ counts.length
  · rw [getElem?_starts hi]
    cases i with
    | zero => rfl
    | succ i =>
      rw [List.getElem?_cons_succ, getElem?_cumsum _ (by rwa [List.length_map]), ← List.map_take,
        hsums]
      rfl
  · rw [List.getElem?_eq_none (by simp; omega), List.getElem?_eq_none (by simp; omega)]

lemma zipWith_cumsum (counts : List ℕ) :
    List.zipWith (· - ·) (cumsum counts) counts =
      (List.range counts.length).map (start counts) := by
  have hmap := map_len_range counts
  nth_rewrite 2 [← hmap]
  rw [cumsum_eq_map, List.zipWith_map, List.zipWith_self]
  apply List.map_congr_left
  intro i _
  rw [start_succ, Nat.add_sub_cancel]

/-- Without the starts of the segments, a range counts the places in each segment. -/
lemma zipWith_range_npRepeat (counts : List ℕ) :
    List.zipWith (· - ·) (List.range counts.sum)
        (npRepeat (List.zipWith (· - ·) (cumsum counts) counts) counts) =
      spread counts fun _ k => k := by
  rw [zipWith_cumsum, npRepeat_eq_spread]
  apply eq_spread (by simp)
  intro t i k hlocates
  rw [List.getElem?_zipWith, List.getElem?_range hlocates.lt_sum, hlocates.getElem?_spread]
  simp [hlocates.eq]

/-- Writes at indices, in order. -/
def scatter (dest : List α) (writes : List (ℕ × α)) : List α :=
  writes.foldl (fun dest write => dest.set write.1 write.2) dest

@[simp] lemma length_scatter (dest : List α) (writes : List (ℕ × α)) :
    (scatter dest writes).length = dest.length := by
  rw [scatter]
  induction writes generalizing dest with
  | nil => rfl
  | cons write rest ih => rw [List.foldl_cons, ih, List.length_set]

/-- Other places are left as they are. -/
lemma getElem?_scatter_of_notMem {dest : List α} {writes : List (ℕ × α)} {i : ℕ}
    (h : i ∉ writes.map Prod.fst) : (scatter dest writes)[i]? = dest[i]? := by
  rw [scatter]
  induction writes generalizing dest with
  | nil => rfl
  | cons write rest ih =>
    rw [List.map_cons, List.mem_cons, not_or] at h
    rw [List.foldl_cons, ih h.2, List.getElem?_set_ne (Ne.symm h.1)]

lemma getElem?_scatter_of_mem {dest : List α} {writes : List (ℕ × α)}
    (hnodup : (writes.map Prod.fst).Nodup) {i : ℕ} {x : α} (h : (i, x) ∈ writes)
    (hi : i < dest.length) : (scatter dest writes)[i]? = some x := by
  induction writes generalizing dest with
  | nil => exact absurd h List.not_mem_nil
  | cons write rest ih =>
    rw [List.map_cons, List.nodup_cons] at hnodup
    change (scatter (dest.set write.1 write.2) rest)[i]? = some x
    rcases List.mem_cons.mp h with rfl | hrest
    · rw [getElem?_scatter_of_notMem hnodup.1, List.getElem?_set_self hi]
    · exact ih hnodup.2 hrest (by rwa [List.length_set])

/-- As many different numbers below a bound as the bound says are all of them. -/
lemma mem_of_nodup_of_lt {indices : List ℕ} (hnodup : indices.Nodup)
    (hlt : ∀ i ∈ indices, i < indices.length) {i : ℕ} (hi : i < indices.length) :
    i ∈ indices := by
  have hsub : indices ⊆ List.range indices.length := fun j hj =>
    List.mem_range.mpr (hlt j hj)
  have hperm := (List.subperm_of_subset hnodup hsub).perm_of_length_le (by simp)
  exact hperm.mem_iff.mpr (List.mem_range.mpr hi)

/-- Writes at one place of every segment. -/
lemma scatter_spread (counts : List ℕ) {place : ℕ → ℕ}
    (hplace : ∀ i < counts.length, place i < len counts i) (f : ℕ → ℕ → α) (g : ℕ → α) :
    scatter (spread counts f)
        ((List.range counts.length).map fun i => (start counts i + place i, g i)) =
      spread counts fun i k => if k = place i then g i else f i k := by
  have hlocates : ∀ i < counts.length, Locates counts (start counts i + place i) i (place i) :=
    fun i hi => ⟨hplace i hi, rfl⟩
  have hnodup : (((List.range counts.length).map fun i =>
      (start counts i + place i, g i)).map Prod.fst).Nodup := by
    rw [List.map_map]
    apply List.Nodup.map_on _ List.nodup_range
    intro i hi j hj heq
    have hi' := hlocates i (List.mem_range.mp hi)
    rw [show start counts i + place i = start counts j + place j from heq] at hi'
    exact (hi'.unique (hlocates j (List.mem_range.mp hj))).1
  apply eq_spread (by simp)
  intro t i k ht
  by_cases hk : k = place i
  · have hmem : (t, g i) ∈ (List.range counts.length).map fun i =>
        (start counts i + place i, g i) := by
      apply List.mem_map.mpr
      exact ⟨i, List.mem_range.mpr ht.lt_length, by rw [ht.eq, hk]⟩
    rw [getElem?_scatter_of_mem hnodup hmem (by rw [length_spread]; exact ht.lt_sum), if_pos hk]
  · have hnot : t ∉ ((List.range counts.length).map fun i =>
        (start counts i + place i, g i)).map Prod.fst := by
      rw [List.map_map]
      intro hmem
      obtain ⟨j, hj, rfl⟩ := List.mem_map.mp hmem
      obtain ⟨rfl, rfl⟩ := ht.unique (hlocates j (List.mem_range.mp hj))
      exact hk rfl
    rw [getElem?_scatter_of_notMem hnot, ht.getElem?_spread, if_neg hk]

/-- `np.nonzero(mask)` -/
def nonzero (mask : List Bool) : List ℕ :=
  (List.range mask.length).filter fun i => mask.getD i false

/-- The first place of every segment. -/
lemma nonzero_first {counts : List ℕ} (hpos : ∀ n ∈ counts, 0 < n) :
    nonzero (spread counts fun _ k => k == 0) = (List.range counts.length).map (start counts) := by
  have hupto : ∀ n ≤ counts.length, ((List.range (start counts n)).filter fun t =>
      (spread counts fun _ k => k == 0).getD t false) = (List.range n).map (start counts) := by
    intro n hn
    induction n with
    | zero => rfl
    | succ n ih =>
      have hlen : 0 < len counts n := hpos _ (List.mem_of_getElem? (getElem?_len hn))
      have hfilter : (List.range (len counts n)).filter (fun k =>
          (spread counts fun _ k => k == 0).getD (start counts n + k) false) = [0] := by
        have hmask : ∀ k ∈ List.range (len counts n),
            (spread counts fun _ k => k == 0).getD (start counts n + k) false = (k == 0) := by
          intro k hk
          have hlocates : Locates counts (start counts n + k) n k :=
            ⟨List.mem_range.mp hk, rfl⟩
          rw [List.getD_eq_getElem?_getD, hlocates.getElem?_spread]
          rfl
        rw [List.filter_congr hmask]
        obtain ⟨m, hm⟩ := Nat.exists_eq_add_of_lt hlen
        rw [hm, Nat.zero_add, List.range_succ_eq_map]
        simp
      rw [start_succ, List.range_add, List.filter_append, ih (Nat.le_of_succ_le hn),
        List.filter_map, Function.comp_def, hfilter, List.range_succ, List.map_append]
      rfl
  rw [nonzero, length_spread, ← start_length]
  exact hupto _ le_rfl

end Numpy
