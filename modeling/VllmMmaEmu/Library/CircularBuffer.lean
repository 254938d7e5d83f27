import Mathlib.Algebra.Order.Ring.Int
import Mathlib.Data.List.Basic
import Mathlib.Tactic.Linarith

/-!
# Intervals in a circular buffer

Addresses count on without wrapping; the bytes of an interval are its addresses modulo the
size of the buffer. Intervals that follow each other in a window no longer than the buffer,
and none of which crosses a multiple of the size, occupy different bytes.
-/

namespace CircularBuffer

/-- An interval: its first address and its length. -/
abbrev Interval := Int × Nat

/-- The bytes of two intervals are disjoint; both start and end inside the buffer. -/
def Apart (size : Int) (i j : Interval) : Prop :=
  i.1 % size + i.2 ≤ j.1 % size ∨ j.1 % size + j.2 ≤ i.1 % size

lemma Apart.symm {size : Int} {i j : Interval} (h : Apart size i j) : Apart size j i := Or.symm h

/-- The interval does not run over the end of the buffer. -/
def Inside (size : Int) (i : Interval) : Prop := i.1 % size + i.2 ≤ size

/-- The intervals follow each other from `start` on and end by `stop`. -/
def Laid (size : Int) : Int → List Interval → Int → Prop
  | start, [], stop => start ≤ stop
  | start, i :: rest, stop =>
    start ≤ i.1 ∧ 0 < i.2 ∧ Inside size i ∧ Laid size (i.1 + i.2) rest stop

variable {size start start' stop stop' : Int} {intervals : List Interval}

lemma Laid.start_le_stop (h : Laid size start intervals stop) : start ≤ stop := by
  induction intervals generalizing start with
  | nil => exact h
  | cons i rest ih =>
    obtain ⟨hstart, -, -, hrest⟩ := h
    have := ih hrest
    omega

lemma Laid.weaken (h : Laid size start intervals stop) (hstart : start' ≤ start)
    (hstop : stop ≤ stop') : Laid size start' intervals stop' := by
  induction intervals generalizing start start' with
  | nil => exact hstart.trans (le_trans h hstop)
  | cons i rest ih =>
    obtain ⟨hi, hpos, hinside, hrest⟩ := h
    exact ⟨hstart.trans hi, hpos, hinside, ih hrest le_rfl⟩

lemma Laid.mem (h : Laid size start intervals stop) {i : Interval} (hi : i ∈ intervals) :
    start ≤ i.1 ∧ 0 < i.2 ∧ Inside size i ∧ i.1 + i.2 ≤ stop := by
  induction intervals generalizing start with
  | nil => cases hi
  | cons j rest ih =>
    obtain ⟨hj, hpos, hinside, hrest⟩ := h
    rcases List.mem_cons.mp hi with rfl | hi
    · exact ⟨hj, hpos, hinside, hrest.start_le_stop⟩
    · obtain ⟨hstart, hi⟩ := ih hrest hi
      exact ⟨by omega, hi⟩

lemma Laid.concat (h : Laid size start intervals stop) {i : Interval} (hi : stop ≤ i.1)
    (hpos : 0 < i.2) (hinside : Inside size i) :
    Laid size start (intervals ++ [i]) (i.1 + i.2) := by
  induction intervals generalizing start with
  | nil => exact ⟨le_trans h hi, hpos, hinside, le_rfl⟩
  | cons j rest ih =>
    obtain ⟨hj, hjpos, hjinside, hrest⟩ := h
    exact ⟨hj, hjpos, hjinside, ih hrest⟩

lemma Laid.append_right {before : List Interval}
    (h : Laid size start (before ++ intervals) stop) : Laid size start intervals stop := by
  induction before generalizing start with
  | nil => exact h
  | cons i rest ih =>
    obtain ⟨hi, hpos, -, hrest⟩ := h
    exact (ih hrest).weaken (by omega) le_rfl

/-- What is left after the first intervals starts after each of them. -/
lemma Laid.of_append {before : List Interval}
    (h : Laid size start (before ++ intervals) stop) {i : Interval} (hi : i ∈ before) :
    Laid size (i.1 + i.2) intervals stop := by
  induction before generalizing start with
  | nil => cases hi
  | cons j rest ih =>
    obtain ⟨-, -, -, hrest⟩ := h
    rcases List.mem_cons.mp hi with rfl | hi
    · exact hrest.append_right
    · exact ih hrest hi

/-- All addresses may be counted from another lap on. -/
lemma Laid.shift (h : Laid size start intervals stop) :
    Laid size (start - size) (intervals.map fun i => (i.1 - size, i.2)) (stop - size) := by
  induction intervals generalizing start with
  | nil => exact sub_le_sub_right h size
  | cons i rest ih =>
    obtain ⟨hi, hpos, hinside, hrest⟩ := h
    refine ⟨sub_le_sub_right hi size, hpos, ?_, ?_⟩
    · simpa [Inside] using hinside
    · have heq : i.1 - size + i.2 = i.1 + i.2 - size := by omega
      change Laid size (i.1 - size + i.2) _ _
      rw [heq]
      exact ih hrest

/-- Two intervals of one window are apart: the later one is in the same lap behind the
earlier one, or in the next lap before it. -/
lemma apart_of_window (hsize : 0 < size) {i j : Interval} (hi : Inside size i)
    (hj : Inside size j) (horder : i.1 + i.2 ≤ j.1) (hwindow : j.1 + j.2 ≤ i.1 + size)
    (hpos : 0 < j.2) : Apart size i j := by
  have hieq := Int.emod_add_mul_ediv i.1 size
  have hjeq := Int.emod_add_mul_ediv j.1 size
  have hirem := Int.emod_nonneg i.1 hsize.ne'
  have hilt := Int.emod_lt_of_pos i.1 hsize
  have hjrem := Int.emod_nonneg j.1 hsize.ne'
  have hjlt := Int.emod_lt_of_pos j.1 hsize
  have hle : i.1 / size ≤ j.1 / size := Int.ediv_le_ediv hsize (by omega)
  have hnext : j.1 / size ≤ i.1 / size + 1 := by
    have hlap : (i.1 + 1 * size) / size = i.1 / size + 1 := Int.add_mul_ediv_right i.1 1 hsize.ne'
    rw [← hlap]
    exact Int.ediv_le_ediv hsize (by omega)
  have hiend : i.1 % size + i.2 ≤ size := hi
  have hjend : j.1 % size + j.2 ≤ size := hj
  rcases hle.eq_or_lt with hsame | hlt
  · left
    rw [hsame] at hieq
    omega
  · right
    have heq : j.1 / size = i.1 / size + 1 := by omega
    rw [heq, mul_add, mul_one] at hjeq
    omega

/-- Intervals laid in a window no longer than the buffer are pairwise apart. -/
theorem Laid.pairwise_apart (hsize : 0 < size) (h : Laid size start intervals stop)
    (hwindow : stop ≤ start + size) : intervals.Pairwise (Apart size) := by
  induction intervals generalizing start with
  | nil => exact List.Pairwise.nil
  | cons i rest ih =>
    obtain ⟨hi, hpos, hinside, hrest⟩ := h
    refine List.pairwise_cons.mpr ⟨fun j hj => ?_, ih hrest (by omega)⟩
    obtain ⟨hstart, hjpos, hjinside, hjstop⟩ := hrest.mem hj
    exact apart_of_window hsize hinside hjinside hstart (by omega) hjpos

/-- Two numbers less than a lap apart have different slots. -/
lemma slot_ne {laps t u : Nat} (h : t < u) (hwindow : u < t + laps) : t % laps ≠ u % laps := by
  intro heq
  have hdvd := Nat.dvd_of_mod_eq_zero (Nat.sub_mod_eq_zero_of_mod_eq heq.symm)
  have hle := Nat.le_of_dvd (Nat.sub_pos_of_lt h) hdvd
  omega

lemma slot_inj {laps t u w : Nat} (ht : t < w) (hu : u < w) (htwindow : w ≤ t + laps)
    (huwindow : w ≤ u + laps) (heq : t % laps = u % laps) : t = u := by
  rcases lt_trichotomy t u with hlt | heq' | hlt
  · exact absurd heq (slot_ne hlt (by omega))
  · exact heq'
  · exact absurd heq.symm (slot_ne hlt (by omega))

lemma slot_succ (laps t : Nat) : (t % laps + 1) % laps = (t + 1) % laps := Nat.mod_add_mod t laps 1

end CircularBuffer
