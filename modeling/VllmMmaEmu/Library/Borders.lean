import Mathlib.Data.List.Basic
import Mathlib.Data.List.Infix
import Mathlib.Data.Nat.Find
import Mathlib.Order.Bounds.Basic
import Mathlib.Tactic.ByContra

/-!
# Borders

A prefix of a word that stands again in front of a later position. The failure function of
the Knuth-Morris-Pratt matcher gives the longest such prefix of each prefix; here lengths are
capped, so a table of the first `cap` entries suffices.
-/

namespace Borders

variable {α : Type*} {xs : List α} {n m v w e cap : ℕ}

/-- The first `n` entries stand again in front of position `e`. -/
def Recurs (xs : List α) (n e : ℕ) : Prop :=
  n < e ∧ ∀ j < n, xs[j]? = xs[e - n + j]?

lemma recurs_zero (he : 0 < e) : Recurs xs 0 e :=
  ⟨he, fun j hj => absurd hj (Nat.not_lt_zero j)⟩

/-- One more entry on both sides. -/
lemma recurs_succ_iff : Recurs xs (n + 1) (e + 1) ↔ Recurs xs n e ∧ xs[n]? = xs[e]? := by
  constructor
  · rintro ⟨hlt, hall⟩
    have hshift : ∀ j, e + 1 - (n + 1) + j = e - n + j := fun j => by omega
    have hlast := hall n (Nat.lt_succ_self n)
    rw [hshift, show e - n + n = e by omega] at hlast
    exact ⟨⟨by omega, fun j hj => hshift j ▸ hall j (by omega)⟩, hlast⟩
  · rintro ⟨⟨hlt, hall⟩, hlast⟩
    refine ⟨by omega, fun j hj => ?_⟩
    rw [show e + 1 - (n + 1) + j = e - n + j by omega]
    rcases Nat.lt_succ_iff_lt_or_eq.mp hj with hj | rfl
    · exact hall j hj
    · rw [show e - j + j = e by omega]
      exact hlast

/-- A border of a border. -/
lemma Recurs.trans (h : Recurs xs m n) (h' : Recurs xs n e) : Recurs xs m e := by
  obtain ⟨hmn, hm⟩ := h
  obtain ⟨hne, hn⟩ := h'
  refine ⟨by omega, fun j hj => ?_⟩
  rw [hm j hj, hn (n - m + j) (by omega), show e - n + (n - m + j) = e - m + j by omega]

/-- Of two borders the shorter is one of the longer. -/
lemma Recurs.of_lt (h : Recurs xs m e) (h' : Recurs xs n e) (hlt : m < n) : Recurs xs m n := by
  refine ⟨hlt, fun j hj => ?_⟩
  rw [h.2 j hj, h'.2 (n - m + j) (by omega)]
  have := h'.1
  rw [show e - n + (n - m + j) = e - m + j by omega]

/-- The greatest length up to `cap` of a prefix that stands in front of `e`. -/
def IsLongest (xs : List α) (cap e v : ℕ) : Prop :=
  IsGreatest {n | n ≤ cap ∧ Recurs xs n e} v

/-- `v` is a border in front of `e`, and no longer one of length below `cap` extends. -/
structure Candidate (xs : List α) (cap e v : ℕ) : Prop where
  lt : v < cap
  recurs : Recurs xs v e
  bound : ∀ n < cap, Recurs xs (n + 1) (e + 1) → n ≤ v

lemma Candidate.start (hcap : 0 < cap) : Candidate xs cap 1 0 where
  lt := hcap
  recurs := recurs_zero Nat.one_pos
  bound n _ h := by
    have := (recurs_succ_iff.mp h).1.1
    omega

/-- The next entry extends the candidate. -/
lemma Candidate.extend (h : Candidate xs cap e v) (heq : xs[v]? = xs[e]?) :
    IsLongest xs cap (e + 1) (v + 1) := by
  refine ⟨⟨h.lt, recurs_succ_iff.mpr ⟨h.recurs, heq⟩⟩, ?_⟩
  rintro n ⟨hn, hrecurs⟩
  cases n with
  | zero => exact Nat.zero_le _
  | succ n => exact Nat.succ_le_succ (h.bound n hn hrecurs)

/-- The candidate does not extend; the next one is its own longest border. -/
lemma Candidate.fall (h : Candidate xs cap e v) (hne : xs[v]? ≠ xs[e]?)
    (hw : IsLongest xs cap v w) : Candidate xs cap e w where
  lt := lt_trans hw.1.2.1 h.lt
  recurs := hw.1.2.trans h.recurs
  bound n hn hrecurs := by
    obtain ⟨hborder, heq⟩ := recurs_succ_iff.mp hrecurs
    have hle := h.bound n hn hrecurs
    have hlt : n < v := lt_of_le_of_ne hle fun hnv => hne (hnv ▸ heq)
    exact hw.2 ⟨hn.le, hborder.of_lt h.recurs hlt⟩

/-- The empty prefix does not extend: there is no border in front of the next position. -/
lemma Candidate.dead (h : Candidate xs cap e 0) (hne : xs[0]? ≠ xs[e]?) :
    IsLongest xs cap (e + 1) 0 := by
  refine ⟨⟨Nat.zero_le _, recurs_zero (Nat.succ_pos e)⟩, ?_⟩
  rintro n ⟨hn, hrecurs⟩
  cases n with
  | zero => exact le_rfl
  | succ n =>
    obtain rfl := Nat.le_zero.mp (h.bound n hn hrecurs)
    exact absurd (recurs_succ_iff.mp hrecurs).2 hne

/-- A longest border below the cap is the next candidate. -/
lemma IsLongest.candidate (h : IsLongest xs cap e v) (hlt : v < cap) : Candidate xs cap e v where
  lt := hlt
  recurs := h.1.2
  bound _ hn hrecurs := h.2 ⟨hn.le, (recurs_succ_iff.mp hrecurs).1⟩

/-- At the cap the next candidate is the longest border of the capped prefix. -/
lemma IsLongest.candidate_of_cap (h : IsLongest xs cap e cap) (hw : IsLongest xs cap cap w) :
    Candidate xs cap e w where
  lt := hw.1.2.1
  recurs := hw.1.2.trans h.1.2
  bound _ hn hrecurs := hw.2 ⟨hn.le, (recurs_succ_iff.mp hrecurs).1.of_lt h.1.2 hn⟩

/-- Among the ends up to `e`, the longest capped border has length `longest`; unless that is
zero, its last end is just after `position`. -/
structure IsBest (xs : List α) (cap e longest position : ℕ) : Prop where
  le : longest ≤ cap
  bound : ∀ n ≤ cap, ∀ d ≤ e, Recurs xs n d → n ≤ longest
  lt : longest ≠ 0 → position < e
  recurs : longest ≠ 0 → Recurs xs longest (position + 1)
  last : longest ≠ 0 → ∀ d ≤ e, Recurs xs longest d → d ≤ position + 1

variable {longest position : ℕ}

lemma IsBest.start : IsBest xs cap 1 0 0 where
  le := Nat.zero_le cap
  bound n _ d hd h := by
    have := h.1
    omega
  lt h := absurd rfl h
  recurs h := absurd rfl h
  last h := absurd rfl h

/-- The border in front of the next end is at least as long as the best. -/
lemma IsBest.update (h : IsBest xs cap e longest position) (hv : IsLongest xs cap (e + 1) v)
    (hle : longest ≤ v) : IsBest xs cap (e + 1) v e where
  le := hv.1.1
  bound n hn d hd hrecurs := by
    rcases Nat.le_or_eq_of_le_succ hd with hd | rfl
    · exact (h.bound n hn d hd hrecurs).trans hle
    · exact hv.2 ⟨hn, hrecurs⟩
  lt _ := Nat.lt_succ_self e
  recurs _ := hv.1.2
  last _ d hd _ := hd

/-- The border in front of the next end is shorter than the best, or empty. -/
lemma IsBest.keep (h : IsBest xs cap e longest position) (hv : IsLongest xs cap (e + 1) v)
    (hlt : v < longest ∨ v = 0) : IsBest xs cap (e + 1) longest position where
  le := h.le
  bound n hn d hd hrecurs := by
    rcases Nat.le_or_eq_of_le_succ hd with hd | rfl
    · exact h.bound n hn d hd hrecurs
    · have := hv.2 ⟨hn, hrecurs⟩
      omega
  lt hne := Nat.lt_succ_of_lt (h.lt hne)
  recurs := h.recurs
  last hne d hd hrecurs := by
    rcases Nat.le_or_eq_of_le_succ hd with hd | rfl
    · exact h.last hne d hd hrecurs
    · have := hv.2 ⟨h.le, hrecurs⟩
      omega

end Borders
