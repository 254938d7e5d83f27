import Mathlib.Order.Bounds.Basic
import Mathlib.Tactic.Linarith

/-!
# Bisection

The search for the greatest number up to a bound that fits, where everything below a number
that fits does. The last number that was probed is followed as well: it is the bound exactly
when the number before the bound fits.
-/

namespace Bisection

/-- Whatever is below a number that fits does. -/
def Closed (fits : ℕ → Prop) : Prop := ∀ ⦃m n⦄, m ≤ n → fits n → fits m

/-- The interval of the search between two probes. -/
structure Searching (fits : ℕ → Prop) (bound left right result last : ℕ) : Prop where
  left_pos : 1 ≤ left
  left_le : left ≤ right + 1
  right_le : right ≤ bound
  result_eq : result = max 1 (left - 1)
  low : fits result
  high : right < bound → ¬ fits (right + 1)
  probed : last = bound → bound = 1 ∨ fits (bound - 1)
  /-- Right before the bound nothing is left to probe. -/
  tight : right < bound → bound ≤ right + 1 → left = bound ∧ last = bound
  beyond : bound < left → last = bound

variable {fits : ℕ → Prop} {bound left right result last : ℕ}

/-- Before the first pass; one was probed. -/
lemma Searching.start (hbound : 1 ≤ bound) (hone : fits 1) :
    Searching fits bound 1 bound 1 1 where
  left_pos := le_rfl
  left_le := Nat.le_add_left 1 bound
  right_le := le_rfl
  result_eq := rfl
  low := hone
  high h := absurd h (lt_irrefl bound)
  probed h := Or.inl h.symm
  tight h := absurd h (lt_irrefl bound)
  beyond h := by omega

/-- The bound is probed only after the number before it. -/
lemma Searching.probed_middle (h : Searching fits bound left right result last)
    (hle : left ≤ right) (heq : (left + right) / 2 = bound) : bound = 1 ∨ fits (bound - 1) := by
  have hright := h.right_le
  have hlow := h.low
  rw [h.result_eq, show left = bound by omega] at hlow
  rcases Nat.lt_or_ge 1 bound with hmany | hone
  · rw [max_eq_right (by omega)] at hlow
    exact Or.inr hlow
  · have := h.left_pos
    exact Or.inl (by omega)

/-- The middle fits: the search goes on above it. -/
lemma Searching.accept (h : Searching fits bound left right result last) (hle : left ≤ right)
    (hfits : fits ((left + right) / 2)) :
    Searching fits bound ((left + right) / 2 + 1) right ((left + right) / 2)
      ((left + right) / 2) := by
  have hpos := h.left_pos
  have hright := h.right_le
  exact {
    left_pos := Nat.le_add_left 1 _
    left_le := by omega
    right_le := hright
    result_eq := by omega
    low := hfits
    high := h.high
    probed := h.probed_middle hle
    tight := fun hlt hge => by
      have := (h.tight hlt hge).1
      omega
    beyond := fun hover => by omega }

/-- The middle does not fit: the search goes on below it. -/
lemma Searching.reject (h : Searching fits bound left right result last) (hle : left ≤ right)
    (hfits : ¬ fits ((left + right) / 2)) :
    Searching fits bound left ((left + right) / 2 - 1) result ((left + right) / 2) := by
  have hpos := h.left_pos
  have hright := h.right_le
  exact {
    left_pos := hpos
    left_le := by omega
    right_le := by omega
    result_eq := h.result_eq
    low := h.low
    high := fun _ => by rwa [Nat.sub_add_cancel (by omega)]
    probed := h.probed_middle hle
    tight := fun _ _ => by omega
    beyond := fun hover => by omega }

/-- The search ends with the greatest number that fits. -/
lemma Searching.isGreatest (h : Searching fits bound left right result last)
    (hend : right < left) (hclosed : Closed fits) (hbound : 1 ≤ bound) :
    IsGreatest {n | 1 ≤ n ∧ n ≤ bound ∧ fits n} result := by
  have hleft := h.left_le
  have hright := h.right_le
  have hresult := h.result_eq
  have hlow := h.low
  have hmoved : right ≠ 0 := by
    intro hzero
    rw [hresult, show max 1 (left - 1) = right + 1 by omega] at hlow
    exact h.high (by omega) hlow
  refine ⟨⟨by omega, by omega, hlow⟩, ?_⟩
  rintro n ⟨-, hn, hfits⟩
  by_contra hlt
  exact h.high (by omega) (hclosed (by omega) hfits)

/-- The last number probed is the bound exactly when the number before the bound fits. -/
lemma Searching.last_eq_iff (h : Searching fits bound left right result last)
    (hend : right < left) (hclosed : Closed fits) (hbound : 1 ≤ bound) :
    last = bound ↔ bound = 1 ∨ fits (bound - 1) := by
  refine ⟨h.probed, fun hfits => ?_⟩
  have hleft := h.left_le
  have hright := h.right_le
  by_cases hfull : right = bound
  · exact h.beyond (by omega)
  · refine (h.tight (by omega) ?_).2
    rcases hfits with hone | hfits
    · omega
    · by_contra hlt
      exact h.high (by omega) (hclosed (by omega) hfits)

end Bisection
