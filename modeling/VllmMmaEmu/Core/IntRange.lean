import Mathlib.Algebra.Ring.Nat
import Mathlib.Data.Int.Notation
import Mathlib.Data.Nat.Notation
import Mathlib.Order.Basic
import Mathlib.Tactic.Lemma

/-!
# Range of `int`

The host wrappers narrow the tensor sizes to `int`, and the kernels compute every index in `int`. An
expression that exceeds its type has no defined value.
-/

namespace MmaEmu

/-- Conversion of a size to `int`. -/
def toInt32 (x : ℤ) : ℤ := x.bmod (2 ^ 32)

/-- The value of an index expression is an `int`. -/
def FitsInt (x : ℕ) : Prop := x ≤ 2 ^ 31 - 1

instance (x : ℕ) : Decidable (FitsInt x) := inferInstanceAs (Decidable (x ≤ 2 ^ 31 - 1))

lemma fitsInt_iff {x : ℕ} : FitsInt x ↔ x < 2 ^ 31 := by
  rw [FitsInt]
  omega

lemma FitsInt.mono {x y : ℕ} (h : FitsInt y) (hle : x ≤ y) : FitsInt x := le_trans hle h

lemma toInt32_eq_iff (n : ℕ) : toInt32 n = n ↔ n < 2 ^ 31 := by
  rw [toInt32, Int.bmod]
  omega

lemma forall_index_iff (rows cols : ℕ) :
    (∀ r < rows, ∀ c < cols, FitsInt (r * cols + c)) ↔ rows * cols ≤ 2 ^ 31 := by
  constructor
  · intro h
    rcases Nat.eq_zero_or_pos (rows * cols) with hzero | hpos
    · omega
    · obtain ⟨r, rfl⟩ := Nat.exists_eq_succ_of_ne_zero (Nat.pos_of_mul_pos_right hpos).ne'
      obtain ⟨c, rfl⟩ := Nat.exists_eq_succ_of_ne_zero (Nat.pos_of_mul_pos_left hpos).ne'
      have hlast := h r (Nat.lt_succ_self r) c (Nat.lt_succ_self c)
      rw [FitsInt] at hlast
      rw [Nat.succ_mul]
      omega
  · intro h r hr c hc
    have hrow : (r + 1) * cols ≤ rows * cols := Nat.mul_le_mul_right cols hr
    rw [Nat.succ_mul] at hrow
    rw [FitsInt]
    omega

end MmaEmu
