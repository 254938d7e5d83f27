import Mathlib.Data.Int.Log
import Mathlib.Data.Rat.Floor
import Mathlib.Tactic.Linarith
import Mathlib.Tactic.NormNum
import Mathlib.Tactic.Positivity
import Mathlib.Tactic.Ring

/-!
# Truncation of rationals to binary fixed point

`quanta p q` counts the whole multiples of `2^(-p)` in `q`. Binary right shifts
lower the precision `p`, so a chain of shifts is a single truncation of the
original rational. `signedQuanta` is the sign-magnitude form: it truncates toward
zero.
-/

namespace FixedPoint

/-- Whole multiples of `2^(-p)` below `q`. -/
def quanta (p : ℤ) (q : ℚ) : ℤ := ⌊q * 2 ^ p⌋

/-- The sign a sign-magnitude number carries; zero counts as positive. -/
def signOf (q : ℚ) : ℤ := if q < 0 then -1 else 1

/-- Truncation toward zero, counted in multiples of `2^(-p)`. -/
def signedQuanta (p : ℤ) (q : ℚ) : ℤ := signOf q * quanta p |q|

/-- Move an integer with `src` fractional bits to `dst` fractional bits. -/
def toRadix (src dst : ℕ) (x : ℤ) : ℤ :=
  if src ≤ dst then x <<< (dst - src) else x >>> (src - dst)

/-- `toRadix` on unsigned words. -/
def natToRadix (src dst x : ℕ) : ℕ :=
  if src ≤ dst then x <<< (dst - src) else x >>> (src - dst)

lemma natCast_natToRadix (src dst x : ℕ) : (natToRadix src dst x : ℤ) = toRadix src dst x := by
  unfold natToRadix toRadix
  split
  · rw [Int.shiftLeft_eq, Nat.shiftLeft_eq]
    push_cast
    rfl
  · rw [Int.shiftRight_eq_div_pow, Nat.shiftRight_eq_div_pow]
    push_cast
    rfl

lemma natToRadix_eq_zero_iff {src dst x : ℕ} : natToRadix src dst x = 0 ↔ x < 2 ^ (src - dst) := by
  unfold natToRadix
  split
  · rename_i h
    rw [Nat.shiftLeft_eq, Nat.sub_eq_zero_of_le h, pow_zero, Nat.lt_one_iff, Nat.mul_eq_zero]
    simp
  · rw [Nat.shiftRight_eq_div_pow, Nat.div_eq_zero_iff_lt (by positivity)]

lemma toRadix_natCast_eq_zero_iff {src dst x : ℕ} : toRadix src dst x = 0 ↔ x < 2 ^ (src - dst) := by
  rw [← natCast_natToRadix, Int.natCast_eq_zero, natToRadix_eq_zero_iff]

lemma zpow_two_pos (p : ℤ) : (0 : ℚ) < 2 ^ p := zpow_pos (by norm_num) p

lemma two_zpow_le_iff {q : ℚ} (hq : 0 < q) {e : ℤ} : 2 ^ e ≤ q ↔ e ≤ Int.log 2 q := by
  exact_mod_cast Int.zpow_le_iff_le_log (b := 2) (by norm_num) hq

lemma lt_two_zpow_iff {q : ℚ} (hq : 0 < q) {e : ℤ} : q < 2 ^ e ↔ Int.log 2 q < e := by
  exact_mod_cast Int.lt_zpow_iff_log_lt (b := 2) (by norm_num) hq

lemma quanta_nonneg {p : ℤ} {q : ℚ} (hq : 0 ≤ q) : 0 ≤ quanta p q :=
  Int.floor_nonneg.mpr (mul_nonneg hq (zpow_two_pos p).le)

lemma quanta_lt_iff {p : ℤ} {q : ℚ} {n : ℤ} : quanta p q < n ↔ q < n * 2 ^ (-p) := by
  rw [quanta, Int.floor_lt, zpow_neg, ← div_eq_mul_inv, lt_div_iff₀ (zpow_two_pos p)]

lemma le_quanta_iff {p : ℤ} {q : ℚ} {n : ℤ} : n ≤ quanta p q ↔ n * 2 ^ (-p) ≤ q := by
  rw [quanta, Int.le_floor, zpow_neg, ← div_eq_mul_inv, div_le_iff₀ (zpow_two_pos p)]

@[simp] lemma quanta_zero (p : ℤ) : quanta p 0 = 0 := by simp [quanta]

@[simp] lemma signedQuanta_zero (p : ℤ) : signedQuanta p 0 = 0 := by simp [signedQuanta]

/-- A value on the grid is recovered from its count. -/
lemma quanta_intCast_mul (p : ℤ) (n : ℤ) : quanta p (n * 2 ^ (-p)) = n := by
  have hone : (2 : ℚ) ^ (-p) * 2 ^ p = 1 := by
    rw [← zpow_add₀ (by norm_num : (2 : ℚ) ≠ 0)]; simp
  rw [quanta, mul_assoc, hone, mul_one, Int.floor_intCast]

lemma signedQuanta_intCast_mul (p : ℤ) (n : ℤ) : signedQuanta p (n * 2 ^ (-p)) = n := by
  have hpos := zpow_two_pos (-p)
  have habs : |(n : ℚ) * 2 ^ (-p)| = (|n| : ℤ) * 2 ^ (-p) := by
    rw [abs_mul, abs_of_pos hpos, Int.cast_abs]
  rw [signedQuanta, habs, quanta_intCast_mul, signOf]
  rcases lt_or_ge n 0 with hn | hn
  · rw [if_pos (mul_neg_of_neg_of_pos (by exact_mod_cast hn) hpos), abs_of_neg hn]
    ring
  · rw [if_neg (not_lt.mpr (mul_nonneg (by exact_mod_cast hn) hpos.le)), abs_of_nonneg hn, one_mul]

lemma quanta_mul_zpow (p e : ℤ) (q : ℚ) : quanta p (q * 2 ^ e) = quanta (p + e) q := by
  rw [quanta, quanta, mul_assoc, ← zpow_add₀ (by norm_num : (2 : ℚ) ≠ 0), add_comm e p]

lemma quanta_shiftRight (p : ℤ) (q : ℚ) (n : ℕ) : quanta p q >>> n = quanta (p - n) q := by
  have hpow : q * 2 ^ (p - n) = q * 2 ^ p / ((2 ^ n : ℕ) : ℚ) := by
    rw [zpow_sub₀ (by norm_num : (2 : ℚ) ≠ 0), zpow_natCast, mul_div_assoc]
    push_cast
    rfl
  rw [Int.shiftRight_eq_div_pow, quanta, quanta, hpow, Int.floor_div_natCast]

/-- Shifting by too many places is the same as answering zero. -/
lemma quanta_eq_zero_of_lt {p : ℤ} {q : ℚ} (hq : 0 ≤ q) (n : ℕ)
    (bound : quanta p q < 2 ^ n) {m : ℤ} (hm : m ≤ p - n) : quanta m q = 0 := by
  have hlt : quanta m q < 1 := by
    rw [quanta_lt_iff] at bound ⊢
    calc q < (2 ^ n : ℤ) * 2 ^ (-p) := bound
      _ = 2 ^ (n - p : ℤ) := by
        rw [zpow_sub₀ (by norm_num : (2 : ℚ) ≠ 0), zpow_neg, zpow_natCast]
        push_cast
        ring
      _ ≤ 2 ^ (-m) := zpow_le_zpow_right₀ (by norm_num) (by omega)
      _ = (1 : ℤ) * 2 ^ (-m) := by simp
  have := quanta_nonneg (p := m) hq
  omega

/-- Changing the radix of an integer truncates the rational it stands for. -/
lemma toRadix_eq_quanta (src dst : ℕ) (x : ℤ) :
    toRadix src dst x = quanta dst (x * 2 ^ (-(src : ℤ))) := by
  rw [quanta_mul_zpow, toRadix]
  split
  · rename_i h
    have hpow : ((dst : ℤ) + -(src : ℤ)) = ((dst - src : ℕ) : ℤ) := by omega
    rw [Int.shiftLeft_eq, quanta, hpow, zpow_natCast]
    exact_mod_cast (Int.floor_intCast (R := ℚ) (x * 2 ^ (dst - src))).symm
  · rename_i h
    have hx : x = quanta 0 x := by simp [quanta]
    have hpow : ((dst : ℤ) + -(src : ℤ)) = 0 - ((src - dst : ℕ) : ℤ) := by omega
    conv_lhs => rw [hx]
    rw [quanta_shiftRight, hpow]

lemma toRadix_lt (src dst : ℕ) {n : ℕ} {x : ℤ} (nonneg : 0 ≤ x) (hx : x < 2 ^ n) :
    toRadix src dst x < 2 ^ (n + (dst - src)) := by
  rw [toRadix]
  split
  · rw [Int.shiftLeft_eq, pow_add]
    exact mul_lt_mul_of_pos_right hx (by positivity)
  · rename_i h
    rw [Int.shiftRight_eq_div_pow, show dst - src = 0 by omega, add_zero]
    exact lt_of_le_of_lt (Int.ediv_le_self _ nonneg) hx

/-- A sign-magnitude number with `r` fractional bits at exponent `x`, cut to `F` bits. -/
lemma quanta_signed {F r : ℕ} {s : ℤ} (hs : s = 1 ∨ s = -1) {m : ℕ} (hm : m ≠ 0) {x : ℤ} {v : ℚ}
    (hv : v = s * m * 2 ^ (x - r)) :
    signOf v = s ∧ quanta (F - x) |v| = toRadix r F m := by
  have hpos : (0 : ℚ) < m * 2 ^ (x - r) :=
    mul_pos (by exact_mod_cast Nat.pos_of_ne_zero hm) (zpow_two_pos _)
  have habs : |v| = m * 2 ^ (x - r) := by
    rcases hs with rfl | rfl
    · rw [hv, Int.cast_one, one_mul, abs_of_pos hpos]
    · rw [hv, Int.cast_neg, Int.cast_one, neg_one_mul, neg_mul, abs_neg, abs_of_pos hpos]
  constructor
  · rcases hs with rfl | rfl
    · rw [hv, Int.cast_one, one_mul, signOf, if_neg (not_lt.mpr hpos.le)]
    · rw [hv, Int.cast_neg, Int.cast_one, neg_one_mul, neg_mul, signOf, if_pos (neg_neg_of_pos hpos)]
  · rw [habs, toRadix_eq_quanta, quanta_mul_zpow, quanta_mul_zpow]
    congr 1
    ring

lemma quanta_natCast_shiftRight (a n : ℕ) : ((a >>> n : ℕ) : ℤ) = quanta (-(n : ℤ)) a := by
  have hbase : quanta 0 a = a := by simp [quanta]
  have h := quanta_shiftRight 0 (a : ℚ) n
  rw [hbase, zero_sub] at h
  rw [← h, Int.shiftRight_eq_div_pow, Nat.shiftRight_eq_div_pow]
  push_cast
  rfl

lemma quanta_natCast_shiftLeft (a n : ℕ) : ((a <<< n : ℕ) : ℤ) = quanta n a := by
  rw [quanta, zpow_natCast, Nat.shiftLeft_eq]
  exact_mod_cast (Int.floor_natCast (R := ℚ) (a * 2 ^ n)).symm

/-- Leading bit of a scaled natural number. -/
lemma log_natCast_mul_zpow {a : ℕ} (ha : a ≠ 0) (e : ℤ) :
    Int.log 2 ((a : ℚ) * 2 ^ e) = a.log2 + e := by
  have hpos : (0 : ℚ) < a * 2 ^ e :=
    mul_pos (by exact_mod_cast Nat.pos_of_ne_zero ha) (zpow_two_pos e)
  have hlow : (2 : ℚ) ^ (a.log2 + e) ≤ a * 2 ^ e := by
    rw [zpow_add₀ (by norm_num : (2 : ℚ) ≠ 0), zpow_natCast]
    exact mul_le_mul_of_nonneg_right (by exact_mod_cast Nat.log2_self_le ha) (zpow_two_pos e).le
  have hhigh : (a : ℚ) * 2 ^ e < 2 ^ (a.log2 + 1 + e) := by
    rw [zpow_add₀ (by norm_num : (2 : ℚ) ≠ 0), ← Nat.cast_succ, zpow_natCast]
    exact mul_lt_mul_of_pos_right (by exact_mod_cast Nat.lt_log2_self) (zpow_two_pos e)
  have h1 := (two_zpow_le_iff hpos).mp hlow
  have h2 := (lt_two_zpow_iff hpos).mp hhigh
  omega

end FixedPoint
