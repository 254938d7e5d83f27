import VllmMmaEmu.Library.FixedPoint
import Mathlib.Tactic.IntervalCases

/-!
# The binary32 interchange format

Bit patterns are read through their three fields. `decode` is injective away
from the NaN patterns, so an equation between decoded data is an equation
between bit patterns. `chop F` truncates a rational toward zero to the binary32
number that keeps at most `F` fractional bits of its leading binade.
-/

namespace Binary32

open FixedPoint

def negative (b : BitVec 32) : Bool := decide (2 ^ 31 ≤ b.toNat)

def expField (b : BitVec 32) : ℕ := b.toNat / 2 ^ 23 % 2 ^ 8

def fracField (b : BitVec 32) : ℕ := b.toNat % 2 ^ 23

def pack (neg : Bool) (e f : ℕ) : BitVec 32 :=
  BitVec.ofNat 32 (neg.toNat * 2 ^ 31 + e * 2 ^ 23 + f)

/-- Subnormals and zeros are read at the exponent of the smallest normal binade. -/
def exponent (b : BitVec 32) : ℤ := max (expField b : ℤ) 1 - 127

/-- The significand as an integer with 23 fractional bits. -/
def significand (b : BitVec 32) : ℕ :=
  if expField b = 0 then fracField b else 2 ^ 23 + fracField b

def magnitude (b : BitVec 32) : ℚ := significand b * 2 ^ (exponent b - 23)

def value (b : BitVec 32) : ℚ := if negative b then -magnitude b else magnitude b

/-- What a bit pattern stands for; the two zeros differ in their sign. -/
inductive Datum where
  | nan
  | infinite (neg : Bool)
  | finite (neg : Bool) (magnitude : ℚ)
  deriving DecidableEq

def decode (b : BitVec 32) : Datum :=
  if expField b = 255 then
    if fracField b = 0 then .infinite (negative b) else .nan
  else .finite (negative b) (magnitude b)

def IsFinite (b : BitVec 32) : Prop := expField b ≠ 255

def IsNan (b : BitVec 32) : Prop := expField b = 255 ∧ fracField b ≠ 0

instance (b : BitVec 32) : Decidable (IsFinite b) := inferInstanceAs (Decidable (_ ≠ _))
instance (b : BitVec 32) : Decidable (IsNan b) := inferInstanceAs (Decidable (_ ∧ _))

lemma expField_lt (b : BitVec 32) : expField b < 256 := Nat.mod_lt _ (by norm_num)

lemma fracField_lt (b : BitVec 32) : fracField b < 2 ^ 23 := Nat.mod_lt _ (by norm_num)

lemma significand_lt (b : BitVec 32) : significand b < 2 ^ 24 := by
  have := fracField_lt b
  unfold significand
  split <;> omega

lemma toNat_eq_fields (b : BitVec 32) :
    b.toNat = (negative b).toNat * 2 ^ 31 + expField b * 2 ^ 23 + fracField b := by
  have hb := b.isLt
  unfold negative expField fracField
  by_cases h : 2 ^ 31 ≤ b.toNat
  · simp only [h, decide_true, Bool.toNat_true]
    omega
  · simp only [h, decide_false, Bool.toNat_false]
    omega

section Pack
variable {neg : Bool} {e f : ℕ} (he : e < 256) (hf : f < 2 ^ 23)
include he hf

lemma toNat_pack : (pack neg e f).toNat = neg.toNat * 2 ^ 31 + e * 2 ^ 23 + f := by
  have hn : neg.toNat ≤ 1 := Bool.toNat_le neg
  rw [pack, BitVec.toNat_ofNat, Nat.mod_eq_of_lt]
  omega

lemma negative_pack : negative (pack neg e f) = neg := by
  rw [negative, toNat_pack he hf]
  cases neg <;> simp <;> omega

lemma expField_pack : expField (pack neg e f) = e := by
  rw [expField, toNat_pack he hf]
  cases neg <;> simp <;> omega

lemma fracField_pack : fracField (pack neg e f) = f := by
  rw [fracField, toNat_pack he hf]
  cases neg <;> simp <;> omega

end Pack

lemma eq_of_fields {a b : BitVec 32} (hs : negative a = negative b)
    (he : expField a = expField b) (hf : fracField a = fracField b) : a = b := by
  apply BitVec.eq_of_toNat_eq
  rw [toNat_eq_fields a, toNat_eq_fields b, hs, he, hf]

lemma decode_eq_nan_iff (b : BitVec 32) : decode b = .nan ↔ IsNan b := by
  unfold decode IsNan
  split
  · rename_i h
    split <;> simp_all
  · rename_i h
    simp [h]

lemma decode_of_finite {b : BitVec 32} (h : IsFinite b) :
    decode b = .finite (negative b) (magnitude b) := if_neg h

lemma magnitude_nonneg (b : BitVec 32) : 0 ≤ magnitude b :=
  mul_nonneg (Nat.cast_nonneg _) (zpow_two_pos _).le

lemma abs_value (b : BitVec 32) : |value b| = magnitude b := by
  unfold value
  split
  · rw [abs_neg, abs_of_nonneg (magnitude_nonneg b)]
  · rw [abs_of_nonneg (magnitude_nonneg b)]

lemma magnitude_eq_zero_iff (b : BitVec 32) : magnitude b = 0 ↔ significand b = 0 := by
  have h := (zpow_two_pos (exponent b - 23)).ne'
  simp [magnitude, h]

lemma value_eq_zero_iff (b : BitVec 32) : value b = 0 ↔ significand b = 0 := by
  rw [← magnitude_eq_zero_iff, ← abs_value, abs_eq_zero]

lemma value_neg_iff {b : BitVec 32} (h : value b ≠ 0) : value b < 0 ↔ negative b = true := by
  have hm : 0 < magnitude b := by
    rw [← abs_value]
    exact abs_pos.mpr h
  unfold value
  split
  · rename_i hn
    simp [hn, hm]
  · rename_i hn
    simp [hn, hm.le]

lemma significand_eq_zero_iff (b : BitVec 32) :
    significand b = 0 ↔ expField b = 0 ∧ fracField b = 0 := by
  unfold significand
  split
  · rename_i h
    simp [h]
  · rename_i h
    simp only [h, false_and, iff_false]
    omega

/-- Normal numbers fill their binade from below. -/
lemma significand_ge {b : BitVec 32} (h : -126 < exponent b) : 2 ^ 23 ≤ significand b := by
  unfold exponent at h
  unfold significand
  split <;> omega

lemma exponent_ge (b : BitVec 32) : -126 ≤ exponent b := by
  unfold exponent
  omega

lemma magnitude_lt (b : BitVec 32) : magnitude b < 2 ^ (exponent b + 1) := by
  have hs : (significand b : ℚ) < 2 ^ (24 : ℤ) := by exact_mod_cast significand_lt b
  calc magnitude b < 2 ^ (24 : ℤ) * 2 ^ (exponent b - 23) :=
        mul_lt_mul_of_pos_right hs (zpow_two_pos _)
    _ = 2 ^ (exponent b + 1) := by
        rw [← zpow_add₀ (by norm_num : (2 : ℚ) ≠ 0)]
        congr 1
        ring

lemma le_magnitude {b : BitVec 32} (h : 2 ^ 23 ≤ significand b) :
    2 ^ exponent b ≤ magnitude b := by
  have hs : (2 : ℚ) ^ (23 : ℤ) ≤ significand b := by exact_mod_cast h
  calc (2 : ℚ) ^ exponent b = 2 ^ (23 : ℤ) * 2 ^ (exponent b - 23) := by
        rw [← zpow_add₀ (by norm_num : (2 : ℚ) ≠ 0)]
        congr 1
        ring
    _ ≤ magnitude b := mul_le_mul_of_nonneg_right hs (zpow_two_pos _).le

/-- The exponent of a pattern is the binade of its magnitude, cut off at `-126`. -/
lemma max_log_magnitude {b : BitVec 32} (h : magnitude b ≠ 0) :
    max (Int.log 2 (magnitude b)) (-126) = exponent b := by
  have hpos : 0 < magnitude b := lt_of_le_of_ne (magnitude_nonneg b) h.symm
  have hlow : Int.log 2 (magnitude b) ≤ exponent b := by
    have := (lt_two_zpow_iff hpos).mp (magnitude_lt b)
    omega
  by_cases hs : 2 ^ 23 ≤ significand b
  · have hhigh : exponent b ≤ Int.log 2 (magnitude b) :=
      (two_zpow_le_iff hpos).mp (le_magnitude hs)
    have := exponent_ge b
    omega
  · have hexp : exponent b = -126 := by
      have := exponent_ge b
      by_contra hne
      exact hs (significand_ge (by omega))
    rw [hexp] at hlow ⊢
    exact max_eq_right hlow

lemma significand_exponent_of_magnitude {a b : BitVec 32} (h : magnitude a = magnitude b) :
    exponent a = exponent b ∧ significand a = significand b := by
  by_cases hz : magnitude a = 0
  · have ha := (magnitude_eq_zero_iff a).mp hz
    have hb := (magnitude_eq_zero_iff b).mp (h.symm.trans hz)
    refine ⟨?_, ha.trans hb.symm⟩
    rw [significand_eq_zero_iff] at ha hb
    simp [exponent, ha.1, hb.1]
  · have he : exponent a = exponent b := by
      rw [← max_log_magnitude hz, h, max_log_magnitude (h ▸ hz)]
    refine ⟨he, ?_⟩
    have hs : (significand a : ℚ) * 2 ^ (exponent a - 23) =
        significand b * 2 ^ (exponent a - 23) := by
      have h' := h
      unfold magnitude at h'
      rwa [← he] at h'
    exact_mod_cast mul_right_cancel₀ (zpow_two_pos _).ne' hs

/-- Distinct patterns stand for distinct data, NaN patterns apart. -/
theorem decode_injective {a b : BitVec 32} (h : decode a = decode b)
    (notNan : decode a ≠ .nan) : a = b := by
  unfold decode at h notNan
  have hfa := fracField_lt a
  have hfb := fracField_lt b
  by_cases ha : expField a = 255 <;> by_cases hb : expField b = 255
  · simp only [ha, hb, if_true] at h notNan
    split at h
    · rename_i hz
      split at h
      · rename_i hz'
        exact eq_of_fields (by simpa using h) (ha.trans hb.symm) (hz.trans hz'.symm)
      · cases h
    · rename_i hz
      exact absurd (if_neg hz) notNan
  · simp only [ha, hb, if_true, if_false] at h
    split at h <;> cases h
  · simp only [ha, hb, if_true, if_false] at h
    split at h <;> cases h
  · simp only [ha, hb, if_false, Datum.finite.injEq] at h
    obtain ⟨he, hs⟩ := significand_exponent_of_magnitude h.2
    unfold exponent at he
    unfold significand at hs
    refine eq_of_fields h.1 ?_ ?_
    · split at hs <;> split at hs <;> omega
    · split at hs <;> split at hs <;> omega

/-- Truncation toward zero: overflow gives an infinity, a result below the grid gives `+0`. -/
def chop (F : ℕ) (q : ℚ) : Datum :=
  if q = 0 then .finite false 0
  else if 2 ^ 128 ≤ |q| then .infinite (decide (q < 0))
  else
    let p : ℤ := (min F 23 : ℕ) - max (Int.log 2 |q|) (-126)
    if quanta p |q| = 0 then .finite false 0
    else .finite (decide (q < 0)) (quanta p |q| * 2 ^ (-p))

lemma chop_ne_nan (F : ℕ) (q : ℚ) : chop F q ≠ .nan := by
  unfold chop
  dsimp only
  split
  · simp
  · split
    · simp
    · split <;> simp

lemma chop_of_overflow (F : ℕ) {q : ℚ} (h : 2 ^ 128 ≤ |q|) :
    chop F q = .infinite (decide (q < 0)) := by
  have hq : q ≠ 0 := by
    rintro rfl
    norm_num at h
  rw [chop, if_neg hq, if_pos h]

lemma chop_of_lt {F : ℕ} {q : ℚ} (hq : q ≠ 0) (h : |q| < 2 ^ 128) {p : ℤ}
    (hp : p = (min F 23 : ℕ) - max (Int.log 2 |q|) (-126)) :
    chop F q = if quanta p |q| = 0 then .finite false 0
      else .finite (decide (q < 0)) (quanta p |q| * 2 ^ (-p)) := by
  subst hp
  rw [chop, if_neg hq, if_neg (not_le.mpr h)]

lemma chop_finite (F : ℕ) {q : ℚ} (h : |q| < 2 ^ 128) : ∃ neg m, chop F q = .finite neg m := by
  by_cases hq : q = 0
  · exact ⟨false, 0, if_pos hq⟩
  · rw [chop_of_lt hq h rfl]
    split
    · exact ⟨false, 0, rfl⟩
    · exact ⟨_, _, rfl⟩

lemma isFinite_of_decode_eq_chop {F : ℕ} {b : BitVec 32} {q : ℚ} (h : decode b = chop F q)
    (hq : |q| < 2 ^ 128) : IsFinite b := by
  intro hexp
  obtain ⟨neg, m, hchop⟩ := chop_finite F hq
  rw [hchop, decode, if_pos hexp] at h
  split at h <;> cases h

/-- Truncation never produces a negative zero. -/
lemma neg_eq_false_of_chop {F : ℕ} {q : ℚ} {neg : Bool} (h : chop F q = .finite neg 0) :
    neg = false := by
  unfold chop at h
  dsimp only at h
  split at h
  · exact (Datum.finite.inj h).1.symm
  · split at h
    · cases h
    · split at h
      · exact (Datum.finite.inj h).1.symm
      · rename_i hz
        exact absurd (Datum.finite.inj h).2
          (mul_ne_zero (by exact_mod_cast hz) (zpow_two_pos _).ne')

/-- Magnitudes that `chop F` leaves alone. -/
def OnGrid (F : ℕ) (b : BitVec 32) : Prop :=
  ∃ n : ℤ, magnitude b = n * 2 ^ (exponent b - (min F 23 : ℕ))

lemma log_quanta {q : ℚ} (hq : 0 < q) {p : ℤ} (hp : -p ≤ Int.log 2 q) :
    Int.log 2 ((quanta p q : ℚ) * 2 ^ (-p)) = Int.log 2 q := by
  have hlow : (2 : ℚ) ^ Int.log 2 q ≤ quanta p q * 2 ^ (-p) := by
    obtain ⟨k, hk⟩ := Int.eq_ofNat_of_zero_le (show 0 ≤ Int.log 2 q + p by omega)
    have hpow : (2 : ℚ) ^ Int.log 2 q = ((2 ^ k : ℤ) : ℚ) * 2 ^ (-p) := by
      push_cast
      rw [← zpow_natCast, ← zpow_add₀ (by norm_num : (2 : ℚ) ≠ 0)]
      congr 1
      omega
    rw [hpow]
    apply mul_le_mul_of_nonneg_right _ (zpow_two_pos _).le
    have : (2 ^ k : ℤ) ≤ quanta p q := by
      rw [le_quanta_iff, ← hpow]
      exact (two_zpow_le_iff hq).mpr le_rfl
    exact_mod_cast this
  have hhigh : (quanta p q : ℚ) * 2 ^ (-p) ≤ q := le_quanta_iff.mp le_rfl
  have hpos : (0 : ℚ) < quanta p q * 2 ^ (-p) := lt_of_lt_of_le (zpow_two_pos _) hlow
  apply le_antisymm
  · exact Int.log_mono_right hpos hhigh
  · exact (two_zpow_le_iff hpos).mp hlow

/-- A finite result of truncation stays on its grid. -/
theorem onGrid_of_decode_eq_chop {F : ℕ} {b : BitVec 32} {q : ℚ}
    (h : decode b = chop F q) (hb : IsFinite b) : OnGrid F b := by
  rw [decode_of_finite hb] at h
  unfold chop at h
  dsimp only at h
  split at h
  · obtain ⟨-, hm⟩ := Datum.finite.inj h
    exact ⟨0, by simp [hm]⟩
  · rename_i hq
    split at h
    · cases h
    · rename_i hover
      split at h
      · obtain ⟨-, hm⟩ := Datum.finite.inj h
        exact ⟨0, by simp [hm]⟩
      · rename_i hz
        obtain ⟨-, hm⟩ := Datum.finite.inj h
        set p : ℤ := (min F 23 : ℕ) - max (Int.log 2 |q|) (-126) with hp
        have hpos : 0 < |q| := abs_pos.mpr hq
        refine ⟨quanta p |q|, ?_⟩
        have hne : magnitude b ≠ 0 := by
          rw [hm]
          exact mul_ne_zero (by exact_mod_cast hz) (zpow_two_pos _).ne'
        have hexp : exponent b = max (Int.log 2 |q|) (-126) := by
          rw [← max_log_magnitude hne, hm]
          by_cases hlog : -126 ≤ Int.log 2 |q|
          · rw [log_quanta hpos (by omega)]
          · have hle : Int.log 2 ((quanta p |q| : ℚ) * 2 ^ (-p)) ≤ Int.log 2 |q| :=
              Int.log_mono_right (lt_of_le_of_ne (by rw [← hm]; exact magnitude_nonneg b)
                (by rw [← hm]; exact hne.symm)) (le_quanta_iff.mp le_rfl)
            omega
        rw [hm, hexp]
        congr 2
        omega

/-- Truncation is the identity on finite patterns of its grid, negative zero apart. -/
theorem chop_value {F : ℕ} {b : BitVec 32} (hb : IsFinite b) (grid : OnGrid F b)
    (hne : value b ≠ 0) : chop F (value b) = decode b := by
  obtain ⟨n, hn⟩ := grid
  have hmag : magnitude b ≠ 0 := by
    rw [← abs_value]
    exact abs_ne_zero.mpr hne
  have hover : ¬ (2 : ℚ) ^ 128 ≤ |value b| := by
    rw [abs_value, not_le]
    have hexp : exponent b + 1 ≤ 128 := by
      have := expField_lt b
      unfold IsFinite at hb
      unfold exponent
      omega
    calc magnitude b < 2 ^ (exponent b + 1) := magnitude_lt b
      _ ≤ 2 ^ (128 : ℤ) := zpow_le_zpow_right₀ (by norm_num) hexp
      _ = 2 ^ 128 := by norm_cast
  have hcount : quanta ((min F 23 : ℕ) - exponent b) (magnitude b) = n := by
    rw [hn, show exponent b - (min F 23 : ℕ) = -((min F 23 : ℕ) - exponent b) by ring]
    exact quanta_intCast_mul _ n
  have hn0 : n ≠ 0 := by
    rintro rfl
    exact hmag (by simpa using hn)
  unfold chop
  dsimp only
  rw [if_neg hne, if_neg hover, abs_value, max_log_magnitude hmag, hcount, if_neg hn0,
    decode_of_finite hb, neg_sub, ← hn]
  congr 1
  have := value_neg_iff hne
  cases hneg : negative b <;> simp_all

end Binary32
