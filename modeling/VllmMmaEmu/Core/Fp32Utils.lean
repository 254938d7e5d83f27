import VllmMmaEmu.Core.Types
import VllmMmaEmu.Library.Binary32
import Mathlib.Data.Nat.Bitwise

/-!
# FP32 bit manipulation

`fp32ToOperand` splits an accumulator into sign, exponent and `F`-bit
significand; `fixedToFp32` packs a fixed-point sum back. The second half of the
module reads both against the rational meaning of the bit patterns: each one
truncates exactly once.
-/

namespace MmaEmu

open FixedPoint Binary32

def signMask : BitVec 32 := 0x80000000#32
def absMask : BitVec 32 := 0x7FFFFFFF#32
def mantissaMask : BitVec 32 := 0x007FFFFF#32
def implicitBit : ℕ := 0x00800000
def exponentBias : ℤ := 127
def mantissaBits : ℕ := 23
def minNormalExp : ℤ := -126
def maxBiasedExp : ℕ := 255
def posInfBits : Fp32 := 0x7F800000#32
def negInfBits : Fp32 := 0xFF800000#32
def qnanBits : Fp32 := 0x7FFFFFFF#32

/-- `val == 0.0f`: true of both zeros and of nothing else. -/
def fp32IsZero (val : Fp32) : Bool := val &&& absMask == 0#32

def fp32ToOperand (F : ℕ) (val : Fp32) : Operand :=
  if fp32IsZero val then makeZeroOperand
  else
    let sign : ℤ := if val &&& signMask != 0#32 then -1 else 1
    let absBits := val &&& absMask
    let biasedExp := ((absBits >>> mantissaBits) &&& 0xFF#32).toNat
    let mantissa := (absBits &&& mantissaMask).toNat
    if biasedExp = maxBiasedExp then
      ⟨sign, 0, 0, false, mantissa != 0, mantissa == 0⟩
    else if biasedExp = 0 then
      -- subnormals stay at exponent -126 without the implicit bit
      ⟨sign, minNormalExp, toRadix mantissaBits F mantissa, mantissa == 0, false, false⟩
    else
      ⟨sign, biasedExp - exponentBias, toRadix mantissaBits F (implicitBit + mantissa : ℕ),
        false, false, false⟩

/-- Count of leading zeros of a 64-bit word. -/
def clzll (x : ℕ) : ℤ := if x = 0 then 64 else 63 - x.log2

def finalTruncMask (F : ℕ) : BitVec 32 :=
  mantissaMask &&& ~~~((1#32 <<< (mantissaBits - min F mantissaBits)) - 1#32)

def fixedToFp32 (F : ℕ) (mantissaSum maxExp : ℤ) : Fp32 :=
  if mantissaSum = 0 then 0#32
  else
    let resultSign : BitVec 32 := if mantissaSum < 0 then signMask else 0#32
    let absMantissa := mantissaSum.natAbs
    let leadingOnePos : ℤ := 63 - clzll absMantissa
    let finalExp := leadingOnePos + maxExp - F
    let biasedExp := finalExp + exponentBias
    if biasedExp ≤ 0 then
      let shift := leadingOnePos - mantissaBits + (1 - biasedExp)
      let subnormalMantissa : BitVec 32 :=
        (if 64 ≤ shift then 0#32
          else if 0 ≤ shift then BitVec.ofNat 32 (absMantissa >>> shift.toNat)
          else BitVec.ofNat 32 (absMantissa <<< (-shift).toNat)) &&& finalTruncMask F
      if subnormalMantissa = 0#32 then 0#32 else resultSign ||| subnormalMantissa
    else if maxBiasedExp ≤ biasedExp then resultSign ||| posInfBits
    else
      let normalizedMantissa : BitVec 32 :=
        (if mantissaBits ≤ leadingOnePos then
          BitVec.ofNat 32 (absMantissa >>> (leadingOnePos - mantissaBits).toNat)
        else BitVec.ofNat 32 (absMantissa <<< (mantissaBits - leadingOnePos).toNat))
          &&& finalTruncMask F
      resultSign ||| (BitVec.ofInt 32 biasedExp <<< mantissaBits) ||| normalizedMantissa

lemma toNat_and_absMask (b : Fp32) : (b &&& absMask).toNat = b.toNat % 2 ^ 31 := by
  rw [BitVec.toNat_and, show absMask.toNat = 2 ^ 31 - 1 from rfl, Nat.and_two_pow_sub_one_eq_mod]

lemma toNat_and_mantissaMask (b : Fp32) :
    (b &&& absMask &&& mantissaMask).toNat = fracField b := by
  rw [BitVec.toNat_and, toNat_and_absMask, show mantissaMask.toNat = 2 ^ 23 - 1 from rfl,
    Nat.and_two_pow_sub_one_eq_mod, fracField]
  omega

lemma toNat_biasedExp (b : Fp32) :
    (((b &&& absMask) >>> mantissaBits) &&& 0xFF#32).toNat = expField b := by
  rw [BitVec.toNat_and, BitVec.toNat_ushiftRight, toNat_and_absMask,
    show (0xFF#32).toNat = 2 ^ 8 - 1 from rfl, Nat.and_two_pow_sub_one_eq_mod,
    Nat.shiftRight_eq_div_pow, expField, mantissaBits]
  omega

lemma and_signMask_ne_zero (b : Fp32) : (b &&& signMask != 0#32) = negative b := by
  have htest : (b &&& signMask).toNat = 2 ^ 31 * (b.toNat.testBit 31).toNat := by
    rw [BitVec.toNat_and, show signMask.toNat = 2 ^ 31 from rfl, Nat.and_comm, Nat.two_pow_and]
  have hbit : b.toNat.testBit 31 = negative b := by
    have hb := b.isLt
    rw [Nat.testBit_eq_decide_div_mod_eq, negative]
    congr 1
    simp only [eq_iff_iff]
    omega
  rw [hbit] at htest
  have hz : (b &&& signMask = 0#32) ↔ negative b = false := by
    rw [← BitVec.toNat_inj, htest]
    cases negative b <;> simp
  cases hn : negative b with
  | false => simpa using hz.mpr hn
  | true =>
    have : ¬ (b &&& signMask = 0#32) := fun h => by simp [hz.mp h] at hn
    simpa using this

lemma fp32IsZero_iff (b : Fp32) : fp32IsZero b = true ↔ significand b = 0 := by
  have hfields := toNat_eq_fields b
  have hf := fracField_lt b
  rw [fp32IsZero, beq_iff_eq, ← BitVec.toNat_inj, toNat_and_absMask, significand_eq_zero_iff,
    BitVec.toNat_ofNat]
  have hmod : b.toNat % 2 ^ 31 = expField b * 2 ^ 23 + fracField b := by
    have he := expField_lt b
    cases hn : negative b <;> rw [hn] at hfields <;> simp at hfields <;> omega
  omega

lemma signOf_value {b : Fp32} (h : significand b ≠ 0) :
    signOf (value b) = if negative b then -1 else 1 := by
  have hv : value b ≠ 0 := fun hz => h ((value_eq_zero_iff b).mp hz)
  simp only [signOf, value_neg_iff hv]

lemma fp32ToOperand_zero (F : ℕ) {c : Fp32} (h : significand c = 0) :
    fp32ToOperand F c = makeZeroOperand := by
  simp [fp32ToOperand, (fp32IsZero_iff c).mpr h]

lemma toRadix_significand (F : ℕ) (c : Fp32) :
    toRadix 23 F (significand c) = quanta (F - exponent c) (magnitude c) := by
  rw [toRadix_eq_quanta, magnitude, quanta_mul_zpow, quanta_mul_zpow]
  congr 1
  push_cast
  ring

/-- A finite accumulator is truncated once, at `F` bits below its own exponent. -/
lemma fp32ToOperand_finite (F : ℕ) {c : Fp32} (hfin : IsFinite c) (hne : significand c ≠ 0) :
    fp32ToOperand F c = ⟨signOf (value c), exponent c, quanta (F - exponent c) (magnitude c),
      false, false, false⟩ := by
  have hz : fp32IsZero c = false := by
    rw [← Bool.not_eq_true, fp32IsZero_iff]
    exact hne
  unfold fp32ToOperand
  dsimp only
  rw [hz, toNat_biasedExp, toNat_and_mantissaMask, and_signMask_ne_zero, if_neg (by simp),
    if_neg (show ¬ expField c = maxBiasedExp from hfin), signOf_value hne, ← toRadix_significand]
  split
  · rename_i h0
    have hs : significand c = fracField c := if_pos h0
    have hfrac : fracField c ≠ 0 := hs ▸ hne
    rw [hs]
    simp [exponent, h0, minNormalExp, mantissaBits, hfrac]
  · rename_i h0
    have hs : significand c = 2 ^ 23 + fracField c := if_neg h0
    rw [hs]
    simp only [mantissaBits, implicitBit, exponentBias, exponent, Operand.mk.injEq, true_and,
      and_true]
    refine ⟨by omega, rfl⟩

lemma fp32ToOperand_special (F : ℕ) {c : Fp32} (h : expField c = 255) :
    fp32ToOperand F c = ⟨if negative c then -1 else 1, 0, 0, false, fracField c != 0,
      fracField c == 0⟩ := by
  have hz : fp32IsZero c = false := by
    rw [← Bool.not_eq_true, fp32IsZero_iff, significand_eq_zero_iff]
    omega
  unfold fp32ToOperand
  dsimp only
  rw [hz, toNat_biasedExp, toNat_and_mantissaMask, and_signMask_ne_zero, if_neg (by simp),
    if_pos (show expField c = maxBiasedExp from h)]

lemma fp32ToOperand_isNan (F : ℕ) (c : Fp32) : (fp32ToOperand F c).isNan = true ↔ IsNan c := by
  by_cases h : expField c = 255
  · simp [fp32ToOperand_special F h, IsNan, h]
  · by_cases hs : significand c = 0
    · simp [fp32ToOperand_zero F hs, makeZeroOperand, IsNan, h]
    · simp [fp32ToOperand_finite F h hs, IsNan, h]

lemma fp32ToOperand_isInf (F : ℕ) {c : Fp32} (h : IsFinite c ∨ IsNan c) :
    (fp32ToOperand F c).isInf = false := by
  rcases h with h | h
  · by_cases hs : significand c = 0
    · rw [fp32ToOperand_zero F hs, makeZeroOperand]
    · rw [fp32ToOperand_finite F h hs]
  · simp [fp32ToOperand_special F h.1, h.2]

lemma leadingOnePos_eq {a : ℕ} (ha : a ≠ 0) : 63 - clzll a = a.log2 := by
  simp [clzll, ha]

lemma toNat_finalTruncMask (F : ℕ) :
    (finalTruncMask F).toNat = 2 ^ 23 - 2 ^ (23 - min F 23) := by
  have h : ∀ k : Fin 24,
      (mantissaMask &&& ~~~((1#32 <<< k.val) - 1#32)).toNat = 2 ^ 23 - 2 ^ k.val := by decide
  exact h ⟨23 - min F 23, by omega⟩

lemma and_highMask (x : ℕ) {k n : ℕ} (hk : k ≤ n) :
    x &&& (2 ^ n - 2 ^ k) = x % 2 ^ n / 2 ^ k * 2 ^ k := by
  have hmask : 2 ^ n - 2 ^ k = (2 ^ (n - k) - 1) * 2 ^ k := by
    rw [Nat.sub_mul, one_mul, ← pow_add, Nat.sub_add_cancel hk]
  rw [hmask]
  apply Nat.eq_of_testBit_eq
  intro i
  rw [Nat.testBit_and, Nat.testBit_mul_two_pow, Nat.testBit_mul_two_pow,
    Nat.testBit_two_pow_sub_one, Nat.testBit_div_two_pow, Nat.testBit_mod_two_pow]
  by_cases hi : k ≤ i
  · have hsub : i - k + k = i := by omega
    by_cases hin : i < n
    · simp [hi, hin, hsub, show i - k < n - k by omega]
    · simp [hi, hin, hsub, show ¬ i - k < n - k by omega]
  · simp [hi]

lemma toNat_and_finalTruncMask (F : ℕ) (x : BitVec 32) :
    (x &&& finalTruncMask F).toNat =
      x.toNat % 2 ^ 23 / 2 ^ (23 - min F 23) * 2 ^ (23 - min F 23) := by
  rw [BitVec.toNat_and, toNat_finalTruncMask, and_highMask _ (by omega)]

lemma or_fields (neg : Bool) {e f : ℕ} (he : e < 256) (hf : f < 2 ^ 23) :
    neg.toNat * 2 ^ 31 ||| e * 2 ^ 23 ||| f = neg.toNat * 2 ^ 31 + e * 2 ^ 23 + f := by
  have hlow : e * 2 ^ 23 ||| f = e * 2 ^ 23 + f := by
    rw [← Nat.shiftLeft_eq, Nat.shiftLeft_add_eq_or_of_lt hf]
  have hhigh := Nat.shiftLeft_add_eq_or_of_lt (i := 31) (b := e * 2 ^ 23 + f) (by omega) neg.toNat
  rw [Nat.or_assoc, hlow, ← Nat.shiftLeft_eq, ← hhigh, Nat.shiftLeft_eq]
  omega

lemma toNat_resultSign (S : ℤ) :
    (if S < 0 then signMask else 0#32).toNat = (decide (S < 0)).toNat * 2 ^ 31 := by
  by_cases h : S < 0 <;> simp [h, signMask]

lemma or_eq_pack (S : ℤ) {e : ℕ} (he : e < 256) {m : BitVec 32} (hm : m.toNat < 2 ^ 23) :
    (if S < 0 then signMask else 0#32) ||| (BitVec.ofInt 32 e <<< mantissaBits) ||| m =
      pack (decide (S < 0)) e m.toNat := by
  apply BitVec.eq_of_toNat_eq
  rw [toNat_pack he hm, BitVec.toNat_or, BitVec.toNat_or, toNat_resultSign, BitVec.toNat_shiftLeft,
    ← or_fields _ he hm, BitVec.ofInt_natCast, BitVec.toNat_ofNat, mantissaBits, Nat.shiftLeft_eq]
  congr 2
  omega

lemma or_eq_pack_zero (S : ℤ) {m : BitVec 32} (hm : m.toNat < 2 ^ 23) :
    (if S < 0 then signMask else 0#32) ||| m = pack (decide (S < 0)) 0 m.toNat := by
  rw [← or_eq_pack S (by norm_num) hm]
  simp

lemma or_eq_pack_inf (S : ℤ) :
    (if S < 0 then signMask else 0#32) ||| posInfBits = pack (decide (S < 0)) 255 0 := by
  by_cases h : S < 0
  · simp only [h, if_true, decide_true]
    decide
  · simp only [h, if_false, decide_false]
    decide

lemma toNat_and_finalTruncMask_lt (F : ℕ) (x : BitVec 32) :
    (x &&& finalTruncMask F).toNat < 2 ^ 23 := by
  rw [toNat_and_finalTruncMask]
  exact lt_of_le_of_lt (Nat.div_mul_le_self _ _) (Nat.mod_lt _ (by norm_num))

lemma magnitude_pack {neg : Bool} {e f : ℕ} (he : e < 256) (hf : f < 2 ^ 23) :
    magnitude (pack neg e f) =
      ((if e = 0 then f else 2 ^ 23 + f : ℕ) : ℚ) * 2 ^ (max (e : ℤ) 1 - 127 - 23) := by
  rw [magnitude, significand, exponent, expField_pack he hf, fracField_pack he hf]

/-- Clearing low bits of a truncation is a coarser truncation. -/
lemma cleared_eq_quanta {x k : ℕ} {r : ℤ} {q : ℚ} (hx : (x : ℤ) = quanta r q) :
    ((x / 2 ^ k * 2 ^ k : ℕ) : ℚ) = quanta (r - k) q * 2 ^ (k : ℤ) := by
  have hdiv : ((x / 2 ^ k : ℕ) : ℤ) = quanta (r - k) q := by
    rw [← quanta_shiftRight, ← hx, Int.shiftRight_eq_div_pow]
    push_cast
    rfl
  have hdiv' : ((x / 2 ^ k : ℕ) : ℚ) = quanta (r - k) q := by
    rw [← hdiv, Int.cast_natCast]
  rw [Nat.cast_mul, hdiv', zpow_natCast]
  push_cast
  rfl

section FixedToFp32
variable {F : ℕ} {S e : ℤ}

lemma abs_scaled (S e : ℤ) : |(S : ℚ) * 2 ^ e| = S.natAbs * 2 ^ e := by
  rw [abs_mul, abs_of_pos (zpow_two_pos e), Nat.cast_natAbs, Int.cast_abs]

lemma scaled_neg_iff (S e : ℤ) : (S : ℚ) * 2 ^ e < 0 ↔ S < 0 := by
  rw [mul_neg_iff]
  have := zpow_two_pos e
  constructor
  · rintro (h | h)
    · exact absurd h.2 (not_lt.mpr this.le)
    · exact_mod_cast h.1
  · intro h
    exact Or.inr ⟨by exact_mod_cast h, this⟩

lemma subnormal_field (shift : ℤ) (hbound : S.natAbs < 2 ^ 64 ∨ (F : ℤ) - e - 149 < 64)
    (hne : S ≠ 0) (hlow : (S.natAbs.log2 : ℤ) + e - F + 127 ≤ 0)
    (hshift : shift = F - e - 149) :
    ((if 64 ≤ shift then 0#32
      else if 0 ≤ shift then BitVec.ofNat 32 (S.natAbs >>> shift.toNat)
      else BitVec.ofNat 32 (S.natAbs <<< (-shift).toNat)).toNat : ℤ) =
        quanta 149 |(S : ℚ) * 2 ^ (e - F)| ∧
      quanta 149 |(S : ℚ) * 2 ^ (e - F)| < 2 ^ 23 := by
  have ha : S.natAbs ≠ 0 := Int.natAbs_ne_zero.mpr hne
  have hpos : (0 : ℚ) < |(S : ℚ) * 2 ^ (e - F)| := by
    rw [abs_scaled]
    exact mul_pos (by exact_mod_cast Nat.pos_of_ne_zero ha) (zpow_two_pos _)
  have hsmall : quanta 149 |(S : ℚ) * 2 ^ (e - F)| < 2 ^ 23 := by
    rw [quanta_lt_iff]
    have hq := (lt_two_zpow_iff (e := -126) hpos).mpr (by
      rw [abs_scaled, log_natCast_mul_zpow ha]
      omega)
    calc |(S : ℚ) * 2 ^ (e - F)| < 2 ^ (-126 : ℤ) := hq
      _ = ((2 ^ 23 : ℤ) : ℚ) * 2 ^ (-149 : ℤ) := by norm_num
  refine ⟨?_, hsmall⟩
  have hcount : quanta 149 |(S : ℚ) * 2 ^ (e - F)| = quanta (-shift) S.natAbs := by
    rw [abs_scaled, quanta_mul_zpow, hshift]
    congr 1
    ring
  rw [hcount] at hsmall ⊢
  split
  · rename_i hbig
    have hlt : S.natAbs < 2 ^ 64 := by omega
    rw [quanta_eq_zero_of_lt (p := 0) (Nat.cast_nonneg _) 64 _ (by omega)]
    · simp
    · rw [quanta, zpow_zero, mul_one, Int.floor_natCast]
      exact_mod_cast hlt
  · split
    · rename_i hnn
      have hval := quanta_natCast_shiftRight S.natAbs shift.toNat
      rw [Int.toNat_of_nonneg hnn] at hval
      rw [BitVec.toNat_ofNat, Nat.mod_eq_of_lt (by omega), hval]
    · rename_i hneg
      have hval := quanta_natCast_shiftLeft S.natAbs (-shift).toNat
      rw [Int.toNat_of_nonneg (by omega)] at hval
      rw [BitVec.toNat_ofNat, Nat.mod_eq_of_lt (by omega), hval]

lemma quanta_normalized {a : ℕ} (ha : a ≠ 0) :
    2 ^ 23 ≤ quanta (23 - a.log2) a ∧ quanta (23 - a.log2) a < 2 ^ 24 := by
  have hpos : (0 : ℚ) < a := by exact_mod_cast Nat.pos_of_ne_zero ha
  have hlog : Int.log 2 (a : ℚ) = a.log2 := by
    simpa using log_natCast_mul_zpow ha 0
  constructor
  · rw [le_quanta_iff]
    calc ((2 ^ 23 : ℤ) : ℚ) * 2 ^ (-(23 - (a.log2 : ℤ))) = 2 ^ (a.log2 : ℤ) := by
          rw [neg_sub, zpow_sub₀ (by norm_num : (2 : ℚ) ≠ 0)]
          norm_num
          ring
      _ ≤ a := (two_zpow_le_iff hpos).mpr hlog.ge
  · rw [quanta_lt_iff]
    calc (a : ℚ) < 2 ^ (a.log2 + 1 : ℤ) := (lt_two_zpow_iff hpos).mpr (by omega)
      _ = ((2 ^ 24 : ℤ) : ℚ) * 2 ^ (-(23 - (a.log2 : ℤ))) := by
          rw [neg_sub, zpow_sub₀ (by norm_num : (2 : ℚ) ≠ 0),
            zpow_add₀ (by norm_num : (2 : ℚ) ≠ 0)]
          norm_num
          ring

/-- The normalised significand keeps 24 bits of the sum. -/
lemma normalized_field (F : ℕ) (e : ℤ) (hne : S ≠ 0) :
    ((if (mantissaBits : ℤ) ≤ S.natAbs.log2 then
        BitVec.ofNat 32 (S.natAbs >>> ((S.natAbs.log2 : ℤ) - mantissaBits).toNat)
      else BitVec.ofNat 32 (S.natAbs <<< ((mantissaBits : ℤ) - S.natAbs.log2).toNat)).toNat : ℤ) =
        quanta (23 - (S.natAbs.log2 + (e - F))) |(S : ℚ) * 2 ^ (e - F)| ∧
      2 ^ 23 ≤ quanta (23 - (S.natAbs.log2 + (e - F))) |(S : ℚ) * 2 ^ (e - F)| ∧
      quanta (23 - (S.natAbs.log2 + (e - F))) |(S : ℚ) * 2 ^ (e - F)| < 2 ^ 24 := by
  have hcount : quanta (23 - (S.natAbs.log2 + (e - F))) |(S : ℚ) * 2 ^ (e - F)| =
      quanta (23 - S.natAbs.log2) S.natAbs := by
    rw [abs_scaled, quanta_mul_zpow]
    congr 1
    ring
  obtain ⟨hlow, hhigh⟩ := quanta_normalized (Int.natAbs_ne_zero.mpr hne)
  rw [hcount]
  refine ⟨?_, hlow, hhigh⟩
  split
  · rename_i hge
    have hval := quanta_natCast_shiftRight S.natAbs ((S.natAbs.log2 : ℤ) - mantissaBits).toNat
    rw [Int.toNat_of_nonneg (by omega), neg_sub, show (mantissaBits : ℤ) = 23 from rfl] at hval
    rw [BitVec.toNat_ofNat, show (mantissaBits : ℤ) = 23 from rfl, Nat.mod_eq_of_lt (by omega)]
    exact hval
  · rename_i hlt
    have hval := quanta_natCast_shiftLeft S.natAbs ((mantissaBits : ℤ) - S.natAbs.log2).toNat
    rw [Int.toNat_of_nonneg (by omega), show (mantissaBits : ℤ) = 23 from rfl] at hval
    rw [BitVec.toNat_ofNat, show (mantissaBits : ℤ) = 23 from rfl, Nat.mod_eq_of_lt (by omega)]
    exact hval

lemma decode_subnormal {m : BitVec 32} {q : ℚ} {p : ℤ} (hp : p = 126 + (min F 23 : ℕ))
    (hm : (m.toNat : ℤ) = quanta 149 |q|) (hsmall : quanta 149 |q| < 2 ^ 23) (neg : Bool) :
    decode (if m &&& finalTruncMask F = 0#32 then 0#32
      else pack neg 0 (m &&& finalTruncMask F).toNat) =
      if quanta p |q| = 0 then .finite false 0 else .finite neg (quanta p |q| * 2 ^ (-p)) := by
  have hclear : ((m &&& finalTruncMask F).toNat : ℚ) =
      quanta p |q| * 2 ^ ((23 - min F 23 : ℕ) : ℤ) := by
    rw [toNat_and_finalTruncMask, Nat.mod_eq_of_lt (by omega), cleared_eq_quanta hm]
    congr 3
    omega
  have hlt := toNat_and_finalTruncMask_lt F m
  have hzero : m &&& finalTruncMask F = 0#32 ↔ quanta p |q| = 0 := by
    rw [← BitVec.toNat_inj, BitVec.toNat_ofNat, ← Nat.cast_inj (R := ℚ), hclear]
    simp [(zpow_two_pos _).ne']
  by_cases hz : quanta p |q| = 0
  · rw [if_pos (hzero.mpr hz), if_pos hz]
    decide +kernel
  · rw [if_neg (fun h => hz (hzero.mp h)), if_neg hz, decode_of_finite, negative_pack _ hlt,
      magnitude_pack _ hlt]
    · rw [if_pos rfl, hclear, mul_assoc, ← zpow_add₀ (by norm_num : (2 : ℚ) ≠ 0)]
      congr 3
      omega
    · norm_num
    · norm_num
    · simp only [IsFinite, expField_pack (by norm_num : 0 < 256) hlt]
      norm_num

lemma decode_normal {m : BitVec 32} {q : ℚ} {p : ℤ} {b : ℕ} (hb : 1 ≤ b) (hb' : b < 255)
    (hp : p = (min F 23 : ℕ) - ((b : ℤ) - 127))
    (hm : (m.toNat : ℤ) = quanta (23 - ((b : ℤ) - 127)) |q|)
    (hge : 2 ^ 23 ≤ quanta (23 - ((b : ℤ) - 127)) |q|)
    (hlt : quanta (23 - ((b : ℤ) - 127)) |q| < 2 ^ 24) (neg : Bool) :
    decode (pack neg b (m &&& finalTruncMask F).toNat) =
      if quanta p |q| = 0 then .finite false 0 else .finite neg (quanta p |q| * 2 ^ (-p)) := by
  have hfield : 2 ^ 23 + (m &&& finalTruncMask F).toNat =
      m.toNat / 2 ^ (23 - min F 23) * 2 ^ (23 - min F 23) := by
    rw [toNat_and_finalTruncMask]
    obtain ⟨r, hr⟩ : ∃ r, m.toNat = 2 ^ 23 + r := ⟨m.toNat - 2 ^ 23, by omega⟩
    have hmod : m.toNat % 2 ^ 23 = r := by omega
    have hsplit : (2 : ℕ) ^ 23 = 2 ^ min F 23 * 2 ^ (23 - min F 23) := by
      rw [← pow_add]
      congr 1
      omega
    rw [hmod, hr, hsplit, Nat.add_comm, Nat.add_comm (_ * _) r,
      Nat.add_mul_div_right _ _ (by positivity)]
    ring
  have hclear : ((2 ^ 23 + (m &&& finalTruncMask F).toNat : ℕ) : ℚ) =
      quanta p |q| * 2 ^ ((23 - min F 23 : ℕ) : ℤ) := by
    rw [hfield, cleared_eq_quanta hm]
    congr 3
    omega
  have hfrac := toNat_and_finalTruncMask_lt F m
  have hz : quanta p |q| ≠ 0 := by
    intro h
    rw [h] at hclear
    have : (2 ^ 23 + (m &&& finalTruncMask F).toNat : ℕ) = 0 := by
      rw [← Nat.cast_inj (R := ℚ), hclear]
      simp
    omega
  rw [if_neg hz, decode_of_finite, negative_pack (by omega) hfrac, magnitude_pack (by omega) hfrac,
    if_neg (by omega), hclear, mul_assoc, ← zpow_add₀ (by norm_num : (2 : ℚ) ≠ 0)]
  · congr 3
    omega
  · simp only [IsFinite, expField_pack (by omega : b < 256) hfrac]
    omega

/-- Conversion of a fixed-point sum is one truncation toward zero of its exact value. The bound
is the range of the 64-bit sum; it matters only for the cut-off of the subnormal shift. -/
theorem decode_fixedToFp32 (hbound : (S.natAbs.log2 : ℤ) + e - F + 127 ≤ 0 →
      S.natAbs < 2 ^ 64 ∨ (F : ℤ) - e - 149 < 64) :
    decode (fixedToFp32 F S e) = chop F (S * 2 ^ (e - F)) := by
  by_cases hne : S = 0
  · subst hne
    simp only [fixedToFp32, chop, if_true, Int.cast_zero, zero_mul]
    decide +kernel
  have ha : S.natAbs ≠ 0 := Int.natAbs_ne_zero.mpr hne
  have hq : (S : ℚ) * 2 ^ (e - F) ≠ 0 :=
    mul_ne_zero (by exact_mod_cast hne) (zpow_two_pos _).ne'
  have hlog : Int.log 2 |(S : ℚ) * 2 ^ (e - F)| = S.natAbs.log2 + (e - F) := by
    rw [abs_scaled, log_natCast_mul_zpow ha]
  have hover : (2 : ℚ) ^ 128 ≤ |(S : ℚ) * 2 ^ (e - F)| ↔ 128 ≤ (S.natAbs.log2 : ℤ) + (e - F) := by
    rw [← hlog, ← two_zpow_le_iff (abs_pos.mpr hq)]
    norm_cast
  unfold fixedToFp32
  dsimp only
  simp only [leadingOnePos_eq ha, exponentBias, if_neg hne]
  rcases le_or_gt ((S.natAbs.log2 : ℤ) + e - F + 127) 0 with hlow | hhigh
  · obtain ⟨hfield, hsmall⟩ := subnormal_field
      (S.natAbs.log2 - mantissaBits + (1 - (S.natAbs.log2 + e - F + 127))) (hbound hlow) hne hlow
      (by simp only [mantissaBits]; push_cast; ring)
    rw [if_pos hlow, chop_of_lt hq (by rw [← not_le, hover]; omega) rfl, hlog,
      max_eq_right (by omega), ← decode_subnormal (by ring) hfield hsmall,
      or_eq_pack_zero S (toNat_and_finalTruncMask_lt F _)]
    simp only [scaled_neg_iff]
  · rw [if_neg (by omega)]
    by_cases hinf : 128 ≤ (S.natAbs.log2 : ℤ) + (e - F)
    · rw [if_pos (by simp only [maxBiasedExp]; omega), chop_of_overflow F (hover.mpr hinf),
        or_eq_pack_inf, decode, expField_pack (by norm_num) (by norm_num),
        fracField_pack (by norm_num) (by norm_num), negative_pack (by norm_num) (by norm_num)]
      simp only [if_true, scaled_neg_iff]
    · obtain ⟨hfield, hge, hlt⟩ := normalized_field F e hne
      rw [if_neg (by simp only [maxBiasedExp]; omega),
        chop_of_lt hq (by rw [← not_le, hover]; exact hinf) rfl, hlog, max_eq_left (by omega)]
      obtain ⟨b, hb⟩ := Int.eq_ofNat_of_zero_le hhigh.le
      have hbias : (S.natAbs.log2 : ℤ) + (e - F) = (b : ℤ) - 127 := by omega
      rw [hb]
      rw [hbias] at hfield hge hlt ⊢
      rw [← decode_normal (by omega) (by omega) rfl hfield hge hlt,
        or_eq_pack S (by omega) (toNat_and_finalTruncMask_lt F _)]
      simp only [scaled_neg_iff]

/-- The cut-off of the subnormal shift can only produce `+0`. -/
lemma decode_fixedToFp32_or_zero (F : ℕ) (S e : ℤ) :
    decode (fixedToFp32 F S e) = chop F (S * 2 ^ (e - F)) ∨ fixedToFp32 F S e = 0#32 := by
  by_cases hcut : (S.natAbs.log2 : ℤ) + e - F + 127 ≤ 0 ∧ 64 ≤ (F : ℤ) - e - 149
  · by_cases hne : S = 0
    · exact Or.inr (by simp [fixedToFp32, hne])
    · right
      have ha : S.natAbs ≠ 0 := Int.natAbs_ne_zero.mpr hne
      unfold fixedToFp32
      dsimp only
      simp only [leadingOnePos_eq ha, exponentBias, if_neg hne, mantissaBits]
      have hbig : 64 ≤ (S.natAbs.log2 : ℤ) - (23 : ℕ) + (1 - (S.natAbs.log2 + e - F + 127)) := by
        push_cast
        omega
      simp only [if_pos hcut.1, if_pos hbig, BitVec.zero_and, if_true]
  · exact Or.inl (decode_fixedToFp32 (fun hlow => Or.inr (by omega)))

lemma fixedToFp32_not_nan (F : ℕ) (S e : ℤ) : ¬ IsNan (fixedToFp32 F S e) := by
  rw [← decode_eq_nan_iff]
  rcases decode_fixedToFp32_or_zero F S e with h | h
  · rw [h]
    exact chop_ne_nan F _
  · rw [h]
    decide +kernel

/-- Converted sums stay on the grid of `F` fractional bits. -/
lemma onGrid_fixedToFp32 (F : ℕ) (S e : ℤ) (hfin : IsFinite (fixedToFp32 F S e)) :
    OnGrid F (fixedToFp32 F S e) := by
  rcases decode_fixedToFp32_or_zero F S e with h | h
  · exact onGrid_of_decode_eq_chop h hfin
  · rw [h]
    exact ⟨0, by simp [magnitude, significand, expField, fracField]⟩

end FixedToFp32

end MmaEmu
