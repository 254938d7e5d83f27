import VllmMmaEmu.Core.DatapathSafe
import VllmMmaEmu.Formats.BlockScaled

/-!
# The NVFP4 and MXFP4 datapaths

Products, groups and the application of the two kinds of scales, with the words
and shifts recorded. `ScaleSteps` is what the tiles and chunks use of a format.
-/

namespace MmaEmu

open FixedPoint Tracing

namespace Datapath

def unpackDecodedFp4 (w : BitVec 32) : Steps DecodedFP4Operand := do
  tell [.shift 8, .shift 16, .shift 24]
  return MmaEmu.unpackDecodedFp4 w

def decomposeFp4E2m1 (val : Byte) : Steps FP4Components := do
  tell [.shift Fp4.mantissaBits]
  return MmaEmu.decomposeFp4E2m1 val

def fp4MultiplyPredecoded (G : ℕ) (a b : DecodedFP4Operand) : Steps Product :=
  if a.flags &&& fp4ZeroBit ≠ 0#8 ∨ b.flags &&& fp4ZeroBit ≠ 0#8 then
    return ⟨1, 0, 0, true, false, false⟩
  else do
    let rawProduct ← word (a.sig.toNat * b.sig.toNat : ℕ)
    let significand ← toRadix Fp4.productRadixBit G rawProduct
    return ⟨a.sign.toInt * b.sign.toInt, a.exp.toInt + b.exp.toInt, significand.toNat,
      significand.toNat == 0, false, false⟩

def fp4FragProduct (G : ℕ) (aFrag bFrag : ℕ → BitVec 32) (i : ℕ) : Steps Product := do
  fp4MultiplyPredecoded G (← unpackDecodedFp4 (aFrag i)) (← unpackDecodedFp4 (bFrag i))

def fp4GdfsGroupAccumulatePredecoded (G GS : ℕ) (aFrag bFrag : ℕ → BitVec 32) : Steps GroupResult :=
  groupAccumulateStreamed GS (fp4FragProduct G aFrag bFrag)

def applyUe4m3Scales (F G : ℕ) (mantissaSum maxExp : ℤ) (sfa sfb : Byte) : Steps Operand := do
  tell [.scaleExp maxExp]
  let sfaMasked := sfa &&& 0x7F#8
  let sfbMasked := sfb &&& 0x7F#8
  if Ue4m3.isNan sfa || Ue4m3.isNan sfb then return makeNanOperand
  else if sfaMasked = 0#8 ∨ sfbMasked = 0#8 then return makeZeroOperand
  else
    let sign : ℤ := if mantissaSum < 0 then -1 else 1
    let absSum ← word (if mantissaSum < 0 then -mantissaSum else mantissaSum)
    -- the exponent fields of the scales
    tell [.shift Ue4m3.q13Shift, .shift Ue4m3.q13Shift]
    let sfProduct ← word (Ue4m3.sig sfaMasked * Ue4m3.sig sfbMasked)
    let combinedSfExp := Ue4m3.unbiasedExp sfaMasked + Ue4m3.unbiasedExp sfbMasked
    let product ← word (absSum * sfProduct)
    let scaledSum ← shiftLeft product maxExp
    let significand ← toRadix (G + 6) F scaledSum
    return ⟨sign, combinedSfExp, significand, false, false, false⟩

def fp4ProductWithUe4m3Scales (F : ℕ) (a b : FP4Components) (sfa sfb : Byte) : Steps Operand :=
  let sfaMasked := sfa &&& 0x7F#8
  let sfbMasked := sfb &&& 0x7F#8
  if Ue4m3.isNan sfa || Ue4m3.isNan sfb then return makeNanOperand
  else if a.isZero ∨ b.isZero ∨ sfaMasked = 0#8 ∨ sfbMasked = 0#8 then return makeZeroOperand
  else do
    let rawProduct ← word (a.sig * b.sig)
    tell [.shift Ue4m3.q13Shift, .shift Ue4m3.q13Shift]
    let scaledOnce ← word (rawProduct * Ue4m3.sig sfaMasked)
    let scaledProduct ← word (scaledOnce * Ue4m3.sig sfbMasked)
    let combinedRadix := Fp4.productRadixBit + 2 * Ue4m3.q13Shift
    let significand ← toRadix combinedRadix F scaledProduct
    let combinedSfExp := Ue4m3.unbiasedExp sfaMasked + Ue4m3.unbiasedExp sfbMasked
    return ⟨a.sign * b.sign, a.exp + b.exp + combinedSfExp, significand, significand == 0,
      false, false⟩

def applyE8m0Scales (F G : ℕ) (mantissaSum maxExp : ℤ) (sfa sfb : Byte) : Steps Operand := do
  tell [.scaleExp maxExp]
  if E8m0.isNan sfa || E8m0.isNan sfb then return makeNanOperand
  else
    let sign : ℤ := if mantissaSum < 0 then -1 else 1
    let absSum ← word (if mantissaSum < 0 then -mantissaSum else mantissaSum)
    let shiftedSum ← shiftLeft absSum maxExp
    let significand ← toRadix G F shiftedSum
    let combinedSfExp := E8m0.toExponent sfa + E8m0.toExponent sfb
    return ⟨sign, combinedSfExp, significand, false, false, false⟩

def fp4ProductWithE8m0Scales (F : ℕ) (a b : FP4Components) (sfa sfb : Byte) : Steps Operand :=
  if E8m0.isNan sfa || E8m0.isNan sfb then return makeNanOperand
  else if a.isZero || b.isZero then return makeZeroOperand
  else do
    let rawProduct ← word (a.sig * b.sig : ℕ)
    let significand ← toRadix Fp4.productRadixBit F rawProduct
    let combinedSfExp := E8m0.toExponent sfa + E8m0.toExponent sfb
    return ⟨a.sign * b.sign, a.exp + b.exp + combinedSfExp, significand, significand == 0,
      false, false⟩

@[simp] lemma result_fp4MultiplyPredecoded (G : ℕ) (a b : DecodedFP4Operand) :
    result (fp4MultiplyPredecoded G a b) = MmaEmu.fp4MultiplyPredecoded G a b := by
  have hcast : ∀ x : ℕ, (FixedPoint.toRadix Fp4.productRadixBit G x).toNat =
      natToRadix Fp4.productRadixBit G x := by
    intro x
    rw [← natCast_natToRadix, Int.toNat_natCast]
  simp only [fp4MultiplyPredecoded, MmaEmu.fp4MultiplyPredecoded, result_ite, result_bind,
    result_pure, result_word, result_toRadix, hcast]

@[simp] lemma result_fp4FragProduct (G : ℕ) (aFrag bFrag : ℕ → BitVec 32) (i : ℕ) :
    result (fp4FragProduct G aFrag bFrag i) = MmaEmu.fp4FragProduct G aFrag bFrag i := by
  simp only [fp4FragProduct, MmaEmu.fp4FragProduct, unpackDecodedFp4, result_bind, result_pure,
    result_fp4MultiplyPredecoded]

@[simp] lemma result_fp4GdfsGroupAccumulatePredecoded (G GS : ℕ) (aFrag bFrag : ℕ → BitVec 32) :
    result (fp4GdfsGroupAccumulatePredecoded G GS aFrag bFrag) =
      MmaEmu.fp4GdfsGroupAccumulatePredecoded G GS aFrag bFrag := by
  simp only [fp4GdfsGroupAccumulatePredecoded, MmaEmu.fp4GdfsGroupAccumulatePredecoded,
    result_groupAccumulateStreamed, result_fp4FragProduct]

section
variable (F G : ℕ) (mantissaSum maxExp : ℤ) (a b : FP4Components) (sfa sfb : Byte)

lemma result_applyUe4m3Scales : result (applyUe4m3Scales F G mantissaSum maxExp sfa sfb) =
    MmaEmu.applyUe4m3Scales F G mantissaSum maxExp sfa sfb := by
  simp only [applyUe4m3Scales, MmaEmu.applyUe4m3Scales, result_ite, result_bind, result_pure,
    result_word, result_shiftLeft, result_toRadix]

lemma result_fp4ProductWithUe4m3Scales : result (fp4ProductWithUe4m3Scales F a b sfa sfb) =
    MmaEmu.fp4ProductWithUe4m3Scales F a b sfa sfb := by
  simp only [fp4ProductWithUe4m3Scales, MmaEmu.fp4ProductWithUe4m3Scales, result_ite, result_bind,
    result_pure, result_word, result_toRadix, Nat.cast_mul]

lemma result_applyE8m0Scales : result (applyE8m0Scales F G mantissaSum maxExp sfa sfb) =
    MmaEmu.applyE8m0Scales F G mantissaSum maxExp sfa sfb := by
  simp only [applyE8m0Scales, MmaEmu.applyE8m0Scales, result_ite, result_bind, result_pure,
    result_word, result_shiftLeft, result_toRadix]

lemma result_fp4ProductWithE8m0Scales : result (fp4ProductWithE8m0Scales F a b sfa sfb) =
    MmaEmu.fp4ProductWithE8m0Scales F a b sfa sfb := by
  simp only [fp4ProductWithE8m0Scales, MmaEmu.fp4ProductWithE8m0Scales, result_ite, result_bind,
    result_pure, result_word, result_toRadix]

end

lemma safe_word_of_lt {x : ℤ} {n : ℕ} (hx : 0 ≤ x) (hlt : x < 2 ^ n) (hn : n ≤ 62) :
    Safe (word x) := by
  rw [safe_word, abs_of_nonneg hx]
  exact lt_of_lt_of_le hlt (pow_le_pow_right₀ (by norm_num) hn)

lemma mul_lt_two_pow {x y : ℤ} {n k : ℕ} (hx : 0 ≤ x) (hxlt : x < 2 ^ n) (hy : 0 ≤ y)
    (hylt : y < 2 ^ k) : 0 ≤ x * y ∧ x * y < 2 ^ (n + k) := by
  rw [pow_add]
  exact ⟨mul_nonneg hx hy, mul_lt_mul'' hxlt hylt hx hy⟩

lemma decomposeFp4E2m1_sig_lt (val : Byte) : (MmaEmu.decomposeFp4E2m1 val).sig < 4 := by
  revert val
  decide +kernel

lemma rawProduct_fp4_lt (a b : Byte) : (((MmaEmu.decomposeFp4E2m1 a).sig *
    (MmaEmu.decomposeFp4E2m1 b).sig : ℕ) : ℤ) < 2 ^ 4 := by
  exact_mod_cast lt_of_lt_of_le
    (Nat.mul_lt_mul'' (decomposeFp4E2m1_sig_lt a) (decomposeFp4E2m1_sig_lt b)) (by norm_num)

lemma ue4m3_sig_lt (scale : Byte) : (Ue4m3.sig (scale &&& 0x7F#8) : ℤ) < 2 ^ 4 := by
  rw [(ue4m3_fields scale).2.1]
  exact_mod_cast (ue4m3_range scale).1

lemma safe_tell_fields :
    Safe (tell [Event.shift Ue4m3.q13Shift, .shift Ue4m3.q13Shift] : Steps PUnit) := by
  simp [Safe, Event.Safe, Ue4m3.q13Shift]

lemma safe_tell_scaleExp {maxExp : ℤ} (h : 0 ≤ maxExp) :
    Safe (tell [Event.scaleExp maxExp] : Steps PUnit) := by
  simpa [Safe, Event.Safe] using h

lemma safe_foldRadix (src F : ℕ) {n : ℕ} {x maxExp : ℤ} (hx : 0 ≤ x) (hlt : x < 2 ^ n)
    (hlow : 0 ≤ maxExp) (hhigh : maxExp ≤ 4) (hn : n + 4 + F ≤ 62 + src) (hn62 : n + 4 ≤ 62)
    (hsrc : src ≤ F + 63) :
    Safe (shiftLeft x maxExp) ∧ Safe (toRadix src F (x <<< maxExp.toNat)) := by
  obtain ⟨k, rfl⟩ := Int.eq_ofNat_of_zero_le hlow
  have hshifted : x <<< k < 2 ^ (n + 4) := by
    rw [Int.shiftLeft_eq]
    calc x * 2 ^ k < 2 ^ n * 2 ^ k := mul_lt_mul_of_pos_right hlt (by positivity)
      _ ≤ 2 ^ n * 2 ^ 4 :=
        mul_le_mul_of_nonneg_left (pow_le_pow_right₀ (by norm_num) (by omega)) (by positivity)
      _ = 2 ^ (n + 4) := (pow_add 2 n 4).symm
  refine ⟨safe_shiftLeft_of_lt hx hlt (by omega), safe_toRadix ?_ hshifted hn62 hsrc (by omega)⟩
  rw [Int.toNat_natCast, Int.shiftLeft_eq]
  positivity

section
variable {F G : ℕ} {mantissaSum maxExp : ℤ}

/-- What the application of scales relies on: a group of E2M1 products at an admitted width. -/
structure GroupRange (F G : ℕ) (mantissaSum maxExp : ℤ) : Prop where
  F_le : F ≤ 35
  G_le : G ≤ 6
  sum_lt : |mantissaSum| < 2 ^ (8 + G)
  exp_nonneg : 0 ≤ maxExp
  exp_le : maxExp ≤ 4

lemma safe_applyUe4m3Scales (h : GroupRange F G mantissaSum maxExp) (sfa sfb : Byte) :
    Safe (applyUe4m3Scales F G mantissaSum maxExp sfa sfb) := by
  obtain ⟨hF, hG, hsum, hlow, hhigh⟩ := h
  refine safe_bind.mpr ⟨safe_tell_scaleExp hlow, ?_⟩
  dsimp only
  split
  · exact safe_pure _
  · split
    · exact safe_pure _
    obtain ⟨hsf, hsflt⟩ := mul_lt_two_pow (Int.natCast_nonneg _) (ue4m3_sig_lt sfa)
      (Int.natCast_nonneg _) (ue4m3_sig_lt sfb)
    obtain ⟨hproduct, hproductlt⟩ := mul_lt_two_pow (abs_nonneg mantissaSum) hsum hsf hsflt
    obtain ⟨hfold, hradix⟩ := safe_foldRadix (G + 6) F hproduct hproductlt hlow hhigh (by omega)
      (by omega) (by omega)
    rw [abs_eq_ite]
    exact safe_bind.mpr ⟨safe_word_of_lt (abs_nonneg _) hsum (by omega),
      safe_bind.mpr ⟨safe_tell_fields, safe_bind.mpr ⟨safe_word_of_lt hsf hsflt (by norm_num),
        safe_bind.mpr ⟨safe_word_of_lt hproduct hproductlt (by omega),
          safe_bind.mpr ⟨hfold, safe_bind.mpr ⟨hradix, safe_pure _⟩⟩⟩⟩⟩⟩

lemma safe_applyE8m0Scales (h : GroupRange F G mantissaSum maxExp) (sfa sfb : Byte) :
    Safe (applyE8m0Scales F G mantissaSum maxExp sfa sfb) := by
  obtain ⟨hF, hG, hsum, hlow, hhigh⟩ := h
  refine safe_bind.mpr ⟨safe_tell_scaleExp hlow, ?_⟩
  dsimp only
  split
  · exact safe_pure _
  · obtain ⟨hfold, hradix⟩ := safe_foldRadix G F (abs_nonneg mantissaSum) hsum hlow hhigh
      (by omega) (by omega) (by omega)
    rw [abs_eq_ite]
    exact safe_bind.mpr ⟨safe_word_of_lt (abs_nonneg _) hsum (by omega),
      safe_bind.mpr ⟨hfold, safe_bind.mpr ⟨hradix, safe_pure _⟩⟩⟩

variable (hF : F ≤ 35) (a b sfa sfb : Byte)
include hF

lemma safe_fp4ProductWithUe4m3Scales : Safe (fp4ProductWithUe4m3Scales F
    (MmaEmu.decomposeFp4E2m1 a) (MmaEmu.decomposeFp4E2m1 b) sfa sfb) := by
  have hraw := rawProduct_fp4_lt a b
  rw [Nat.cast_mul] at hraw
  rw [fp4ProductWithUe4m3Scales]
  dsimp only
  split
  · exact safe_pure _
  · split
    · exact safe_pure _
    have hnonneg : (0 : ℤ) ≤
        (MmaEmu.decomposeFp4E2m1 a).sig * (MmaEmu.decomposeFp4E2m1 b).sig := by positivity
    obtain ⟨honce, honcelt⟩ :=
      mul_lt_two_pow hnonneg hraw (Int.natCast_nonneg _) (ue4m3_sig_lt sfa)
    obtain ⟨htwice, htwicelt⟩ :=
      mul_lt_two_pow honce honcelt (Int.natCast_nonneg _) (ue4m3_sig_lt sfb)
    refine safe_bind.mpr ⟨safe_word_of_lt hnonneg hraw (by norm_num),
      safe_bind.mpr ⟨safe_tell_fields, safe_bind.mpr ⟨safe_word_of_lt honce honcelt (by norm_num),
        safe_bind.mpr ⟨safe_word_of_lt htwice htwicelt (by norm_num),
          safe_bind.mpr ⟨safe_toRadix htwice htwicelt (by norm_num) ?_ ?_, safe_pure _⟩⟩⟩⟩⟩
    · rw [Fp4.productRadixBit, Ue4m3.q13Shift]
      omega
    · rw [Fp4.productRadixBit, Ue4m3.q13Shift]
      omega

lemma safe_fp4ProductWithE8m0Scales : Safe (fp4ProductWithE8m0Scales F
    (MmaEmu.decomposeFp4E2m1 a) (MmaEmu.decomposeFp4E2m1 b) sfa sfb) := by
  have hraw := rawProduct_fp4_lt a b
  rw [fp4ProductWithE8m0Scales]
  split
  · exact safe_pure _
  · split
    · exact safe_pure _
    have hnonneg := Int.natCast_nonneg ((MmaEmu.decomposeFp4E2m1 a).sig *
      (MmaEmu.decomposeFp4E2m1 b).sig)
    refine safe_bind.mpr ⟨safe_word_of_lt hnonneg hraw (by norm_num),
      safe_bind.mpr ⟨safe_toRadix hnonneg hraw (by norm_num) ?_ ?_, safe_pure _⟩⟩
    · rw [Fp4.productRadixBit]
      omega
    · rw [Fp4.productRadixBit]
      omega

end

/-- The recorded form of a format's scale arithmetic. -/
structure ScaleSteps (fmt : BlockFormat) where
  applyScales : ℕ → ℕ → ℤ → ℤ → Byte → Byte → Steps Operand
  productWithScales : ℕ → FP4Components → FP4Components → Byte → Byte → Steps Operand
  result_applyScales : ∀ F G ms e sfa sfb,
    result (applyScales F G ms e sfa sfb) = fmt.applyScales F G ms e sfa sfb
  result_productWithScales : ∀ F a b sfa sfb,
    result (productWithScales F a b sfa sfb) = fmt.productWithScales F a b sfa sfb
  safe_applyScales : ∀ {F G ms e}, GroupRange F G ms e → ∀ sfa sfb,
    Safe (applyScales F G ms e sfa sfb)
  safe_productWithScales : ∀ {F}, F ≤ 35 → ∀ a b sfa sfb, Safe (productWithScales F
    (MmaEmu.decomposeFp4E2m1 a) (MmaEmu.decomposeFp4E2m1 b) sfa sfb)

def nvfp4Steps : ScaleSteps nvfp4 where
  applyScales := applyUe4m3Scales
  productWithScales := fp4ProductWithUe4m3Scales
  result_applyScales := result_applyUe4m3Scales
  result_productWithScales := result_fp4ProductWithUe4m3Scales
  safe_applyScales := safe_applyUe4m3Scales
  safe_productWithScales := safe_fp4ProductWithUe4m3Scales

def mxfp4Steps : ScaleSteps mxfp4 where
  applyScales := applyE8m0Scales
  productWithScales := fp4ProductWithE8m0Scales
  result_applyScales := result_applyE8m0Scales
  result_productWithScales := result_fp4ProductWithE8m0Scales
  safe_applyScales := safe_applyE8m0Scales
  safe_productWithScales := safe_fp4ProductWithE8m0Scales

namespace ScaleSteps

variable {fmt : BlockFormat} (steps : ScaleSteps fmt)

def groupOperand (F G : ℕ) (gr : GroupResult) (sfa sfb : Byte) : Steps Operand :=
  if gr.allZero && !fmt.isNan sfa && !fmt.isNan sfb then return makeZeroOperand
  else steps.applyScales F G gr.mantissaSum gr.maxExp sfa sfb

def gdfsTile (F G GS BK : ℕ) (aFrag bFrag : ℕ → BitVec 32) (sfa sfb : ℕ → Byte) (c : Fp32) :
    Steps Fp32 := do
  let groupsPerScale := fmt.blockSize / GS
  let groups ← (List.range (BK / GS)).mapM' fun g => do
    let gr ← fp4GdfsGroupAccumulatePredecoded G GS
      (fun i => aFrag (g * GS + i)) (fun i => bFrag (g * GS + i))
    steps.groupOperand F G gr (sfa (g / groupsPerScale)) (sfb (g / groupsPerScale))
  chunkedAccumulate F (-139) groups c

/-- Operand `i` of a CoFDA chunk of which `valid` elements are inside K. -/
def chunkOperand (F valid : ℕ) (a b sfa sfb : ℕ → Byte) (i : ℕ) : Steps Operand :=
  if i < valid then do
    steps.productWithScales F (← decomposeFp4E2m1 (a i)) (← decomposeFp4E2m1 (b i)) (sfa i) (sfb i)
  else return makeZeroOperand

def cofdaChunk (F CS valid : ℕ) (a b sfa sfb : ℕ → Byte) (c : Fp32) : Steps Fp32 := do
  let operands ← (List.range CS).mapM' (steps.chunkOperand F valid a b sfa sfb)
  chunkedAccumulate F (-133) operands c

@[simp] lemma result_groupOperand (F G : ℕ) (gr : GroupResult) (sfa sfb : Byte) :
    result (steps.groupOperand F G gr sfa sfb) = fmt.groupOperand F G gr sfa sfb := by
  simp only [groupOperand, BlockFormat.groupOperand, result_ite, result_pure,
    steps.result_applyScales]

@[simp] lemma result_gdfsTile (F G GS BK : ℕ) (aFrag bFrag : ℕ → BitVec 32) (sfa sfb : ℕ → Byte)
    (c : Fp32) : result (steps.gdfsTile F G GS BK aFrag bFrag sfa sfb c) =
      fmt.gdfsTile F G GS BK aFrag bFrag sfa sfb c := by
  simp only [gdfsTile, BlockFormat.gdfsTile, gdfsAccumulateTile, result_bind, result_mapM',
    result_chunkedAccumulate, result_groupOperand, result_fp4GdfsGroupAccumulatePredecoded]

@[simp] lemma result_chunkOperand (F valid : ℕ) (a b sfa sfb : ℕ → Byte) (i : ℕ) :
    result (steps.chunkOperand F valid a b sfa sfb i) =
      if i < valid then fmt.productWithScales F (MmaEmu.decomposeFp4E2m1 (a i))
        (MmaEmu.decomposeFp4E2m1 (b i)) (sfa i) (sfb i)
      else makeZeroOperand := by
  simp only [chunkOperand, decomposeFp4E2m1, result_ite, result_bind, result_pure,
    steps.result_productWithScales]

@[simp] lemma result_cofdaChunk (F CS valid : ℕ) (a b sfa sfb : ℕ → Byte) (c : Fp32) :
    result (steps.cofdaChunk F CS valid a b sfa sfb c) =
      MmaEmu.chunkedAccumulate F (-133) ((List.range CS).map fun i =>
        if i < valid then fmt.productWithScales F (MmaEmu.decomposeFp4E2m1 (a i))
          (MmaEmu.decomposeFp4E2m1 (b i)) (sfa i) (sfb i)
        else makeZeroOperand) c := by
  simp only [cofdaChunk, result_bind, result_mapM', result_chunkedAccumulate, result_chunkOperand]

end ScaleSteps

lemma decodeFp4Operand_sig_lt (nibble : Byte) : (decodeFp4Operand nibble).sig.toNat < 4 := by
  revert nibble
  decide +kernel

section
variable {G : ℕ} (hhigh : G ≤ 6) (a b : ℕ → Byte)
include hhigh

lemma safe_fp4MultiplyPredecoded (x y : Byte) :
    Safe (fp4MultiplyPredecoded G (decodeFp4Operand x) (decodeFp4Operand y)) := by
  have hraw : (((decodeFp4Operand x).sig.toNat * (decodeFp4Operand y).sig.toNat : ℕ) : ℤ) <
      2 ^ 4 := by
    exact_mod_cast lt_of_lt_of_le
      (Nat.mul_lt_mul'' (decodeFp4Operand_sig_lt x) (decodeFp4Operand_sig_lt y)) (by norm_num)
  have hnonneg := Int.natCast_nonneg
    ((decodeFp4Operand x).sig.toNat * (decodeFp4Operand y).sig.toNat)
  rw [fp4MultiplyPredecoded]
  split
  · exact safe_pure _
  · refine safe_bind.mpr ⟨safe_word_of_lt hnonneg hraw (by norm_num),
      safe_bind.mpr ⟨safe_toRadix hnonneg hraw (by norm_num) ?_ ?_, safe_pure _⟩⟩
    · rw [Fp4.productRadixBit]
      omega
    · rw [Fp4.productRadixBit]
      omega

lemma safe_fp4FragProduct (i : ℕ) :
    Safe (fp4FragProduct G (encodeFp4Row a) (encodeFp4Row b) i) := by
  have hunpack : ∀ w, Safe (unpackDecodedFp4 w) := by
    intro w
    refine safe_bind.mpr ⟨?_, safe_pure _⟩
    simp [Safe, Event.Safe]
  refine safe_bind.mpr ⟨hunpack _, safe_bind.mpr ⟨hunpack _, ?_⟩⟩
  simp only [unpackDecodedFp4, result_bind, result_pure, encodeFp4Row,
    unpackDecodedFp4_packDecodedFp4]
  exact safe_fp4MultiplyPredecoded hhigh (a i) (b i)

variable (hlow : 2 ≤ G) {GS : ℕ} (hGS : GS ≤ 32)
include hlow hGS

lemma safe_fp4Group :
    Safe (fp4GdfsGroupAccumulatePredecoded G GS (encodeFp4Row a) (encodeFp4Row b)) := by
  have hsum : (GS : ℤ) * 2 ^ 56 ≤ 32 * 2 ^ 56 :=
    mul_le_mul_of_nonneg_right (by exact_mod_cast hGS) (by norm_num)
  have hbound : (0 : ℤ) ≤ 2 ^ 56 := by norm_num
  refine safe_groupAccumulateStreamed hbound (lt_of_le_of_lt hsum (by norm_num))
    (fun i _ => safe_fp4FragProduct hhigh a b i) fun i _ hzero => ?_
  rw [result_fp4FragProduct] at hzero ⊢
  exact fits_of_represents (represents_fp4FragProduct hlow (by omega) a b i) hzero

/-- The label of a group of E2M1 products is between 0 and 4, which is what the fold needs. -/
lemma groupRange_fp4Group {F : ℕ} (hF : F ≤ 35) :
    GroupRange F G
      (MmaEmu.fp4GdfsGroupAccumulatePredecoded G GS (encodeFp4Row a) (encodeFp4Row b)).mantissaSum
      (MmaEmu.fp4GdfsGroupAccumulatePredecoded G GS (encodeFp4Row a) (encodeFp4Row b)).maxExp := by
  rw [fp4GdfsGroupAccumulatePredecoded_eq hlow (by omega)]
  split
  · exact ⟨hF, hhigh, by simp, le_rfl, by norm_num⟩
  · obtain ⟨hlabel, hlabel4⟩ := groupLabel_e2m1Terms a b GS
    refine ⟨hF, hhigh, ?_, hlabel, hlabel4⟩
    have hle : GS * 2 ^ (4 + (G - 2)) < 2 ^ (8 + G) :=
      calc GS * 2 ^ (4 + (G - 2)) ≤ 2 ^ 5 * 2 ^ (4 + (G - 2)) := Nat.mul_le_mul_right _ hGS
        _ = 2 ^ (7 + G) := by
          rw [← pow_add]
          congr 1
          omega
        _ < 2 ^ (8 + G) := Nat.pow_lt_pow_right (by norm_num) (by omega)
    rw [← Int.natCast_natAbs]
    exact_mod_cast lt_of_le_of_lt (natAbs_e2m1Total_le G a b GS) hle

end

namespace ScaleSteps

variable {fmt : BlockFormat} (steps : ScaleSteps fmt) (law : fmt.Lawful) {F : ℕ} (hF : F ≤ 35)
include steps law hF

omit steps in
lemma fits_groupOperand {G GS : ℕ} (hlow : 2 ≤ G) (hhigh : G ≤ 6) (hGS : GS ≤ 32)
    {a b : ℕ → Byte} {sfa sfb : Byte} (h : Contributes (fmt.groupOperand F G
      (MmaEmu.fp4GdfsGroupAccumulatePredecoded G GS (encodeFp4Row a) (encodeFp4Row b)) sfa sfb)) :
    Fits (2 ^ 56) (fmt.groupOperand F G
      (MmaEmu.fp4GdfsGroupAccumulatePredecoded G GS (encodeFp4Row a) (encodeFp4Row b))
      sfa sfb) := by
  have hmax := maxExp_fp4GdfsGroupAccumulatePredecoded hlow (by omega) GS a b
  have hnan : (fmt.isNan sfa || fmt.isNan sfb) = false := by
    rw [← (groupOperand_flags (F := F) (G := G) law hmax).1]
    exact h.2.1
  exact fits_of_represents (represents_groupOperand law hF hlow hhigh hGS hnan) h.1

lemma safe_gdfsTile {G GS BK : ℕ} (hlow : 2 ≤ G) (hhigh : G ≤ 6) (hGS : GS ≤ 32)
    (hBK : BK / GS ≤ 32) (a b sfa sfb : ℕ → Byte) (c : Fp32) :
    Safe (steps.gdfsTile F G GS BK (encodeFp4Row a) (encodeFp4Row b) sfa sfb c) := by
  -- one group, at the offset where its products start
  have hgroup : ∀ (start : ℕ) (x y : Byte), Safe (do
      let gr ← fp4GdfsGroupAccumulatePredecoded G GS (fun i => encodeFp4Row a (start + i))
        (fun i => encodeFp4Row b (start + i))
      steps.groupOperand F G gr x y) := by
    intro start x y
    refine safe_bind.mpr ⟨safe_fp4Group hhigh (fun i => a (start + i)) (fun i => b (start + i))
      hlow hGS, ?_⟩
    rw [groupOperand]
    split
    · exact safe_pure _
    · rw [result_fp4GdfsGroupAccumulatePredecoded]
      exact steps.safe_applyScales (groupRange_fp4Group hhigh (fun i => a (start + i))
        (fun i => b (start + i)) hlow hGS hF) x y
  refine safe_bind.mpr ⟨all_mapM' fun g _ => hgroup (g * GS) _ _, ?_⟩
  simp only [result_mapM', result_bind, result_groupOperand,
    result_fp4GdfsGroupAccumulatePredecoded]
  refine safe_chunkedAccumulate hF (-139) (by simpa using hBK) (fun o ho => ?_) c
  obtain ⟨g, -, rfl⟩ := List.mem_map.mp ho
  exact fits_groupOperand law hF hlow hhigh hGS

omit steps in
lemma fits_productWithScales {a b sfa sfb : Byte} (h : Contributes (fmt.productWithScales F
      (MmaEmu.decomposeFp4E2m1 a) (MmaEmu.decomposeFp4E2m1 b) sfa sfb)) :
    Fits (2 ^ 56) (fmt.productWithScales F (MmaEmu.decomposeFp4E2m1 a)
      (MmaEmu.decomposeFp4E2m1 b) sfa sfb) := by
  have hnan : (fmt.isNan sfa || fmt.isNan sfb) = false := by
    rw [← productWithScales_isNan law F a b]
    exact h.2.1
  refine fits_of_represents (represents_productWithScales law hF hnan fun _ => ?_) h.1
  rw [← not_lt, ← productWithScales_isZero law hnan, h.1]
  decide

lemma safe_cofdaChunk {CS : ℕ} (hCS : CS ≤ 32) (valid : ℕ) (a b sfa sfb : ℕ → Byte) (c : Fp32) :
    Safe (steps.cofdaChunk F CS valid a b sfa sfb c) := by
  refine safe_bind.mpr ⟨all_mapM' fun i _ => ?_, ?_⟩
  · have hdecompose : ∀ x, Safe (decomposeFp4E2m1 x) := by
      intro x
      exact safe_bind.mpr ⟨safe_tell_shift.mpr (by decide), safe_pure _⟩
    rw [chunkOperand]
    split
    · exact safe_bind.mpr ⟨hdecompose _, safe_bind.mpr ⟨hdecompose _,
        steps.safe_productWithScales hF (a i) (b i) (sfa i) (sfb i)⟩⟩
    · exact safe_pure _
  · simp only [result_mapM', result_chunkOperand]
    refine safe_chunkedAccumulate hF (-133) (by simpa using hCS) (fun o ho => ?_) c
    obtain ⟨i, -, rfl⟩ := List.mem_map.mp ho
    split
    · exact fits_productWithScales law hF
    · exact fun h => absurd h.1 (by decide)

end ScaleSteps

end Datapath

end MmaEmu
