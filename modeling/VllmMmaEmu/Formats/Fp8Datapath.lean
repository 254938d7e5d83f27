import VllmMmaEmu.Core.DatapathSafe
import VllmMmaEmu.Formats.Fp8E4m3

/-!
# The FP8 datapath

From packed words to the accumulator, with the words and shifts recorded. The
bounds hold for every byte: a NaN product has significand zero.
-/

namespace MmaEmu

open FixedPoint Tracing

namespace Datapath

def unpackDecoded (w : BitVec 32) : Steps DecodedOperand := do
  tell [.shift 8, .shift 16, .shift 24]
  return MmaEmu.unpackDecoded w

def fp8MultiplyPredecoded (F : ℕ) (a b : DecodedOperand) : Steps Product :=
  if a.flags &&& nanBit ≠ 0#8 ∨ b.flags &&& nanBit ≠ 0#8 then
    return ⟨1, 0, 0, false, true, false⟩
  else if a.flags &&& zeroBit ≠ 0#8 ∨ b.flags &&& zeroBit ≠ 0#8 then
    return ⟨1, 0, 0, true, false, false⟩
  else do
    let rawProduct ← word (a.significand.toNat * b.significand.toNat : ℕ)
    let significand ← toRadix Fp8.productRadixBit F rawProduct
    return ⟨a.sign.toInt * b.sign.toInt, a.exp.toInt + b.exp.toInt, significand.toNat,
      false, false, false⟩

def fragProduct (F : ℕ) (aFrag bFrag : ℕ → BitVec 32) (i : ℕ) : Steps Product := do
  fp8MultiplyPredecoded F (← unpackDecoded (aFrag i)) (← unpackDecoded (bFrag i))

def fp8GdfsGroupAccumulatePredecoded (G GS : ℕ) (aFrag bFrag : ℕ → BitVec 32) : Steps GroupResult :=
  groupAccumulateStreamed GS (fragProduct G aFrag bFrag)

def groupToOperandFp8 (F G : ℕ) (mantissaSum maxExp : ℤ) : Steps Operand :=
  if mantissaSum = 0 then return ⟨1, 0, 0, true, false, false⟩
  else do
    let absSum ← word (if mantissaSum < 0 then -mantissaSum else mantissaSum)
    let significand ← toRadix G F absSum
    return ⟨if mantissaSum < 0 then -1 else 1, maxExp, significand, false, false, false⟩

def fp8GroupOperand (F G : ℕ) (gr : GroupResult) : Steps Operand :=
  if gr.allZero then return makeZeroOperand else groupToOperandFp8 F G gr.mantissaSum gr.maxExp

def fp8GdfsTile (F G GS BK : ℕ) (aFrag bFrag : ℕ → BitVec 32) (c : Fp32) : Steps Fp32 := do
  let groups ← (List.range (BK / GS)).mapM' fun g => do
    fp8GroupOperand F G (← fp8GdfsGroupAccumulatePredecoded G GS
      (fun i => aFrag (g * GS + i)) (fun i => bFrag (g * GS + i)))
  chunkedAccumulate F (-139) groups c

def fp8CofdaMma (F CS : ℕ) (eZero : ℤ) (aFrag bFrag : ℕ → BitVec 32) (c : Fp32) : Steps Fp32 :=
  chunkedAccumulateStreamed F eZero CS (fun i => do return (← fragProduct F aFrag bFrag i).toOperand)
    c

/-- One chunk of the C-decoupled kernel, with its products in an array. -/
def fp8CofdaDecoupledChunk (F CS : ℕ) (aFrag bFrag : ℕ → BitVec 32) (c : Fp32) : Steps Fp32 := do
  let products ← (List.range CS).mapM' (fragProduct F aFrag bFrag)
  cofdaDecoupledAccumulateProducts F 23 products c

@[simp] lemma result_fp8MultiplyPredecoded (F : ℕ) (a b : DecodedOperand) :
    result (fp8MultiplyPredecoded F a b) = MmaEmu.fp8MultiplyPredecoded F a b := by
  have hcast : ∀ x : ℕ, (FixedPoint.toRadix Fp8.productRadixBit F x).toNat =
      natToRadix Fp8.productRadixBit F x := by
    intro x
    rw [← natCast_natToRadix, Int.toNat_natCast]
  simp only [fp8MultiplyPredecoded, MmaEmu.fp8MultiplyPredecoded, result_ite, result_bind,
    result_pure, result_word, result_toRadix, hcast]

@[simp] lemma result_fragProduct (F : ℕ) (aFrag bFrag : ℕ → BitVec 32) (i : ℕ) :
    result (fragProduct F aFrag bFrag i) = MmaEmu.fragProduct F aFrag bFrag i := by
  simp only [fragProduct, MmaEmu.fragProduct, unpackDecoded, result_bind, result_pure,
    result_fp8MultiplyPredecoded]

@[simp] lemma result_fp8GdfsGroupAccumulatePredecoded (G GS : ℕ) (aFrag bFrag : ℕ → BitVec 32) :
    result (fp8GdfsGroupAccumulatePredecoded G GS aFrag bFrag) =
      MmaEmu.fp8GdfsGroupAccumulatePredecoded G GS aFrag bFrag := by
  simp only [fp8GdfsGroupAccumulatePredecoded, MmaEmu.fp8GdfsGroupAccumulatePredecoded,
    result_groupAccumulateStreamed, result_fragProduct]

@[simp] lemma result_fp8GroupOperand (F G : ℕ) (gr : GroupResult) :
    result (fp8GroupOperand F G gr) = MmaEmu.fp8GroupOperand F G gr := by
  simp only [fp8GroupOperand, MmaEmu.fp8GroupOperand, groupToOperandFp8, MmaEmu.groupToOperandFp8,
    result_ite, result_bind, result_pure, result_word, result_toRadix]

@[simp] lemma result_fp8GdfsTile (F G GS BK : ℕ) (aFrag bFrag : ℕ → BitVec 32) (c : Fp32) :
    result (fp8GdfsTile F G GS BK aFrag bFrag c) =
      MmaEmu.fp8GdfsTile F G GS BK aFrag bFrag c := by
  simp only [fp8GdfsTile, MmaEmu.fp8GdfsTile, gdfsAccumulateTile, result_bind, result_mapM',
    result_chunkedAccumulate, result_fp8GroupOperand, result_fp8GdfsGroupAccumulatePredecoded]

@[simp] lemma result_fp8CofdaMma (F CS : ℕ) (eZero : ℤ) (aFrag bFrag : ℕ → BitVec 32) (c : Fp32) :
    result (fp8CofdaMma F CS eZero aFrag bFrag c) =
      MmaEmu.fp8CofdaMma F CS eZero aFrag bFrag c := by
  rw [fp8CofdaMma, result_chunkedAccumulateStreamed, fp8CofdaMma_eq, fdaAccumulateChunk,
    List.map_map]
  simp only [result_bind, result_pure, result_fragProduct]
  rfl

@[simp] lemma result_fp8CofdaDecoupledChunk (F CS : ℕ) (aFrag bFrag : ℕ → BitVec 32) (c : Fp32) :
    result (fp8CofdaDecoupledChunk F CS aFrag bFrag c) =
      MmaEmu.cofdaDecoupledAccumulateProducts F 23
        ((List.range CS).map (MmaEmu.fragProduct F aFrag bFrag)) c := by
  simp only [fp8CofdaDecoupledChunk, result_bind, result_mapM',
    result_cofdaDecoupledAccumulateProducts, result_fragProduct]

lemma decodeOperand_range (bits : Byte) :
    ((decodeOperand bits).sign.toInt = 1 ∨ (decodeOperand bits).sign.toInt = -1) ∧
      (decodeOperand bits).significand.toNat < 2 ^ 4 := by
  revert bits
  decide +kernel

section
variable {F : ℕ} (hF : F ≤ 35) (a b : Byte)

lemma rawProduct_lt : (((decodeOperand a).significand.toNat *
    (decodeOperand b).significand.toNat : ℕ) : ℤ) < 2 ^ 8 := by
  exact_mod_cast lt_of_lt_of_le
    (Nat.mul_lt_mul'' (decodeOperand_range a).2 (decodeOperand_range b).2) (by norm_num)

include hF in
lemma safe_fp8MultiplyPredecoded :
    Safe (fp8MultiplyPredecoded F (decodeOperand a) (decodeOperand b)) := by
  have hraw := rawProduct_lt a b
  rw [fp8MultiplyPredecoded]
  split
  · exact safe_pure _
  · split
    · exact safe_pure _
    · refine safe_bind.mpr ⟨safe_word.mpr ?_, safe_bind.mpr ⟨?_, safe_pure _⟩⟩
      · rw [abs_of_nonneg (by positivity)]
        exact lt_trans hraw (by norm_num)
      · rw [result_word]
        exact safe_toRadix (by positivity) hraw (by norm_num) (by rw [Fp8.productRadixBit]; omega)
          (by rw [Fp8.productRadixBit]; omega)

/-- A product that is not flagged zero, a NaN among them. -/
lemma fits_fp8MultiplyPredecoded (F : ℕ)
    (h : (MmaEmu.fp8MultiplyPredecoded F (decodeOperand a) (decodeOperand b)).isZero = false) :
    Fits (2 ^ (8 + (F - 6)))
      (MmaEmu.fp8MultiplyPredecoded F (decodeOperand a) (decodeOperand b)).toOperand := by
  rw [MmaEmu.fp8MultiplyPredecoded] at h ⊢
  split
  · exact ⟨Or.inl rfl, le_rfl, by simp [Product.toOperand]⟩
  · rename_i hnan
    rw [if_neg hnan] at h
    split at h
    · exact absurd h (by decide)
    · rename_i hzero
      rw [if_neg hzero]
      have hlt := toRadix_lt Fp8.productRadixBit F (by positivity) (rawProduct_lt a b)
      refine ⟨mul_sign (decodeOperand_range a).1 (decodeOperand_range b).1,
        Int.natCast_nonneg _, ?_⟩
      simp only [Product.toOperand, natCast_natToRadix]
      exact hlt.le

end

section
variable {F : ℕ} (hF : F ≤ 35) (a b : ℕ → Byte) (i : ℕ)

lemma fragProduct_eq (F : ℕ) : MmaEmu.fragProduct F (encodeRow a) (encodeRow b) i =
    MmaEmu.fp8MultiplyPredecoded F (decodeOperand (a i)) (decodeOperand (b i)) := by
  rw [MmaEmu.fragProduct, encodeRow, encodeRow, unpackDecoded_packDecoded,
    unpackDecoded_packDecoded]

lemma fits_fragProduct (F : ℕ)
    (h : (MmaEmu.fragProduct F (encodeRow a) (encodeRow b) i).isZero = false) :
    Fits (2 ^ (8 + (F - 6))) (MmaEmu.fragProduct F (encodeRow a) (encodeRow b) i).toOperand := by
  rw [fragProduct_eq] at h ⊢
  exact fits_fp8MultiplyPredecoded (a i) (b i) F h

include hF in
lemma safe_fragProduct : Safe (fragProduct F (encodeRow a) (encodeRow b) i) := by
  have hunpack : ∀ w, Safe (unpackDecoded w) := by
    intro w
    refine safe_bind.mpr ⟨?_, safe_pure _⟩
    simp [Safe, Event.Safe]
  refine safe_bind.mpr ⟨hunpack _, safe_bind.mpr ⟨hunpack _, ?_⟩⟩
  simp only [unpackDecoded, result_bind, result_pure, encodeRow, unpackDecoded_packDecoded]
  exact safe_fp8MultiplyPredecoded hF (a i) (b i)

include hF in
lemma fits_fragProduct_operand
    (h : Contributes (MmaEmu.fragProduct F (encodeRow a) (encodeRow b) i).toOperand) :
    Fits (2 ^ 56) (MmaEmu.fragProduct F (encodeRow a) (encodeRow b) i).toOperand :=
  (fits_fragProduct a b i F h.1).mono (pow_le_pow_right₀ (by norm_num) (by omega))

end

section
variable {F : ℕ} (hF : F ≤ 35) (a b : ℕ → Byte) (c : Fp32)
include hF

lemma safe_fp8CofdaMma {CS : ℕ} (hCS : CS ≤ 32) (eZero : ℤ) :
    Safe (fp8CofdaMma F CS eZero (encodeRow a) (encodeRow b) c) := by
  refine safe_chunkedAccumulateStreamed hF eZero hCS (fun i _ => ?_) (fun i _ => ?_) c
  · exact safe_bind.mpr ⟨safe_fragProduct hF a b i, safe_pure _⟩
  · simp only [result_bind, result_pure, result_fragProduct]
    exact fits_fragProduct_operand hF a b i

lemma safe_fp8CofdaDecoupledChunk {CS : ℕ} (hCS : CS ≤ 32) :
    Safe (fp8CofdaDecoupledChunk F CS (encodeRow a) (encodeRow b) c) := by
  refine safe_bind.mpr ⟨all_mapM' fun i _ => safe_fragProduct hF a b i, ?_⟩
  simp only [result_mapM', result_fragProduct]
  refine safe_cofdaDecoupledAccumulateProducts hF (by norm_num) (by simpa using hCS) ?_ c
  intro p hp
  obtain ⟨i, -, rfl⟩ := List.mem_map.mp hp
  exact fits_fragProduct_operand hF a b i

end

section
variable (a b : ℕ → Byte) (G : ℕ) {GS : ℕ} (hGS : GS ≤ 16)
include hGS

lemma group_le : (GS : ℤ) * 2 ^ (8 + (G - 6)) ≤ 2 ^ (12 + (G - 6)) := by
  calc (GS : ℤ) * 2 ^ (8 + (G - 6)) ≤ 2 ^ 4 * 2 ^ (8 + (G - 6)) :=
        mul_le_mul_of_nonneg_right (by exact_mod_cast hGS) (by positivity)
    _ = 2 ^ (12 + (G - 6)) := by
        rw [← pow_add]
        congr 1
        omega

lemma abs_fp8Group_le :
    |(MmaEmu.fp8GdfsGroupAccumulatePredecoded G GS (encodeRow a) (encodeRow b)).mantissaSum| ≤
      2 ^ (12 + (G - 6)) :=
  (abs_groupAccumulateStreamed_le (by positivity) fun i _ => fits_fragProduct a b i G).trans
    (group_le G hGS)

lemma safe_fp8Group (hG : G ≤ 32) :
    Safe (fp8GdfsGroupAccumulatePredecoded G GS (encodeRow a) (encodeRow b)) := by
  have hsum : (2 : ℤ) ^ (12 + (G - 6)) < 2 ^ 62 := pow_lt_pow_right₀ (by norm_num) (by omega)
  have hbound : (0 : ℤ) ≤ 2 ^ (8 + (G - 6)) := by positivity
  refine safe_groupAccumulateStreamed hbound (lt_of_le_of_lt (group_le G hGS) hsum)
    (fun i _ => safe_fragProduct (by omega) a b i) fun i _ hzero => ?_
  rw [result_fragProduct] at hzero ⊢
  exact fits_fragProduct a b i G hzero

end

section
variable {F G : ℕ} (hF : F ≤ 35) (hG : G ≤ 32) {gr : GroupResult}
  (hsum : |gr.mantissaSum| ≤ 2 ^ (12 + (G - 6)))
include hF hG hsum

lemma safe_fp8GroupOperand : Safe (fp8GroupOperand F G gr) := by
  have hlt : |gr.mantissaSum| < 2 ^ (13 + (G - 6)) :=
    lt_of_le_of_lt hsum (pow_lt_pow_right₀ (by norm_num) (by omega))
  rw [fp8GroupOperand]
  split
  · exact safe_pure _
  · rw [groupToOperandFp8]
    split
    · exact safe_pure _
    · rw [abs_eq_ite]
      refine safe_bind.mpr ⟨safe_word.mpr ?_, safe_bind.mpr ⟨?_, safe_pure _⟩⟩
      · rw [abs_abs]
        exact lt_trans hlt (pow_lt_pow_right₀ (by norm_num) (by omega))
      · exact safe_toRadix (abs_nonneg _) hlt (by omega) (by omega) (by omega)

lemma fits_fp8GroupOperand (h : Contributes (MmaEmu.fp8GroupOperand F G gr)) :
    Fits (2 ^ 56) (MmaEmu.fp8GroupOperand F G gr) := by
  have hlt : |gr.mantissaSum| < 2 ^ (13 + (G - 6)) :=
    lt_of_le_of_lt hsum (pow_lt_pow_right₀ (by norm_num) (by omega))
  rw [MmaEmu.fp8GroupOperand] at h ⊢
  split at h
  · exact absurd h.1 (by decide)
  · rename_i hall
    rw [if_neg hall]
    rw [MmaEmu.groupToOperandFp8] at h ⊢
    split at h
    · exact absurd h.1 (by decide)
    · rename_i hne
      rw [if_neg hne, abs_eq_ite]
      refine ⟨?_, toRadix_nonneg G F (abs_nonneg _), ?_⟩
      · dsimp only
        split
        · exact Or.inr rfl
        · exact Or.inl rfl
      · exact (toRadix_lt G F (abs_nonneg _) hlt).le.trans
          (pow_le_pow_right₀ (by norm_num) (by omega))

end

lemma safe_fp8GdfsTile {F G GS BK : ℕ} (hF : F ≤ 35) (hG : G ≤ 32) (hGS : GS ≤ 16)
    (hBK : BK / GS ≤ 32) (a b : ℕ → Byte) (c : Fp32) :
    Safe (fp8GdfsTile F G GS BK (encodeRow a) (encodeRow b) c) := by
  refine safe_bind.mpr ⟨all_mapM' fun g _ => safe_bind.mpr ⟨?_, ?_⟩, ?_⟩
  · exact safe_fp8Group (fun i => a (g * GS + i)) (fun i => b (g * GS + i)) G hGS hG
  · rw [result_fp8GdfsGroupAccumulatePredecoded]
    exact safe_fp8GroupOperand hF hG
      (abs_fp8Group_le (fun i => a (g * GS + i)) (fun i => b (g * GS + i)) G hGS)
  · simp only [result_mapM', result_bind, result_fp8GroupOperand,
      result_fp8GdfsGroupAccumulatePredecoded]
    refine safe_chunkedAccumulate hF (-139) (by simpa using hBK) (fun o ho => ?_) c
    obtain ⟨g, -, rfl⟩ := List.mem_map.mp ho
    exact fits_fp8GroupOperand hF hG
      (abs_fp8Group_le (fun i => a (g * GS + i)) (fun i => b (g * GS + i)) G hGS)

end Datapath

end MmaEmu
