import VllmMmaEmu.Core.GdfsGroup

/-!
# FP8 E4M3 elements

Decomposition, unnormalised products, the pre-decoded fast path that the
kernels use, and the conversion of a GDFS group to an operand.
-/

namespace MmaEmu

open FixedPoint FusedSum

namespace Fp8

def exponentBias : ℤ := 7
def implicitOne : ℕ := 8
def productRadixBit : ℕ := 6
def nanPattern : Byte := 0x7F#8

end Fp8

/-- Decomposed components of an E4M3 value; the exponent is the biased field. -/
structure FP8Components where
  sign : ℤ
  exponent : ℕ
  mantissa : ℕ
  isZero : Bool
  isSubnormal : Bool
  isNan : Bool
  deriving DecidableEq, Repr

def decomposeFp8E4m3 (bits : Byte) : FP8Components :=
  let sign : ℤ := if bits &&& 0x80#8 ≠ 0#8 then -1 else 1
  let exponent := ((bits >>> 3) &&& 0x0F#8).toNat
  let mantissa := (bits &&& 0x07#8).toNat
  if bits &&& 0x7F#8 = Fp8.nanPattern then ⟨sign, exponent, mantissa, false, false, true⟩
  else if exponent = 0 ∧ mantissa = 0 then ⟨sign, exponent, mantissa, true, false, false⟩
  else ⟨sign, exponent, mantissa, false, exponent == 0, false⟩

/-- Significand with the implicit bit of normal values. -/
def FP8Components.sig (a : FP8Components) : ℕ :=
  if a.isSubnormal then a.mantissa else Fp8.implicitOne + a.mantissa

/-- Unbiased exponent. -/
def FP8Components.exp (a : FP8Components) : ℤ :=
  if a.isSubnormal then 1 - Fp8.exponentBias else a.exponent - Fp8.exponentBias

def fp8MultiplyUnnormalized (F : ℕ) (a b : FP8Components) : Product :=
  if a.isNan || b.isNan then ⟨1, 0, 0, false, true, false⟩
  else if a.isZero || b.isZero then ⟨1, 0, 0, true, false, false⟩
  else
    let rawProduct := a.sig * b.sig
    ⟨a.sign * b.sign, a.exp + b.exp, natToRadix Fp8.productRadixBit F rawProduct,
      false, false, false⟩

def fp8Multiply (F : ℕ) (aBits bBits : Byte) : Product :=
  fp8MultiplyUnnormalized F (decomposeFp8E4m3 aBits) (decomposeFp8E4m3 bBits)

/-- One byte per field; `sign` and `exp` are signed. -/
structure DecodedOperand where
  sign : Byte
  significand : Byte
  exp : Byte
  flags : Byte
  deriving DecidableEq, Repr

def nanBit : Byte := 0x1#8
def zeroBit : Byte := 0x2#8

def packDecoded (d : DecodedOperand) : BitVec 32 :=
  packBytes d.sign d.significand d.exp d.flags

def unpackDecoded (w : BitVec 32) : DecodedOperand where
  sign := wordByte w 0
  significand := wordByte w 8
  exp := wordByte w 16
  flags := wordByte w 24

def decodeOperand (bits : Byte) : DecodedOperand :=
  let sign : Byte := if bits &&& 0x80#8 ≠ 0#8 then BitVec.ofInt 8 (-1) else 1#8
  let exponent : ℤ := ((bits >>> 3) &&& 0x0F#8).toNat
  let mantissa := (bits &&& 0x07#8).toNat
  if bits &&& 0x7F#8 = Fp8.nanPattern then ⟨sign, 0#8, 0#8, nanBit⟩
  else if exponent = 0 ∧ mantissa = 0 then ⟨sign, 0#8, 0#8, zeroBit⟩
  else if exponent = 0 then
    ⟨sign, BitVec.ofNat 8 mantissa, BitVec.ofInt 8 (1 - Fp8.exponentBias), 0#8⟩
  else
    ⟨sign, BitVec.ofNat 8 (Fp8.implicitOne + mantissa), BitVec.ofInt 8 (exponent - Fp8.exponentBias),
      0#8⟩

def fp8MultiplyPredecoded (F : ℕ) (a b : DecodedOperand) : Product :=
  if a.flags &&& nanBit ≠ 0#8 ∨ b.flags &&& nanBit ≠ 0#8 then ⟨1, 0, 0, false, true, false⟩
  else if a.flags &&& zeroBit ≠ 0#8 ∨ b.flags &&& zeroBit ≠ 0#8 then ⟨1, 0, 0, true, false, false⟩
  else
    let rawProduct := a.significand.toNat * b.significand.toNat
    ⟨a.sign.toInt * b.sign.toInt, a.exp.toInt + b.exp.toInt,
      natToRadix Fp8.productRadixBit F rawProduct, false, false, false⟩

/-- Product of element `i` of two rows of packed words. -/
def fragProduct (F : ℕ) (aFrag bFrag : ℕ → BitVec 32) (i : ℕ) : Product :=
  fp8MultiplyPredecoded F (unpackDecoded (aFrag i)) (unpackDecoded (bFrag i))

def fp8GdfsGroupAccumulatePredecoded (G GS : ℕ) (aFrag bFrag : ℕ → BitVec 32) : GroupResult :=
  groupAccumulateStreamed GS (fragProduct G aFrag bFrag)

def groupToOperandFp8 (F G : ℕ) (mantissaSum maxExp : ℤ) : Operand :=
  if mantissaSum = 0 then ⟨1, 0, 0, true, false, false⟩
  else
    ⟨if mantissaSum < 0 then -1 else 1, maxExp,
      toRadix G F (if mantissaSum < 0 then -mantissaSum else mantissaSum), false, false, false⟩

/-- Operand of one group in the tile step. -/
def fp8GroupOperand (F G : ℕ) (gr : GroupResult) : Operand :=
  if gr.allZero then makeZeroOperand else groupToOperandFp8 F G gr.mantissaSum gr.maxExp

/-- One GDFS step over the `BK` elements of a tile row and a tile column. -/
def fp8GdfsTile (F G GS BK : ℕ) (aFrag bFrag : ℕ → BitVec 32) (c : Fp32) : Fp32 :=
  gdfsAccumulateTile F ((List.range (BK / GS)).map fun g =>
    fp8GroupOperand F G (fp8GdfsGroupAccumulatePredecoded G GS
      (fun i => aFrag (g * GS + i)) (fun i => bFrag (g * GS + i)))) c

/-- `chunkedAccumulate` with the products recomputed in each pass. -/
def fp8CofdaMma (F CS : ℕ) (eZero : ℤ) (aFrag bFrag : ℕ → BitVec 32) (c : Fp32) : Fp32 :=
  let cOperand := fp32ToOperand F c
  if cOperand.isNan then qnanBits
  else
    ((List.range CS).foldl (fun s i => s.add (fragProduct F aFrag bFrag i).toOperand)
      (Scan.ofAccumulator cOperand)).finish eZero fun maxExp =>
        fixedToFp32 F
          ((List.range CS).foldl
            (fun sum i => addAligned maxExp sum (fragProduct F aFrag bFrag i).toOperand)
            (startSum maxExp cOperand)) maxExp

@[simp] lemma unpackDecoded_packDecoded (d : DecodedOperand) :
    unpackDecoded (packDecoded d) = d := by
  obtain ⟨hs, hm, he, hf⟩ := wordByte_packBytes d.sign d.significand d.exp d.flags
  rw [unpackDecoded, packDecoded, hs, hm, he, hf]

lemma decodeOperand_agrees (bits : Byte) :
    let d := decodeOperand bits
    let a := decomposeFp8E4m3 bits
    (d.flags &&& nanBit ≠ 0#8 ↔ a.isNan = true) ∧ (d.flags &&& zeroBit ≠ 0#8 ↔ a.isZero = true) ∧
      (a.isNan = false → a.isZero = false → d.sign.toInt = a.sign ∧ d.significand.toNat = a.sig ∧
        d.exp.toInt = a.exp) := by
  revert bits
  decide +kernel

lemma fp8MultiplyPredecoded_decodeOperand (F : ℕ) (a b : Byte) :
    fp8MultiplyPredecoded F (decodeOperand a) (decodeOperand b) = fp8Multiply F a b := by
  obtain ⟨hnan, hzero, hfields⟩ := decodeOperand_agrees a
  obtain ⟨hnan', hzero', hfields'⟩ := decodeOperand_agrees b
  simp only [fp8MultiplyPredecoded, fp8Multiply, fp8MultiplyUnnormalized, hnan, hnan', hzero, hzero',
    Bool.or_eq_true]
  by_cases hn : (decomposeFp8E4m3 a).isNan = true ∨ (decomposeFp8E4m3 b).isNan = true
  · rw [if_pos hn, if_pos hn]
  · rw [if_neg hn, if_neg hn]
    by_cases hz : (decomposeFp8E4m3 a).isZero = true ∨ (decomposeFp8E4m3 b).isZero = true
    · rw [if_pos hz, if_pos hz]
    · rw [if_neg hz, if_neg hz]
      simp only [not_or, Bool.not_eq_true] at hn hz
      obtain ⟨hs, hm, he⟩ := hfields hn.1 hz.1
      obtain ⟨hs', hm', he'⟩ := hfields' hn.2 hz.2
      rw [hs, hm, he, hs', hm', he']

/-- Words that hold the decoded form of a row of bytes. -/
def encodeRow (row : ℕ → Byte) : ℕ → BitVec 32 := fun i => packDecoded (decodeOperand (row i))

lemma fragProduct_encodeRow (F : ℕ) (a b : ℕ → Byte) (i : ℕ) :
    fragProduct F (encodeRow a) (encodeRow b) i = fp8Multiply F (a i) (b i) := by
  rw [fragProduct, encodeRow, encodeRow, unpackDecoded_packDecoded, unpackDecoded_packDecoded,
    fp8MultiplyPredecoded_decodeOperand]

/-- The register-streamed primitive is the reference chunk on the same products. -/
theorem fp8CofdaMma_eq (F CS : ℕ) (eZero : ℤ) (aFrag bFrag : ℕ → BitVec 32) (c : Fp32) :
    fp8CofdaMma F CS eZero aFrag bFrag c =
      fdaAccumulateChunk F eZero ((List.range CS).map (fragProduct F aFrag bFrag)) c := by
  simp only [fp8CofdaMma, fdaAccumulateChunk, chunkedAccumulate, List.map_map, List.foldl_map,
    Function.comp_apply]

theorem fp8GdfsGroupAccumulatePredecoded_encodeRow (G GS : ℕ) (a b : ℕ → Byte) :
    fp8GdfsGroupAccumulatePredecoded G GS (encodeRow a) (encodeRow b) =
      groupAccumulate ((List.range GS).map fun i => fp8Multiply G (a i) (b i)) := by
  rw [fp8GdfsGroupAccumulatePredecoded, groupAccumulateStreamed_eq]
  simp only [← fragProduct_encodeRow]

/-- E4M3 with its unnormalised exponent; meaningful for bytes that are not NaN. -/
def e4m3 (bits : Byte) : SignMagnitude :=
  SignMagnitude.ofFields 3 7 (bits.toNat / 128 == 1) (bits.toNat / 8 % 16) (bits.toNat % 8)

def e4m3IsNan (bits : Byte) : Bool := bits == 0x7F#8 || bits == 0xFF#8

lemma decomposeFp8E4m3_isNan (bits : Byte) : (decomposeFp8E4m3 bits).isNan = e4m3IsNan bits := by
  revert bits
  decide +kernel

lemma decomposeFp8E4m3_fields (bits : Byte) (hnan : e4m3IsNan bits = false) :
    let a := decomposeFp8E4m3 bits
    (a.isZero = true ↔ (e4m3 bits).significand = 0) ∧ (a.isZero = false → a.sign = (e4m3 bits).sign ∧
      a.sig = (e4m3 bits).significand ∧ a.exp = (e4m3 bits).exponent) := by
  revert bits
  decide +kernel

lemma e4m3_exponent_le (bits : Byte) : (e4m3 bits).exponent ≤ 8 := by
  revert bits
  decide +kernel

lemma e4m3_range (bits : Byte) : (e4m3 bits).significand < 2 ^ 4 ∧ -6 ≤ (e4m3 bits).exponent ∧
    (e4m3 bits).radix = 3 := by
  revert bits
  decide +kernel

lemma fp8Multiply_isNan (F : ℕ) (a b : Byte) :
    (fp8Multiply F a b).isNan = (e4m3IsNan a || e4m3IsNan b) := by
  rw [fp8Multiply, fp8MultiplyUnnormalized, decomposeFp8E4m3_isNan, decomposeFp8E4m3_isNan]
  cases e4m3IsNan a || e4m3IsNan b
  · simp only [Bool.false_eq_true, if_false]
    split <;> rfl
  · rfl

lemma fp8Multiply_isInf (F : ℕ) (a b : Byte) : (fp8Multiply F a b).isInf = false := by
  rw [fp8Multiply, fp8MultiplyUnnormalized]
  split
  · rfl
  · split <;> rfl

/-- The product of two finite elements holds the exact product, cut once. -/
theorem represents_fp8Multiply {F : ℕ} (hF : F ≤ 35) {a b : Byte} (ha : e4m3IsNan a = false)
    (hb : e4m3IsNan b = false) :
    Represents F (fp8Multiply F a b).toOperand ((e4m3 a).mul (e4m3 b)).term := by
  obtain ⟨hza, hfieldsa⟩ := decomposeFp8E4m3_fields a ha
  obtain ⟨hzb, hfieldsb⟩ := decomposeFp8E4m3_fields b hb
  obtain ⟨hra, hla, hfa⟩ := e4m3_range a
  obtain ⟨hrb, hlb, hfb⟩ := e4m3_range b
  have hzero : ((decomposeFp8E4m3 a).isZero || (decomposeFp8E4m3 b).isZero) = true ↔
      ((e4m3 a).mul (e4m3 b)).significand = 0 := by
    rw [Bool.or_eq_true, hza, hzb, ← Nat.mul_eq_zero]
    rfl
  have hprod : fp8Multiply F a b =
      if (decomposeFp8E4m3 a).isZero || (decomposeFp8E4m3 b).isZero then ⟨1, 0, 0, true, false, false⟩
      else ⟨(decomposeFp8E4m3 a).sign * (decomposeFp8E4m3 b).sign,
        (decomposeFp8E4m3 a).exp + (decomposeFp8E4m3 b).exp,
        natToRadix Fp8.productRadixBit F ((decomposeFp8E4m3 a).sig * (decomposeFp8E4m3 b).sig),
        false, false, false⟩ := by
    rw [fp8Multiply, fp8MultiplyUnnormalized, decomposeFp8E4m3_isNan, decomposeFp8E4m3_isNan, ha, hb]
    rfl
  apply represents_term (n := 8)
  · change -9999 ≤ (e4m3 a).exponent + (e4m3 b).exponent
    omega
  · exact lt_of_lt_of_le (Nat.mul_lt_mul'' hra hrb) (by norm_num)
  · change 8 + (F - ((e4m3 a).radix + (e4m3 b).radix)) ≤ 56
    omega
  · intro hz
    rw [hprod, if_pos (hzero.mpr hz)]
    exact ⟨rfl, rfl, rfl⟩
  · intro hz
    have hne : ¬ ((decomposeFp8E4m3 a).isZero || (decomposeFp8E4m3 b).isZero) = true :=
      fun h => hz (hzero.mp h)
    obtain ⟨hna, hnb⟩ := Bool.or_eq_false_iff.mp (Bool.not_eq_true _ ▸ hne)
    obtain ⟨hsa, hma, hea⟩ := hfieldsa hna
    obtain ⟨hsb, hmb, heb⟩ := hfieldsb hnb
    rw [hprod, if_neg hne, hsa, hma, hea, hsb, hmb, heb, Product.toOperand,
      natCast_natToRadix]
    simp only [operandOf, SignMagnitude.mul, hfa, hfb, Fp8.productRadixBit]

/-- The exact products of a group as terms. -/
def e4m3Terms (a b : ℕ → Byte) (n : ℕ) : List (Option Term) :=
  (List.range n).map fun i => ((e4m3 (a i)).mul (e4m3 (b i))).term

lemma forall₂_fp8Multiply {F n : ℕ} (hF : F ≤ 35) {a b : ℕ → Byte}
    (hnan : ∀ i < n, e4m3IsNan (a i) = false ∧ e4m3IsNan (b i) = false) :
    List.Forall₂ (fun p t => Represents F p.toOperand t)
      ((List.range n).map fun i => fp8Multiply F (a i) (b i)) (e4m3Terms a b n) := by
  rw [e4m3Terms, List.forall₂_map_left_iff, List.forall₂_map_right_iff, List.forall₂_same]
  intro i hi
  obtain ⟨ha, hb⟩ := hnan i (List.mem_range.mp hi)
  exact represents_fp8Multiply hF ha hb

lemma natAbs_e4m3Total_le (G : ℕ) (a b : ℕ → Byte) (n : ℕ) :
    (total G (groupLabel (e4m3Terms a b n)) (e4m3Terms a b n)).natAbs ≤ n * 2 ^ (8 + (G - 6)) := by
  have hterms : e4m3Terms a b n =
      ((List.range n).map fun i => (e4m3 (a i)).mul (e4m3 (b i))).map SignMagnitude.term := by
    rw [e4m3Terms, List.map_map]
    rfl
  have hlen : ((List.range n).map fun i => (e4m3 (a i)).mul (e4m3 (b i))).length = n := by simp
  rw [hterms]
  conv_rhs => rw [← hlen]
  apply SignMagnitude.natAbs_groupTotal_le (n := 8)
  intro x hx
  obtain ⟨i, -, rfl⟩ := List.mem_map.mp hx
  obtain ⟨hra, -, hfa⟩ := e4m3_range (a i)
  obtain ⟨hrb, -, hfb⟩ := e4m3_range (b i)
  refine ⟨lt_of_lt_of_le (Nat.mul_lt_mul'' hra hrb) (by norm_num), ?_⟩
  simp only [SignMagnitude.mul, hfa, hfb]
  omega

lemma label_e4m3Terms {a b : ℕ → Byte} {n : ℕ} {t : Term} (ht : some t ∈ e4m3Terms a b n) :
    -12 ≤ t.label ∧ t.label ≤ 16 := by
  obtain ⟨i, -, hi⟩ := List.mem_map.mp ht
  obtain ⟨-, hla, -⟩ := e4m3_range (a i)
  obtain ⟨-, hlb, -⟩ := e4m3_range (b i)
  have hua := e4m3_exponent_le (a i)
  have hub := e4m3_exponent_le (b i)
  rw [SignMagnitude.eq_of_term_eq_some hi]
  change -12 ≤ (e4m3 (a i)).exponent + (e4m3 (b i)).exponent ∧
    (e4m3 (a i)).exponent + (e4m3 (b i)).exponent ≤ 16
  omega

/-- A group's operand holds the group sum, cut once more to `F` bits; a group that cancels
is a zero term. -/
theorem represents_fp8GroupOperand {F G GS : ℕ} (hF : F ≤ 35) (hG : G ≤ 32) (hGS : GS ≤ 16)
    {a b : ℕ → Byte} (hnan : ∀ i < GS, e4m3IsNan (a i) = false ∧ e4m3IsNan (b i) = false) :
    Represents F
      (fp8GroupOperand F G (fp8GdfsGroupAccumulatePredecoded G GS (encodeRow a) (encodeRow b)))
      (groupTerm G (e4m3Terms a b GS)) := by
  have hforall := forall₂_fp8Multiply (F := G) (by omega) hnan
  have hbound := natAbs_e4m3Total_le G a b GS
  rw [fp8GdfsGroupAccumulatePredecoded_encodeRow, groupAccumulate_eq hforall, fp8GroupOperand,
    ← SignMagnitude.term_ofInt]
  by_cases hall : ∀ t ∈ e4m3Terms a b GS, t = none
  · rw [if_pos hall, if_pos rfl, total_eq_zero_of_none hall]
    rw [SignMagnitude.term_of_significand_eq_zero rfl]
    exact represents_makeZeroOperand F
  · obtain ⟨⟨t, ht, hlabel⟩, -⟩ := groupLabel_spec hall
    have hlow := label_e4m3Terms ht
    rw [if_neg hall, if_neg (by simp)]
    refine represents_term (n := 13 + (G - 6)) ?_ ?_ ?_ ?_ ?_
    · change -9999 ≤ groupLabel _
      omega
    · calc (total G (groupLabel (e4m3Terms a b GS)) (e4m3Terms a b GS)).natAbs
          ≤ GS * 2 ^ (8 + (G - 6)) := hbound
        _ ≤ 16 * 2 ^ (8 + (G - 6)) := Nat.mul_le_mul_right _ hGS
        _ < 2 ^ (13 + (G - 6)) := by
          have hpos : 0 < 2 ^ (G - 6) := by positivity
          rw [pow_add, pow_add]
          omega
    · change 13 + (G - 6) + (F - G) ≤ 56
      omega
    · intro hz
      rw [groupToOperandFp8, if_pos (Int.natAbs_eq_zero.mp hz)]
      exact ⟨rfl, rfl, rfl⟩
    · intro hz
      rw [groupToOperandFp8, if_neg (fun h => hz (Int.natAbs_eq_zero.mpr h)), operandOf,
        SignMagnitude.significand_ofInt]
      rfl

end MmaEmu
