import VllmMmaEmu.Core.GdfsGroup

/-!
# FP4 E2M1 elements

Shared by NVFP4 and MXFP4. An element is a nibble in the low half of a byte;
E2M1 has no NaN and no infinity.
-/

namespace MmaEmu

open FixedPoint FusedSum

namespace Fp4

def mantissaBits : ℕ := 1
def exponentBias : ℤ := 1
def implicitOne : ℕ := 2
def productRadixBit : ℕ := 2

end Fp4

/-- Element `kLocal` of row `localM` of a packed tile, low nibble first. -/
def loadFp4FromTile (tile : ℕ → Byte) (localM kLocal bkPacked : ℕ) : Byte :=
  let byteIdx := localM * bkPacked + kLocal / 2
  if kLocal % 2 = 0 then tile byteIdx &&& 0x0F#8 else tile byteIdx >>> 4

/-- Decomposed components of an E2M1 value; the exponent is the biased field. -/
structure FP4Components where
  sign : ℤ
  exponent : ℕ
  mantissa : ℕ
  isZero : Bool
  isSubnormal : Bool
  deriving DecidableEq, Repr

def decomposeFp4E2m1 (val : Byte) : FP4Components :=
  let sign : ℤ := if val &&& 0x8#8 ≠ 0#8 then -1 else 1
  let mag := val &&& 0x7#8
  let exponent := ((mag >>> Fp4.mantissaBits) &&& 0x3#8).toNat
  let mantissa := (mag &&& 0x1#8).toNat
  if mag = 0#8 then ⟨sign, exponent, mantissa, true, false⟩
  else ⟨sign, exponent, mantissa, false, exponent == 0⟩

/-- Significand with the implicit bit of normal values. -/
def FP4Components.sig (a : FP4Components) : ℕ :=
  if a.isSubnormal then a.mantissa else Fp4.implicitOne + a.mantissa

/-- Unbiased exponent. -/
def FP4Components.exp (a : FP4Components) : ℤ :=
  if a.isSubnormal then 1 - Fp4.exponentBias else a.exponent - Fp4.exponentBias

/-- One byte per field; `sign` and `exp` are signed. -/
structure DecodedFP4Operand where
  sign : Byte
  sig : Byte
  exp : Byte
  flags : Byte
  deriving DecidableEq, Repr

def fp4ZeroBit : Byte := 0x1#8

def packDecodedFp4 (d : DecodedFP4Operand) : BitVec 32 := packBytes d.sign d.sig d.exp d.flags

def unpackDecodedFp4 (w : BitVec 32) : DecodedFP4Operand where
  sign := wordByte w 0
  sig := wordByte w 8
  exp := wordByte w 16
  flags := wordByte w 24

def decodeFp4Operand (nibble : Byte) : DecodedFP4Operand :=
  let sign : Byte := if nibble &&& 0x8#8 ≠ 0#8 then BitVec.ofInt 8 (-1) else 1#8
  let mag := nibble &&& 0x7#8
  let expField : ℤ := ((mag >>> Fp4.mantissaBits) &&& 0x3#8).toNat
  let mant := (mag &&& 0x1#8).toNat
  if mag = 0#8 then ⟨sign, 0#8, 0#8, fp4ZeroBit⟩
  else if expField = 0 then
    ⟨sign, BitVec.ofNat 8 mant, BitVec.ofInt 8 (1 - Fp4.exponentBias), 0#8⟩
  else
    ⟨sign, BitVec.ofNat 8 (Fp4.implicitOne + mant), BitVec.ofInt 8 (expField - Fp4.exponentBias), 0#8⟩

def fp4MultiplyPredecoded (G : ℕ) (a b : DecodedFP4Operand) : Product :=
  if a.flags &&& fp4ZeroBit ≠ 0#8 ∨ b.flags &&& fp4ZeroBit ≠ 0#8 then
    ⟨1, 0, 0, true, false, false⟩
  else
    let rawProduct := a.sig.toNat * b.sig.toNat
    let significand := natToRadix Fp4.productRadixBit G rawProduct
    ⟨a.sign.toInt * b.sign.toInt, a.exp.toInt + b.exp.toInt, significand,
      significand == 0, false, false⟩

/-- Product of element `i` of two rows of packed words. -/
def fp4FragProduct (G : ℕ) (aFrag bFrag : ℕ → BitVec 32) (i : ℕ) : Product :=
  fp4MultiplyPredecoded G (unpackDecodedFp4 (aFrag i)) (unpackDecodedFp4 (bFrag i))

def fp4GdfsGroupAccumulatePredecoded (G GS : ℕ) (aFrag bFrag : ℕ → BitVec 32) : GroupResult :=
  groupAccumulateStreamed GS (fp4FragProduct G aFrag bFrag)

@[simp] lemma unpackDecodedFp4_packDecodedFp4 (d : DecodedFP4Operand) :
    unpackDecodedFp4 (packDecodedFp4 d) = d := by
  obtain ⟨hs, hm, he, hf⟩ := wordByte_packBytes d.sign d.sig d.exp d.flags
  rw [unpackDecodedFp4, packDecodedFp4, hs, hm, he, hf]

/-- E2M1 with its unnormalised exponent; only the low four bits count. -/
def e2m1 (nibble : Byte) : SignMagnitude :=
  SignMagnitude.ofFields 1 1 (nibble.toNat / 8 % 2 == 1) (nibble.toNat / 2 % 4) (nibble.toNat % 2)

/-- The exact product of two elements. -/
def e2m1Product (a b : Byte) : SignMagnitude := (e2m1 a).mul (e2m1 b)

lemma decomposeFp4E2m1_fields (nibble : Byte) :
    let a := decomposeFp4E2m1 nibble
    (a.isZero = true ↔ (e2m1 nibble).significand = 0) ∧
      (a.isZero = false → a.sign = (e2m1 nibble).sign ∧ a.sig = (e2m1 nibble).significand ∧
        a.exp = (e2m1 nibble).exponent) := by
  revert nibble
  decide +kernel

lemma decodeFp4Operand_fields (nibble : Byte) :
    let d := decodeFp4Operand nibble
    (d.flags &&& fp4ZeroBit ≠ 0#8 ↔ (e2m1 nibble).significand = 0) ∧
      ((e2m1 nibble).significand ≠ 0 → d.sign.toInt = (e2m1 nibble).sign ∧
        d.sig.toNat = (e2m1 nibble).significand ∧ d.exp.toInt = (e2m1 nibble).exponent) := by
  revert nibble
  decide +kernel

lemma e2m1_range (nibble : Byte) : (e2m1 nibble).significand < 4 ∧
    0 ≤ (e2m1 nibble).exponent ∧ (e2m1 nibble).exponent ≤ 2 ∧ (e2m1 nibble).radix = 1 := by
  revert nibble
  decide +kernel

lemma e2m1Product_range (a b : Byte) : (e2m1Product a b).significand < 2 ^ 4 ∧
    0 ≤ (e2m1Product a b).exponent ∧ (e2m1Product a b).exponent ≤ 4 ∧
      (e2m1Product a b).radix = 2 := by
  obtain ⟨hra, hla, hua, hfa⟩ := e2m1_range a
  obtain ⟨hrb, hlb, hub, hfb⟩ := e2m1_range b
  simp only [e2m1Product, SignMagnitude.mul, hfa, hfb]
  refine ⟨lt_of_lt_of_le (Nat.mul_lt_mul'' hra hrb) (by norm_num), ?_, ?_, trivial⟩ <;> omega

/-- Words that hold the decoded form of a row of nibbles. -/
def encodeFp4Row (row : ℕ → Byte) : ℕ → BitVec 32 :=
  fun i => packDecodedFp4 (decodeFp4Operand (row i))

/-- At the admitted widths no product is cut to zero, so flags follow the exact value. -/
theorem represents_fp4FragProduct {G : ℕ} (hlow : 2 ≤ G) (hhigh : G ≤ 35) (a b : ℕ → Byte) (i : ℕ) :
    Represents G (fp4FragProduct G (encodeFp4Row a) (encodeFp4Row b) i).toOperand
      (e2m1Product (a i) (b i)).term := by
  obtain ⟨hza, hfieldsa⟩ := decodeFp4Operand_fields (a i)
  obtain ⟨hzb, hfieldsb⟩ := decodeFp4Operand_fields (b i)
  obtain ⟨hsig, hexp, -, hradix⟩ := e2m1Product_range (a i) (b i)
  have hprod : fp4FragProduct G (encodeFp4Row a) (encodeFp4Row b) i =
      fp4MultiplyPredecoded G (decodeFp4Operand (a i)) (decodeFp4Operand (b i)) := by
    simp [fp4FragProduct, encodeFp4Row]
  have hzero : (decodeFp4Operand (a i)).flags &&& fp4ZeroBit ≠ 0#8 ∨
      (decodeFp4Operand (b i)).flags &&& fp4ZeroBit ≠ 0#8 ↔
      (e2m1Product (a i) (b i)).significand = 0 := by
    rw [hza, hzb, ← Nat.mul_eq_zero]
    rfl
  rw [hprod]
  refine represents_term (by omega) hsig (by omega) ?_ ?_
  · intro hz
    rw [fp4MultiplyPredecoded, if_pos (hzero.mpr hz)]
    exact ⟨rfl, rfl, rfl⟩
  · intro hz
    obtain ⟨ha, hb⟩ : (e2m1 (a i)).significand ≠ 0 ∧ (e2m1 (b i)).significand ≠ 0 :=
      not_or.mp (fun h => hz (Nat.mul_eq_zero.mpr h))
    obtain ⟨hsa, hma, hea⟩ := hfieldsa ha
    obtain ⟨hsb, hmb, heb⟩ := hfieldsb hb
    have hcut : (natToRadix Fp4.productRadixBit G
        ((e2m1 (a i)).significand * (e2m1 (b i)).significand) == 0) = false := by
      rw [beq_eq_false_iff_ne, Ne, natToRadix_eq_zero_iff, Fp4.productRadixBit,
        Nat.sub_eq_zero_of_le hlow, pow_zero, Nat.lt_one_iff]
      exact hz
    rw [fp4MultiplyPredecoded, if_neg (fun h => hz (hzero.mp h)), hsa, hma, hea, hsb, hmb, heb,
      operandOf, hradix]
    simp only [Product.toOperand, hcut, natCast_natToRadix]
    rfl

end MmaEmu
