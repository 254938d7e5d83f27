import Mathlib.Data.Int.Notation
import Mathlib.Data.Nat.Notation
import Mathlib.Tactic.Lemma

/-!
# Operands, products and the design space of the MMA emulation kernels

Floats are bit patterns. Exponents and fixed-point words are unbounded
integers, with the template parameters `F`, `G`, `CS` and `GS` as naturals.
-/

namespace MmaEmu

abbrev Fp32 := BitVec 32
abbrev Byte := BitVec 8

/-- Accumulation algorithm, as passed to the torch operators. -/
inductive Algorithm where
  | gdfs
  | cofda
  | cofdaDecoupled
  deriving DecidableEq, Repr

def cofdaF : List ℕ := [3, 5, 7, 9, 10, 11, 12, 13, 17, 21, 25]
def gdfsF : List ℕ := [7, 9, 10, 11, 13, 15, 25, 35]
def fp8Cs : List ℕ := [16, 32]
def mxfp4Cs : List ℕ := [16, 32]
def fp8Gs : List ℕ := [8, 16]
def mxfp4Gs : List ℕ := [16, 32]
def fp8G : List ℕ := [3, 4, 5, 6, 8, 13, 32]
def fp4G : List ℕ := [3, 4, 5, 6]

/-- Operand of the fixed-point accumulators; the significand has `F` fractional bits. -/
structure Operand where
  sign : ℤ
  exponent : ℤ
  significand : ℤ
  isZero : Bool
  isNan : Bool
  isInf : Bool
  deriving DecidableEq, Repr

/-- Unnormalised product of two low-precision values. -/
structure Product where
  sign : ℤ
  exponent : ℤ
  significand : ℕ
  isZero : Bool
  isNan : Bool
  isInf : Bool
  deriving DecidableEq, Repr

/-- Group sum `mantissaSum * 2^(maxExp - G)`. -/
structure GroupResult where
  mantissaSum : ℤ
  maxExp : ℤ
  allZero : Bool
  deriving DecidableEq, Repr

def makeZeroOperand : Operand where
  sign := 1
  exponent := 0
  significand := 0
  isZero := true
  isNan := false
  isInf := false

/-- The value every builder returns for a NaN input. -/
def makeNanOperand : Operand where
  sign := 1
  exponent := 0
  significand := 0
  isZero := false
  isNan := true
  isInf := false

/-- Field-by-field copy of a product into the accumulator's operand type. -/
def Product.toOperand (p : Product) : Operand where
  sign := p.sign
  exponent := p.exponent
  significand := p.significand
  isZero := p.isZero
  isNan := p.isNan
  isInf := p.isInf

/-- The word a decoded element is stored as, lowest byte first. -/
def packBytes (b0 b1 b2 b3 : Byte) : BitVec 32 :=
  b0.setWidth 32 ||| (b1.setWidth 32 <<< 8) ||| (b2.setWidth 32 <<< 16) ||| (b3.setWidth 32 <<< 24)

/-- `(w >> n) & 0xFF`. -/
def wordByte (w : BitVec 32) (n : ℕ) : Byte := ((w >>> n) &&& 0xFF#32).setWidth 8

lemma getLsbD_wordByte (w : BitVec 32) (n : ℕ) {i : ℕ} (hi : i < 8) :
    (wordByte w n).getLsbD i = w.getLsbD (n + i) := by
  have hmask : (0xFF#8).getLsbD i = true := by
    revert i
    decide
  simp [wordByte, hi, hmask]

lemma getLsbD_packBytes (b0 b1 b2 b3 : Byte) {i : ℕ} (hi : i < 8) :
    (packBytes b0 b1 b2 b3).getLsbD (0 + i) = b0.getLsbD i ∧
      (packBytes b0 b1 b2 b3).getLsbD (8 + i) = b1.getLsbD i ∧
      (packBytes b0 b1 b2 b3).getLsbD (16 + i) = b2.getLsbD i ∧
      (packBytes b0 b1 b2 b3).getLsbD (24 + i) = b3.getLsbD i := by
  simp [packBytes]
  grind

lemma wordByte_packBytes (b0 b1 b2 b3 : Byte) :
    wordByte (packBytes b0 b1 b2 b3) 0 = b0 ∧ wordByte (packBytes b0 b1 b2 b3) 8 = b1 ∧
      wordByte (packBytes b0 b1 b2 b3) 16 = b2 ∧ wordByte (packBytes b0 b1 b2 b3) 24 = b3 := by
  refine ⟨?_, ?_, ?_, ?_⟩ <;> apply BitVec.eq_of_getLsbD_eq <;> intro i hi <;>
    rw [getLsbD_wordByte _ _ hi]
  · exact (getLsbD_packBytes b0 b1 b2 b3 hi).1
  · exact (getLsbD_packBytes b0 b1 b2 b3 hi).2.1
  · exact (getLsbD_packBytes b0 b1 b2 b3 hi).2.2.1
  · exact (getLsbD_packBytes b0 b1 b2 b3 hi).2.2.2

end MmaEmu
