import VllmMmaEmu.Formats.Fp8E4m3
import Mathlib.Algebra.BigOperators.Ring.Finset

/-!
# Groups at the lossless width

A product of two FP8 elements has six fraction bits, and the header counts on a
spread of 26 between the exponents of a group: 32 fraction bits. But 448 has
exponent 8, not 7, so the spread is 28. A group that holds the largest exponents
and the smallest ones loses up to two bits of the small products; the sum is
still exact when the lost bits cancel.
-/

namespace MmaEmu

open FixedPoint FusedSum SignMagnitude

namespace Fp8

/-- `max_exp(14) - min_exp(-12)`, as the header has it. -/
def maxProductExpDiff : ℕ := 26

def gLossless : ℕ := productRadixBit + maxProductExpDiff

end Fp8

/-- The exact products of a group. -/
def e4m3Products (a b : ℕ → Byte) (n : ℕ) : List SignMagnitude :=
  (List.range n).map fun i => (e4m3 (a i)).mul (e4m3 (b i))

/-- The real dot product of two rows. -/
def e4m3Dot (a b : ℕ → Byte) (n : ℕ) : ℚ :=
  ((List.range n).map fun i => (e4m3 (a i)).value * (e4m3 (b i)).value).sum

def NoNanBytes (a b : ℕ → Byte) (n : ℕ) : Prop :=
  ∀ i < n, e4m3IsNan (a i) = false ∧ e4m3IsNan (b i) = false

instance (a b : ℕ → Byte) (n : ℕ) : Decidable (NoNanBytes a b n) :=
  inferInstanceAs (Decidable (∀ i < n, e4m3IsNan (a i) = false ∧ e4m3IsNan (b i) = false))

/-- What a product loses under the exponent `E`, in units of `2^(-18)`: its low bits, when its own
exponent is more than `maxProductExpDiff` below. -/
def lostBits (E : ℤ) (x : SignMagnitude) : ℤ :=
  x.cut (E - x.exponent - Fp8.maxProductExpDiff).toNat * 2 ^ (x.exponent + 12).toNat

lemma map_term_e4m3Products (a b : ℕ → Byte) (n : ℕ) :
    (e4m3Products a b n).map term = e4m3Terms a b n := by
  rw [e4m3Products, e4m3Terms, List.map_map]
  rfl

lemma sum_value_e4m3Products (a b : ℕ → Byte) (n : ℕ) :
    ((e4m3Products a b n).map value).sum = e4m3Dot a b n := by
  rw [e4m3Products, e4m3Dot, List.map_map]
  simp only [Function.comp_def, value_mul]

lemma e4m3Products_range {a b : ℕ → Byte} {n : ℕ} {x : SignMagnitude} (hx : x ∈ e4m3Products a b n) :
    x.radix = 6 ∧ -12 ≤ x.exponent ∧ x.exponent ≤ 16 := by
  obtain ⟨i, -, rfl⟩ := List.mem_map.mp hx
  obtain ⟨-, hla, hra⟩ := e4m3_range (a i)
  obtain ⟨-, hlb, hrb⟩ := e4m3_range (b i)
  have hua := e4m3_exponent_le (a i)
  have hub := e4m3_exponent_le (b i)
  refine ⟨?_, ?_, ?_⟩
  · change (e4m3 (a i)).radix + (e4m3 (b i)).radix = 6
    rw [hra, hrb]
  · change -12 ≤ (e4m3 (a i)).exponent + (e4m3 (b i)).exponent
    omega
  · change (e4m3 (a i)).exponent + (e4m3 (b i)).exponent ≤ 16
    omega

/-- The number a group result stands for. -/
def GroupResult.value (G : ℕ) (gr : GroupResult) : ℚ := gr.mantissaSum * 2 ^ (gr.maxExp - G)

lemma value_groupAccumulate {G : ℕ} {products : List Product} {ts : List (Option Term)}
    (h : List.Forall₂ (fun p t => Represents G p.toOperand t) products ts) :
    (groupAccumulate products).value G = groupSum G ts := by
  rw [groupAccumulate_eq h, GroupResult.value]
  split
  · rename_i hall
    rw [groupSum, total_eq_zero_of_none hall, Int.cast_zero, zero_mul, zero_mul]
  · rfl

lemma lostBits_eq_cut {x : SignMagnitude} (hr : x.radix = 6) (hlow : -12 ≤ x.exponent) (E : ℤ) :
    (x.cut (x.radix - x.exponent - (Fp8.gLossless - E)).toNat : ℚ) * 2 ^ (x.exponent - x.radix) =
      lostBits E x * 2 ^ (-18 : ℤ) := by
  have hplaces : (x.radix - x.exponent - (Fp8.gLossless - E)).toNat =
      (E - x.exponent - Fp8.maxProductExpDiff).toNat := by
    rw [hr]
    simp only [Fp8.gLossless, Fp8.productRadixBit]
    omega
  have hunit : (2 : ℚ) ^ (x.exponent - x.radix) = 2 ^ (x.exponent + 12).toNat * 2 ^ (-18 : ℤ) := by
    rw [← zpow_natCast, ← zpow_add₀ (by norm_num : (2 : ℚ) ≠ 0)]
    congr 1
    omega
  rw [hplaces, hunit, lostBits]
  push_cast
  ring

/-- A group result at the lossless width and the bits it lost make up the dot product. -/
lemma value_add_lostBits {GS : ℕ} {a b : ℕ → Byte} (hnan : NoNanBytes a b GS) :
    (fp8GdfsGroupAccumulatePredecoded Fp8.gLossless GS (encodeRow a) (encodeRow b)).value
        Fp8.gLossless +
      (((e4m3Products a b GS).map (lostBits (largestExponent (e4m3Products a b GS)))).sum : ℚ) *
        2 ^ (-18 : ℤ) = e4m3Dot a b GS := by
  have hvalue := value_groupAccumulate (forall₂_fp8Multiply (F := Fp8.gLossless) (by decide) hnan)
  have hsum := groupSum_add_cut Fp8.gLossless (e4m3Products a b GS)
  rw [groupLabel_map_term] at hsum
  rw [fp8GdfsGroupAccumulatePredecoded_encodeRow, hvalue, ← map_term_e4m3Products,
    ← sum_value_e4m3Products, ← hsum]
  congr 1
  rw [Int.cast_list_sum, List.map_map, ← List.sum_map_mul_right]
  congr 1
  apply List.map_congr_left
  intro x hx
  obtain ⟨hr, hlow, -⟩ := e4m3Products_range hx
  exact (lostBits_eq_cut hr hlow _).symm

lemma sum_lostBits_eq_zero {E : ℤ} {xs : List SignMagnitude}
    (h : ∀ x ∈ xs, E - x.exponent ≤ Fp8.maxProductExpDiff) : (xs.map (lostBits E)).sum = 0 := by
  apply List.sum_eq_zero
  intro bits hbits
  obtain ⟨x, hx, rfl⟩ := List.mem_map.mp hbits
  have hplaces : (E - x.exponent - Fp8.maxProductExpDiff).toNat = 0 := by
    have := h x hx
    omega
  rw [lostBits, hplaces, cut_zero, zero_mul]

/-- Up to the exponent the header takes for the largest, a group is exact. -/
theorem fp8Group_exact_of_le {GS : ℕ} {a b : ℕ → Byte} (hnan : NoNanBytes a b GS)
    (hexp : largestExponent (e4m3Products a b GS) ≤ 14) :
    (fp8GdfsGroupAccumulatePredecoded 32 GS (encodeRow a) (encodeRow b)).value 32 =
      e4m3Dot a b GS := by
  have hzero : ((e4m3Products a b GS).map
      (lostBits (largestExponent (e4m3Products a b GS)))).sum = 0 := by
    apply sum_lostBits_eq_zero
    intro x hx
    obtain ⟨-, hlow, -⟩ := e4m3Products_range hx
    rw [Fp8.maxProductExpDiff]
    omega
  have hsum := value_add_lostBits hnan
  rw [hzero, Int.cast_zero, zero_mul, add_zero] at hsum
  exact hsum

/-- The group sum at 32 bits is the dot product if and only if the bits lost by the products far
below the largest exponent cancel. -/
theorem fp8Group_lossless_iff (GS : ℕ) {a b : ℕ → Byte} (hnan : NoNanBytes a b GS) :
    (fp8GdfsGroupAccumulatePredecoded 32 GS (encodeRow a) (encodeRow b)).value 32 = e4m3Dot a b GS ↔
      ((e4m3Products a b GS).map (lostBits (largestExponent (e4m3Products a b GS)))).sum = 0 := by
  have hsum := value_add_lostBits hnan
  have hunit := (zpow_two_pos (-18)).ne'
  rw [show Fp8.gLossless = 32 from rfl] at hsum
  rw [← hsum, left_eq_add, mul_eq_zero, or_iff_left hunit, Int.cast_eq_zero]

/-- The largest and the smallest magnitude, as row and as column. -/
def extremeRow : ℕ → Byte
  | 0 => 0x7E#8
  | 1 => 0x01#8
  | _ => 0x00#8

/-- The same with one more product that loses the opposite bit. -/
def cancelRow : ℕ → Byte
  | 0 => 0x7E#8
  | 1 => 0x01#8
  | 2 => 0x81#8
  | _ => 0x00#8

/-- `448 * 448 + 2^(-9) * 2^(-9)` does not fit. -/
theorem fp8Group_not_lossless :
    ¬ ∀ GS ∈ fp8Gs, ∀ a b : ℕ → Byte, NoNanBytes a b GS →
      (fp8GdfsGroupAccumulatePredecoded 32 GS (encodeRow a) (encodeRow b)).value 32 =
        e4m3Dot a b GS := by
  intro h
  have hnan : NoNanBytes extremeRow extremeRow 8 := by decide +kernel
  have hlost : ((e4m3Products extremeRow extremeRow 8).map
      (lostBits (largestExponent (e4m3Products extremeRow extremeRow 8)))).sum = 1 := by
    decide +kernel
  have hsum := value_add_lostBits hnan
  have hexact := h 8 (by decide) extremeRow extremeRow hnan
  rw [show Fp8.gLossless = 32 from rfl, hexact, hlost] at hsum
  norm_num at hsum

/-- The lost bits of two products of opposite sign cancel. -/
theorem fp8Group_lossless_cancel :
    (fp8GdfsGroupAccumulatePredecoded 32 8 (encodeRow cancelRow) (encodeRow fun i =>
        if i = 2 then 0x01#8 else cancelRow i)).value 32 =
      e4m3Dot cancelRow (fun i => if i = 2 then 0x01#8 else cancelRow i) 8 :=
  (fp8Group_lossless_iff 8 (by decide +kernel)).mpr (by decide +kernel)

end MmaEmu
