import VllmMmaEmu.Formats.Fp4E2m1

/-!
# Block-scaled formats

The scale types of MXFP4 and NVFP4, and what the two formats have in common.

A scale of MXFP4 (E8M0) is a power of two, so applying it adds to the exponent. The byte 0 is
the scale `2^(-127)`, not zero. The top bit of a scale byte of NVFP4 (UE4M3) is ignored: GDFS
multiplies a group sum by its two scales; CoFDA multiplies every product.
-/

namespace MmaEmu

open FixedPoint FusedSum

namespace E8m0

def exponentBias : ℤ := 127
def nanValue : Byte := 0xFF#8

def isNan (val : Byte) : Bool := val == nanValue

def toExponent (val : Byte) : ℤ := val.toNat - exponentBias

end E8m0

def applyE8m0Scales (F G : ℕ) (mantissaSum maxExp : ℤ) (sfa sfb : Byte) : Operand :=
  if E8m0.isNan sfa || E8m0.isNan sfb then makeNanOperand
  else
    let sign : ℤ := if mantissaSum < 0 then -1 else 1
    let absSum := if mantissaSum < 0 then -mantissaSum else mantissaSum
    let shiftedSum := absSum <<< maxExp.toNat
    let combinedSfExp := E8m0.toExponent sfa + E8m0.toExponent sfb
    ⟨sign, combinedSfExp, toRadix G F shiftedSum, false, false, false⟩

def fp4ProductWithE8m0Scales (F : ℕ) (a b : FP4Components) (sfa sfb : Byte) : Operand :=
  if E8m0.isNan sfa || E8m0.isNan sfb then makeNanOperand
  else if a.isZero || b.isZero then makeZeroOperand
  else
    let rawProduct := a.sig * b.sig
    let significand := toRadix Fp4.productRadixBit F rawProduct
    let combinedSfExp := E8m0.toExponent sfa + E8m0.toExponent sfb
    -- a product that is cut to zero is flagged zero, which needs `F < 2`
    ⟨a.sign * b.sign, a.exp + b.exp + combinedSfExp, significand, significand == 0, false, false⟩

/-- E8M0 as a pure power of two; meaningful for bytes that are not NaN. -/
def e8m0 (scale : Byte) : SignMagnitude := ⟨1, 1, scale.toNat - 127, 0, Or.inl rfl⟩

namespace Ue4m3

def nanValue : Byte := 0x7F#8
def exponentBias : ℤ := 7
def q13Shift : ℕ := 3

def isNan (val : Byte) : Bool := val &&& 0x7F#8 == nanValue

/-- Unbiased exponent of a masked scale. -/
def unbiasedExp (masked : Byte) : ℤ :=
  let exp := ((masked >>> q13Shift) &&& 0xF#8).toNat
  if exp = 0 then -6 else exp - exponentBias

/-- Significand of a masked scale, in Q1.3. -/
def sig (masked : Byte) : ℕ :=
  let exp := ((masked >>> q13Shift) &&& 0xF#8).toNat
  let mant := (masked &&& 0x7#8).toNat
  if exp = 0 then mant else 8 + mant

end Ue4m3

def applyUe4m3Scales (F G : ℕ) (mantissaSum maxExp : ℤ) (sfa sfb : Byte) : Operand :=
  let sfaMasked := sfa &&& 0x7F#8
  let sfbMasked := sfb &&& 0x7F#8
  if Ue4m3.isNan sfa || Ue4m3.isNan sfb then makeNanOperand
  else if sfaMasked = 0#8 ∨ sfbMasked = 0#8 then makeZeroOperand
  else
    let sign : ℤ := if mantissaSum < 0 then -1 else 1
    let absSum := if mantissaSum < 0 then -mantissaSum else mantissaSum
    let sfProduct : ℤ := Ue4m3.sig sfaMasked * Ue4m3.sig sfbMasked
    let combinedSfExp := Ue4m3.unbiasedExp sfaMasked + Ue4m3.unbiasedExp sfbMasked
    -- the label leaves `maxExp` out: it is folded into the significand
    let scaledSum := (absSum * sfProduct) <<< maxExp.toNat
    ⟨sign, combinedSfExp, toRadix (G + 6) F scaledSum, false, false, false⟩

def fp4ProductWithUe4m3Scales (F : ℕ) (a b : FP4Components) (sfa sfb : Byte) : Operand :=
  let sfaMasked := sfa &&& 0x7F#8
  let sfbMasked := sfb &&& 0x7F#8
  if Ue4m3.isNan sfa || Ue4m3.isNan sfb then makeNanOperand
  else if a.isZero ∨ b.isZero ∨ sfaMasked = 0#8 ∨ sfbMasked = 0#8 then makeZeroOperand
  else
    let rawProduct := a.sig * b.sig
    let scaledProduct : ℤ := rawProduct * Ue4m3.sig sfaMasked * Ue4m3.sig sfbMasked
    let combinedRadix := Fp4.productRadixBit + 2 * Ue4m3.q13Shift
    let significand := toRadix combinedRadix F scaledProduct
    let combinedSfExp := Ue4m3.unbiasedExp sfaMasked + Ue4m3.unbiasedExp sfbMasked
    -- a product that is cut to zero is flagged zero
    ⟨a.sign * b.sign, a.exp + b.exp + combinedSfExp, significand, significand == 0, false, false⟩

/-- UE4M3 with its unnormalised exponent; meaningful for bytes that are not NaN. -/
def ue4m3 (scale : Byte) : SignMagnitude :=
  SignMagnitude.ofFields 3 7 false (scale.toNat / 8 % 16) (scale.toNat % 8)

lemma ue4m3_fields (scale : Byte) :
    (scale &&& 0x7F#8 = 0#8 ↔ (ue4m3 scale).significand = 0) ∧
      Ue4m3.sig (scale &&& 0x7F#8) = (ue4m3 scale).significand ∧
      Ue4m3.unbiasedExp (scale &&& 0x7F#8) = (ue4m3 scale).exponent := by
  revert scale
  decide +kernel

lemma ue4m3_range (scale : Byte) : (ue4m3 scale).significand < 2 ^ 4 ∧
    -6 ≤ (ue4m3 scale).exponent ∧ (ue4m3 scale).radix = 3 ∧ (ue4m3 scale).sign = 1 := by
  revert scale
  decide +kernel

structure BlockFormat where
  blockSize : ℕ
  isNan : Byte → Bool
  applyScales : ℕ → ℕ → ℤ → ℤ → Byte → Byte → Operand
  productWithScales : ℕ → FP4Components → FP4Components → Byte → Byte → Operand
  /-- Exact value of a scale byte. -/
  scale : Byte → SignMagnitude

def nvfp4 : BlockFormat where
  blockSize := 16
  isNan := Ue4m3.isNan
  applyScales := applyUe4m3Scales
  productWithScales := fp4ProductWithUe4m3Scales
  scale := ue4m3

def mxfp4 : BlockFormat where
  blockSize := 32
  isNan := E8m0.isNan
  applyScales := applyE8m0Scales
  productWithScales := fp4ProductWithE8m0Scales
  scale := e8m0

/-- Operand of one group in the tile step; a NaN scale counts even for an all-zero group. -/
def BlockFormat.groupOperand (fmt : BlockFormat) (F G : ℕ) (gr : GroupResult) (sfa sfb : Byte) :
    Operand :=
  if gr.allZero && !fmt.isNan sfa && !fmt.isNan sfb then makeZeroOperand
  else fmt.applyScales F G gr.mantissaSum gr.maxExp sfa sfb

/-- One GDFS step over the `BK` elements of a tile row and a tile column. -/
def BlockFormat.gdfsTile (fmt : BlockFormat) (F G GS BK : ℕ) (aFrag bFrag : ℕ → BitVec 32)
    (sfa sfb : ℕ → Byte) (c : Fp32) : Fp32 :=
  let groupsPerScale := fmt.blockSize / GS
  gdfsAccumulateTile F ((List.range (BK / GS)).map fun g =>
    fmt.groupOperand F G (fp4GdfsGroupAccumulatePredecoded G GS
      (fun i => aFrag (g * GS + i)) (fun i => bFrag (g * GS + i)))
      (sfa (g / groupsPerScale)) (sfb (g / groupsPerScale))) c

/-- A group sum times its scales, with the exponent of the group folded into the significand. -/
def scaledGroup (G : ℕ) (mantissaSum maxExp : ℤ) (sa sb : SignMagnitude) : SignMagnitude :=
  (((SignMagnitude.ofInt G maxExp mantissaSum).fold maxExp.toNat).mul sa).mul sb

/-- An element product times its scales. -/
def scaledProduct (a b : Byte) (sa sb : SignMagnitude) : SignMagnitude :=
  ((e2m1Product a b).mul sa).mul sb

/-- The meaning of a format's scale arithmetic. -/
structure BlockFormat.Lawful (fmt : BlockFormat) : Prop where
  scale_sign : ∀ s, (fmt.scale s).sign = 1
  scale_significand : ∀ s, (fmt.scale s).significand < 2 ^ 4
  scale_exponent : ∀ s, -127 ≤ (fmt.scale s).exponent
  applyScales_nan : ∀ F G ms e sfa sfb, (fmt.isNan sfa || fmt.isNan sfb) = true →
    fmt.applyScales F G ms e sfa sfb = makeNanOperand
  applyScales_eq : ∀ F G ms e sfa sfb, (fmt.isNan sfa || fmt.isNan sfb) = false → 0 ≤ e →
    fmt.applyScales F G ms e sfa sfb =
      if (fmt.scale sfa).significand = 0 ∨ (fmt.scale sfb).significand = 0 then makeZeroOperand
      else operandOf F (scaledGroup G ms e (fmt.scale sfa) (fmt.scale sfb))
  product_nan : ∀ F a b sfa sfb, (fmt.isNan sfa || fmt.isNan sfb) = true →
    fmt.productWithScales F a b sfa sfb = makeNanOperand
  product_eq : ∀ F a b sfa sfb, (fmt.isNan sfa || fmt.isNan sfb) = false →
    let x := scaledProduct a b (fmt.scale sfa) (fmt.scale sfb)
    fmt.productWithScales F (decomposeFp4E2m1 a) (decomposeFp4E2m1 b) sfa sfb =
      if x.significand = 0 then makeZeroOperand
      else { operandOf F x with isZero := toRadix x.radix F x.significand == 0 }

lemma scaledGroup_fields (G : ℕ) (ms : ℤ) {e : ℤ} (he : 0 ≤ e) (sa sb : SignMagnitude)
    (ha : sa.sign = 1) (hb : sb.sign = 1) :
    let x := scaledGroup G ms e sa sb
    x.sign = (if ms < 0 then -1 else 1) ∧ x.exponent = sa.exponent + sb.exponent ∧
      x.radix = G + sa.radix + sb.radix ∧
      (x.significand : ℤ) =
        ((if ms < 0 then -ms else ms) * (sa.significand * sb.significand)) <<< e.toNat := by
  dsimp only
  refine ⟨?_, ?_, rfl, ?_⟩
  · simp [scaledGroup, SignMagnitude.mul, SignMagnitude.fold, SignMagnitude.ofInt, ha, hb]
  · change e - e.toNat + sa.exponent + sb.exponent = sa.exponent + sb.exponent
    omega
  · rw [← SignMagnitude.significand_ofInt G e ms, Int.shiftLeft_eq]
    simp only [scaledGroup, SignMagnitude.mul, SignMagnitude.fold, Nat.shiftLeft_eq]
    push_cast
    ring

lemma scaledGroup_sign_of_zero {G : ℕ} {ms e : ℤ} (he : 0 ≤ e) {sa sb : SignMagnitude}
    (ha : sa.sign = 1) (hb : sb.sign = 1) (hsa : sa.significand ≠ 0) (hsb : sb.significand ≠ 0)
    (hzero : (scaledGroup G ms e sa sb).significand = 0) : (scaledGroup G ms e sa sb).sign = 1 := by
  obtain ⟨hsign, -, -, hsig⟩ := scaledGroup_fields G ms he sa sb ha hb
  rw [hsign, if_neg]
  intro hneg
  rw [hzero, if_pos hneg, Int.shiftLeft_eq] at hsig
  have hscales : (0 : ℤ) < sa.significand * sb.significand := by
    exact_mod_cast Nat.mul_pos (Nat.pos_of_ne_zero hsa) (Nat.pos_of_ne_zero hsb)
  have hpos : 0 < -ms * (sa.significand * sb.significand) * 2 ^ e.toNat := by
    have : 0 < -ms := by omega
    positivity
  exact absurd hsig.symm (ne_of_gt hpos)

lemma scaledProduct_fields {a b : Byte} (sa sb : SignMagnitude) (ha : sa.sign = 1) (hb : sb.sign = 1)
    (hza : (decomposeFp4E2m1 a).isZero = false) (hzb : (decomposeFp4E2m1 b).isZero = false) :
    let x := scaledProduct a b sa sb
    x.sign = (decomposeFp4E2m1 a).sign * (decomposeFp4E2m1 b).sign ∧
      x.exponent = (decomposeFp4E2m1 a).exp + (decomposeFp4E2m1 b).exp +
        (sa.exponent + sb.exponent) ∧
      x.radix = Fp4.productRadixBit + sa.radix + sb.radix ∧
      x.significand = (decomposeFp4E2m1 a).sig * (decomposeFp4E2m1 b).sig * sa.significand *
        sb.significand := by
  obtain ⟨-, hfa⟩ := decomposeFp4E2m1_fields a
  obtain ⟨-, hfb⟩ := decomposeFp4E2m1_fields b
  obtain ⟨hsa, hma, hea⟩ := hfa hza
  obtain ⟨hsb, hmb, heb⟩ := hfb hzb
  have hradix := (e2m1Product_range a b).2.2.2
  rw [hsa, hma, hea, hsb, hmb, heb]
  refine ⟨?_, ?_, ?_, rfl⟩
  · simp [scaledProduct, e2m1Product, SignMagnitude.mul, ha, hb]
  · simp only [scaledProduct, e2m1Product, SignMagnitude.mul]
    ring
  · rw [Fp4.productRadixBit, ← hradix]
    rfl

lemma scaledProduct_significand_eq_zero_iff {a b : Byte} {sa sb : SignMagnitude} :
    (scaledProduct a b sa sb).significand = 0 ↔ (decomposeFp4E2m1 a).isZero = true ∨
      (decomposeFp4E2m1 b).isZero = true ∨ sa.significand = 0 ∨ sb.significand = 0 := by
  rw [(decomposeFp4E2m1_fields a).1, (decomposeFp4E2m1_fields b).1]
  simp [scaledProduct, e2m1Product, SignMagnitude.mul, or_assoc]

lemma nvfp4_lawful : nvfp4.Lawful where
  scale_sign s := (ue4m3_range s).2.2.2
  scale_significand s := (ue4m3_range s).1
  scale_exponent s := by
    have := (ue4m3_range s).2.1
    change -127 ≤ (ue4m3 s).exponent
    omega
  applyScales_nan F G ms e sfa sfb h := by
    change applyUe4m3Scales F G ms e sfa sfb = _
    exact if_pos h
  applyScales_eq F G ms e sfa sfb h he := by
    obtain ⟨hza, hsa, hea⟩ := ue4m3_fields sfa
    obtain ⟨hzb, hsb, heb⟩ := ue4m3_fields sfb
    obtain ⟨-, -, hra, h1a⟩ := ue4m3_range sfa
    obtain ⟨-, -, hrb, h1b⟩ := ue4m3_range sfb
    obtain ⟨hsign, hexp, hradix, hsig⟩ := scaledGroup_fields G ms he _ _ h1a h1b
    change applyUe4m3Scales F G ms e sfa sfb = _
    have hnan : ¬ (Ue4m3.isNan sfa || Ue4m3.isNan sfb) = true := by
      rw [Bool.not_eq_true]
      exact h
    simp only [applyUe4m3Scales, if_neg hnan, hza, hzb, hsa, hsb, hea, heb, nvfp4, operandOf, hsign,
      hexp, hradix, hsig, hra, hrb]
  product_nan F a b sfa sfb h := by
    change fp4ProductWithUe4m3Scales F a b sfa sfb = _
    exact if_pos h
  product_eq F a b sfa sfb h := by
    obtain ⟨hza, hsa, hea⟩ := ue4m3_fields sfa
    obtain ⟨hzb, hsb, heb⟩ := ue4m3_fields sfb
    obtain ⟨-, -, hra, h1a⟩ := ue4m3_range sfa
    obtain ⟨-, -, hrb, h1b⟩ := ue4m3_range sfb
    have hnan : ¬ (Ue4m3.isNan sfa || Ue4m3.isNan sfb) = true := by
      rw [Bool.not_eq_true]
      exact h
    change fp4ProductWithUe4m3Scales F _ _ sfa sfb = if (scaledProduct a b (ue4m3 sfa)
      (ue4m3 sfb)).significand = 0 then makeZeroOperand else _
    simp only [fp4ProductWithUe4m3Scales, if_neg hnan, hza, hzb, hsa, hsb, hea, heb]
    by_cases hz : (scaledProduct a b (ue4m3 sfa) (ue4m3 sfb)).significand = 0
    · rw [if_pos hz, if_pos (scaledProduct_significand_eq_zero_iff.mp hz)]
    · have hcode := mt scaledProduct_significand_eq_zero_iff.mpr hz
      have hfalse := hcode
      simp only [not_or, Bool.not_eq_true] at hfalse
      obtain ⟨hna, hnb, -⟩ := hfalse
      obtain ⟨hsign, hexp, hradix, hsig⟩ := scaledProduct_fields _ _ h1a h1b hna hnb
      rw [if_neg hz, if_neg hcode]
      simp only [nvfp4, operandOf, hsign, hexp, hradix, hsig, hra, hrb, Fp4.productRadixBit,
        Ue4m3.q13Shift, Nat.cast_mul]

lemma mxfp4_lawful : mxfp4.Lawful where
  scale_sign _ := rfl
  scale_significand _ := by
    change 1 < 2 ^ 4
    norm_num
  scale_exponent s := by
    change -127 ≤ (s.toNat : ℤ) - 127
    omega
  applyScales_nan F G ms e sfa sfb h := by
    change applyE8m0Scales F G ms e sfa sfb = _
    exact if_pos h
  applyScales_eq F G ms e sfa sfb h he := by
    obtain ⟨hsign, hexp, hradix, hsig⟩ :=
      scaledGroup_fields G ms he (e8m0 sfa) (e8m0 sfb) rfl rfl
    have hnan : ¬ (E8m0.isNan sfa || E8m0.isNan sfb) = true := by
      rw [Bool.not_eq_true]
      exact h
    have hone : ∀ s, (mxfp4.scale s).significand ≠ 0 := fun s => one_ne_zero
    change applyE8m0Scales F G ms e sfa sfb = _
    rw [if_neg (by simp [hone])]
    simp only [applyE8m0Scales, if_neg hnan, mxfp4, operandOf, hsign, hexp, hradix, hsig]
    simp [e8m0, E8m0.toExponent, E8m0.exponentBias]
  product_nan F a b sfa sfb h := by
    change fp4ProductWithE8m0Scales F a b sfa sfb = _
    exact if_pos h
  product_eq F a b sfa sfb h := by
    have hnan : ¬ (E8m0.isNan sfa || E8m0.isNan sfb) = true := by
      rw [Bool.not_eq_true]
      exact h
    have hzero : (scaledProduct a b (e8m0 sfa) (e8m0 sfb)).significand = 0 ↔
        ((decomposeFp4E2m1 a).isZero || (decomposeFp4E2m1 b).isZero) = true := by
      rw [scaledProduct_significand_eq_zero_iff]
      simp [e8m0]
    change fp4ProductWithE8m0Scales F _ _ sfa sfb = if (scaledProduct a b (e8m0 sfa)
      (e8m0 sfb)).significand = 0 then makeZeroOperand else _
    simp only [fp4ProductWithE8m0Scales, if_neg hnan]
    by_cases hz : (scaledProduct a b (e8m0 sfa) (e8m0 sfb)).significand = 0
    · rw [if_pos hz, if_pos (hzero.mp hz)]
    · have hcode : ((decomposeFp4E2m1 a).isZero || (decomposeFp4E2m1 b).isZero) = false := by
        rw [← Bool.not_eq_true]
        exact fun h => hz (hzero.mpr h)
      obtain ⟨hna, hnb⟩ := Bool.or_eq_false_iff.mp hcode
      obtain ⟨hsign, hexp, hradix, hsig⟩ :=
        scaledProduct_fields (e8m0 sfa) (e8m0 sfb) rfl rfl hna hnb
      rw [if_neg hz, hcode, if_neg (by simp)]
      simp only [mxfp4, operandOf, hsign, hexp, hradix, hsig]
      simp [e8m0, E8m0.toExponent, E8m0.exponentBias]

section Products
variable {fmt : BlockFormat} (law : fmt.Lawful) {F : ℕ} {a b sfa sfb : Byte}
include law

lemma productWithScales_isNan (F : ℕ) (a b sfa sfb : Byte) :
    (fmt.productWithScales F (decomposeFp4E2m1 a) (decomposeFp4E2m1 b) sfa sfb).isNan =
      (fmt.isNan sfa || fmt.isNan sfb) := by
  cases h : fmt.isNan sfa || fmt.isNan sfb
  · rw [law.product_eq F a b sfa sfb h]
    split <;> rfl
  · rw [law.product_nan _ _ _ _ _ h]
    rfl

lemma productWithScales_isInf (F : ℕ) (a b sfa sfb : Byte) :
    (fmt.productWithScales F (decomposeFp4E2m1 a) (decomposeFp4E2m1 b) sfa sfb).isInf = false := by
  cases h : fmt.isNan sfa || fmt.isNan sfb
  · rw [law.product_eq F a b sfa sfb h]
    split <;> rfl
  · rw [law.product_nan _ _ _ _ _ h]
    rfl

lemma productWithScales_isZero (h : (fmt.isNan sfa || fmt.isNan sfb) = false) :
    (fmt.productWithScales F (decomposeFp4E2m1 a) (decomposeFp4E2m1 b) sfa sfb).isZero = true ↔
      (scaledProduct a b (fmt.scale sfa) (fmt.scale sfb)).significand <
        2 ^ ((scaledProduct a b (fmt.scale sfa) (fmt.scale sfb)).radix - F) := by
  rw [law.product_eq F a b sfa sfb h]
  by_cases hz : (scaledProduct a b (fmt.scale sfa) (fmt.scale sfb)).significand = 0
  · rw [if_pos hz, hz]
    exact ⟨fun _ => by positivity, fun _ => rfl⟩
  · rw [if_neg hz, ← toRadix_natCast_eq_zero_iff]
    exact beq_iff_eq

lemma scaledProduct_range (a b sfa sfb : Byte) :
    (scaledProduct a b (fmt.scale sfa) (fmt.scale sfb)).significand < 2 ^ 12 ∧
      -254 ≤ (scaledProduct a b (fmt.scale sfa) (fmt.scale sfb)).exponent := by
  obtain ⟨hsig, hexp, -, -⟩ := e2m1Product_range a b
  have hexpa := law.scale_exponent sfa
  have hexpb := law.scale_exponent sfb
  constructor
  · exact lt_of_lt_of_le (Nat.mul_lt_mul'' (Nat.mul_lt_mul'' hsig (law.scale_significand sfa))
      (law.scale_significand sfb)) (by norm_num)
  · change -254 ≤ (e2m1Product a b).exponent + (fmt.scale sfa).exponent + (fmt.scale sfb).exponent
    omega

/-- A scaled product that is not cut away holds its exact value, cut once. -/
theorem represents_productWithScales (hF : F ≤ 35)
    (h : (fmt.isNan sfa || fmt.isNan sfb) = false)
    (kept : (scaledProduct a b (fmt.scale sfa) (fmt.scale sfb)).significand ≠ 0 →
      2 ^ ((scaledProduct a b (fmt.scale sfa) (fmt.scale sfb)).radix - F) ≤
        (scaledProduct a b (fmt.scale sfa) (fmt.scale sfb)).significand) :
    Represents F (fmt.productWithScales F (decomposeFp4E2m1 a) (decomposeFp4E2m1 b) sfa sfb)
      (scaledProduct a b (fmt.scale sfa) (fmt.scale sfb)).term := by
  obtain ⟨hsig, hexp⟩ := scaledProduct_range law a b sfa sfb
  rw [law.product_eq F a b sfa sfb h]
  refine represents_term (by omega) hsig (by omega) ?_ ?_
  · intro hz
    rw [if_pos hz]
    exact represents_makeZeroOperand F
  · intro hz
    have hcut : (toRadix (scaledProduct a b (fmt.scale sfa) (fmt.scale sfb)).radix F
        (scaledProduct a b (fmt.scale sfa) (fmt.scale sfb)).significand == 0) = false := by
      rw [beq_eq_false_iff_ne, Ne, toRadix_natCast_eq_zero_iff, not_lt]
      exact kept hz
    rw [if_neg hz, hcut]
    rfl

end Products

/-- The exact products of a group as terms. -/
def e2m1Terms (a b : ℕ → Byte) (n : ℕ) : List (Option Term) :=
  (List.range n).map fun i => (e2m1Product (a i) (b i)).term

lemma e2m1Terms_eq_map (a b : ℕ → Byte) (n : ℕ) : e2m1Terms a b n =
    ((List.range n).map fun i => e2m1Product (a i) (b i)).map SignMagnitude.term := by
  rw [e2m1Terms, List.map_map]
  rfl

/-- A scaled group as one term: its label is that of the scales alone, also when the group
cancels. -/
def scaledGroupTerm (G : ℕ) (ts : List (Option Term)) (sa sb : SignMagnitude) : Option Term :=
  if (∀ t ∈ ts, t = none) ∨ sa.value = 0 ∨ sb.value = 0 then none
  else some ⟨groupSum G ts * sa.value * sb.value, sa.exponent + sb.exponent⟩

lemma label_e2m1Terms {a b : ℕ → Byte} {n : ℕ} {t : Term} (ht : some t ∈ e2m1Terms a b n) :
    0 ≤ t.label ∧ t.label ≤ 4 := by
  obtain ⟨i, -, hi⟩ := List.mem_map.mp ht
  obtain ⟨-, hlow, hhigh, -⟩ := e2m1Product_range (a i) (b i)
  rw [SignMagnitude.eq_of_term_eq_some hi]
  exact ⟨hlow, hhigh⟩

lemma groupLabel_e2m1Terms (a b : ℕ → Byte) (n : ℕ) :
    0 ≤ groupLabel (e2m1Terms a b n) ∧ groupLabel (e2m1Terms a b n) ≤ 4 := by
  by_cases hall : ∀ t ∈ e2m1Terms a b n, t = none
  · have hnil : (e2m1Terms a b n).filterMap (Option.map Term.label) = [] := by
      rw [List.filterMap_eq_nil_iff]
      exact fun t ht => by rw [hall t ht, Option.map_none]
    rw [groupLabel, hnil]
    decide
  · obtain ⟨⟨t, ht, hlabel⟩, -⟩ := groupLabel_spec hall
    rw [← hlabel]
    exact label_e2m1Terms ht

lemma natAbs_e2m1Total_le (G : ℕ) (a b : ℕ → Byte) (n : ℕ) :
    (total G (groupLabel (e2m1Terms a b n)) (e2m1Terms a b n)).natAbs ≤ n * 2 ^ (4 + (G - 2)) := by
  have hlen : ((List.range n).map fun i => e2m1Product (a i) (b i)).length = n := by simp
  rw [e2m1Terms_eq_map]
  conv_rhs => rw [← hlen]
  apply SignMagnitude.natAbs_groupTotal_le (n := 4)
  intro x hx
  obtain ⟨i, -, rfl⟩ := List.mem_map.mp hx
  obtain ⟨hsig, -, -, hradix⟩ := e2m1Product_range (a i) (b i)
  exact ⟨hsig, by omega⟩

lemma fp4GdfsGroupAccumulatePredecoded_eq {G : ℕ} (hlow : 2 ≤ G) (hhigh : G ≤ 35) (GS : ℕ)
    (a b : ℕ → Byte) :
    fp4GdfsGroupAccumulatePredecoded G GS (encodeFp4Row a) (encodeFp4Row b) =
      if ∀ t ∈ e2m1Terms a b GS, t = none then ⟨0, 0, true⟩
      else ⟨total G (groupLabel (e2m1Terms a b GS)) (e2m1Terms a b GS),
        groupLabel (e2m1Terms a b GS), false⟩ := by
  rw [fp4GdfsGroupAccumulatePredecoded, groupAccumulateStreamed_eq]
  apply groupAccumulate_eq (G := G)
  rw [e2m1Terms, List.forall₂_map_left_iff, List.forall₂_map_right_iff, List.forall₂_same]
  exact fun i _ => represents_fp4FragProduct hlow hhigh a b i

section Groups
variable {fmt : BlockFormat} (law : fmt.Lawful) {F G GS : ℕ} {a b : ℕ → Byte} {sfa sfb : Byte}
include law

lemma scaledGroup_significand_lt (hlow : 2 ≤ G) (hGS : GS ≤ 32) :
    (scaledGroup G (total G (groupLabel (e2m1Terms a b GS)) (e2m1Terms a b GS))
      (groupLabel (e2m1Terms a b GS)) (fmt.scale sfa) (fmt.scale sfb)).significand <
        2 ^ (20 + G) := by
  obtain ⟨hlab, hlab4⟩ := groupLabel_e2m1Terms a b GS
  have hfold : 2 ^ (groupLabel (e2m1Terms a b GS)).toNat ≤ 2 ^ 4 :=
    Nat.pow_le_pow_right (by norm_num) (by omega)
  have habs : (total G (groupLabel (e2m1Terms a b GS)) (e2m1Terms a b GS)).natAbs < 2 ^ (8 + G) :=
    calc _ ≤ GS * 2 ^ (4 + (G - 2)) := natAbs_e2m1Total_le G a b GS
      _ ≤ 2 ^ 5 * 2 ^ (4 + (G - 2)) := Nat.mul_le_mul_right _ hGS
      _ = 2 ^ (7 + G) := by rw [← pow_add]; congr 1; omega
      _ < 2 ^ (8 + G) := Nat.pow_lt_pow_right (by norm_num) (by omega)
  change (_ <<< _) * (fmt.scale sfa).significand * (fmt.scale sfb).significand < _
  rw [Nat.shiftLeft_eq]
  calc _ < (2 ^ (8 + G) * 2 ^ 4) * 2 ^ 4 * 2 ^ 4 :=
        Nat.mul_lt_mul'' (Nat.mul_lt_mul'' (Nat.mul_lt_mul_of_lt_of_le habs hfold (by norm_num))
          (law.scale_significand sfa)) (law.scale_significand sfb)
    _ = 2 ^ (20 + G) := by rw [← pow_add, ← pow_add, ← pow_add]; congr 1; omega

/-- A group's operand holds the scaled group sum, cut once more to `F` bits. -/
theorem represents_groupOperand (hF : F ≤ 35) (hlow : 2 ≤ G) (hhigh : G ≤ 6) (hGS : GS ≤ 32)
    (h : (fmt.isNan sfa || fmt.isNan sfb) = false) :
    Represents F
      (fmt.groupOperand F G
        (fp4GdfsGroupAccumulatePredecoded G GS (encodeFp4Row a) (encodeFp4Row b)) sfa sfb)
      (scaledGroupTerm G (e2m1Terms a b GS) (fmt.scale sfa) (fmt.scale sfb)) := by
  obtain ⟨hna, hnb⟩ := Bool.or_eq_false_iff.mp h
  rw [fp4GdfsGroupAccumulatePredecoded_eq hlow (by omega), scaledGroupTerm, BlockFormat.groupOperand,
    hna, hnb]
  simp only [SignMagnitude.value_eq_zero_iff]
  by_cases hall : ∀ t ∈ e2m1Terms a b GS, t = none
  · rw [if_pos hall, if_pos (Or.inl hall)]
    exact represents_makeZeroOperand F
  obtain ⟨hlab, hlab4⟩ := groupLabel_e2m1Terms a b GS
  rw [if_neg hall, if_neg (by simp), law.applyScales_eq _ _ _ _ _ _ h hlab]
  by_cases hz : (fmt.scale sfa).significand = 0 ∨ (fmt.scale sfb).significand = 0
  · rw [if_pos hz, if_pos (Or.inr hz)]
    exact represents_makeZeroOperand F
  rw [if_neg hz, if_neg (fun h => h.elim hall hz)]
  rw [not_or] at hz
  obtain ⟨-, hexp, hradix, -⟩ := scaledGroup_fields G
    (total G (groupLabel (e2m1Terms a b GS)) (e2m1Terms a b GS)) hlab _ _
    (law.scale_sign sfa) (law.scale_sign sfb)
  have hexpa := law.scale_exponent sfa
  have hexpb := law.scale_exponent sfb
  have hrep := represents_operandOf (F := F) (n := 20 + G)
    (x := scaledGroup G (total G (groupLabel (e2m1Terms a b GS)) (e2m1Terms a b GS))
      (groupLabel (e2m1Terms a b GS)) (fmt.scale sfa) (fmt.scale sfb))
    (by omega) (scaledGroup_significand_lt law hlow hGS) (by omega)
    (scaledGroup_sign_of_zero hlab (law.scale_sign sfa) (law.scale_sign sfb) hz.1 hz.2)
  have hvalue : (scaledGroup G (total G (groupLabel (e2m1Terms a b GS)) (e2m1Terms a b GS))
      (groupLabel (e2m1Terms a b GS)) (fmt.scale sfa) (fmt.scale sfb)).value =
      groupSum G (e2m1Terms a b GS) * (fmt.scale sfa).value * (fmt.scale sfb).value := by
    simp [scaledGroup, groupSum]
  rw [hvalue, hexp] at hrep
  exact hrep

lemma groupOperand_flags {gr : GroupResult} (hmax : 0 ≤ gr.maxExp) :
    (fmt.groupOperand F G gr sfa sfb).isNan = (fmt.isNan sfa || fmt.isNan sfb) ∧
      (fmt.groupOperand F G gr sfa sfb).isInf = false := by
  unfold BlockFormat.groupOperand
  cases h : fmt.isNan sfa || fmt.isNan sfb
  · rw [law.applyScales_eq _ _ _ _ _ _ h hmax]
    split
    · exact ⟨rfl, rfl⟩
    · split <;> exact ⟨rfl, rfl⟩
  · have hskip : ¬ (gr.allZero && !fmt.isNan sfa && !fmt.isNan sfb) = true := by
      rw [Bool.and_assoc, ← Bool.not_or, h]
      simp
    rw [if_neg hskip, law.applyScales_nan _ _ _ _ _ _ h]
    exact ⟨rfl, rfl⟩

end Groups

lemma maxExp_fp4GdfsGroupAccumulatePredecoded {G : ℕ} (hlow : 2 ≤ G) (hhigh : G ≤ 35) (GS : ℕ)
    (a b : ℕ → Byte) :
    0 ≤ (fp4GdfsGroupAccumulatePredecoded G GS (encodeFp4Row a) (encodeFp4Row b)).maxExp := by
  rw [fp4GdfsGroupAccumulatePredecoded_eq hlow hhigh]
  split
  · exact le_rfl
  · exact (groupLabel_e2m1Terms a b GS).1

/-- Six fractional bits hold every product of a group at the group's own exponent. -/
theorem groupSum_e2m1Terms_six (a b : ℕ → Byte) (n : ℕ) :
    groupSum 6 (e2m1Terms a b n) =
      ((List.range n).map fun i => (e2m1 (a i)).value * (e2m1 (b i)).value).sum := by
  have hlabel := groupLabel_e2m1Terms a b n
  rw [e2m1Terms_eq_map] at hlabel ⊢
  rw [SignMagnitude.groupSum_exact, List.map_map]
  · congr 1
    apply List.map_congr_left
    intro i _
    exact SignMagnitude.value_mul _ _
  · intro x hx
    obtain ⟨i, -, rfl⟩ := List.mem_map.mp hx
    obtain ⟨-, hlow, -, hradix⟩ := e2m1Product_range (a i) (b i)
    push_cast
    omega

end MmaEmu
