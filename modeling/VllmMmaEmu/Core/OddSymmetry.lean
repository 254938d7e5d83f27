import VllmMmaEmu.Core.GdfsGroup

/-!
# Odd symmetry of the accumulators

Two runs whose operands differ in their signs only. The alignment looks at
magnitudes, the sum of the second run is the negated sum of the first, and the
conversion puts the sign back in front of the same magnitude. The results are
a relation between the accumulators, so that it carries over from chunk to
chunk.
-/

namespace MmaEmu

open Binary32 FixedPoint

/-- Operands of opposite sign; one without a significand may keep its sign. -/
structure Opposed (o o' : Operand) : Prop where
  exponent : o'.exponent = o.exponent
  significand : o'.significand = o.significand
  isZero : o'.isZero = o.isZero
  isNan : o'.isNan = o.isNan
  isInf : o'.isInf = o.isInf
  signs : (o.sign ≠ 0 ∧ o'.sign = -o.sign) ∨
    (o'.sign = o.sign ∧ o.significand = 0 ∧ o.isInf = false)

/-- The accumulators of two runs of opposite sign: NaN and `+0` stay, anything else changes its
sign bit. -/
inductive Negates : Fp32 → Fp32 → Prop where
  | nan {c c' : Fp32} : IsNan c → IsNan c' → Negates c c'
  | zero : Negates 0#32 0#32
  | flip {c : Fp32} : ¬ IsNan c → Binary32.significand c ≠ 0 → Negates c (c ^^^ signMask)

lemma opposed_self {o : Operand} (hsig : o.significand = 0) (hinf : o.isInf = false) :
    Opposed o o := ⟨rfl, rfl, rfl, rfl, rfl, Or.inr ⟨rfl, hsig, hinf⟩⟩

lemma xor_signMask_fields (c : Fp32) : expField (c ^^^ signMask) = expField c ∧
    fracField (c ^^^ signMask) = fracField c ∧ negative (c ^^^ signMask) = !negative c := by
  have hmask : signMask.toNat = 2 ^ 31 := rfl
  have hlt := c.isLt
  refine ⟨?_, ?_, ?_⟩
  · rw [expField, expField, BitVec.toNat_xor, hmask, Nat.xor_div_two_pow, Nat.xor_mod_two_pow]
    norm_num
  · rw [fracField, fracField, BitVec.toNat_xor, hmask, Nat.xor_mod_two_pow]
    norm_num
  · have htop : (c.toNat ^^^ 2 ^ 31) / 2 ^ 31 = c.toNat / 2 ^ 31 ^^^ 1 := by
      rw [Nat.xor_div_two_pow]
      norm_num
    have hflip : (c.toNat ^^^ 2 ^ 31) / 2 ^ 31 = 1 - c.toNat / 2 ^ 31 := by
      have hbit : c.toNat / 2 ^ 31 = 0 ∨ c.toNat / 2 ^ 31 = 1 := by omega
      rw [htop]
      rcases hbit with h | h <;> rw [h] <;> rfl
    rw [negative, negative, BitVec.toNat_xor, hmask, ← decide_not]
    congr 1
    simp only [eq_iff_iff]
    omega

lemma pack_xor_signMask {e f : ℕ} (he : e < 256) (hf : f < 2 ^ 23) (neg : Bool) :
    pack neg e f ^^^ signMask = pack (!neg) e f := by
  obtain ⟨hexp, hfrac, hneg⟩ := xor_signMask_fields (pack neg e f)
  apply eq_of_fields
  · rw [hneg, negative_pack he hf, negative_pack he hf]
  · rw [hexp, expField_pack he hf, expField_pack he hf]
  · rw [hfrac, fracField_pack he hf, fracField_pack he hf]

/-- A packed value that is neither zero nor NaN, and the same with the other sign. -/
lemma negates_pack {e f : ℕ} (he : e < 256) (hf : f < 2 ^ 23) (hne : e ≠ 0 ∨ f ≠ 0)
    (hnan : e = 255 → f = 0) (neg : Bool) : Negates (pack neg e f) (pack (!neg) e f) := by
  rw [← pack_xor_signMask he hf]
  refine .flip ?_ ?_
  · rintro ⟨hexp, hfrac⟩
    rw [expField_pack he hf] at hexp
    rw [fracField_pack he hf] at hfrac
    exact hfrac (hnan hexp)
  · rw [Ne, significand_eq_zero_iff, expField_pack he hf, fracField_pack he hf]
    omega

lemma negates_specials : Negates qnanBits qnanBits ∧ Negates posInfBits negInfBits ∧
    Negates negInfBits posInfBits := by
  have hpos : pack false 255 0 = posInfBits := by decide
  have hneg : pack true 255 0 = negInfBits := by decide
  refine ⟨.nan (by decide) (by decide), ?_, ?_⟩
  · rw [← hpos, ← hneg]
    exact negates_pack (by norm_num) (by norm_num) (by norm_num) (by norm_num) false
  · rw [← hpos, ← hneg]
    exact negates_pack (by norm_num) (by norm_num) (by norm_num) (by norm_num) true

lemma fp32ToOperand_opposed (F : ℕ) {c c' : Fp32} (h : Negates c c') :
    Opposed (fp32ToOperand F c) (fp32ToOperand F c') := by
  have hspecial : ∀ {c : Fp32}, IsNan c → fp32ToOperand F c =
      ⟨if negative c then -1 else 1, 0, 0, false, true, false⟩ := by
    intro c hc
    rw [fp32ToOperand_special F hc.1]
    simp [hc.2]
  cases h with
  | nan hc hc' =>
    rw [hspecial hc, hspecial hc']
    refine ⟨rfl, rfl, rfl, rfl, rfl, ?_⟩
    dsimp only
    split <;> split <;> norm_num
  | zero =>
    have hzero : fp32ToOperand F 0#32 = makeZeroOperand := fp32ToOperand_zero F (by decide)
    rw [hzero]
    exact opposed_self rfl rfl
  | flip hnan hs =>
    obtain ⟨hexp, hfrac, hneg⟩ := xor_signMask_fields c
    by_cases hfin : expField c = 255
    · rw [fp32ToOperand_special F hfin, fp32ToOperand_special F (hexp.trans hfin), hfrac, hneg]
      refine ⟨rfl, rfl, rfl, rfl, rfl, Or.inl ?_⟩
      cases negative c <;> norm_num
    · have hs' : Binary32.significand (c ^^^ signMask) = Binary32.significand c := by
        rw [Binary32.significand, Binary32.significand, hexp, hfrac]
      have he' : Binary32.exponent (c ^^^ signMask) = Binary32.exponent c := by
        rw [Binary32.exponent, Binary32.exponent, hexp]
      have hm' : magnitude (c ^^^ signMask) = magnitude c := by
        rw [magnitude, magnitude, hs', he']
      rw [fp32ToOperand_finite F hfin hs,
        fp32ToOperand_finite F (c := c ^^^ signMask) (by rwa [IsFinite, hexp]) (by rwa [hs']),
        signOf_value hs, signOf_value (b := c ^^^ signMask) (by rwa [hs']), he', hm', hneg]
      refine ⟨rfl, rfl, rfl, rfl, rfl, Or.inl ?_⟩
      cases negative c <;> norm_num

section
variable {S : ℤ} (hS : S ≠ 0)
include hS

lemma decide_neg_lt : decide (-S < 0) = !decide (S < 0) := by
  rw [← decide_not]
  congr 1
  simp only [eq_iff_iff]
  omega

lemma negates_subnormal (F : ℕ) (m : BitVec 32) :
    Negates
      (if m &&& finalTruncMask F = 0#32 then 0#32
        else (if S < 0 then signMask else 0#32) ||| m &&& finalTruncMask F)
      (if m &&& finalTruncMask F = 0#32 then 0#32
        else (if -S < 0 then signMask else 0#32) ||| m &&& finalTruncMask F) := by
  have hlt := toNat_and_finalTruncMask_lt F m
  split
  · exact .zero
  · rename_i hm
    have hne : (m &&& finalTruncMask F).toNat ≠ 0 := fun h => hm (BitVec.eq_of_toNat_eq h)
    rw [or_eq_pack_zero S hlt, or_eq_pack_zero (-S) hlt, decide_neg_lt hS]
    exact negates_pack (by norm_num) hlt (Or.inr hne) (by norm_num) _

lemma negates_infinite : Negates ((if S < 0 then signMask else 0#32) ||| posInfBits)
    ((if -S < 0 then signMask else 0#32) ||| posInfBits) := by
  rw [or_eq_pack_inf S, or_eq_pack_inf (-S), decide_neg_lt hS]
  exact negates_pack (by norm_num) (by norm_num) (by norm_num) (by norm_num) _

lemma negates_normal (F : ℕ) (m : BitVec 32) {b : ℤ} (hlow : 0 < b) (hhigh : b < 255) :
    Negates
      ((if S < 0 then signMask else 0#32) ||| (BitVec.ofInt 32 b <<< mantissaBits) |||
        m &&& finalTruncMask F)
      ((if -S < 0 then signMask else 0#32) ||| (BitVec.ofInt 32 b <<< mantissaBits) |||
        m &&& finalTruncMask F) := by
  have hlt := toNat_and_finalTruncMask_lt F m
  obtain ⟨e, rfl⟩ := Int.eq_ofNat_of_zero_le hlow.le
  rw [or_eq_pack S (by omega) hlt, or_eq_pack (-S) (by omega) hlt, decide_neg_lt hS]
  exact negates_pack (by omega) hlt (Or.inl (by omega)) (by omega) _

end

/-- The sign is the only thing `fixedToFp32` takes from the sign of the sum. -/
lemma fixedToFp32_neg (F : ℕ) (S e : ℤ) : Negates (fixedToFp32 F S e) (fixedToFp32 F (-S) e) := by
  by_cases hS : S = 0
  · subst hS
    exact .zero
  unfold fixedToFp32
  dsimp only
  rw [Int.natAbs_neg]
  simp only [if_neg hS, if_neg (neg_ne_zero.mpr hS)]
  by_cases hlow : 63 - clzll S.natAbs + e - F + exponentBias ≤ 0
  · rw [if_pos hlow, if_pos hlow]
    exact negates_subnormal hS F _
  · rw [if_neg hlow, if_neg hlow]
    by_cases hinf : (maxBiasedExp : ℤ) ≤ 63 - clzll S.natAbs + e - F + exponentBias
    · rw [if_pos hinf, if_pos hinf]
      exact negates_infinite hS
    · rw [if_neg hinf, if_neg hinf]
      exact negates_normal hS F _ (not_le.mp hlow) (not_le.mp hinf)

/-- What pass 1 knows in the two runs. -/
structure ScansOpposed (s s' : Scan) : Prop where
  anyNan : s'.anyNan = s.anyNan
  anyInf : s'.anyInf = s.anyInf
  pos : s'.posInfCount = s.negInfCount
  neg : s'.negInfCount = s.posInfCount
  maxExp : s'.maxExp = s.maxExp
  nonZeroCount : s'.nonZeroCount = s.nonZeroCount
  anyZero : s'.anyZero = s.anyZero
  counted : s.anyInf = true → 0 < s.posInfCount ∨ 0 < s.negInfCount

lemma Opposed.infinite {o o' : Operand} (h : Opposed o o') (hinf : o.isInf = true) :
    o.sign ≠ 0 ∧ o'.sign = -o.sign := by
  rcases h.signs with hs | ⟨-, -, hno⟩
  · exact hs
  · rw [hinf] at hno
    cases hno

lemma scansOpposed_ofAccumulator {c c' : Operand} (h : Opposed c c') :
    ScansOpposed (Scan.ofAccumulator c) (Scan.ofAccumulator c') := by
  obtain ⟨hexp, -, hzero, hnan, hinf, -⟩ := id h
  cases hi : c.isInf with
  | false => constructor <;> simp [Scan.ofAccumulator, hexp, hzero, hnan, hinf, hi]
  | true =>
    obtain ⟨hne, hs⟩ := h.infinite hi
    rcases lt_or_gt_of_ne hne with hlt | hgt
    · constructor <;> simp [Scan.ofAccumulator, hzero, hnan, hinf, hi, hs, hlt, hlt.le]
    · constructor <;> simp [Scan.ofAccumulator, hzero, hnan, hinf, hi, hs, hgt, hgt.le]

lemma scansOpposed_add {s s' : Scan} (hs : ScansOpposed s s') {o o' : Operand} (h : Opposed o o') :
    ScansOpposed (s.add o) (s'.add o') := by
  obtain ⟨hexp, -, hzero, hnan, hinf, -⟩ := id h
  obtain ⟨snan, sinf, spos, sneg, smax, scount, szero, scounted⟩ := hs
  cases hi : o.isInf with
  | false =>
    constructor <;> simp [Scan.add, hexp, hzero, hnan, hinf, hi, snan, sinf, spos, sneg, smax,
      scount, szero]
    exact scounted
  | true =>
    obtain ⟨hne, hsign⟩ := h.infinite hi
    rcases lt_or_gt_of_ne hne with hlt | hgt
    · constructor <;> simp [Scan.add, hzero, hnan, hinf, hi, hsign, snan, spos, sneg,
        smax, scount, szero, hlt, hlt.le]
    · constructor <;> simp [Scan.add, hzero, hnan, hinf, hi, hsign, snan, spos, sneg,
        smax, scount, szero, hgt, hgt.le]

lemma scansOpposed_foldl {ops ops' : List Operand} (h : List.Forall₂ Opposed ops ops')
    {s s' : Scan} (hs : ScansOpposed s s') :
    ScansOpposed (ops.foldl Scan.add s) (ops'.foldl Scan.add s') := by
  induction h generalizing s s' with
  | nil => exact hs
  | cons ho _ ih => exact ih (scansOpposed_add hs ho)

lemma Opposed.alignTo_eq {o o' : Operand} (h : Opposed o o') (e : ℤ) :
    o'.sign * alignTo e o' = -(o.sign * alignTo e o) := by
  have halign : alignTo e o' = alignTo e o := by
    rw [alignTo, alignTo, h.exponent, h.significand]
  rcases h.signs with ⟨-, hs⟩ | ⟨-, hsig, -⟩
  · rw [halign, hs, neg_mul]
  · have hzero : alignTo e o = 0 := by simp [alignTo, hsig]
    rw [halign, hzero, mul_zero, mul_zero, neg_zero]

lemma addAligned_opposed {o o' : Operand} (h : Opposed o o') (e sum : ℤ) :
    addAligned e (-sum) o' = -addAligned e sum o := by
  rw [addAligned, addAligned, h.isZero, h.isNan, h.isInf]
  split
  · rfl
  · rw [h.alignTo_eq e, neg_add]

lemma startSum_opposed {c c' : Operand} (h : Opposed c c') (e : ℤ) :
    startSum e c' = -startSum e c := by
  rw [startSum, startSum, h.isZero, h.isInf]
  split
  · rw [zero_add, zero_add, h.alignTo_eq e]
  · rfl

lemma foldl_addAligned_opposed {ops ops' : List Operand} (h : List.Forall₂ Opposed ops ops')
    (e sum : ℤ) : ops'.foldl (addAligned e) (-sum) = -ops.foldl (addAligned e) sum := by
  induction h generalizing sum with
  | nil => rfl
  | cons ho _ ih => rw [List.foldl_cons, List.foldl_cons, addAligned_opposed ho, ih]

lemma finish_opposed {s s' : Scan} (h : ScansOpposed s s') (eZero : ℤ) {sum sum' : ℤ → Fp32}
    (hsum : ∀ e, Negates (sum e) (sum' e)) : Negates (s.finish eZero sum) (s'.finish eZero sum') := by
  obtain ⟨hnan, hinf, hpos, hneg, hmax, hcount, hzero, hcounted⟩ := h
  obtain ⟨hqnan, hup, hdown⟩ := negates_specials
  unfold Scan.finish
  rw [hnan, hinf, hpos, hneg, hmax, hcount, hzero]
  split
  · exact hqnan
  split
  · rename_i hi
    rcases Nat.eq_zero_or_pos s.posInfCount with hp | hp
    · have hn : 0 < s.negInfCount := by
        rcases hcounted hi with h | h
        · omega
        · exact h
      simp only [hp, hn, lt_irrefl, false_and, and_false, if_false, if_true]
      exact hdown
    · rcases Nat.eq_zero_or_pos s.negInfCount with hn | hn
      · simp only [hp, hn, lt_irrefl, false_and, and_false, if_false, if_true]
        exact hup
      · simp only [hp, hn, true_and, if_true]
        exact hqnan
  split
  · exact .zero
  · exact hsum _

/-- Operands and accumulators of opposite sign give results of opposite sign. -/
theorem chunkedAccumulate_negates (F : ℕ) (eZero : ℤ) {c c' : Fp32} (hc : Negates c c')
    {ops ops' : List Operand} (h : List.Forall₂ Opposed ops ops') :
    Negates (chunkedAccumulate F eZero ops c) (chunkedAccumulate F eZero ops' c') := by
  have hop := fp32ToOperand_opposed F hc
  by_cases hnan : IsNan c
  · have hnan' : IsNan c' := by
      rw [← fp32ToOperand_isNan F, hop.isNan]
      exact (fp32ToOperand_isNan F c).mpr hnan
    rw [chunkedAccumulate_of_isNan F eZero ops hnan, chunkedAccumulate_of_isNan F eZero ops' hnan']
    exact negates_specials.1
  · have hnan' : ¬ IsNan c' := by
      rw [← fp32ToOperand_isNan F, hop.isNan]
      exact fun h => hnan ((fp32ToOperand_isNan F c).mp h)
    rw [chunkedAccumulate_of_not_isNan F eZero ops hnan,
      chunkedAccumulate_of_not_isNan F eZero ops' hnan']
    refine finish_opposed (scansOpposed_foldl h (scansOpposed_ofAccumulator hop)) eZero fun e => ?_
    rw [startSum_opposed hop, foldl_addAligned_opposed h]
    exact fixedToFp32_neg F _ e

/-- The decoupled chunk rounds to FP32 in between. -/
theorem cofdaDecoupledAccumulateProducts_negates (F F2 : ℕ) {c c' : Fp32} (hc : Negates c c')
    {products products' : List Product}
    (h : List.Forall₂ (fun p p' => Opposed p.toOperand p'.toOperand) products products') :
    Negates (cofdaDecoupledAccumulateProducts F F2 products c)
      (cofdaDecoupledAccumulateProducts F F2 products' c') := by
  have hops : List.Forall₂ Opposed (products.map Product.toOperand)
      (products'.map Product.toOperand) := by
    rwa [List.forall₂_map_left_iff, List.forall₂_map_right_iff]
  have hpartial := chunkedAccumulate_negates F (-133) .zero hops
  exact chunkedAccumulate_negates F2 (-133) hc (.cons (fp32ToOperand_opposed F2 hpartial) .nil)

/-- Group results of opposite sign. -/
def GroupResult.neg (gr : GroupResult) : GroupResult := { gr with mantissaSum := -gr.mantissaSum }

section
variable {p p' : Product} (h : Opposed p.toOperand p'.toOperand)
include h

lemma scan_opposed (gr : GroupResult) : gr.neg.scan p' = (gr.scan p).neg := by
  have hzero : p'.isZero = p.isZero := h.isZero
  have hexp : p'.exponent = p.exponent := h.exponent
  rw [GroupResult.scan, GroupResult.scan, hzero, hexp]
  split <;> rfl

lemma accumulate_opposed (gr : GroupResult) : gr.neg.accumulate p' = (gr.accumulate p).neg := by
  have hzero : p'.isZero = p.isZero := h.isZero
  have halign := h.alignTo_eq gr.maxExp
  rw [GroupResult.accumulate, GroupResult.accumulate, hzero]
  split
  · rfl
  · simp only [GroupResult.neg, GroupResult.mk.injEq, and_true]
    rw [neg_add]
    congr 1

end

lemma foldl_opposed {step : GroupResult → Product → GroupResult}
    (hstep : ∀ {p p' : Product}, Opposed p.toOperand p'.toOperand →
      ∀ gr : GroupResult, step gr.neg p' = (step gr p).neg)
    {products products' : List Product}
    (h : List.Forall₂ (fun p p' => Opposed p.toOperand p'.toOperand) products products')
    (gr : GroupResult) : products'.foldl step gr.neg = (products.foldl step gr).neg := by
  induction h generalizing gr with
  | nil => rfl
  | cons hp _ ih => rw [List.foldl_cons, List.foldl_cons, hstep hp, ih]

lemma groupAccumulate_opposed {products products' : List Product}
    (h : List.Forall₂ (fun p p' => Opposed p.toOperand p'.toOperand) products products') :
    groupAccumulate products' = (groupAccumulate products).neg := by
  have hscan : products'.foldl GroupResult.scan GroupResult.start =
      (products.foldl GroupResult.scan GroupResult.start).neg :=
    foldl_opposed scan_opposed h GroupResult.start
  have hflag : (products.foldl GroupResult.scan GroupResult.start).neg.allZero =
      (products.foldl GroupResult.scan GroupResult.start).allZero := rfl
  unfold groupAccumulate
  dsimp only
  rw [hscan, hflag]
  split
  · rfl
  · exact foldl_opposed accumulate_opposed h _

end MmaEmu
