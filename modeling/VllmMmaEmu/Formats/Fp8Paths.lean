import VllmMmaEmu.Formats.Fp8E4m3

/-!
# The streamed FP8 paths

The kernels stream decoded operands through the multiplier. The header also has
multipliers on decomposed bytes: one for both algorithms, and one for groups
that flags a product as zero when `G` bits cannot hold it. Such a product
carries the smallest exponent there is, so a group's operand does not notice.
-/

namespace MmaEmu

open FixedPoint

/-- The fused primitive on decoded bytes is the plain chunk on the products of the bytes. -/
theorem fp8CofdaMma_encodeRow (F CS : ℕ) (eZero : ℤ) (a b : ℕ → Byte) (c : Fp32) :
    fp8CofdaMma F CS eZero (encodeRow a) (encodeRow b) c =
      fdaAccumulateChunk F eZero ((List.range CS).map fun i => fp8Multiply F (a i) (b i)) c := by
  rw [fp8CofdaMma_eq]
  congr 1
  apply List.map_congr_left
  intro i _
  exact fragProduct_encodeRow F a b i

def fp8MultiplyUnnormalizedG (G : ℕ) (a b : FP8Components) : Product :=
  if a.isNan || b.isNan then ⟨1, 0, 0, false, true, false⟩
  else if a.isZero || b.isZero then ⟨1, 0, 0, true, false, false⟩
  else
    let rawProduct := a.sig * b.sig
    let significand := natToRadix Fp8.productRadixBit G rawProduct
    -- a product that is cut to zero is flagged zero
    ⟨a.sign * b.sign, a.exp + b.exp, significand, significand == 0, false, false⟩

def fp8MultiplyG (G : ℕ) (aBits bBits : Byte) : Product :=
  fp8MultiplyUnnormalizedG G (decomposeFp8E4m3 aBits) (decomposeFp8E4m3 bBits)

/-- A product without a significand is flagged zero, unless it is NaN. -/
def Product.flagZero (p : Product) : Product :=
  if p.significand = 0 ∧ p.isNan = false then { p with isZero := true } else p

lemma fp8MultiplyG_eq (G : ℕ) (a b : Byte) : fp8MultiplyG G a b = (fp8Multiply G a b).flagZero := by
  unfold fp8MultiplyG fp8Multiply fp8MultiplyUnnormalizedG fp8MultiplyUnnormalized
  split
  · rfl
  · split
    · rfl
    · by_cases h : natToRadix Fp8.productRadixBit G
        ((decomposeFp8E4m3 a).sig * (decomposeFp8E4m3 b).sig) = 0 <;> simp [Product.flagZero, h]

lemma decomposeFp8E4m3_exp (bits : Byte) :
    let a := decomposeFp8E4m3 bits
    a.isNan = false → a.isZero = false → -6 ≤ a.exp ∧ 0 < a.sig ∧ (a.sig < 8 → a.exp = -6) := by
  revert bits
  decide +kernel

/-- No product lies below `low`, and the ones to be flagged lie at it. -/
def CutAtLowest (low : ℤ) (p : Product) : Prop :=
  p.isZero = false → low ≤ p.exponent ∧
    (p.significand = 0 → p.isNan = false → p.exponent = low)

lemma cutAtLowest_fp8Multiply {G : ℕ} (hG : 3 ≤ G) (a b : Byte) :
    CutAtLowest (-12) (fp8Multiply G a b) := by
  have ha := decomposeFp8E4m3_exp a
  have hb := decomposeFp8E4m3_exp b
  dsimp only at ha hb
  intro hzero
  rw [fp8Multiply, fp8MultiplyUnnormalized] at hzero ⊢
  by_cases hnan : ((decomposeFp8E4m3 a).isNan || (decomposeFp8E4m3 b).isNan) = true
  · rw [if_pos hnan]
    exact ⟨by norm_num, fun _ h => absurd h (by simp)⟩
  by_cases hz : ((decomposeFp8E4m3 a).isZero || (decomposeFp8E4m3 b).isZero) = true
  · rw [if_neg hnan, if_pos hz] at hzero
    cases hzero
  rw [if_neg hnan, if_neg hz]
  rw [Bool.not_eq_true, Bool.or_eq_false_iff] at hnan hz
  obtain ⟨hexpa, hpa, hsuba⟩ := ha hnan.1 hz.1
  obtain ⟨hexpb, hpb, hsubb⟩ := hb hnan.2 hz.2
  refine ⟨by dsimp only; omega, fun hcut _ => ?_⟩
  -- the raw product is below eight, and so is each factor
  have hraw : (decomposeFp8E4m3 a).sig * (decomposeFp8E4m3 b).sig < 8 :=
    calc _ < 2 ^ (Fp8.productRadixBit - G) := natToRadix_eq_zero_iff.mp hcut
      _ ≤ 2 ^ 3 := Nat.pow_le_pow_right (by norm_num) (by rw [Fp8.productRadixBit]; omega)
  have hlta : (decomposeFp8E4m3 a).sig < 8 := lt_of_le_of_lt (Nat.le_mul_of_pos_right _ hpb) hraw
  have hltb : (decomposeFp8E4m3 b).sig < 8 := lt_of_le_of_lt (Nat.le_mul_of_pos_left _ hpa) hraw
  change (decomposeFp8E4m3 a).exp + (decomposeFp8E4m3 b).exp = -12
  rw [hsuba hlta, hsubb hltb]
  norm_num

/-- The scans of a group without and with the flags. -/
structure ScansAgree (low : ℤ) (gr gr' : GroupResult) : Prop where
  sum_zero : gr.mantissaSum = 0 ∧ gr'.mantissaSum = 0
  initial : gr.allZero = true → gr'.allZero = true ∧ gr.maxExp = -9999
  initial' : gr'.allZero = true → gr'.maxExp = -9999
  lowest : gr.allZero = false → gr'.allZero = true → gr.maxExp = low
  same : gr'.allZero = false → gr'.maxExp = gr.maxExp ∧ low ≤ gr.maxExp

lemma scansAgree_scan {low : ℤ} (hlow : -9999 ≤ low) {gr gr' : GroupResult}
    (h : ScansAgree low gr gr') {p : Product} (hp : CutAtLowest low p) :
    ScansAgree low (gr.scan p) (gr'.scan p.flagZero) := by
  obtain ⟨hsum, hinitial, hinitial', hlowest, hsame⟩ := h
  cases hz : p.isZero with
  | true =>
    have hflag : p.flagZero.isZero = true := by
      unfold Product.flagZero
      split
      · rfl
      · exact hz
    rw [GroupResult.scan, if_pos hz, GroupResult.scan, if_pos hflag]
    exact ⟨hsum, hinitial, hinitial', hlowest, hsame⟩
  | false =>
    obtain ⟨hge, hcut⟩ := hp hz
    have hscan : gr.scan p = { gr with
        allZero := false
        maxExp := if gr.maxExp < p.exponent then p.exponent else gr.maxExp } := if_neg (by simp [hz])
    by_cases hflagged : p.significand = 0 ∧ p.isNan = false
    · have hskip : gr'.scan p.flagZero = gr' := if_pos (by simp [Product.flagZero, hflagged])
      have hexp := hcut hflagged.1 hflagged.2
      rw [hscan, hskip, hexp]
      refine ⟨hsum, by simp, hinitial', fun _ hall => ?_, fun hall => ?_⟩
      · cases hgr : gr.allZero with
        | true =>
          have := (hinitial hgr).2
          dsimp only
          split <;> omega
        | false =>
          have := hlowest hgr hall
          dsimp only
          split <;> omega
      · obtain ⟨heq, hle⟩ := hsame hall
        dsimp only
        split <;> omega
    · have hkeep : p.flagZero = p := if_neg hflagged
      have hscan' : gr'.scan p = { gr' with
          allZero := false
          maxExp := if gr'.maxExp < p.exponent then p.exponent else gr'.maxExp } :=
        if_neg (by simp [hz])
      rw [hkeep, hscan, hscan']
      refine ⟨hsum, by simp, by simp, by simp, fun _ => ?_⟩
      dsimp only
      cases hgr' : gr'.allZero with
      | true =>
        have hstart := hinitial' hgr'
        cases hgr : gr.allZero with
        | true =>
          have := (hinitial hgr).2
          split <;> split <;> omega
        | false =>
          have := hlowest hgr hgr'
          split <;> split <;> omega
      | false =>
        obtain ⟨heq, hle⟩ := hsame hgr'
        split <;> split <;> omega

lemma scansAgree_foldl {low : ℤ} (hlow : -9999 ≤ low) {products : List Product}
    (hp : ∀ p ∈ products, CutAtLowest low p) {gr gr' : GroupResult} (h : ScansAgree low gr gr') :
    ScansAgree low (products.foldl GroupResult.scan gr)
      ((products.map Product.flagZero).foldl GroupResult.scan gr') := by
  induction products generalizing gr gr' with
  | nil => exact h
  | cons p products ih =>
    exact ih (fun q hq => hp q (List.mem_cons_of_mem p hq))
      (scansAgree_scan hlow h (hp p List.mem_cons_self))

lemma alignTo_of_significand_zero (e : ℤ) {o : Operand} (h : o.significand = 0) :
    alignTo e o = 0 := by
  simp [alignTo, h]

/-- Flagged products contribute nothing to the sum anyway. -/
lemma accumulate_flagZero (gr : GroupResult) (p : Product) :
    gr.accumulate p.flagZero = gr.accumulate p := by
  unfold Product.flagZero
  split
  · rename_i h
    have hzero : alignTo gr.maxExp p.toOperand = 0 :=
      alignTo_of_significand_zero _ (by simp [Product.toOperand, h.1])
    cases hz : p.isZero with
    | true => simp [GroupResult.accumulate, hz]
    | false => simp [GroupResult.accumulate, hz, hzero]
  · rfl

lemma foldl_accumulate_flagZero (products : List Product) (gr : GroupResult) :
    (products.map Product.flagZero).foldl GroupResult.accumulate gr =
      products.foldl GroupResult.accumulate gr := by
  simp only [List.foldl_map, accumulate_flagZero]

lemma scan_allZero {gr : GroupResult} {p : Product} (h : (gr.scan p).allZero = true) :
    gr.allZero = true ∧ p.isZero = true := by
  unfold GroupResult.scan at h
  split at h
  · rename_i hz
    exact ⟨h, hz⟩
  · cases h

lemma isZero_of_foldl_scan {products : List Product} {gr : GroupResult}
    (h : (products.foldl GroupResult.scan gr).allZero = true) :
    gr.allZero = true ∧ ∀ p ∈ products, p.isZero = true := by
  induction products generalizing gr with
  | nil => exact ⟨h, by simp⟩
  | cons p products ih =>
    obtain ⟨hscan, hrest⟩ := ih h
    obtain ⟨hgr, hp⟩ := scan_allZero hscan
    exact ⟨hgr, List.forall_mem_cons.mpr ⟨hp, hrest⟩⟩

lemma foldl_accumulate_of_isZero {products : List Product} (h : ∀ p ∈ products, p.isZero = true)
    (gr : GroupResult) : products.foldl GroupResult.accumulate gr = gr := by
  induction products with
  | nil => rfl
  | cons p products ih =>
    have hp : gr.accumulate p = gr := if_pos (h p List.mem_cons_self)
    rw [List.foldl_cons, hp, ih (fun q hq => h q (List.mem_cons_of_mem p hq))]

lemma fp8GroupOperand_of_sum_zero (F G : ℕ) {gr : GroupResult} (h : gr.mantissaSum = 0) :
    fp8GroupOperand F G gr = makeZeroOperand := by
  unfold fp8GroupOperand groupToOperandFp8
  rw [if_pos h]
  split <;> rfl

lemma GroupResult.eq_of_fields {gr gr' : GroupResult} (hsum : gr.mantissaSum = gr'.mantissaSum)
    (hmax : gr.maxExp = gr'.maxExp) (hflag : gr.allZero = gr'.allZero) : gr = gr' := by
  cases gr
  cases gr'
  subst hsum hmax hflag
  rfl

lemma fp8GroupOperand_flagZero {low : ℤ} (hlow : -9999 ≤ low) (F G : ℕ) {products : List Product}
    (hp : ∀ p ∈ products, CutAtLowest low p) :
    fp8GroupOperand F G (groupAccumulate (products.map Product.flagZero)) =
      fp8GroupOperand F G (groupAccumulate products) := by
  have hstart : ScansAgree low GroupResult.start GroupResult.start :=
    ⟨⟨rfl, rfl⟩, fun _ => ⟨rfl, rfl⟩, fun _ => rfl, by simp [GroupResult.start],
      by simp [GroupResult.start]⟩
  have h := scansAgree_foldl hlow hp hstart
  unfold groupAccumulate
  dsimp only
  cases hall' : ((products.map Product.flagZero).foldl GroupResult.scan GroupResult.start).allZero with
  | true =>
    -- every product is flagged, so the sum without the flags is zero as well
    have hzero := (isZero_of_foldl_scan hall').2
    rw [if_pos rfl]
    refine (fp8GroupOperand_of_sum_zero F G ?_).trans ?_
    · exact h.sum_zero.2
    symm
    split
    · exact fp8GroupOperand_of_sum_zero F G h.sum_zero.1
    · apply fp8GroupOperand_of_sum_zero
      rw [← foldl_accumulate_flagZero, foldl_accumulate_of_isZero hzero]
      exact h.sum_zero.1
  | false =>
    have hall : (products.foldl GroupResult.scan GroupResult.start).allZero = false := by
      by_contra htrue
      rw [Bool.not_eq_false] at htrue
      rw [(h.initial htrue).1] at hall'
      cases hall'
    have hscans : (products.map Product.flagZero).foldl GroupResult.scan GroupResult.start =
        products.foldl GroupResult.scan GroupResult.start := by
      have hmax := (h.same hall').1
      have hsum := h.sum_zero.2.trans h.sum_zero.1.symm
      have hflag := hall'.trans hall.symm
      exact GroupResult.eq_of_fields hsum hmax hflag
    rw [hscans, foldl_accumulate_flagZero, hall]

/-- The streamed group is the plain group on the products of the bytes, and its operand is also
that of the products which are flagged zero when they are cut. -/
theorem fp8GdfsGroup_agrees {G : ℕ} (hG : G ∈ fp8G) (F GS : ℕ) (a b : ℕ → Byte) :
    fp8GdfsGroupAccumulatePredecoded G GS (encodeRow a) (encodeRow b) =
        groupAccumulate ((List.range GS).map fun i =>
          fp8MultiplyUnnormalized G (decomposeFp8E4m3 (a i)) (decomposeFp8E4m3 (b i))) ∧
      fp8GroupOperand F G (fp8GdfsGroupAccumulatePredecoded G GS (encodeRow a) (encodeRow b)) =
        fp8GroupOperand F G
          (groupAccumulate ((List.range GS).map fun i => fp8MultiplyG G (a i) (b i))) := by
  have hlow : 3 ≤ G := by
    revert G
    decide
  have hplain := fp8GdfsGroupAccumulatePredecoded_encodeRow G GS a b
  refine ⟨hplain, ?_⟩
  have hflags : ((List.range GS).map fun i => fp8MultiplyG G (a i) (b i)) =
      ((List.range GS).map fun i => fp8Multiply G (a i) (b i)).map Product.flagZero := by
    rw [List.map_map]
    apply List.map_congr_left
    intro i _
    exact fp8MultiplyG_eq G (a i) (b i)
  have hcut : ∀ p ∈ (List.range GS).map fun i => fp8Multiply G (a i) (b i), CutAtLowest (-12) p := by
    intro p hp
    obtain ⟨i, -, rfl⟩ := List.mem_map.mp hp
    exact cutAtLowest_fp8Multiply hlow (a i) (b i)
  rw [hplain, hflags, fp8GroupOperand_flagZero (by norm_num) F G hcut]

/-- A group of squares of the smallest subnormal at three bits: the group results differ, the
operands are both zero. -/
theorem fp8GdfsGroup_agrees_cut :
    fp8GroupOperand 25 3 (fp8GdfsGroupAccumulatePredecoded 3 8 (encodeRow fun _ => 0x01#8)
        (encodeRow fun _ => 0x01#8)) =
      fp8GroupOperand 25 3
        (groupAccumulate ((List.range 8).map fun _ => fp8MultiplyG 3 0x01#8 0x01#8)) ∧
    fp8GdfsGroupAccumulatePredecoded 3 8 (encodeRow fun _ => 0x01#8) (encodeRow fun _ => 0x01#8) ≠
      groupAccumulate ((List.range 8).map fun _ => fp8MultiplyG 3 0x01#8 0x01#8) :=
  ⟨(fp8GdfsGroup_agrees (by decide) 25 8 _ _).2, by decide +kernel⟩

end MmaEmu
