import VllmMmaEmu.Semantics.Fp4Gemm
import VllmMmaEmu.Semantics.Decoupled

/-!
# Appended zero columns

A chunk of zero operands re-encodes the accumulator at `F` bits and back. That
is the identity on `+0` and on everything the accumulator returns. A longer `K`
whose new columns are zero adds zero operands to the last chunk of each output
and chunks of zero operands after it.
-/

namespace MmaEmu

open Binary32

/-- An operand that is flagged zero and nothing else. -/
def Operand.Zero (o : Operand) : Prop := o.isZero = true ∧ o.isNan = false ∧ o.isInf = false

/-- What an accumulator register can hold at `F` bits. -/
inductive ReachableAcc (F : ℕ) : Fp32 → Prop where
  | zero : ReachableAcc F 0#32
  | returned (eZero : ℤ) (ops : List Operand) (c : Fp32) :
      ReachableAcc F (chunkedAccumulate F eZero ops c)

lemma ReachableAcc.stable {F : ℕ} {c : Fp32} (h : ReachableAcc F c) : Stable F c := by
  cases h with
  | zero => exact stable_zero F
  | returned eZero ops c => exact chunkedAccumulate_stable F eZero ops c

lemma le_of_mem_widths {F : ℕ} (hF : F ∈ cofdaF ∨ F ∈ gdfsF) : F ≤ 35 := by
  rcases hF with h | h
  · have := (le_of_mem_cofdaF h).2
    omega
  · exact (le_of_mem_gdfsF h).2

lemma zero_chunk_noop {F : ℕ} (hF : F ≤ 35) {eZero : ℤ} (hzero : eZero ≤ -126) {c : Fp32}
    (hc : ReachableAcc F c) {zeros : List Operand} (hzeros : ∀ o ∈ zeros, o.Zero) :
    chunkedAccumulate F eZero zeros c = c :=
  chunkedAccumulate_zeros hF hzero hzeros hc.stable

lemma foldl_range_extend {α : Type} {step : α → ℕ → α} (good : α → Prop) {x : α} (hx : good x)
    (hgood : ∀ acc j, good acc → good (step acc j)) {n n' : ℕ} (hle : n ≤ n')
    (hnoop : ∀ acc j, n ≤ j → good acc → step acc j = acc) :
    (List.range n').foldl step x = (List.range n).foldl step x := by
  have hrun : ∀ loop : List ℕ, good (loop.foldl step x) := by
    intro loop
    induction loop using List.reverseRecOn with
    | nil => exact hx
    | append_singleton loop j ih =>
      rw [List.foldl_append]
      exact hgood _ j ih
  induction n', hle using Nat.le_induction with
  | base => rfl
  | succ n' hle ih =>
    rw [List.range_succ, List.foldl_append, List.foldl_cons, List.foldl_nil,
      hnoop _ n' hle (hrun _), ih]

lemma foldl_chunks_extend {F : ℕ} (hF : F ≤ 35) {eZero : ℤ} (hzero : eZero ≤ -126)
    {ops : ℕ → List Operand} {n n' : ℕ} (hle : n ≤ n')
    (hzeros : ∀ j, n ≤ j → ∀ o ∈ ops j, o.Zero) :
    (List.range n').foldl (fun acc j => chunkedAccumulate F eZero (ops j) acc) 0#32 =
      (List.range n).foldl (fun acc j => chunkedAccumulate F eZero (ops j) acc) 0#32 :=
  foldl_range_extend (ReachableAcc F) .zero (fun acc j _ => .returned eZero (ops j) acc) hle
    fun _ j hj hacc => zero_chunk_noop hF hzero hacc (hzeros j hj)

lemma ceil_mono {K K' : ℕ} (h : K ≤ K') (c : ℕ) : (K + c - 1) / c ≤ (K' + c - 1) / c :=
  Nat.div_le_div_right (by omega)

lemma le_mul_of_ceil_le {K c j : ℕ} (hc : 0 < c) (h : (K + c - 1) / c ≤ j) : K ≤ j * c :=
  (Simt.ceil_le_iff hc K j).mp h

lemma groupAccumulate_of_isZero {products : List Product} (h : ∀ p ∈ products, p.isZero = true) :
    groupAccumulate products = ⟨0, 0, true⟩ := by
  have hscan : ∀ gr, products.foldl GroupResult.scan gr = gr := by
    intro gr
    induction products with
    | nil => rfl
    | cons p products ih =>
      have hp : gr.scan p = gr := if_pos (h p List.mem_cons_self)
      rw [List.foldl_cons, hp]
      exact ih fun q hq => h q (List.mem_cons_of_mem p hq)
  rw [groupAccumulate, hscan]
  rfl

lemma zero_makeZeroOperand : makeZeroOperand.Zero := ⟨rfl, rfl, rfl⟩

/-- Both zeros of E4M3. -/
def IsZeroByte (bits : Byte) : Prop := bits &&& 0x7F#8 = 0#8

lemma isZeroByte_zero : IsZeroByte 0#8 := rfl

lemma fp8Multiply_zero (F : ℕ) {a b : Byte} (ha : IsZeroByte a) (hb : IsZeroByte b) :
    fp8Multiply F a b = ⟨1, 0, 0, true, false, false⟩ := by
  have hfields : ∀ bits, IsZeroByte bits →
      (decomposeFp8E4m3 bits).isNan = false ∧ (decomposeFp8E4m3 bits).isZero = true := by
    unfold IsZeroByte
    decide +kernel
  obtain ⟨hna, hza⟩ := hfields a ha
  obtain ⟨hnb, -⟩ := hfields b hb
  rw [fp8Multiply, fp8MultiplyUnnormalized, hna, hnb, hza]
  rfl

namespace Fp8Args

/-- `args'` is `args` with zero columns appended to `A` and zero rows to `B`. -/
structure AppendsZeros (args args' : Fp8Args) : Prop where
  rows : args'.M = args.M
  cols : args'.N = args.N
  longer : args.K ≤ args'.K
  a_kept : ∀ m < args.M, ∀ k < args.K, args'.A (m * args'.K + k) = args.A (m * args.K + k)
  b_kept : ∀ n < args.N, ∀ k < args.K, args'.B (k + n * args'.K) = args.B (k + n * args.K)
  a_zero : ∀ m < args.M, ∀ k, args.K ≤ k → k < args'.K → IsZeroByte (args'.A (m * args'.K + k))
  b_zero : ∀ n < args.N, ∀ k, args.K ≤ k → k < args'.K → IsZeroByte (args'.B (k + n * args'.K))

section
variable {args args' : Fp8Args} (h : args.AppendsZeros args') {m n : ℕ} (hm : m < args.M)
  (hn : n < args.N)
include h

lemma AppendsZeros.paddedRow_kept (hm : m < args.M) {k : ℕ} (hk : k < args.K) :
    args'.paddedRow m k = args.paddedRow m k := by
  have hk' : k < args'.K := lt_of_lt_of_le hk h.longer
  rw [paddedRow, paddedRow, if_pos hk, if_pos hk', h.a_kept m hm k hk]

lemma AppendsZeros.paddedCol_kept (hn : n < args.N) {k : ℕ} (hk : k < args.K) :
    args'.paddedCol n k = args.paddedCol n k := by
  have hk' : k < args'.K := lt_of_lt_of_le hk h.longer
  rw [paddedCol, paddedCol, if_pos hk, if_pos hk', h.b_kept n hn k hk]

lemma AppendsZeros.paddedRow_zero (hm : m < args.M) {k : ℕ} (hk : args.K ≤ k) :
    IsZeroByte (args'.paddedRow m k) := by
  rw [paddedRow]
  split
  · exact h.a_zero m hm k hk ‹_›
  · rfl

lemma AppendsZeros.paddedCol_zero (hn : n < args.N) {k : ℕ} (hk : args.K ≤ k) :
    IsZeroByte (args'.paddedCol n k) := by
  rw [paddedCol]
  split
  · exact h.b_zero n hn k hk ‹_›
  · rfl

include hm hn

lemma AppendsZeros.products_eq (F start count : ℕ) :
    args'.products F m n start count = args.products F m n start count := by
  apply List.map_congr_left
  intro i _
  by_cases hk : start + i < args.K
  · rw [h.paddedRow_kept hm hk, h.paddedCol_kept hn hk]
  · have hrow : args.paddedRow m (start + i) = 0#8 := if_neg hk
    have hcol : args.paddedCol n (start + i) = 0#8 := if_neg hk
    rw [hrow, hcol, fp8Multiply_zero F (h.paddedRow_zero hm (not_lt.mp hk))
      (h.paddedCol_zero hn (not_lt.mp hk)), fp8Multiply_zero F isZeroByte_zero isZeroByte_zero]

end

end Fp8Args

section
variable (args : Fp8Args) (m n : ℕ)

lemma toOperand_products_past_end {F start count : ℕ} (h : args.K ≤ start) :
    ∀ o ∈ (args.products F m n start count).map Product.toOperand, o.Zero := by
  intro o ho
  obtain ⟨p, hp, rfl⟩ := List.mem_map.mp ho
  exact products_past_end args m n h p hp

lemma fp8GroupOperand_past_end {F G GS start : ℕ} (h : args.K ≤ start) :
    fp8GroupOperand F G (groupAccumulate (args.products G m n start GS)) = makeZeroOperand := by
  have hzero : ∀ p ∈ args.products G m n start GS, p.isZero = true := fun p hp =>
    (products_past_end args m n h p hp).1
  rw [groupAccumulate_of_isZero hzero]
  rfl

lemma decoupled_past_end {F F2 start CS : ℕ} (hF : F ≤ 35) (hF2 : F2 ≤ 35) (h : args.K ≤ start)
    {acc : Fp32} (hacc : ReachableAcc F2 acc) :
    cofdaDecoupledAccumulateProducts F F2 (args.products F m n start CS) acc = acc := by
  have hpartial : chunkedAccumulate F (-133)
      ((args.products F m n start CS).map Product.toOperand) 0#32 = 0#32 :=
    zero_chunk_noop hF (by norm_num) .zero (toOperand_products_past_end args m n h)
  rw [cofdaDecoupledAccumulateProducts, hpartial, fp32ToOperand_zeroBits]
  refine zero_chunk_noop hF2 (by norm_num) hacc fun o ho => ?_
  rw [List.mem_singleton.mp ho]
  exact zero_makeZeroOperand

end

lemma fp8_flat_appendsZeros (launch : Fp8Launch) {args args' : Fp8Args}
    (h : args.AppendsZeros args') {m n : ℕ} (hm : m < args.M) (hn : n < args.N) :
    launch.flat args' m n = launch.flat args m n := by
  have hproducts := h.products_eq hm hn
  cases launch with
  | gdfs F G GS hF _ _ =>
    simp only [Fp8Launch.flat, gdfsAccumulateTile, hproducts]
    refine foldl_chunks_extend (le_of_mem_gdfsF hF).2 (by norm_num) (ceil_mono h.longer 32) ?_
    intro t ht o ho
    obtain ⟨g, -, rfl⟩ := List.mem_map.mp ho
    have hend := le_mul_of_ceil_le (by norm_num) ht
    rw [fp8GroupOperand_past_end args m n (by omega)]
    exact zero_makeZeroOperand
  | cofda F CS hF hCS =>
    obtain ⟨hpos, -, -⟩ := dvd_of_mem_fp8Cs hCS
    simp only [Fp8Launch.flat, fdaAccumulateChunk, hproducts]
    refine foldl_chunks_extend (le_of_mem_widths (Or.inl hF)) (by norm_num) (ceil_mono h.longer CS) ?_
    intro j hj
    exact toOperand_products_past_end args m n (le_mul_of_ceil_le hpos hj)
  | cofdaDecoupled F CS hF hCS =>
    obtain ⟨hpos, -, -⟩ := dvd_of_mem_fp8Cs hCS
    simp only [Fp8Launch.flat, hproducts]
    refine foldl_range_extend (ReachableAcc 23) .zero ?_ (ceil_mono h.longer CS) ?_
    · exact fun acc j _ => .returned (-133) _ acc
    · intro acc j hj hacc
      exact decoupled_past_end args m n (le_of_mem_widths (Or.inl hF)) (by norm_num)
        (le_mul_of_ceil_le hpos hj) hacc

/-- Both zeros of E2M1. -/
def IsZeroNibble (nibble : Byte) : Prop := nibble &&& 0x7#8 = 0#8

/-- `op'` is `op` with zero columns appended; their scales are not NaN. -/
structure PackedOperand.AppendsZeros (fmt : BlockFormat) (K K' : ℕ) (op op' : PackedOperand)
    (linear linear' : ℕ → ℕ → Byte) : Prop where
  rows : op'.rows = op.rows
  elem_kept : ∀ m < op.rows, ∀ k < K, op'.elem K' m k = op.elem K m k
  scale_kept : ∀ m < op.rows, ∀ kb < K / fmt.blockSize, linear' m kb = linear m kb
  elem_zero : ∀ m < op.rows, ∀ k, K ≤ k → k < K' → IsZeroNibble (op'.elem K' m k)
  scale_zero : ∀ m < op.rows, ∀ kb, K / fmt.blockSize ≤ kb → kb < K' / fmt.blockSize →
    fmt.isNan (linear' m kb) = false

structure Fp4Args.AppendsZeros (fmt : BlockFormat) (args args' : Fp4Args) (sf sf' : LinearScales) :
    Prop where
  longer : args.K ≤ args'.K
  a : PackedOperand.AppendsZeros fmt args.K args'.K args.A args'.A sf.a sf'.a
  b : PackedOperand.AppendsZeros fmt args.K args'.K args.B args'.B sf.b sf'.b

lemma fp4MultiplyPredecoded_isZero (G : ℕ) {a : Byte} (ha : IsZeroNibble a) (b : Byte) :
    (fp4MultiplyPredecoded G (decodeFp4Operand a) (decodeFp4Operand b)).isZero = true := by
  have hflag : ∀ nibble, IsZeroNibble nibble →
      (decodeFp4Operand nibble).flags &&& fp4ZeroBit ≠ 0#8 := by
    unfold IsZeroNibble
    decide +kernel
  rw [fp4MultiplyPredecoded, if_pos (Or.inl (hflag a ha))]

lemma fp4Group_zero (G GS : ℕ) {a b : ℕ → Byte} (ha : ∀ i < GS, IsZeroNibble (a i)) :
    fp4GdfsGroupAccumulatePredecoded G GS (encodeFp4Row a) (encodeFp4Row b) = ⟨0, 0, true⟩ := by
  rw [fp4GdfsGroupAccumulatePredecoded, groupAccumulateStreamed_eq]
  apply groupAccumulate_of_isZero
  intro p hp
  obtain ⟨i, hi, rfl⟩ := List.mem_map.mp hp
  rw [fp4FragProduct, encodeFp4Row, encodeFp4Row, unpackDecodedFp4_packDecodedFp4,
    unpackDecodedFp4_packDecodedFp4]
  exact fp4MultiplyPredecoded_isZero G (ha i (List.mem_range.mp hi)) (b i)

lemma groupOperand_zero (fmt : BlockFormat) (F G : ℕ) {sfa sfb : Byte}
    (ha : fmt.isNan sfa = false) (hb : fmt.isNan sfb = false) :
    fmt.groupOperand F G ⟨0, 0, true⟩ sfa sfb = makeZeroOperand := by
  rw [BlockFormat.groupOperand, ha, hb]
  rfl

lemma productWithScales_zero {fmt : BlockFormat} (law : fmt.Lawful) (F : ℕ) {a sfa sfb : Byte}
    (b : Byte) (hzero : IsZeroNibble a) (ha : fmt.isNan sfa = false) (hb : fmt.isNan sfb = false) :
    fmt.productWithScales F (decomposeFp4E2m1 a) (decomposeFp4E2m1 b) sfa sfb =
      makeZeroOperand := by
  have hsig : ∀ nibble, IsZeroNibble nibble → (decomposeFp4E2m1 nibble).isZero = true := by
    unfold IsZeroNibble
    decide +kernel
  have hproduct : (scaledProduct a b (fmt.scale sfa) (fmt.scale sfb)).significand = 0 :=
    scaledProduct_significand_eq_zero_iff.mpr (Or.inl (hsig a hzero))
  exact (law.product_eq F a b sfa sfb (Bool.or_eq_false_iff.mpr ⟨ha, hb⟩)).trans (if_pos hproduct)

section
variable {fmt : BlockFormat} {K K' : ℕ} {op op' : PackedOperand} {linear linear' : ℕ → ℕ → Byte}
  (h : PackedOperand.AppendsZeros fmt K K' op op' linear linear') {m k : ℕ} (hm : m < op.rows)
include h hm

lemma PackedOperand.AppendsZeros.elem_past_end (hk : K ≤ k) : IsZeroNibble (op'.elem K' m k) := by
  by_cases hk' : k < K'
  · exact h.elem_zero m hm k hk hk'
  · rw [PackedOperand.elem, if_neg hk']
    rfl

lemma PackedOperand.AppendsZeros.scaleAt_past_end (hnan : fmt.isNan 0#8 = false)
    (hblk : BlockSized fmt.blockSize K') (hk : K ≤ k) :
    fmt.isNan (scaleAt K' fmt.blockSize linear' m k) = false := by
  rw [scaleAt]
  split
  · exact h.scale_zero m hm _ (Nat.div_le_div_right hk) (Nat.div_lt_div_of_lt_of_dvd hblk.dvd ‹_›)
  · exact hnan

lemma PackedOperand.AppendsZeros.scaleAt_kept (hblk : BlockSized fmt.blockSize K) (hle : K ≤ K')
    (hk : k < K) : scaleAt K' fmt.blockSize linear' m k = scaleAt K fmt.blockSize linear m k := by
  rw [scaleAt, scaleAt, if_pos hk, if_pos (lt_of_lt_of_le hk hle)]
  exact h.scale_kept m hm _ (Nat.div_lt_div_of_lt_of_dvd hblk.dvd hk)

end

section
variable {fmt : BlockFormat} (law : fmt.Lawful) (hnan : fmt.isNan 0#8 = false)
  {args args' : Fp4Args} {sf sf' : LinearScales}

lemma fp4GroupAt_past_end (hnan : fmt.isNan 0#8 = false) (args : Fp4Args) (sf : LinearScales)
    (m n F G GS : ℕ) {start : ℕ} (h : args.K ≤ start) :
    fp4GroupAt fmt args sf m n F G GS start = makeZeroOperand := by
  have hscale : ∀ (linear : ℕ → ℕ → Byte) (r : ℕ),
      fmt.isNan (scaleAt args.K fmt.blockSize linear r start) = false := by
    intro linear r
    rw [scaleAt, if_neg (by omega)]
    exact hnan
  rw [fp4GroupAt, fp4Group_zero G GS, groupOperand_zero fmt F G (hscale _ _) (hscale _ _)]
  intro i _
  rw [PackedOperand.elem, if_neg (by omega)]
  rfl

variable (h : Fp4Args.AppendsZeros fmt args args' sf sf') (hblk : BlockSized fmt.blockSize args.K)
  (hblk' : BlockSized fmt.blockSize args'.K) {m n : ℕ} (hm : m < args.A.rows) (hn : n < args.B.rows)
include h hblk hblk' hm hn hnan

lemma fp4GroupAt_appendsZeros (F G : ℕ) {GS start : ℕ} (hGS : GS ∣ fmt.blockSize)
    (hstart : GS ∣ start) :
    fp4GroupAt fmt args' sf' m n F G GS start = fp4GroupAt fmt args sf m n F G GS start := by
  rcases Nat.lt_or_ge start args.K with hlt | hge
  · have hend : ∀ i < GS, start + i < args.K := by
      intro i hi
      obtain ⟨q, hq⟩ := hstart
      obtain ⟨r, hr⟩ := hGS.trans hblk.dvd
      have hqr : q + 1 ≤ r := by
        by_contra hge
        have := Nat.mul_le_mul_left GS (show r ≤ q by omega)
        omega
      have := Nat.mul_le_mul_left GS hqr
      rw [Nat.mul_add, Nat.mul_one] at this
      omega
    rw [fp4GroupAt, fp4GroupAt, h.a.scaleAt_kept hm hblk h.longer hlt,
      h.b.scaleAt_kept hn hblk h.longer hlt]
    congr 1
    apply fp4GdfsGroupAccumulatePredecoded_congr
    · intro i hi
      rw [encodeFp4Row, encodeFp4Row, h.a.elem_kept m hm _ (hend i hi)]
    · intro i hi
      rw [encodeFp4Row, encodeFp4Row, h.b.elem_kept n hn _ (hend i hi)]
  · rw [fp4GroupAt_past_end hnan args sf m n F G GS hge, fp4GroupAt, fp4Group_zero G GS,
      groupOperand_zero fmt F G (h.a.scaleAt_past_end hm hnan hblk' hge)
        (h.b.scaleAt_past_end hn hnan hblk' hge)]
    exact fun i _ => h.a.elem_past_end hm (by omega)

lemma fp4GdfsFlat_appendsZeros {F : ℕ} (hF : F ≤ 35) (G : ℕ) {GS : ℕ} (hGS : GS ∣ fmt.blockSize) :
    fp4GdfsFlat fmt args' sf' m n F G GS = fp4GdfsFlat fmt args sf m n F G GS := by
  have hgroup : ∀ t g, fp4GroupAt fmt args' sf' m n F G GS (t * 64 + g * GS) =
      fp4GroupAt fmt args sf m n F G GS (t * 64 + g * GS) := by
    intro t g
    apply fp4GroupAt_appendsZeros hnan h hblk hblk' hm hn F G hGS
    exact Nat.dvd_add (Nat.dvd_mul_left_of_dvd (hGS.trans hblk.dvd_tile) t) (Nat.dvd_mul_left GS g)
  simp only [fp4GdfsFlat, gdfsAccumulateTile, hgroup]
  refine foldl_chunks_extend hF (by norm_num) (ceil_mono h.longer 64) ?_
  intro t ht o ho
  obtain ⟨g, -, rfl⟩ := List.mem_map.mp ho
  have hend := le_mul_of_ceil_le (by norm_num) ht
  rw [fp4GroupAt_past_end hnan args sf m n F G GS (by omega)]
  exact zero_makeZeroOperand

include law

omit hnan in
lemma fp4ProductAt_appendsZeros (F k : ℕ) :
    fp4ProductAt fmt args' sf' m n F k = fp4ProductAt fmt args sf m n F k := by
  rw [fp4ProductAt, fp4ProductAt]
  by_cases hk : k < args.K
  · have hlt := Nat.div_lt_div_of_lt_of_dvd hblk.dvd hk
    rw [if_pos hk, if_pos (lt_of_lt_of_le hk h.longer), h.a.elem_kept m hm k hk,
      h.b.elem_kept n hn k hk, h.a.scale_kept m hm _ hlt, h.b.scale_kept n hn _ hlt]
  · rw [if_neg hk]
    split
    · rename_i hk'
      have hlow := Nat.div_le_div_right (c := fmt.blockSize) (not_lt.mp hk)
      have hhigh := Nat.div_lt_div_of_lt_of_dvd hblk'.dvd hk'
      exact productWithScales_zero law F _ (h.a.elem_zero m hm k (not_lt.mp hk) hk')
        (h.a.scale_zero m hm _ hlow hhigh) (h.b.scale_zero n hn _ hlow hhigh)
    · rfl

omit hnan in
lemma fp4CofdaFlat_appendsZeros {F : ℕ} (hF : F ≤ 35) {CS : ℕ} (hCS : 0 < CS) :
    fp4CofdaFlat fmt args' sf' m n F CS = fp4CofdaFlat fmt args sf m n F CS := by
  simp only [fp4CofdaFlat, fp4ProductAt_appendsZeros law h hblk hblk' hm hn]
  refine foldl_chunks_extend hF (by norm_num) (ceil_mono h.longer CS) ?_
  intro j hj o ho
  obtain ⟨i, -, rfl⟩ := List.mem_map.mp ho
  have hend := le_mul_of_ceil_le hCS hj
  rw [fp4ProductAt, if_neg (by omega)]
  exact zero_makeZeroOperand

end

lemma fp4_flat_appendsZeros (launch : Fp4Launch) {args args' : Fp4Args} {sf sf' : LinearScales}
    (h : Fp4Args.AppendsZeros launch.fmt args args' sf sf') (hK : args.K % launch.alignment = 0)
    (hK' : args'.K % launch.alignment = 0) {m n : ℕ} (hm : m < args.A.rows) (hn : n < args.B.rows) :
    launch.flat args' sf' m n = launch.flat args sf m n := by
  have hblk := launch.blockSized hK
  have hblk' := launch.blockSized hK'
  cases launch with
  | nvfp4Gdfs F G hF _ =>
    exact fp4GdfsFlat_appendsZeros rfl h hblk hblk' hm hn (le_of_mem_widths (Or.inr hF)) G
      (dvd_refl 16)
  | nvfp4Cofda F hF =>
    exact fp4CofdaFlat_appendsZeros nvfp4_lawful h hblk hblk' hm hn
      (le_of_mem_widths (Or.inl hF)) (by norm_num)
  | mxfp4Gdfs F G GS hF _ hGS =>
    exact fp4GdfsFlat_appendsZeros rfl h hblk hblk' hm hn (le_of_mem_widths (Or.inr hF)) G
      (dvd_of_mem_mxfp4Gs hGS).2
  | mxfp4Cofda F CS hF hCS =>
    exact fp4CofdaFlat_appendsZeros mxfp4_lawful h hblk hblk' hm hn
      (le_of_mem_widths (Or.inl hF)) (dvd_of_mem_mxfp4Cs hCS).1

/-- The position of an output holds one accumulator, in both of two lists of stores. -/
def SameAccumulator (stores stores' : List (ℕ × Fp32)) (address : ℕ) : Prop :=
  ∃ acc, (∀ x, (address, x) ∈ stores ↔ x = acc) ∧ ∀ x, (address, x) ∈ stores' ↔ x = acc

/-- Zero operands leave every reachable accumulator alone, so a longer `K` whose new columns are
zero leaves every output alone. -/
theorem zero_chunks_are_noops :
    (∀ F, F ∈ cofdaF ∨ F ∈ gdfsF → ∀ c, ReachableAcc F c → ∀ eZero ≤ -126, ∀ zeros : List Operand,
      (∀ o ∈ zeros, o.Zero) → chunkedAccumulate F eZero zeros c = c) ∧
    (∀ (launch : Fp8Launch) (args args' : Fp8Args), args.AppendsZeros args' →
      ∀ smem smem', ∀ m < args.M, ∀ n < args.N,
        SameAccumulator (launch.stores args smem fun _ acc => acc)
          (launch.stores args' smem' fun _ acc => acc) (m * args.N + n)) ∧
    ∀ (launch : Fp4Launch) (args args' : Fp4Args) (sf sf' : LinearScales),
      Fp4Args.AppendsZeros launch.fmt args args' sf sf' →
      args.K % launch.alignment = 0 → args'.K % launch.alignment = 0 →
      HoldsScales launch.fmt.blockSize args sf → HoldsScales launch.fmt.blockSize args' sf' →
      ∀ smem smem', ∀ m < args.A.rows, ∀ n < args.B.rows,
        SameAccumulator (launch.stores args smem fun _ acc => acc)
          (launch.stores args' smem' fun _ acc => acc) (m * args.B.rows + n) := by
  refine ⟨?_, ?_, ?_⟩
  · intro F hF c hc eZero hzero zeros hzeros
    exact zero_chunk_noop (le_of_mem_widths hF) hzero hc hzeros
  · intro launch args args' h smem smem' m hm n hn
    refine ⟨launch.flat args m n, mem_fp8_stores launch args smem _ hm hn, fun x => ?_⟩
    have hstored := mem_fp8_stores launch args' smem' (fun _ acc => acc) (m := m) (n := n)
      (by rwa [h.rows]) (by rwa [h.cols]) x
    rwa [h.cols, fp8_flat_appendsZeros launch h hm hn] at hstored
  · intro launch args args' sf sf' h hK hK' hsf hsf' smem smem' m hm n hn
    refine ⟨launch.flat args sf m n, ?_, ?_⟩
    · exact mem_positions (f := fun m n => launch.flat args sf m n)
        (fp4_stores_perm launch args hK hsf smem fun _ acc => acc) hm hn
    · intro x
      have hstored := mem_positions (f := fun m n => launch.flat args' sf' m n)
        (fp4_stores_perm launch args' hK' hsf' smem' fun _ acc => acc) (m := m) (n := n)
        (by rwa [h.a.rows]) (by rwa [h.b.rows]) x
      rwa [h.b.rows, fp4_flat_appendsZeros launch h hK hK' hm hn] at hstored

/-- One row and one column of ones, followed by zeros of both signs. -/
def onesThenZeros (K : ℕ) : Fp8Args where
  M := 1
  N := 1
  K := K
  A := fun i => if i < 3 then 0x38#8 else 0x80#8
  B := fun i => if i < 3 then 0x38#8 else 0x00#8
  sched := fun _ _ _ => .inOrder

lemma onesThenZeros_appendsZeros {K : ℕ} (hK : 3 ≤ K) :
    (onesThenZeros 3).AppendsZeros (onesThenZeros K) where
  rows := rfl
  cols := rfl
  longer := hK
  a_kept m hm k hk := by
    obtain rfl : m = 0 := Nat.lt_one_iff.mp hm
    simp only [Nat.zero_mul]
    rfl
  b_kept n hn k hk := by
    obtain rfl : n = 0 := Nat.lt_one_iff.mp hn
    simp only [Nat.zero_mul]
    rfl
  a_zero m hm k hlow hhigh := by
    obtain rfl : m = 0 := Nat.lt_one_iff.mp hm
    have hk : ¬ 0 * K + k < 3 := by
      change 3 ≤ k at hlow
      omega
    change (if 0 * K + k < 3 then 0x38#8 else 0x80#8) &&& 0x7F#8 = 0#8
    rw [if_neg hk]
    rfl
  b_zero n hn k hlow hhigh := by
    obtain rfl : n = 0 := Nat.lt_one_iff.mp hn
    have hk : ¬ k + 0 * K < 3 := by
      change 3 ≤ k at hlow
      omega
    change (if k + 0 * K < 3 then 0x38#8 else 0x00#8) &&& 0x7F#8 = 0#8
    rw [if_neg hk]
    rfl

/-- One row and one column of half a tile of ones, followed by zeros. -/
def halfTileThenZeros (K : ℕ) : Fp4Args where
  K := K
  A := ⟨1, fun i => if i < 16 then 0x22#8 else 0x80#8, fun _ => 0x38#8⟩
  B := ⟨1, fun i => if i < 16 then 0x22#8 else 0x08#8, fun _ => 0x38#8⟩
  sched := fun _ _ _ => .inOrder

def unitScales : LinearScales := ⟨fun _ _ => 0x38#8, fun _ _ => 0x38#8⟩

lemma packedRow_appendsZeros {K : ℕ} (hK : 32 ≤ K) {tail sf : Byte}
    (htail : IsZeroNibble (tail &&& 0x0F#8) ∧ IsZeroNibble (tail >>> 4))
    (hsf : nvfp4.isNan sf = false) :
    PackedOperand.AppendsZeros nvfp4 32 K ⟨1, fun i => if i < 16 then 0x22#8 else tail, fun _ => sf⟩
      ⟨1, fun i => if i < 16 then 0x22#8 else tail, fun _ => sf⟩ (fun _ _ => sf) fun _ _ => sf where
  rows := rfl
  elem_kept m hm k hk := by
    obtain rfl : m = 0 := Nat.lt_one_iff.mp hm
    rw [PackedOperand.elem, PackedOperand.elem, if_pos hk, if_pos (by omega), Nat.zero_mul,
      Nat.zero_mul]
  scale_kept _ _ _ _ := rfl
  elem_zero m hm k hlow hhigh := by
    obtain rfl : m = 0 := Nat.lt_one_iff.mp hm
    have hk : ¬ 0 * (K / 2) + k / 2 < 16 := by omega
    rw [PackedOperand.elem, if_pos hhigh]
    change IsZeroNibble (nibble (if 0 * (K / 2) + k / 2 < 16 then 0x22#8 else tail) k)
    rw [if_neg hk, nibble]
    split
    · exact htail.1
    · exact htail.2
  scale_zero _ _ _ _ _ := hsf

/-- The smallest subnormal survives a chunk of zeros at three bits; columns that fill a second
tile change neither an FP8 output nor an NVFP4 output. -/
theorem zero_chunks_are_noops_subnormal :
    chunkedAccumulate 3 (-133) [makeZeroOperand, makeZeroOperand]
        (chunkedAccumulate 3 (-133) [⟨1, -149, 8, false, false, false⟩] 0#32) =
      chunkedAccumulate 3 (-133) [⟨1, -149, 8, false, false, false⟩] 0#32 ∧
    SameAccumulator
      ((Fp8Launch.gdfs 25 32 16 (by decide) (by decide) (by decide)).stores (onesThenZeros 3)
        (fun _ _ => ⟨fun _ => 0#32, fun _ => 0#32⟩) fun _ acc => acc)
      ((Fp8Launch.gdfs 25 32 16 (by decide) (by decide) (by decide)).stores (onesThenZeros 50)
        (fun _ _ => ⟨fun _ => 0#32, fun _ => 0#32⟩) fun _ acc => acc) (0 * 1 + 0) ∧
    SameAccumulator
      ((Fp4Launch.nvfp4Cofda 25 (by decide)).stores (halfTileThenZeros 32)
        (fun _ _ => (⟨fun _ => 0#8, fun _ => 0#8⟩, ⟨fun _ => 0#8, fun _ => 0#8⟩)) fun _ acc => acc)
      ((Fp4Launch.nvfp4Cofda 25 (by decide)).stores (halfTileThenZeros 96)
        (fun _ _ => (⟨fun _ => 0#8, fun _ => 0#8⟩, ⟨fun _ => 0#8, fun _ => 0#8⟩)) fun _ acc => acc)
      (0 * 1 + 0) := by
  refine ⟨?_, ?_, ?_⟩
  · exact zero_chunks_are_noops.1 3 (Or.inl (by decide)) _ (.returned _ _ _) (-133) (by norm_num) _
      (by simp [zero_makeZeroOperand])
  · exact zero_chunks_are_noops.2.1 _ _ _ (onesThenZeros_appendsZeros (by norm_num)) _ _ 0
      (by decide) 0 (by decide)
  · refine zero_chunks_are_noops.2.2 (Fp4Launch.nvfp4Cofda 25 (by decide)) (halfTileThenZeros 32)
      (halfTileThenZeros 96) unitScales unitScales ?_ rfl rfl ⟨fun _ _ _ _ => rfl, fun _ _ _ _ => rfl⟩
      ⟨fun _ _ _ _ => rfl, fun _ _ _ _ => rfl⟩ _ _ 0 (by decide) 0 (by decide)
    exact ⟨by decide, packedRow_appendsZeros (by decide) ⟨rfl, rfl⟩ rfl,
      packedRow_appendsZeros (by decide) ⟨rfl, rfl⟩ rfl⟩

end MmaEmu
