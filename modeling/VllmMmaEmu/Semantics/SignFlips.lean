import VllmMmaEmu.Core.OddSymmetry
import VllmMmaEmu.Semantics.Fp8Gemm
import VllmMmaEmu.Semantics.Fp4Gemm

/-!
# Sign flips of a row

Flipping the sign bits of a row of `A` opposes every product of the row, every
group sum and every scaled operand. The accumulators of the row follow chunk by
chunk.
-/

namespace MmaEmu

open Binary32

/-- Chunks of opposed operands keep accumulators opposed. -/
lemma foldl_negates {step step' : Fp32 → ℕ → Fp32}
    (hstep : ∀ j {acc acc' : Fp32}, Negates acc acc' → Negates (step acc j) (step' acc' j))
    (loop : List ℕ) {acc acc' : Fp32} (hacc : Negates acc acc') :
    Negates (loop.foldl step acc) (loop.foldl step' acc') := by
  induction loop generalizing acc acc' with
  | nil => exact hacc
  | cons j loop ih => exact ih (hstep j hacc)

lemma forall₂_map_range {α : Type} {R : α → α → Prop} {f g : ℕ → α} {n : ℕ}
    (h : ∀ i < n, R (f i) (g i)) : List.Forall₂ R ((List.range n).map f) ((List.range n).map g) := by
  rw [List.forall₂_map_left_iff, List.forall₂_map_right_iff, List.forall₂_same]
  exact fun i hi => h i (List.mem_range.mp hi)

lemma fp8Multiply_flip (F : ℕ) (a b : Byte) :
    Opposed (fp8Multiply F a b).toOperand (fp8Multiply F (a ^^^ 0x80#8) b).toOperand := by
  have hfields : ∀ a, let x := decomposeFp8E4m3 a
      let y := decomposeFp8E4m3 (a ^^^ 0x80#8)
      y.isNan = x.isNan ∧ y.isZero = x.isZero ∧ y.sig = x.sig ∧ y.exp = x.exp ∧ y.sign = -x.sign ∧
        x.sign ≠ 0 := by
    decide +kernel
  obtain ⟨hnan, hzero, hsig, hexp, hsign, hne⟩ := hfields a
  have hneb := (hfields b).2.2.2.2.2
  unfold fp8Multiply fp8MultiplyUnnormalized
  rw [hnan, hzero, hsig, hexp, hsign]
  split
  · exact opposed_self rfl rfl
  split
  · exact opposed_self rfl rfl
  · refine ⟨rfl, rfl, rfl, rfl, rfl, Or.inl ⟨mul_ne_zero hne hneb, ?_⟩⟩
    exact neg_mul _ _

lemma fp8GroupOperand_opposed (F G : ℕ) (gr : GroupResult) :
    Opposed (fp8GroupOperand F G gr) (fp8GroupOperand F G gr.neg) := by
  unfold fp8GroupOperand groupToOperandFp8
  have hflag : gr.neg.allZero = gr.allZero := rfl
  have hsum : gr.neg.mantissaSum = -gr.mantissaSum := rfl
  have hmax : gr.neg.maxExp = gr.maxExp := rfl
  rw [hflag, hsum, hmax]
  split
  · exact opposed_self rfl rfl
  by_cases hz : gr.mantissaSum = 0
  · rw [if_pos hz, if_pos (neg_eq_zero.mpr hz)]
    exact opposed_self rfl rfl
  rw [if_neg hz, if_neg (mt neg_eq_zero.mp hz)]
  rcases lt_or_gt_of_ne hz with hlt | hgt
  · simp only [if_pos hlt, if_neg (show ¬ -gr.mantissaSum < 0 by omega)]
    exact ⟨rfl, rfl, rfl, rfl, rfl, Or.inl (by norm_num)⟩
  · simp only [if_neg (show ¬ gr.mantissaSum < 0 by omega), if_pos (show -gr.mantissaSum < 0 by omega),
      neg_neg]
    exact ⟨rfl, rfl, rfl, rfl, rfl, Or.inl (by norm_num)⟩

namespace Fp8Args

variable (args : Fp8Args) (m : ℕ)

/-- The sign bit of every element of row `m` of `A` flipped. -/
def flipRow : Fp8Args :=
  { args with A := fun i => if m * args.K ≤ i ∧ i < (m + 1) * args.K then args.A i ^^^ 0x80#8
      else args.A i }

lemma paddedRow_flipRow (k : ℕ) : (args.flipRow m).paddedRow m k =
    if k < args.K then args.paddedRow m k ^^^ 0x80#8 else 0#8 := by
  by_cases hk : k < args.K
  · have hin : m * args.K ≤ m * args.K + k ∧ m * args.K + k < (m + 1) * args.K := by
      rw [Nat.add_mul]
      omega
    rw [if_pos hk, paddedRow, paddedRow, if_pos hk]
    exact (if_pos hk).trans (if_pos hin)
  · rw [if_neg hk]
    exact if_neg hk

lemma products_flipRow (F n start count : ℕ) :
    List.Forall₂ (fun p p' => Opposed p.toOperand p'.toOperand)
      (args.products F m n start count) ((args.flipRow m).products F m n start count) := by
  apply forall₂_map_range
  intro i _
  have hcol : (args.flipRow m).paddedCol n (start + i) = args.paddedCol n (start + i) := rfl
  rw [hcol, args.paddedRow_flipRow]
  split
  · exact fp8Multiply_flip F _ _
  · rename_i hk
    have hrow : args.paddedRow m (start + i) = 0#8 := if_neg hk
    have hzero : args.paddedCol n (start + i) = 0#8 := if_neg hk
    rw [hrow, hzero]
    exact opposed_self rfl rfl

end Fp8Args

lemma fp8_flat_flipRow (launch : Fp8Launch) (args : Fp8Args) (m n : ℕ) :
    Negates (launch.flat args m n) (launch.flat (args.flipRow m) m n) := by
  cases launch with
  | gdfs F G GS _ _ _ =>
    refine foldl_negates (fun t acc acc' hacc => ?_) _ .zero
    refine chunkedAccumulate_negates F (-139) hacc (forall₂_map_range fun g _ => ?_)
    rw [groupAccumulate_opposed (args.products_flipRow m G n (t * 32 + g * GS) GS)]
    exact fp8GroupOperand_opposed F G _
  | cofda F CS _ _ =>
    refine foldl_negates (fun j acc acc' hacc => ?_) _ .zero
    have hproducts := args.products_flipRow m F n (j * CS) CS
    refine chunkedAccumulate_negates F (-133) hacc ?_
    rwa [List.forall₂_map_left_iff, List.forall₂_map_right_iff]
  | cofdaDecoupled F CS _ _ =>
    refine foldl_negates (fun j acc acc' hacc => ?_) _ .zero
    exact cofdaDecoupledAccumulateProducts_negates F 23 hacc (args.products_flipRow m F n (j * CS) CS)

/-- The scale arithmetic of a format takes the sign from the elements. -/
structure BlockFormat.Odd (fmt : BlockFormat) : Prop where
  applyScales : ∀ F G ms e sfa sfb,
    Opposed (fmt.applyScales F G ms e sfa sfb) (fmt.applyScales F G (-ms) e sfa sfb)
  product : ∀ F (a a' b : FP4Components) sfa sfb, a'.isZero = a.isZero → a'.sig = a.sig →
    a'.exp = a.exp → a'.sign = -a.sign → a.sign ≠ 0 → b.sign ≠ 0 →
      Opposed (fmt.productWithScales F a b sfa sfb) (fmt.productWithScales F a' b sfa sfb)

lemma opposed_signMagnitude (ms e : ℤ) (f : ℤ → ℤ) (hf : f 0 = 0) :
    Opposed ⟨if ms < 0 then -1 else 1, e, f (if ms < 0 then -ms else ms), false, false, false⟩
      ⟨if -ms < 0 then -1 else 1, e, f (if -ms < 0 then - -ms else -ms), false, false, false⟩ := by
  rcases lt_trichotomy ms 0 with hlt | heq | hgt
  · simp only [if_pos hlt, if_neg (show ¬ -ms < 0 by omega)]
    exact ⟨rfl, rfl, rfl, rfl, rfl, Or.inl (by norm_num)⟩
  · subst heq
    exact opposed_self hf rfl
  · simp only [if_neg (show ¬ ms < 0 by omega), if_pos (show -ms < 0 by omega), neg_neg]
    exact ⟨rfl, rfl, rfl, rfl, rfl, Or.inl (by norm_num)⟩

lemma toRadix_zero (src dst : ℕ) : FixedPoint.toRadix src dst 0 = 0 := by
  rw [FixedPoint.toRadix_eq_quanta]
  simp

lemma nvfp4_odd : nvfp4.Odd where
  applyScales F G ms e sfa sfb := by
    change Opposed (applyUe4m3Scales F G ms e sfa sfb) (applyUe4m3Scales F G (-ms) e sfa sfb)
    unfold applyUe4m3Scales
    dsimp only
    split
    · exact opposed_self rfl rfl
    split
    · exact opposed_self rfl rfl
    · refine opposed_signMagnitude ms _ (fun s => FixedPoint.toRadix (G + 6) F
        ((s * (Ue4m3.sig (sfa &&& 0x7F#8) * Ue4m3.sig (sfb &&& 0x7F#8))) <<< e.toNat)) ?_
      rw [zero_mul, Int.zero_shiftLeft, toRadix_zero]
  product F a a' b sfa sfb hz hsig hexp hsign hne hneb := by
    change Opposed (fp4ProductWithUe4m3Scales F a b sfa sfb) (fp4ProductWithUe4m3Scales F a' b sfa sfb)
    unfold fp4ProductWithUe4m3Scales
    dsimp only
    rw [hz, hsig, hexp, hsign]
    split
    · exact opposed_self rfl rfl
    split
    · exact opposed_self rfl rfl
    · exact ⟨rfl, rfl, rfl, rfl, rfl, Or.inl ⟨mul_ne_zero hne hneb, neg_mul _ _⟩⟩

lemma mxfp4_odd : mxfp4.Odd where
  applyScales F G ms e sfa sfb := by
    change Opposed (applyE8m0Scales F G ms e sfa sfb) (applyE8m0Scales F G (-ms) e sfa sfb)
    unfold applyE8m0Scales
    dsimp only
    split
    · exact opposed_self rfl rfl
    · refine opposed_signMagnitude ms _ (fun s => FixedPoint.toRadix G F (s <<< e.toNat)) ?_
      rw [Int.zero_shiftLeft, toRadix_zero]
  product F a a' b sfa sfb hz hsig hexp hsign hne hneb := by
    change Opposed (fp4ProductWithE8m0Scales F a b sfa sfb) (fp4ProductWithE8m0Scales F a' b sfa sfb)
    unfold fp4ProductWithE8m0Scales
    dsimp only
    rw [hz, hsig, hexp, hsign]
    split
    · exact opposed_self rfl rfl
    split
    · exact opposed_self rfl rfl
    · exact ⟨rfl, rfl, rfl, rfl, rfl, Or.inl ⟨mul_ne_zero hne hneb, neg_mul _ _⟩⟩

/-- Flipping the sign bit of a nibble keeps everything else of the element. -/
lemma decomposeFp4E2m1_flip (a : Byte) :
    let x := decomposeFp4E2m1 a
    let y := decomposeFp4E2m1 (a ^^^ 0x8#8)
    y.isZero = x.isZero ∧ y.sig = x.sig ∧ y.exp = x.exp ∧ y.sign = -x.sign ∧ x.sign ≠ 0 := by
  revert a
  decide +kernel

lemma fp4MultiplyPredecoded_flip (G : ℕ) (a b : Byte) :
    Opposed (fp4MultiplyPredecoded G (decodeFp4Operand a) (decodeFp4Operand b)).toOperand
      (fp4MultiplyPredecoded G (decodeFp4Operand (a ^^^ 0x8#8)) (decodeFp4Operand b)).toOperand := by
  have hfields : ∀ a, let x := decodeFp4Operand a
      let y := decodeFp4Operand (a ^^^ 0x8#8)
      y.flags = x.flags ∧ y.sig = x.sig ∧ y.exp = x.exp ∧ y.sign.toInt = -x.sign.toInt ∧
        x.sign.toInt ≠ 0 := by
    decide +kernel
  obtain ⟨hflags, hsig, hexp, hsign, hne⟩ := hfields a
  have hneb := (hfields b).2.2.2.2
  unfold fp4MultiplyPredecoded
  dsimp only
  rw [hflags, hsig, hexp, hsign]
  split
  · exact opposed_self rfl rfl
  · exact ⟨rfl, rfl, rfl, rfl, rfl, Or.inl ⟨mul_ne_zero hne hneb, neg_mul _ _⟩⟩

lemma groupOperand_opposed {fmt : BlockFormat} (odd : fmt.Odd) (F G : ℕ) (gr : GroupResult)
    (sfa sfb : Byte) :
    Opposed (fmt.groupOperand F G gr sfa sfb) (fmt.groupOperand F G gr.neg sfa sfb) := by
  unfold BlockFormat.groupOperand
  have hflag : gr.neg.allZero = gr.allZero := rfl
  rw [hflag]
  split
  · exact opposed_self rfl rfl
  · exact odd.applyScales F G _ _ sfa sfb

namespace PackedOperand

variable (op : PackedOperand) (K m : ℕ)

/-- The sign bits of both elements of every byte of row `m` flipped. -/
def flipRow : PackedOperand :=
  { op with data := fun i => if m * (K / 2) ≤ i ∧ i < (m + 1) * (K / 2) then op.data i ^^^ 0x88#8
      else op.data i }

lemma nibble_flip (byte : Byte) (k : ℕ) : nibble (byte ^^^ 0x88#8) k = nibble byte k ^^^ 0x8#8 := by
  have hhalves : ∀ byte : Byte, (byte ^^^ 0x88#8) &&& 0x0F#8 = (byte &&& 0x0F#8) ^^^ 0x8#8 ∧
      (byte ^^^ 0x88#8) >>> 4 = (byte >>> 4) ^^^ 0x8#8 := by
    decide +kernel
  obtain ⟨hlow, hhigh⟩ := hhalves byte
  rw [nibble, nibble, hlow, hhigh]
  split <;> rfl

lemma elem_flipRow (hK : K % 2 = 0) (k : ℕ) :
    (op.flipRow K m).elem K m k = if k < K then op.elem K m k ^^^ 0x8#8 else 0#8 := by
  by_cases hk : k < K
  · have hin : m * (K / 2) ≤ m * (K / 2) + k / 2 ∧ m * (K / 2) + k / 2 < (m + 1) * (K / 2) := by
      rw [Nat.add_mul]
      omega
    have hbyte : (op.flipRow K m).data (m * (K / 2) + k / 2) =
        op.data (m * (K / 2) + k / 2) ^^^ 0x88#8 := if_pos hin
    rw [if_pos hk, elem, elem, if_pos hk, if_pos hk, hbyte, nibble_flip]
  · rw [if_neg hk, elem, if_neg hk]

end PackedOperand

/-- Row `m` of `A` with its sign bits flipped; `B` and all scales stay. -/
def Fp4Args.flipRow (args : Fp4Args) (m : ℕ) : Fp4Args :=
  { args with A := args.A.flipRow args.K m }

section
variable {fmt : BlockFormat} (odd : fmt.Odd) {args : Fp4Args} (hK : args.K % 2 = 0)
  (sf : LinearScales) (m n F : ℕ)
include odd hK

lemma fp4GroupAt_flipRow (G GS start : ℕ) :
    Opposed (fp4GroupAt fmt args sf m n F G GS start)
      (fp4GroupAt fmt (args.flipRow m) sf m n F G GS start) := by
  have hproducts : List.Forall₂ (fun p p' => Opposed p.toOperand p'.toOperand)
      ((List.range GS).map (fp4FragProduct G
        (encodeFp4Row fun i => args.A.elem args.K m (start + i))
        (encodeFp4Row fun i => args.B.elem args.K n (start + i))))
      ((List.range GS).map (fp4FragProduct G
        (encodeFp4Row fun i => (args.A.flipRow args.K m).elem args.K m (start + i))
        (encodeFp4Row fun i => args.B.elem args.K n (start + i)))) := by
    apply forall₂_map_range
    intro i _
    simp only [fp4FragProduct, encodeFp4Row, unpackDecodedFp4_packDecodedFp4]
    rw [args.A.elem_flipRow args.K m hK]
    split
    · exact fp4MultiplyPredecoded_flip G _ _
    · rename_i hk
      rw [PackedOperand.elem, if_neg hk]
      exact opposed_self rfl rfl
  have hgroup := groupAccumulate_opposed hproducts
  rw [fp4GroupAt, fp4GroupAt, fp4GdfsGroupAccumulatePredecoded, fp4GdfsGroupAccumulatePredecoded,
    groupAccumulateStreamed_eq, groupAccumulateStreamed_eq]
  change Opposed _ (fmt.groupOperand F G (groupAccumulate ((List.range GS).map (fp4FragProduct G
    (encodeFp4Row fun i => (args.A.flipRow args.K m).elem args.K m (start + i))
    (encodeFp4Row fun i => args.B.elem args.K n (start + i))))) _ _)
  rw [hgroup]
  exact groupOperand_opposed odd F G _ _ _

lemma fp4ProductAt_flipRow (k : ℕ) :
    Opposed (fp4ProductAt fmt args sf m n F k) (fp4ProductAt fmt (args.flipRow m) sf m n F k) := by
  unfold fp4ProductAt
  have hlen : (args.flipRow m).K = args.K := rfl
  rw [hlen]
  split
  · rename_i hk
    have helem : (args.flipRow m).A.elem args.K m k = args.A.elem args.K m k ^^^ 0x8#8 :=
      (args.A.elem_flipRow args.K m hK k).trans (if_pos hk)
    obtain ⟨hz, hsig, hexp, hsign, hne⟩ := decomposeFp4E2m1_flip (args.A.elem args.K m k)
    have hneb := (decomposeFp4E2m1_flip (args.B.elem args.K n k)).2.2.2.2
    rw [helem]
    exact odd.product F _ _ _ _ _ hz hsig hexp hsign hne hneb
  · exact opposed_self rfl rfl

lemma fp4GdfsFlat_flipRow (G GS : ℕ) :
    Negates (fp4GdfsFlat fmt args sf m n F G GS)
      (fp4GdfsFlat fmt (args.flipRow m) sf m n F G GS) := by
  refine foldl_negates (fun t acc acc' hacc => ?_) _ .zero
  exact chunkedAccumulate_negates F (-139) hacc
    (forall₂_map_range fun g _ => fp4GroupAt_flipRow odd hK sf m n F G GS _)

lemma fp4CofdaFlat_flipRow (CS : ℕ) :
    Negates (fp4CofdaFlat fmt args sf m n F CS) (fp4CofdaFlat fmt (args.flipRow m) sf m n F CS) := by
  refine foldl_negates (fun j acc acc' hacc => ?_) _ .zero
  exact chunkedAccumulate_negates F (-133) hacc
    (forall₂_map_range fun i _ => fp4ProductAt_flipRow odd hK sf m n F _)

end

lemma fp4_flat_flipRow (launch : Fp4Launch) {args : Fp4Args} (hK : args.K % launch.alignment = 0)
    (sf : LinearScales) (m n : ℕ) :
    Negates (launch.flat args sf m n) (launch.flat (args.flipRow m) sf m n) := by
  have heven := (launch.blockSized hK).even
  cases launch with
  | nvfp4Gdfs F G _ _ => exact fp4GdfsFlat_flipRow nvfp4_odd heven sf m n F G 16
  | nvfp4Cofda F _ => exact fp4CofdaFlat_flipRow nvfp4_odd heven sf m n F 16
  | mxfp4Gdfs F G GS _ _ _ => exact fp4GdfsFlat_flipRow mxfp4_odd heven sf m n F G GS
  | mxfp4Cofda F CS _ _ => exact fp4CofdaFlat_flipRow mxfp4_odd heven sf m n F CS

/-- One position holds accumulators of opposite sign in two lists of stores. -/
def OppositeAccumulators (stores stores' : List (ℕ × Fp32)) (address : ℕ) : Prop :=
  ∃ acc acc', (∀ x, (address, x) ∈ stores ↔ x = acc) ∧ (∀ x, (address, x) ∈ stores' ↔ x = acc') ∧
    Negates acc acc'

/-- Flipping the signs of a row of `A` negates the accumulators of the row, for every format and
every admitted width. -/
theorem flipRow_negates :
    (∀ (launch : Fp8Launch) (args : Fp8Args) (smem smem' : ℕ → ℕ → Fp8Shared),
      ∀ m < args.M, ∀ n < args.N,
        OppositeAccumulators (launch.stores args smem fun _ acc => acc)
          (launch.stores (args.flipRow m) smem' fun _ acc => acc) (m * args.N + n)) ∧
    ∀ (launch : Fp4Launch) (args : Fp4Args) (smem smem' : ℕ → ℕ → launch.Shared),
      args.K % launch.alignment = 0 → ∀ m < args.A.rows, ∀ n < args.B.rows,
        OppositeAccumulators (launch.stores args smem fun _ acc => acc)
          (launch.stores (args.flipRow m) smem' fun _ acc => acc) (m * args.B.rows + n) := by
  constructor
  · intro launch args smem smem' m hm n hn
    exact ⟨launch.flat args m n, launch.flat (args.flipRow m) m n,
      mem_fp8_stores launch args smem _ hm hn,
      mem_fp8_stores launch (args.flipRow m) smem' _ hm hn, fp8_flat_flipRow launch args m n⟩
  · intro launch args smem smem' hK m hm n hn
    have hsf := holdsScales_readScales (launch.blockSized hK)
    generalize readScales launch.fmt.blockSize args = sf at hsf
    refine ⟨launch.flat args sf m n, launch.flat (args.flipRow m) sf m n, ?_, ?_,
      fp4_flat_flipRow launch hK sf m n⟩
    · exact mem_positions (f := fun m n => launch.flat args sf m n)
        (fp4_stores_perm launch args hK hsf smem fun _ acc => acc) hm hn
    · exact mem_positions (f := fun m' n => launch.flat (args.flipRow m) sf m' n)
        (fp4_stores_perm launch (args.flipRow m) hK ⟨hsf.a, hsf.b⟩ smem' fun _ acc => acc) hm hn

/-- A row of ones against a column of ones. -/
def unitArgs : Fp8Args := { nanArgs with A := fun _ => 0x38#8 }

/-- The decoupled kernel at Hopper's widths, and Blackwell's NVFP4. -/
theorem flipRow_negates_units :
    OppositeAccumulators
      ((Fp8Launch.cofdaDecoupled 13 32 (by decide) (by decide)).stores unitArgs
        (fun _ _ => ⟨fun _ => 0#32, fun _ => 0#32⟩) fun _ acc => acc)
      ((Fp8Launch.cofdaDecoupled 13 32 (by decide) (by decide)).stores (unitArgs.flipRow 0)
        (fun _ _ => ⟨fun _ => 0#32, fun _ => 0#32⟩) fun _ acc => acc) (0 * 1 + 0) ∧
    OppositeAccumulators
      ((Fp4Launch.nvfp4Gdfs 35 6 (by decide) (by decide)).stores (halfTileArgs 0x22#8 0x38#8)
        (fun _ _ => (⟨fun _ => 0#32, fun _ => 0#8⟩, ⟨fun _ => 0#32, fun _ => 0#8⟩)) fun _ acc => acc)
      ((Fp4Launch.nvfp4Gdfs 35 6 (by decide) (by decide)).stores
        ((halfTileArgs 0x22#8 0x38#8).flipRow 0)
        (fun _ _ => (⟨fun _ => 0#32, fun _ => 0#8⟩, ⟨fun _ => 0#32, fun _ => 0#8⟩)) fun _ acc => acc)
      (0 * 1 + 0) :=
  ⟨flipRow_negates.1 _ unitArgs _ _ 0 (by decide) 0 (by decide),
    flipRow_negates.2 (Fp4Launch.nvfp4Gdfs 35 6 (by decide) (by decide)) (halfTileArgs 0x22#8 0x38#8)
      _ _ rfl 0 (by decide) 0 (by decide)⟩

end MmaEmu
