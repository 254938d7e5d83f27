import VllmMmaEmu.Gemm.GridRuns
import VllmMmaEmu.Semantics.Reference

/-!
# Reference semantics of the NVFP4 and MXFP4 GEMM

The flat definition of an output works on elements and on linear scale
matrices: element `k` of a row has the scale of block `k / blockSize`. The four
kernels store every output once, with the accumulator of the flat definition.
-/

namespace MmaEmu

open Simt Binary32 FusedSum

/-- Linear scale matrices of the two operands. -/
structure LinearScales where
  a : ℕ → ℕ → Byte
  b : ℕ → ℕ → Byte

/-- Scale of element `k` of row `m`; zero past the end. -/
def scaleAt (K blockSize : ℕ) (linear : ℕ → ℕ → Byte) (m k : ℕ) : Byte :=
  if k < K then linear m (k / blockSize) else 0#8

section Flat
variable (fmt : BlockFormat) (args : Fp4Args) (sf : LinearScales) (m n : ℕ)

/-- The group of `GS` elements from `start` on, with its scales. -/
def fp4GroupAt (F G GS start : ℕ) : Operand :=
  fmt.groupOperand F G
    (fp4GdfsGroupAccumulatePredecoded G GS
      (encodeFp4Row fun i => args.A.elem args.K m (start + i))
      (encodeFp4Row fun i => args.B.elem args.K n (start + i)))
    (scaleAt args.K fmt.blockSize sf.a m start) (scaleAt args.K fmt.blockSize sf.b n start)

/-- The product of elements `k`, with its scales. -/
def fp4ProductAt (F k : ℕ) : Operand :=
  if k < args.K then
    fmt.productWithScales F (decomposeFp4E2m1 (args.A.elem args.K m k))
      (decomposeFp4E2m1 (args.B.elem args.K n k)) (sf.a m (k / fmt.blockSize))
      (sf.b n (k / fmt.blockSize))
  else makeZeroOperand

def fp4GdfsFlat (F G GS : ℕ) : Fp32 :=
  (List.range ((args.K + 64 - 1) / 64)).foldl
    (fun acc t => gdfsAccumulateTile F
      ((List.range (64 / GS)).map fun g => fp4GroupAt fmt args sf m n F G GS (t * 64 + g * GS)) acc)
    0#32

def fp4CofdaFlat (F CS : ℕ) : Fp32 :=
  (List.range ((args.K + CS - 1) / CS)).foldl
    (fun acc j => chunkedAccumulate F (-133)
      ((List.range CS).map fun i => fp4ProductAt fmt args sf m n F (j * CS + i)) acc) 0#32

end Flat

/-- The flat definition of output `(m, n)`. -/
def Fp4Launch.flat (args : Fp4Args) (sf : LinearScales) (m n : ℕ) : Fp4Launch → Fp32
  | nvfp4Gdfs F G _ _ => fp4GdfsFlat nvfp4 args sf m n F G 16
  | nvfp4Cofda F _ => fp4CofdaFlat nvfp4 args sf m n F 16
  | mxfp4Gdfs F G GS _ _ _ => fp4GdfsFlat mxfp4 args sf m n F G GS
  | mxfp4Cofda F CS _ _ => fp4CofdaFlat mxfp4 args sf m n F CS

/-- The kernels get the swizzled form of the linear scales. -/
structure HoldsScales (blockSize : ℕ) (args : Fp4Args) (sf : LinearScales) : Prop where
  a : IsSwizzledForm args.A.rows (args.K / blockSize) sf.a args.A.sf
  b : IsSwizzledForm args.B.rows (args.K / blockSize) sf.b args.B.sf

lemma fp4GdfsGroupAccumulatePredecoded_congr {G GS : ℕ} {a a' b b' : ℕ → BitVec 32}
    (ha : ∀ i < GS, a i = a' i) (hb : ∀ i < GS, b i = b' i) :
    fp4GdfsGroupAccumulatePredecoded G GS a b = fp4GdfsGroupAccumulatePredecoded G GS a' b' := by
  rw [fp4GdfsGroupAccumulatePredecoded, fp4GdfsGroupAccumulatePredecoded,
    groupAccumulateStreamed_eq, groupAccumulateStreamed_eq]
  congr 1
  apply List.map_congr_left
  intro i hi
  have hlt := List.mem_range.mp hi
  rw [fp4FragProduct, ha i hlt, hb i hlt, fp4FragProduct]

/-- Block sizes of the two formats, and what they divide. -/
structure BlockSized (blockSize K : ℕ) : Prop where
  pos : 0 < blockSize
  dvd_tile : blockSize ∣ 64
  dvd : blockSize ∣ K
  even : K % 2 = 0

lemma loadScales_eq_scaleAt {op : PackedOperand} {blockSize K tileRows blockStart r i : ℕ}
    (kt : ℕ) (hblk : BlockSized blockSize K) {linear : ℕ → ℕ → Byte}
    (hsf : IsSwizzledForm op.rows (K / blockSize) linear op.sf) (hr : r < tileRows)
    (hrow : blockStart + r < op.rows) (hi : i < 64) (sched : Schedule) (sfS : ℕ → Byte) :
    op.loadScales nvfp4EmuConfig blockSize K tileRows sched blockStart kt sfS
        (r * (64 / blockSize) + i / blockSize) =
      scaleAt K blockSize linear (blockStart + r) (kt * 64 + i) := by
  have hj : i / blockSize < 64 / blockSize := Nat.div_lt_div_of_lt_of_dvd hblk.dvd_tile hi
  have hindex : (kt * 64 + i) / blockSize = kt * (64 / blockSize) + i / blockSize := by
    obtain ⟨q, hq⟩ := hblk.dvd_tile
    rw [hq, Nat.mul_div_cancel_left q hblk.pos, Nat.mul_left_comm, Nat.mul_add_div hblk.pos]
  have hin : (kt * 64 + i) / blockSize < K / blockSize ↔ kt * 64 + i < K := by
    obtain ⟨q, rfl⟩ := hblk.dvd
    rw [Nat.mul_div_cancel_left q hblk.pos, Nat.div_lt_iff_lt_mul hblk.pos, Nat.mul_comm q]
  rw [op.loadScales_eq kt hr hrow hj, ceil_of_dvd hblk.pos hblk.dvd, ← hindex, scaleAt]
  by_cases hk : kt * 64 + i < K
  · rw [if_pos (hin.mpr hk), if_pos hk]
    exact (isSwizzledForm_iff hblk.pos hblk.dvd).mp hsf _ hrow _ (hin.mpr hk)
  · rw [if_neg (mt hin.mp hk), if_neg hk]

section Refinement
variable {fmt : BlockFormat} {args : Fp4Args} {sf : LinearScales}
  (hblk : BlockSized fmt.blockSize args.K) (hsf : HoldsScales fmt.blockSize args sf)
include hblk hsf

lemma fp4GdfsKernel_computes {F G GS : ℕ} (hGS : 0 < GS) (hdvd : GS ∣ fmt.blockSize) :
    (fp4GdfsKernel fmt nvfp4EmuConfig F G GS args).Computes args.A.rows args.B.rows
      fun m n t acc => gdfsAccumulateTile F
        ((List.range (64 / GS)).map fun g => fp4GroupAt fmt args sf m n F G GS (t * 64 + g * GS))
        acc := by
  intro blockM blockN localM localN t hm hn hrow hcol _ smem acc
  have hgroups : ∀ g < 64 / GS, g * GS + GS ≤ 64 ∧ g / (fmt.blockSize / GS) = g * GS / fmt.blockSize := by
    intro g hg
    constructor
    · calc g * GS + GS = (g + 1) * GS := by ring
        _ ≤ 64 / GS * GS := Nat.mul_le_mul_right GS hg
        _ ≤ 64 := Nat.div_mul_le_self 64 GS
    · obtain ⟨q, hq⟩ := hdvd
      rw [hq, Nat.mul_div_cancel_left q hGS, Nat.mul_comm g GS, Nat.mul_div_mul_left _ _ hGS]
  refine (if_neg (by omega)).trans ?_
  refine congrArg (gdfsAccumulateTile F · acc) (List.map_congr_left fun g hg => ?_)
  obtain ⟨hend, hscale⟩ := hgroups g (List.mem_range.mp hg)
  dsimp only
  rw [hscale, fp4GroupAt]
  congr 1
  · apply fp4GdfsGroupAccumulatePredecoded_congr
    · intro i hi
      refine (args.A.loadDecodedTile_elems t hblk.even fmt.blockSize hm hrow
        (show g * GS + i < 64 by omega) _ _).trans ?_
      rw [encodeFp4Row, encodeFp4Row, Nat.add_assoc]
    · intro i hi
      refine (args.B.loadDecodedTile_elems t hblk.even fmt.blockSize hn hcol
        (show g * GS + i < 64 by omega) _ _).trans ?_
      rw [encodeFp4Row, encodeFp4Row, Nat.add_assoc]
  · exact loadScales_eq_scaleAt t hblk hsf.a hm hrow (by omega) _ _
  · exact loadScales_eq_scaleAt t hblk hsf.b hn hcol (by omega) _ _

lemma fp4ChunkOperand_loaded {F blockM blockN localM localN k : ℕ} (t : ℕ) (hm : localM < 32)
    (hn : localN < 8) (hrow : blockM + localM < args.A.rows) (hcol : blockN + localN < args.B.rows)
    (hk : k < 64) (sched : Schedule) (smem : Fp4Tile Byte × Fp4Tile Byte) :
    fp4ChunkOperand fmt nvfp4EmuConfig F (min 64 (args.K - t * 64)) localM localN k
        (args.A.loadPackedTile nvfp4EmuConfig fmt.blockSize args.K 32 sched blockM t smem.1,
          args.B.loadPackedTile nvfp4EmuConfig fmt.blockSize args.K 8 sched blockN t smem.2) =
      fp4ProductAt fmt args sf (blockM + localM) (blockN + localN) F (t * 64 + k) := by
  have hin : k < min 64 (args.K - t * 64) ↔ t * 64 + k < args.K := by omega
  rw [fp4ChunkOperand, fp4ProductAt]
  by_cases hlt : t * 64 + k < args.K
  · have hsfa := loadScales_eq_scaleAt t hblk hsf.a hm hrow hk sched smem.1.sfS
    have hsfb := loadScales_eq_scaleAt t hblk hsf.b hn hcol hk sched smem.2.sfS
    rw [scaleAt, if_pos hlt] at hsfa hsfb
    rw [if_pos (hin.mpr hlt), if_pos hlt, ← hsfa, ← hsfb,
      ← args.A.loadFp4FromTile_loadPackedTile t hblk.even fmt.blockSize hm hrow hk sched smem.1,
      ← args.B.loadFp4FromTile_loadPackedTile t hblk.even fmt.blockSize hn hcol hk sched smem.2]
    rfl
  · rw [if_neg (mt hin.mp hlt), if_neg hlt]

lemma fp4CofdaKernel_computes {F CS : ℕ} (hCS : 0 < CS) (hdvd : CS ∣ 64) :
    (fp4CofdaKernel fmt nvfp4EmuConfig F CS args).Computes args.A.rows args.B.rows
      fun m n t acc => (stepLoop (min 64 (args.K - t * 64)) CS).foldl
        (fun acc start => chunkedAccumulate F (-133)
          ((List.range CS).map fun i => fp4ProductAt fmt args sf m n F (t * 64 + start + i)) acc)
        acc := by
  intro blockM blockN localM localN t hm hn hrow hcol _ smem acc
  refine (if_neg (by omega)).trans ?_
  apply List.foldl_ext
  intro acc start hstart
  have hend := add_le_of_mem_stepLoop hCS hdvd (min_le_left _ _) hstart
  refine congrArg (chunkedAccumulate F (-133) · acc) (List.map_congr_left fun i hi => ?_)
  have hlt := List.mem_range.mp hi
  rw [Nat.add_assoc (t * 64)]
  exact fp4ChunkOperand_loaded hblk hsf t hm hn hrow hcol (by omega) _ smem

end Refinement

lemma fp4CofdaFlat_eq (fmt : BlockFormat) (args : Fp4Args) (sf : LinearScales) (m n F : ℕ) {CS : ℕ}
    (hCS : 0 < CS) (hdvd : CS ∣ 64) :
    (List.range ((args.K + 64 - 1) / 64)).foldl
        (fun acc t => (stepLoop (min 64 (args.K - t * 64)) CS).foldl
          (fun acc start => chunkedAccumulate F (-133)
            ((List.range CS).map fun i => fp4ProductAt fmt args sf m n F (t * 64 + start + i)) acc)
          acc) 0#32 =
      fp4CofdaFlat fmt args sf m n F CS := by
  have hloop := foldl_stepLoop hCS hdvd (by norm_num) (fun acc start => chunkedAccumulate F (-133)
    ((List.range CS).map fun i => fp4ProductAt fmt args sf m n F (start + i)) acc) args.K 0#32
  rw [stepLoop_eq args.K 64, stepLoop_eq args.K CS, List.foldl_map, List.foldl_map] at hloop
  exact hloop

lemma Fp4Launch.blockSized (launch : Fp4Launch) {K : ℕ} (hK : K % launch.alignment = 0) :
    BlockSized launch.fmt.blockSize K := by
  have h16 : K % 32 = 0 → BlockSized 16 K := fun h =>
    ⟨by norm_num, by norm_num, by omega, by omega⟩
  have h32 : K % 64 = 0 → BlockSized 32 K := fun h =>
    ⟨by norm_num, by norm_num, by omega, by omega⟩
  cases launch with
  | nvfp4Gdfs => exact h16 hK
  | nvfp4Cofda => exact h16 hK
  | mxfp4Gdfs => exact h32 hK
  | mxfp4Cofda => exact h32 hK

lemma dvd_of_mem_mxfp4Gs {GS : ℕ} (hGS : GS ∈ mxfp4Gs) : 0 < GS ∧ GS ∣ 32 := by
  revert GS
  decide

lemma dvd_of_mem_mxfp4Cs {CS : ℕ} (hCS : CS ∈ mxfp4Cs) : 0 < CS ∧ CS ∣ 64 := by
  revert CS
  decide

lemma fp4_computes (launch : Fp4Launch) (args : Fp4Args) (hK : args.K % launch.alignment = 0)
    {sf : LinearScales} (hsf : HoldsScales launch.fmt.blockSize args sf) :
    ∃ tile : ℕ → ℕ → ℕ → Fp32 → Fp32,
      (launch.kernel args).Computes args.A.rows args.B.rows tile ∧
      ∀ m n, (List.range ((args.K + 64 - 1) / 64)).foldl (fun acc t => tile m n t acc) 0#32 =
        launch.flat args sf m n := by
  have hblk := launch.blockSized hK
  cases launch with
  | nvfp4Gdfs F G _ _ =>
    exact ⟨_, fp4GdfsKernel_computes hblk hsf (by norm_num) (dvd_refl 16), fun _ _ => rfl⟩
  | nvfp4Cofda F _ =>
    exact ⟨_, fp4CofdaKernel_computes hblk hsf (by norm_num) (by norm_num),
      fun m n => fp4CofdaFlat_eq nvfp4 args sf m n F (by norm_num) (by norm_num)⟩
  | mxfp4Gdfs F G GS _ _ hGS =>
    obtain ⟨hpos, hdvd⟩ := dvd_of_mem_mxfp4Gs hGS
    exact ⟨_, fp4GdfsKernel_computes hblk hsf hpos hdvd, fun _ _ => rfl⟩
  | mxfp4Cofda F CS _ hCS =>
    obtain ⟨hpos, hdvd⟩ := dvd_of_mem_mxfp4Cs hCS
    exact ⟨_, fp4CofdaKernel_computes hblk hsf hpos hdvd,
      fun m n => fp4CofdaFlat_eq mxfp4 args sf m n F hpos hdvd⟩

lemma fp4_stores_perm {β : Type} (launch : Fp4Launch) (args : Fp4Args)
    (hK : args.K % launch.alignment = 0) {sf : LinearScales}
    (hsf : HoldsScales launch.fmt.blockSize args sf) (smem : ℕ → ℕ → launch.Shared)
    (epilogue : ℕ → Fp32 → β) :
    (launch.stores args smem epilogue).Perm
      ((List.range args.A.rows ×ˢ List.range args.B.rows).map fun p =>
        (p.1 * args.B.rows + p.2, epilogue p.2 (launch.flat args sf p.1 p.2))) := by
  obtain ⟨tile, hcomputes, hflat⟩ := fp4_computes launch args hK hsf
  have hperm := outputStores_perm hcomputes smem epilogue
  have hloop : (launch.kernel args).kLoop = List.range ((args.K + 64 - 1) / 64) := by
    cases launch <;> rfl
  simp only [hloop, hflat] at hperm
  exact hperm

/-- The stores assign every output once and nothing else, from the accumulator of the flat
definition. -/
structure Fp4Launch.StoresFlat {β : Type} (launch : Fp4Launch) (args : Fp4Args) (sf : LinearScales)
    (epilogue : ℕ → Fp32 → β) (stores : List (ℕ × β)) : Prop where
  values : stores.Perm ((List.range args.A.rows ×ˢ List.range args.B.rows).map fun p =>
    (p.1 * args.B.rows + p.2, epilogue p.2 (launch.flat args sf p.1 p.2)))
  addresses : (stores.map Prod.fst).Perm (List.range (args.A.rows * args.B.rows))

lemma fp4_stores_flat {β : Type} (launch : Fp4Launch) (args : Fp4Args)
    (hK : args.K % launch.alignment = 0) {sf : LinearScales}
    (hsf : HoldsScales launch.fmt.blockSize args sf) (smem : ℕ → ℕ → launch.Shared)
    (epilogue : ℕ → Fp32 → β) :
    launch.StoresFlat args sf epilogue (launch.stores args smem epilogue) := by
  have hperm := fp4_stores_perm launch args hK hsf smem epilogue
  exact ⟨hperm, addresses_perm (f := fun m n => epilogue n (launch.flat args sf m n)) hperm⟩

lemma fp4_nil_storesFlat_iff {β : Type} (launch : Fp4Launch) (args : Fp4Args) (sf : LinearScales)
    (epilogue : ℕ → Fp32 → β) :
    launch.StoresFlat args sf epilogue [] ↔ args.A.rows = 0 ∨ args.B.rows = 0 := by
  constructor
  · intro h
    have hnil := List.nil_perm.mp h.addresses
    exact Nat.mul_eq_zero.mp (List.range_eq_nil.mp hnil)
  · rintro (h | h) <;> exact ⟨by simp [h], by simp [h]⟩

/-- A launch of one of the four kernels refines the flat definition if and only if its sizes are in
range. -/
theorem fp4_gemm_refines_flat_iff {β : Type} (launch : Fp4Launch) (args : Fp4Args)
    (hK : args.K % launch.alignment = 0) (sf : LinearScales)
    (hsf : HoldsScales launch.fmt.blockSize args sf) (smem : ℕ → ℕ → launch.Shared)
    (epilogue : ℕ → Fp32 → β) :
    (∃ stores, launch.run args smem epilogue = some stores ∧
        launch.StoresFlat args sf epilogue stores) ↔
      HostInRange args.A.rows args.B.rows args.K ∧ (args.A.rows = 0 ∨ args.B.rows = 0 ∨
        Fp4InRange launch.fmt.blockSize args.A.rows args.B.rows args.K) := by
  rw [launch.exists_run_iff (launch.blockSized hK).dvd smem epilogue
      (fp4_nil_storesFlat_iff launch args sf epilogue),
    and_iff_left (fp4_stores_flat launch args hK hsf smem epilogue)]

/-- The scales the kernels read, as linear matrices. -/
def readScales (blockSize : ℕ) (args : Fp4Args) : LinearScales where
  a := fun m kb => Swizzle.readScale blockSize args.A.sf m kb args.K
  b := fun n kb => Swizzle.readScale blockSize args.B.sf n kb args.K

lemma holdsScales_readScales {blockSize : ℕ} {args : Fp4Args} (hblk : BlockSized blockSize args.K) :
    HoldsScales blockSize args (readScales blockSize args) where
  a := (isSwizzledForm_iff hblk.pos hblk.dvd).mpr fun _ _ _ _ => rfl
  b := (isSwizzledForm_iff hblk.pos hblk.dvd).mpr fun _ _ _ _ => rfl

/-- One row and one column that fill half a tile, with constant elements and scales. -/
def halfTileArgs (elems scale : Byte) : Fp4Args where
  K := 32
  A := ⟨1, fun _ => elems, fun _ => scale⟩
  B := ⟨1, fun _ => elems, fun _ => scale⟩
  sched := fun _ _ _ => .inOrder

/-- Thirty-two products of one, at Blackwell's widths. -/
theorem fp4_gemm_refines_flat_iff_half_tile :
    (∃ stores, (Fp4Launch.nvfp4Gdfs 35 6 (by decide) (by decide)).run (halfTileArgs 0x22#8 0x38#8)
        (fun _ _ => (⟨fun _ => 0#32, fun _ => 0#8⟩, ⟨fun _ => 0#32, fun _ => 0#8⟩))
        (fun _ acc => acc) = some stores ∧
      (Fp4Launch.nvfp4Gdfs 35 6 (by decide) (by decide)).StoresFlat (halfTileArgs 0x22#8 0x38#8)
        ⟨fun _ _ => 0x38#8, fun _ _ => 0x38#8⟩ (fun _ acc => acc) stores) ∧
    (Fp4Launch.nvfp4Gdfs 35 6 (by decide) (by decide)).flat (halfTileArgs 0x22#8 0x38#8)
      ⟨fun _ _ => 0x38#8, fun _ _ => 0x38#8⟩ 0 0 = 0x42000000#32 :=
  ⟨(fp4_gemm_refines_flat_iff (Fp4Launch.nvfp4Gdfs 35 6 (by decide) (by decide))
    (halfTileArgs 0x22#8 0x38#8) rfl ⟨fun _ _ => 0x38#8, fun _ _ => 0x38#8⟩
    ⟨fun _ _ _ _ => rfl, fun _ _ _ _ => rfl⟩ _ fun _ acc => acc).mpr
      ⟨by decide, Or.inr (Or.inr (by decide))⟩, by decide +kernel⟩

/-- A matrix of `2^17` rows with `2^15` packed bytes each, and eight columns. -/
def tallArgs : Fp4Args where
  K := 65536
  A := ⟨131072, fun _ => 0x22#8, fun _ => 0x38#8⟩
  B := ⟨8, fun _ => 0x22#8, fun _ => 0x38#8⟩
  sched := fun _ _ _ => .inOrder

/-- The bytes of the last rows are past the range of the index. -/
theorem fp4_gemm_refines_flat_tall : ¬ ∃ stores,
    (Fp4Launch.nvfp4Gdfs 35 6 (by decide) (by decide)).run tallArgs
        (fun _ _ => (⟨fun _ => 0#32, fun _ => 0#8⟩, ⟨fun _ => 0#32, fun _ => 0#8⟩))
        (fun _ acc => acc) = some stores ∧
      (Fp4Launch.nvfp4Gdfs 35 6 (by decide) (by decide)).StoresFlat tallArgs
        ⟨fun _ _ => 0x38#8, fun _ _ => 0x38#8⟩ (fun _ acc => acc) stores := by
  intro h
  obtain ⟨-, hM | hN | ⟨hrange, -⟩⟩ := (Fp4Launch.exists_run_iff
    (.nvfp4Gdfs 35 6 (by decide) (by decide)) (by decide) _ _ (fp4_nil_storesFlat_iff _ _ _ _)).mp h
  · cases hM
  · cases hN
  · revert hrange
    decide

/-- Some block scale of the rows of an output is NaN. -/
def NanScale (fmt : BlockFormat) (K : ℕ) (sf : LinearScales) (m n : ℕ) : Prop :=
  ∃ kb < K / fmt.blockSize, fmt.isNan (sf.a m kb) = true ∨ fmt.isNan (sf.b n kb) = true

lemma fp4ProductAt_flags {fmt : BlockFormat} (law : fmt.Lawful) (hzero : fmt.isNan 0#8 = false)
    (args : Fp4Args) (sf : LinearScales) (m n F k : ℕ) :
    ((fp4ProductAt fmt args sf m n F k).isNan = true ↔
      fmt.isNan (scaleAt args.K fmt.blockSize sf.a m k) = true ∨
        fmt.isNan (scaleAt args.K fmt.blockSize sf.b n k) = true) ∧
      (fp4ProductAt fmt args sf m n F k).isInf = false := by
  rw [fp4ProductAt, scaleAt, scaleAt]
  by_cases hk : k < args.K
  · rw [if_pos hk, if_pos hk, if_pos hk, productWithScales_isNan law, Bool.or_eq_true]
    exact ⟨Iff.rfl, productWithScales_isInf law F _ _ _ _⟩
  · rw [if_neg hk, if_neg hk, if_neg hk, hzero]
    exact ⟨by simp [makeZeroOperand], rfl⟩

section Nan
variable {fmt : BlockFormat} (law : fmt.Lawful) (hzero : fmt.isNan 0#8 = false) {args : Fp4Args}
  (hblk : BlockSized fmt.blockSize args.K) (sf : LinearScales) (m n : ℕ)
include hzero hblk

lemma nanScale_iff_visits {T Q : ℕ} {visit : ℕ → ℕ → ℕ}
    (hvisit : ∀ k < args.K, fmt.blockSize ∣ k → ∃ t < T, ∃ i < Q, visit t i = k) :
    NanScale fmt args.K sf m n ↔ ∃ t ∈ List.range T, ∃ i < Q,
      fmt.isNan (scaleAt args.K fmt.blockSize sf.a m (visit t i)) = true ∨
        fmt.isNan (scaleAt args.K fmt.blockSize sf.b n (visit t i)) = true := by
  constructor
  · rintro ⟨kb, hkb, hnan⟩
    have hlt : kb * fmt.blockSize < args.K := by
      rw [Nat.mul_comm]
      exact (Nat.lt_div_iff_mul_lt' hblk.dvd kb).mp hkb
    obtain ⟨t, ht, i, hi, heq⟩ := hvisit _ hlt (Nat.dvd_mul_left _ _)
    refine ⟨t, List.mem_range.mpr ht, i, hi, ?_⟩
    rw [heq, scaleAt, scaleAt, if_pos hlt, Nat.mul_div_cancel kb hblk.pos, if_pos hlt]
    exact hnan
  · rintro ⟨t, -, i, -, hnan⟩
    have hlt : visit t i < args.K := by
      by_contra hge
      rw [scaleAt, scaleAt, if_neg hge, if_neg hge, hzero] at hnan
      simp at hnan
    rw [scaleAt, scaleAt, if_pos hlt, if_pos hlt] at hnan
    exact ⟨visit t i / fmt.blockSize, Nat.div_lt_div_of_lt_of_dvd hblk.dvd hlt, hnan⟩

include law

lemma fp4GdfsFlat_isNan_iff (F : ℕ) {G GS : ℕ} (hlow : 2 ≤ G) (hhigh : G ≤ 35)
    (hdvd : GS ∣ fmt.blockSize) :
    IsNan (fp4GdfsFlat fmt args sf m n F G GS) ↔ NanScale fmt args.K sf m n := by
  have hflags : ∀ start, (fp4GroupAt fmt args sf m n F G GS start).isNan =
      (fmt.isNan (scaleAt args.K fmt.blockSize sf.a m start) ||
        fmt.isNan (scaleAt args.K fmt.blockSize sf.b n start)) ∧
      (fp4GroupAt fmt args sf m n F G GS start).isInf = false := fun start =>
    groupOperand_flags law (maxExp_fp4GdfsGroupAccumulatePredecoded hlow hhigh GS _ _)
  have hvisit : ∀ k < args.K, fmt.blockSize ∣ k →
      ∃ t < (args.K + 64 - 1) / 64, ∃ g < 64 / GS, t * 64 + g * GS = k := by
    intro k hk hblock
    have hmod : GS ∣ k % 64 :=
      (Nat.dvd_mod_iff (hdvd.trans hblk.dvd_tile)).mpr (hdvd.trans hblock)
    refine ⟨k / 64, div_lt_ceil (by norm_num) hk, k % 64 / GS, ?_, ?_⟩
    · exact Nat.div_lt_div_of_lt_of_dvd (hdvd.trans hblk.dvd_tile) (Nat.mod_lt k (by norm_num))
    · rw [Nat.div_mul_cancel hmod, Nat.div_add_mod']
  have hstep := fun (acc : Fp32) (t : ℕ) =>
    chunkedAccumulate_map_isNan_iff F (-139) (64 / GS) acc fun g => (hflags (t * 64 + g * GS)).2
  simp only [hflags, Bool.or_eq_true] at hstep
  exact (foldl_zero_isNan_iff hstep _).trans (nanScale_iff_visits hzero hblk sf m n hvisit).symm

lemma fp4CofdaFlat_isNan_iff (F : ℕ) {CS : ℕ} (hCS : 0 < CS) :
    IsNan (fp4CofdaFlat fmt args sf m n F CS) ↔ NanScale fmt args.K sf m n := by
  have hflags := fp4ProductAt_flags law hzero args sf m n F
  have hvisit : ∀ k < args.K, fmt.blockSize ∣ k →
      ∃ j < (args.K + CS - 1) / CS, ∃ i < CS, j * CS + i = k := fun k hk _ =>
    ⟨k / CS, div_lt_ceil hCS hk, k % CS, Nat.mod_lt k hCS, Nat.div_add_mod' k CS⟩
  have hstep := fun (acc : Fp32) (j : ℕ) =>
    chunkedAccumulate_map_isNan_iff F (-133) CS acc fun i => (hflags (j * CS + i)).2
  simp only [hflags] at hstep
  exact (foldl_zero_isNan_iff hstep _).trans (nanScale_iff_visits hzero hblk sf m n hvisit).symm

end Nan

lemma fp4_flat_isNan_iff (launch : Fp4Launch) {args : Fp4Args}
    (hK : args.K % launch.alignment = 0) (sf : LinearScales) (m n : ℕ) :
    IsNan (launch.flat args sf m n) ↔ NanScale launch.fmt args.K sf m n := by
  have hblk := launch.blockSized hK
  cases launch with
  | nvfp4Gdfs F G _ hG =>
    obtain ⟨hlow, hhigh⟩ := le_of_mem_fp4G hG
    exact fp4GdfsFlat_isNan_iff nvfp4_lawful rfl hblk sf m n F (by omega) (by omega) (dvd_refl 16)
  | nvfp4Cofda F _ => exact fp4CofdaFlat_isNan_iff nvfp4_lawful rfl hblk sf m n F (by norm_num)
  | mxfp4Gdfs F G GS _ hG hGS =>
    obtain ⟨hlow, hhigh⟩ := le_of_mem_fp4G hG
    exact fp4GdfsFlat_isNan_iff mxfp4_lawful rfl hblk sf m n F (by omega) (by omega)
      (dvd_of_mem_mxfp4Gs hGS).2
  | mxfp4Cofda F CS _ hCS =>
    exact fp4CofdaFlat_isNan_iff mxfp4_lawful rfl hblk sf m n F (dvd_of_mem_mxfp4Cs hCS).1

/-- The accumulator of an output is NaN exactly when a block scale of its rows is NaN. -/
theorem fp4_nan_iff_scale_nan (launch : Fp4Launch) (args : Fp4Args)
    (hK : args.K % launch.alignment = 0) (smem : ℕ → ℕ → launch.Shared) {m n : ℕ}
    (hm : m < args.A.rows) (hn : n < args.B.rows) :
    ∃ acc, (∀ x, (m * args.B.rows + n, x) ∈ launch.stores args smem (fun _ acc => acc) ↔ x = acc) ∧
      (IsNan acc ↔ ∃ kb < args.K / launch.fmt.blockSize,
        launch.fmt.isNan (Swizzle.readScale launch.fmt.blockSize args.A.sf m kb args.K) = true ∨
        launch.fmt.isNan (Swizzle.readScale launch.fmt.blockSize args.B.sf n kb args.K) = true) := by
  have hsf := holdsScales_readScales (launch.blockSized hK)
  refine ⟨launch.flat args (readScales launch.fmt.blockSize args) m n, fun x => ?_,
    fp4_flat_isNan_iff launch hK (readScales launch.fmt.blockSize args) m n⟩
  exact mem_positions (f := fun m n => launch.flat args (readScales launch.fmt.blockSize args) m n)
    (fp4_stores_perm launch args hK hsf smem fun _ acc => acc) hm hn x

/-- A NaN scale over a block of zeros. -/
theorem fp4_nan_iff_scale_nan_zeros :
    ∃ acc, (∀ x, (0, x) ∈ (Fp4Launch.nvfp4Cofda 25 (by decide)).stores (halfTileArgs 0#8 0x7F#8)
      (fun _ _ => (⟨fun _ => 0#8, fun _ => 0#8⟩, ⟨fun _ => 0#8, fun _ => 0#8⟩)) (fun _ acc => acc) ↔
        x = acc) ∧ IsNan acc := by
  obtain ⟨acc, hstore, hnan⟩ := fp4_nan_iff_scale_nan (Fp4Launch.nvfp4Cofda 25 (by decide))
    (halfTileArgs 0#8 0x7F#8) rfl
    (fun _ _ => (⟨fun _ => 0#8, fun _ => 0#8⟩, ⟨fun _ => 0#8, fun _ => 0#8⟩))
    (show 0 < 1 by norm_num) (show 0 < 1 by norm_num)
  exact ⟨acc, hstore, hnan.mpr ⟨0, by decide, Or.inl (by decide)⟩⟩

end MmaEmu
