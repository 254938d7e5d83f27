import VllmMmaEmu.Formats.Fp8Datapath
import VllmMmaEmu.Formats.Fp4Datapath
import VllmMmaEmu.Semantics.Fp4Gemm

/-!
# The datapath of the kernels

Phase 2 of every kernel of the design space, with its words and shifts
recorded. The tiles hold arbitrary bytes, decoded on load where the kernel
decodes them, and the accumulator is arbitrary as well.
-/

namespace MmaEmu

open Tracing Simt

namespace Datapath

lemma safe_foldlM {α β : Type} {f : β → α → Steps β} {loop : List α} {b : β}
    (h : ∀ b x, Safe (f b x)) : Safe (loop.foldlM f b) :=
  all_foldlM fun _ x _ _ => h _ x

def fp8Accumulate (args : Fp8Args) (kTile : ℕ) (aRow bRow : ℕ → BitVec 32) (acc : Fp32) :
    Fp8Launch → Steps Fp32
  | .gdfs F G GS _ _ _ => fp8GdfsTile F G GS fp8EmuConfig.BK aRow bRow acc
  | .cofda F CS _ _ => (stepLoop fp8EmuConfig.BK CS).foldlM
      (fun acc kStart =>
        fp8CofdaMma F CS (-133) (fun i => aRow (kStart + i)) (fun i => bRow (kStart + i)) acc) acc
  | .cofdaDecoupled F CS _ _ => (stepLoop (min fp8EmuConfig.BK (args.K - kTile)) CS).foldlM
      (fun acc kStart =>
        fp8CofdaDecoupledChunk F CS (fun i => aRow (kStart + i)) (fun i => bRow (kStart + i)) acc)
      acc

def fp8Compute (launch : Fp8Launch) (args : Fp8Args) (kTile localM localN : ℕ) (smem : Fp8Shared)
    (acc : Fp32) : Steps Fp32 :=
  fp8Accumulate args kTile (fun i => smem.AsDec (localM * fp8EmuConfig.BKP + i))
    (fun i => smem.BsDec (localN * fp8EmuConfig.BKP + i)) acc launch

lemma result_fp8Compute (launch : Fp8Launch) (args : Fp8Args)
    (kTile localM localN outRow outCol : ℕ) (smem : Fp8Shared) (acc : Fp32) :
    result (fp8Compute launch args kTile localM localN smem acc) =
      (launch.kernel args).compute kTile localM localN outRow outCol smem acc := by
  cases launch with
  | gdfs F G GS hF hG hGS =>
    simp only [fp8Compute, fp8Accumulate, result_fp8GdfsTile]
    rfl
  | cofda F CS hF hCS =>
    simp only [fp8Compute, fp8Accumulate, result_foldlM, result_fp8CofdaMma]
    rfl
  | cofdaDecoupled F CS hF hCS =>
    simp only [fp8Compute, fp8Accumulate, result_foldlM, result_fp8CofdaDecoupledChunk]
    rfl

lemma safe_fp8Accumulate (launch : Fp8Launch) (args : Fp8Args) (kTile : ℕ) (a b : ℕ → Byte)
    (acc : Fp32) : Safe (fp8Accumulate args kTile (encodeRow a) (encodeRow b) acc launch) := by
  cases launch with
  | gdfs F G GS hF hG hGS =>
    have hF35 := (le_of_mem_gdfsF hF).2
    have hgroups : fp8EmuConfig.BK / GS ≤ 32 := Nat.div_le_self 32 GS
    exact safe_fp8GdfsTile hF35 (le_of_mem_fp8G hG) (le_of_mem_fp8Gs hGS).1 hgroups a b acc
  | cofda F CS hF hCS =>
    have hF35 : F ≤ 35 := (le_of_mem_cofdaF hF).2.trans (by norm_num)
    exact safe_foldlM fun acc kStart => safe_fp8CofdaMma hF35 (fun i => a (kStart + i))
      (fun i => b (kStart + i)) acc (dvd_of_mem_fp8Cs hCS).2.2 (-133)
  | cofdaDecoupled F CS hF hCS =>
    have hF35 : F ≤ 35 := (le_of_mem_cofdaF hF).2.trans (by norm_num)
    exact safe_foldlM fun acc kStart => safe_fp8CofdaDecoupledChunk hF35 (fun i => a (kStart + i))
      (fun i => b (kStart + i)) acc (dvd_of_mem_fp8Cs hCS).2.2

namespace ScaleSteps

variable {fmt : BlockFormat} (steps : ScaleSteps fmt) (cfg : TilingConfig) (args : Fp4Args)
  (kt localM localN outRow outCol : ℕ)

def gdfsCompute (F G GS : ℕ) (smem : Fp4Tile (BitVec 32) × Fp4Tile (BitVec 32)) (acc : Fp32) :
    Steps Fp32 :=
  if args.A.rows ≤ outRow ∨ args.B.rows ≤ outCol then return acc
  else
    steps.gdfsTile F G GS cfg.BK (fun i => smem.1.elems (localM * cfg.BKP + i))
      (fun i => smem.2.elems (localN * cfg.BKP + i))
      (fun j => smem.1.sfS (localM * cfg.sfPerTile fmt.blockSize + j))
      (fun j => smem.2.sfS (localN * cfg.sfPerTile fmt.blockSize + j)) acc

def cofdaCompute (F CS : ℕ) (smem : Fp4Tile Byte × Fp4Tile Byte) (acc : Fp32) : Steps Fp32 :=
  if args.A.rows ≤ outRow ∨ args.B.rows ≤ outCol then return acc
  else
    let actualK := min cfg.BK (args.K - kt * cfg.BK)
    (stepLoop actualK CS).foldlM
      (fun acc chunkStart => steps.cofdaChunk F CS (actualK - chunkStart)
        (fun i => loadFp4FromTile smem.1.elems localM (chunkStart + i) cfg.bkPacked)
        (fun i => loadFp4FromTile smem.2.elems localN (chunkStart + i) cfg.bkPacked)
        (fun i => smem.1.sfS
          (localM * cfg.sfPerTile fmt.blockSize + (chunkStart + i) / fmt.blockSize))
        (fun i => smem.2.sfS
          (localN * cfg.sfPerTile fmt.blockSize + (chunkStart + i) / fmt.blockSize)) acc) acc

lemma result_gdfsCompute (F G GS : ℕ) (smem : Fp4Tile (BitVec 32) × Fp4Tile (BitVec 32))
    (acc : Fp32) :
    result (steps.gdfsCompute cfg args localM localN outRow outCol F G GS smem acc) =
      (fp4GdfsKernel fmt cfg F G GS args).compute kt localM localN outRow outCol smem acc := by
  simp only [gdfsCompute, result_ite, result_pure, result_gdfsTile]
  rfl

lemma result_cofdaCompute (F CS : ℕ) (smem : Fp4Tile Byte × Fp4Tile Byte) (acc : Fp32) :
    result (steps.cofdaCompute cfg args kt localM localN outRow outCol F CS smem acc) =
      (fp4CofdaKernel fmt cfg F CS args).compute kt localM localN outRow outCol smem acc := by
  simp only [cofdaCompute, result_ite, result_pure, result_foldlM, result_cofdaChunk,
    lt_tsub_iff_left]
  rfl

variable (law : fmt.Lawful) {F : ℕ} (acc : Fp32)
include law

lemma safe_gdfsCompute {G GS : ℕ} (hF : F ∈ gdfsF) (hG : G ∈ fp4G) (hGS : GS ≤ 32)
    (hgroups : cfg.BK / GS ≤ 32) (a b : Fp4Tile Byte) :
    Safe (steps.gdfsCompute cfg args localM localN outRow outCol F G GS
      (⟨encodeFp4Row a.elems, a.sfS⟩, ⟨encodeFp4Row b.elems, b.sfS⟩) acc) := by
  obtain ⟨hlow, hhigh⟩ := le_of_mem_fp4G hG
  rw [gdfsCompute]
  split
  · exact safe_pure _
  · exact steps.safe_gdfsTile law (le_of_mem_gdfsF hF).2 (by omega) hhigh hGS hgroups
      (fun i => a.elems (localM * cfg.BKP + i)) (fun i => b.elems (localN * cfg.BKP + i)) _ _ acc

lemma safe_cofdaCompute {CS : ℕ} (hF : F ∈ cofdaF) (hCS : CS ≤ 32)
    (smem : Fp4Tile Byte × Fp4Tile Byte) :
    Safe (steps.cofdaCompute cfg args kt localM localN outRow outCol F CS smem acc) := by
  have hF35 : F ≤ 35 := (le_of_mem_cofdaF hF).2.trans (by norm_num)
  rw [cofdaCompute]
  split
  · exact safe_pure _
  · exact safe_foldlM fun acc chunkStart => steps.safe_cofdaChunk law hF35 hCS _ _ _ _ _ acc

end ScaleSteps

/-- The tiles as phase 1 leaves them: decoded for GDFS, packed for CoFDA. -/
def fp4Shared (a b : Fp4Tile Byte) : (launch : Fp4Launch) → launch.Shared
  | .nvfp4Gdfs .. => (⟨encodeFp4Row a.elems, a.sfS⟩, ⟨encodeFp4Row b.elems, b.sfS⟩)
  | .nvfp4Cofda .. => (a, b)
  | .mxfp4Gdfs .. => (⟨encodeFp4Row a.elems, a.sfS⟩, ⟨encodeFp4Row b.elems, b.sfS⟩)
  | .mxfp4Cofda .. => (a, b)

def fp4Compute (args : Fp4Args) (kt localM localN outRow outCol : ℕ) :
    (launch : Fp4Launch) → launch.Shared → Fp32 → Steps Fp32
  | .nvfp4Gdfs F G _ _ =>
    nvfp4Steps.gdfsCompute nvfp4EmuConfig args localM localN outRow outCol F G 16
  | .nvfp4Cofda F _ =>
    nvfp4Steps.cofdaCompute nvfp4EmuConfig args kt localM localN outRow outCol F 16
  | .mxfp4Gdfs F G GS _ _ _ =>
    mxfp4Steps.gdfsCompute mxfp4EmuConfig args localM localN outRow outCol F G GS
  | .mxfp4Cofda F CS _ _ =>
    mxfp4Steps.cofdaCompute mxfp4EmuConfig args kt localM localN outRow outCol F CS

section
variable (launch : Fp4Launch) (args : Fp4Args) (kt localM localN outRow outCol : ℕ) (acc : Fp32)

lemma result_fp4Compute (smem : launch.Shared) :
    result (fp4Compute args kt localM localN outRow outCol launch smem acc) =
      (launch.kernel args).compute kt localM localN outRow outCol smem acc := by
  cases launch with
  | nvfp4Gdfs F G hF hG => exact nvfp4Steps.result_gdfsCompute _ _ kt _ _ _ _ F G 16 smem acc
  | nvfp4Cofda F hF => exact nvfp4Steps.result_cofdaCompute _ _ _ _ _ _ _ F 16 smem acc
  | mxfp4Gdfs F G GS hF hG hGS =>
    exact mxfp4Steps.result_gdfsCompute _ _ kt _ _ _ _ F G GS smem acc
  | mxfp4Cofda F CS hF hCS => exact mxfp4Steps.result_cofdaCompute _ _ _ _ _ _ _ F CS smem acc

lemma safe_fp4Compute (a b : Fp4Tile Byte) :
    Safe (fp4Compute args kt localM localN outRow outCol launch (fp4Shared a b launch) acc) := by
  cases launch with
  | nvfp4Gdfs F G hF hG =>
    exact nvfp4Steps.safe_gdfsCompute nvfp4EmuConfig args localM localN outRow outCol nvfp4_lawful
      acc hF hG (by norm_num) (by decide) a b
  | nvfp4Cofda F hF =>
    exact nvfp4Steps.safe_cofdaCompute nvfp4EmuConfig args kt localM localN outRow outCol
      nvfp4_lawful acc hF (by norm_num) (a, b)
  | mxfp4Gdfs F G GS hF hG hGS =>
    have hGS32 : GS ≤ 32 ∧ mxfp4EmuConfig.BK / GS ≤ 32 := by
      revert GS
      decide
    exact mxfp4Steps.safe_gdfsCompute mxfp4EmuConfig args localM localN outRow outCol mxfp4_lawful
      acc hF hG hGS32.1 hGS32.2 a b
  | mxfp4Cofda F CS hF hCS =>
    have hCS32 : CS ≤ 32 := by
      revert CS
      decide
    exact mxfp4Steps.safe_cofdaCompute mxfp4EmuConfig args kt localM localN outRow outCol
      mxfp4_lawful acc hF hCS32 (a, b)

end

/-- Phase 2 of every kernel of the design space stays in range, for all tiles and accumulators:
its words are below `2^62`, its shifts by 0 to 63, its alignments to the right and the exponents
that it folds into FP4 groups not negative. -/
theorem compute_in_range :
    (∀ (launch : Fp8Launch) (args : Fp8Args) (kTile localM localN outRow outCol : ℕ)
      (a b : ℕ → Byte) (acc : Fp32),
      let phase2 := fp8Compute launch args kTile localM localN ⟨encodeRow a, encodeRow b⟩ acc
      result phase2 = (launch.kernel args).compute kTile localM localN outRow outCol
        ⟨encodeRow a, encodeRow b⟩ acc ∧ Safe phase2) ∧
    (∀ (launch : Fp4Launch) (args : Fp4Args) (kt localM localN outRow outCol : ℕ)
      (a b : Fp4Tile Byte) (acc : Fp32),
      let phase2 := fp4Compute args kt localM localN outRow outCol launch (fp4Shared a b launch) acc
      result phase2 = (launch.kernel args).compute kt localM localN outRow outCol
        (fp4Shared a b launch) acc ∧ Safe phase2) := by
  constructor
  · intro launch args kTile localM localN outRow outCol a b acc
    exact ⟨result_fp8Compute launch args kTile localM localN outRow outCol _ acc,
      safe_fp8Accumulate launch args kTile (fun i => a (localM * fp8EmuConfig.BKP + i))
        (fun i => b (localN * fp8EmuConfig.BKP + i)) acc⟩
  · intro launch args kt localM localN outRow outCol a b acc
    exact ⟨result_fp4Compute launch args kt localM localN outRow outCol acc _,
      safe_fp4Compute launch args kt localM localN outRow outCol acc a b⟩

end Datapath

end MmaEmu
