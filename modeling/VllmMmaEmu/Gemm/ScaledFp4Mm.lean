import VllmMmaEmu.Formats.BlockScaled
import VllmMmaEmu.Formats.ScaleSwizzle
import VllmMmaEmu.Gemm.Tiling
import VllmMmaEmu.Gemm.TorchTensor

/-!
# NVFP4 and MXFP4 GEMM kernels

Each format has a GDFS kernel, which decodes elements on load, and a CoFDA
kernel, which keeps packed bytes in shared memory. The kernels of the two
formats differ in the arithmetic and the block size of their scales. Both
operands are packed along K with swizzled scales, so one loader serves `A` and
`B`; the alpha scale and the output type are part of the `epilogue`.
-/

namespace MmaEmu

open Simt

/-- A packed matrix with its swizzled block scales. -/
structure PackedOperand where
  rows : ℕ
  data : ℕ → Byte
  sf : ℕ → Byte

structure Fp4Args where
  K : ℕ
  A : PackedOperand
  B : PackedOperand
  sched : (blockM blockN kt : ℕ) → Schedule

/-- The part of shared memory that holds one operand. -/
structure Fp4Tile (α : Type) where
  elems : ℕ → α
  sfS : ℕ → Byte

namespace TilingConfig

variable (cfg : TilingConfig)

def bkPacked : ℕ := cfg.BK / 2

def sfPerTile (blockSize : ℕ) : ℕ := cfg.BK / blockSize

end TilingConfig

namespace PackedOperand

variable (op : PackedOperand) (cfg : TilingConfig) (blockSize K : ℕ)

/-- Byte `idx` of a packed tile, zero where it sticks out of the matrix. -/
def loadByte (blockStart kt idx : ℕ) : Byte :=
  let kPacked := K / 2
  let globalRow := blockStart + idx / cfg.bkPacked
  let globalCol := kt * cfg.BK / 2 + idx % cfg.bkPacked
  if globalRow < op.rows ∧ globalCol < kPacked then op.data (globalRow * kPacked + globalCol)
  else 0#8

/-- Scale `idx` of a tile, zero where it sticks out of the matrix. -/
def loadScale (blockStart kt idx : ℕ) : Byte :=
  let numKBlocks := (K + blockSize - 1) / blockSize
  let rowGlobal := blockStart + idx / cfg.sfPerTile blockSize
  let kBlockGlobal := kt * cfg.sfPerTile blockSize + idx % cfg.sfPerTile blockSize
  if rowGlobal < op.rows ∧ kBlockGlobal < numKBlocks then
    Swizzle.readScale blockSize op.sf rowGlobal kBlockGlobal K
  else 0#8

/-- The two elements of a byte, decoded. -/
def loadDecoded (blockStart kt idx : ℕ) : List (ℕ × BitVec 32) :=
  let byte := op.loadByte cfg K blockStart kt idx
  let address := idx / cfg.bkPacked * cfg.BKP + 2 * (idx % cfg.bkPacked)
  [(address, packDecodedFp4 (decodeFp4Operand (byte &&& 0x0F#8))),
    (address + 1, packDecodedFp4 (decodeFp4Operand (byte >>> 4)))]

def loadScales (tileRows : ℕ) (sched : Schedule) (blockStart kt : ℕ) (sfS : ℕ → Byte) : ℕ → Byte :=
  phase sched sfS (perThread cfg.numThreads
    (strideIndices (tileRows * cfg.sfPerTile blockSize) cfg.numThreads)
    fun idx => [(idx, op.loadScale cfg blockSize K blockStart kt idx)])

/-- Load phase of the GDFS kernels. -/
def loadDecodedTile (tileRows : ℕ) (sched : Schedule) (blockStart kt : ℕ)
    (tile : Fp4Tile (BitVec 32)) : Fp4Tile (BitVec 32) where
  elems := phase sched tile.elems (perThread cfg.numThreads
    (unrolledIndices (tileRows * cfg.bkPacked) cfg.numThreads)
    (op.loadDecoded cfg K blockStart kt))
  sfS := op.loadScales cfg blockSize K tileRows sched blockStart kt tile.sfS

/-- Load phase of the CoFDA kernels. -/
def loadPackedTile (tileRows : ℕ) (sched : Schedule) (blockStart kt : ℕ) (tile : Fp4Tile Byte) :
    Fp4Tile Byte where
  elems := phase sched tile.elems (perThread cfg.numThreads
    (unrolledIndices (tileRows * cfg.bkPacked) cfg.numThreads)
    fun idx => [(idx, op.loadByte cfg K blockStart kt idx)])
  sfS := op.loadScales cfg blockSize K tileRows sched blockStart kt tile.sfS

end PackedOperand

def fp4GdfsKernel (fmt : BlockFormat) (cfg : TilingConfig) (F G GS : ℕ) (args : Fp4Args) :
    Kernel (Fp4Tile (BitVec 32) × Fp4Tile (BitVec 32)) where
  config := cfg
  kLoop := List.range ((args.K + cfg.BK - 1) / cfg.BK)
  load := fun blockM blockN kt smem =>
    (args.A.loadDecodedTile cfg fmt.blockSize args.K cfg.BM (args.sched blockM blockN kt) blockM kt
      smem.1,
    args.B.loadDecodedTile cfg fmt.blockSize args.K cfg.BN (args.sched blockM blockN kt) blockN kt
      smem.2)
  compute := fun _ localM localN outRow outCol smem acc =>
    if args.A.rows ≤ outRow ∨ args.B.rows ≤ outCol then acc
    else
      fmt.gdfsTile F G GS cfg.BK (fun i => smem.1.elems (localM * cfg.BKP + i))
        (fun i => smem.2.elems (localN * cfg.BKP + i))
        (fun j => smem.1.sfS (localM * cfg.sfPerTile fmt.blockSize + j))
        (fun j => smem.2.sfS (localN * cfg.sfPerTile fmt.blockSize + j)) acc

/-- Operand `kLocal` of a chunk; elements past the end of K are zero. -/
def fp4ChunkOperand (fmt : BlockFormat) (cfg : TilingConfig) (F actualK localM localN kLocal : ℕ)
    (smem : Fp4Tile Byte × Fp4Tile Byte) : Operand :=
  if kLocal < actualK then
    let aVal := loadFp4FromTile smem.1.elems localM kLocal cfg.bkPacked
    let bVal := loadFp4FromTile smem.2.elems localN kLocal cfg.bkPacked
    let scaleIdx := kLocal / fmt.blockSize
    let sfa := smem.1.sfS (localM * cfg.sfPerTile fmt.blockSize + scaleIdx)
    let sfb := smem.2.sfS (localN * cfg.sfPerTile fmt.blockSize + scaleIdx)
    fmt.productWithScales F (decomposeFp4E2m1 aVal) (decomposeFp4E2m1 bVal) sfa sfb
  else makeZeroOperand

def fp4CofdaKernel (fmt : BlockFormat) (cfg : TilingConfig) (F CS : ℕ) (args : Fp4Args) :
    Kernel (Fp4Tile Byte × Fp4Tile Byte) where
  config := cfg
  kLoop := List.range ((args.K + cfg.BK - 1) / cfg.BK)
  load := fun blockM blockN kt smem =>
    (args.A.loadPackedTile cfg fmt.blockSize args.K cfg.BM (args.sched blockM blockN kt) blockM kt
      smem.1,
    args.B.loadPackedTile cfg fmt.blockSize args.K cfg.BN (args.sched blockM blockN kt) blockN kt
      smem.2)
  compute := fun kt localM localN outRow outCol smem acc =>
    if args.A.rows ≤ outRow ∨ args.B.rows ≤ outCol then acc
    else
      let actualK := min cfg.BK (args.K - kt * cfg.BK)
      (stepLoop actualK CS).foldl
        (fun acc chunkStart => chunkedAccumulate F (-133) ((List.range CS).map fun i =>
          fp4ChunkOperand fmt cfg F actualK localM localN (chunkStart + i) smem) acc) acc

def mmaEmuScaledNvfp4MmEmuKernel : (F G GS : ℕ) → Fp4Args →
    Kernel (Fp4Tile (BitVec 32) × Fp4Tile (BitVec 32)) :=
  fp4GdfsKernel nvfp4 nvfp4EmuConfig

def mmaEmuScaledNvfp4MmCofdaKernel : (F CS : ℕ) → Fp4Args →
    Kernel (Fp4Tile Byte × Fp4Tile Byte) :=
  fp4CofdaKernel nvfp4 nvfp4EmuConfig

def mmaEmuScaledMxfp4MmEmuKernel : (F G GS : ℕ) → Fp4Args →
    Kernel (Fp4Tile (BitVec 32) × Fp4Tile (BitVec 32)) :=
  fp4GdfsKernel mxfp4 mxfp4EmuConfig

def mmaEmuScaledMxfp4MmCofdaKernel : (F CS : ℕ) → Fp4Args →
    Kernel (Fp4Tile Byte × Fp4Tile Byte) :=
  fp4CofdaKernel mxfp4 mxfp4EmuConfig

/-- A kernel with template parameters from the design space; NVFP4 fixes `GS` and `CS`. -/
inductive Fp4Launch where
  | nvfp4Gdfs (F G : ℕ) (hF : F ∈ gdfsF) (hG : G ∈ fp4G)
  | nvfp4Cofda (F : ℕ) (hF : F ∈ cofdaF)
  | mxfp4Gdfs (F G GS : ℕ) (hF : F ∈ gdfsF) (hG : G ∈ fp4G) (hGS : GS ∈ mxfp4Gs)
  | mxfp4Cofda (F CS : ℕ) (hF : F ∈ cofdaF) (hCS : CS ∈ mxfp4Cs)

namespace Fp4Launch

def fmt : Fp4Launch → BlockFormat
  | nvfp4Gdfs .. => nvfp4
  | nvfp4Cofda .. => nvfp4
  | mxfp4Gdfs .. => mxfp4
  | mxfp4Cofda .. => mxfp4

/-- What the entry point of the format requires to divide K. -/
def alignment : Fp4Launch → ℕ
  | nvfp4Gdfs .. => 32
  | nvfp4Cofda .. => 32
  | mxfp4Gdfs .. => 64
  | mxfp4Cofda .. => 64

/-- Shared memory of a block. -/
def Shared : Fp4Launch → Type
  | nvfp4Gdfs .. => Fp4Tile (BitVec 32) × Fp4Tile (BitVec 32)
  | nvfp4Cofda .. => Fp4Tile Byte × Fp4Tile Byte
  | mxfp4Gdfs .. => Fp4Tile (BitVec 32) × Fp4Tile (BitVec 32)
  | mxfp4Cofda .. => Fp4Tile Byte × Fp4Tile Byte

def kernel (args : Fp4Args) : (launch : Fp4Launch) → Kernel launch.Shared
  | nvfp4Gdfs F G _ _ => mmaEmuScaledNvfp4MmEmuKernel F G 16 args
  | nvfp4Cofda F _ => mmaEmuScaledNvfp4MmCofdaKernel F 16 args
  | mxfp4Gdfs F G GS _ _ _ => mmaEmuScaledMxfp4MmEmuKernel F G GS args
  | mxfp4Cofda F CS _ _ => mmaEmuScaledMxfp4MmCofdaKernel F CS args

/-- Stores of the grid to the output. -/
def stores {β : Type} (launch : Fp4Launch) (args : Fp4Args) (smem : ℕ → ℕ → launch.Shared)
    (epilogue : ℕ → Fp32 → β) : List (ℕ × β) :=
  (launch.kernel args).outputStores args.A.rows args.B.rows smem epilogue

end Fp4Launch

def selectGdfsF (fBits : ℤ) : Except String {x // x ∈ gdfsF} :=
  selectCase gdfsF fBits "GDFS: f_bits must be one of \x7b7, 9, 10, 11, 13, 15, 25, 35\x7d, got "

def selectFp4G (gBits : ℤ) : Except String {x // x ∈ fp4G} :=
  selectCase fp4G gBits "GDFS: g_bits must be one of \x7b3, 4, 5, 6\x7d, got "

def selectCofdaF (fBits : ℤ) : Except String {x // x ∈ cofdaF} :=
  selectCase cofdaF fBits
    "CoFDA: f_bits must be one of \x7b3, 5, 7, 9, 10, 11, 12, 13, 17, 21, 25\x7d, got "

def checkFp4OutDtype (path : String) (outDtype : ScalarType) : Except String Unit :=
  torchCheck (outDtype == .bfloat16 || outDtype == .half)
    ("MMA-Emu " ++ path ++ ": unsupported output dtype. Expected BFloat16 or Float16, got " ++
      outDtype.name)

/-- The kernel that the NVFP4 host wrapper launches. -/
def mmaEmuScaledNvfp4MmEmu (outDtype : ScalarType) (algorithm fBits gBits : ℤ) :
    Except String Fp4Launch :=
  if algorithm = 2 then do
    checkFp4OutDtype "scaled_nvfp4_mm CoFDA" outDtype
    let ⟨F, hF⟩ ← selectCofdaF fBits
    return .nvfp4Cofda F hF
  else do
    checkFp4OutDtype "scaled_nvfp4_mm GDFS" outDtype
    let ⟨F, hF⟩ ← selectGdfsF fBits
    let ⟨G, hG⟩ ← selectFp4G gBits
    return .nvfp4Gdfs F G hF hG

/-- The kernel that the MXFP4 host wrapper launches. -/
def mmaEmuScaledMxfp4MmEmu (outDtype : ScalarType) (algorithm fBits gBits groupSize chunkSize : ℤ) :
    Except String Fp4Launch :=
  if algorithm = 2 then do
    checkFp4OutDtype "scaled_mxfp4_mm CoFDA" outDtype
    let ⟨CS, hCS⟩ ← selectCase mxfp4Cs chunkSize "CoFDA: chunk_size must be 16 or 32, got "
    let ⟨F, hF⟩ ← selectCofdaF fBits
    return .mxfp4Cofda F CS hF hCS
  else do
    checkFp4OutDtype "scaled_mxfp4_mm GDFS" outDtype
    let ⟨GS, hGS⟩ ← selectCase mxfp4Gs groupSize "GDFS: group_size must be 16 or 32, got "
    let ⟨F, hF⟩ ← selectGdfsF fBits
    let ⟨G, hG⟩ ← selectFp4G gBits
    return .mxfp4Gdfs F G GS hF hG hGS

lemma nvfp4EmuConfig_BK : nvfp4EmuConfig.BK = 64 := rfl

lemma nvfp4EmuConfig_bkPacked : nvfp4EmuConfig.bkPacked = 32 := rfl

lemma nvfp4EmuConfig_sfPerTile (blockSize : ℕ) :
    nvfp4EmuConfig.sfPerTile blockSize = 64 / blockSize := rfl

/-- The even elements of a row are the low nibbles of its bytes. -/
def nibble (byte : Byte) (k : ℕ) : Byte := if k % 2 = 0 then byte &&& 0x0F#8 else byte >>> 4

namespace PackedOperand

variable (op : PackedOperand) {K tileRows blockStart r : ℕ} (kt : ℕ)

/-- Element `k` of row `m`, zero past the end. -/
def elem (K m k : ℕ) : Byte :=
  if k < K then nibble (op.data (m * (K / 2) + k / 2)) k else 0#8

lemma nibble_loadByte (hK : K % 2 = 0) (hrow : blockStart + r < op.rows) {i : ℕ} (hi : i < 64) :
    nibble (op.loadByte nvfp4EmuConfig K blockStart kt (r * 32 + i / 2)) i =
      op.elem K (blockStart + r) (kt * 64 + i) := by
  have hbyte : op.loadByte nvfp4EmuConfig K blockStart kt (r * 32 + i / 2) =
      if kt * 64 + i < K then op.data ((blockStart + r) * (K / 2) + (kt * 64 + i) / 2) else 0#8 := by
    have hindex : blockStart + (r * 32 + i / 2) / 32 = blockStart + r ∧
        kt * 64 / 2 + (r * 32 + i / 2) % 32 = (kt * 64 + i) / 2 := by omega
    have hin : (kt * 64 + i) / 2 < K / 2 ↔ kt * 64 + i < K := by omega
    simp only [loadByte, nvfp4EmuConfig_bkPacked, nvfp4EmuConfig_BK, hindex, hrow, true_and, hin]
  have hparity : (kt * 64 + i) % 2 = i % 2 := by omega
  rw [hbyte, elem]
  split
  · rw [nibble, nibble, hparity]
  · rw [nibble]
    split <;> rfl

lemma loadDecodedTile_elems (hK : K % 2 = 0) (blockSize : ℕ) (hr : r < tileRows)
    (hrow : blockStart + r < op.rows) {i : ℕ} (hi : i < 64) (sched : Schedule)
    (tile : Fp4Tile (BitVec 32)) :
    (op.loadDecodedTile nvfp4EmuConfig blockSize K tileRows sched blockStart kt tile).elems
        (r * 65 + i) =
      encodeFp4Row (fun i => op.elem K (blockStart + r) (kt * 64 + i)) i := by
  have hstore : (r * 65 + i, encodeFp4Row (fun i => op.elem K (blockStart + r) (kt * 64 + i)) i) ∈
      op.loadDecoded nvfp4EmuConfig K blockStart kt (r * 32 + i / 2) := by
    have haddress : (r * 32 + i / 2) / 32 * 65 + 2 * ((r * 32 + i / 2) % 32) = r * 65 + 2 * (i / 2) := by
      omega
    change _ ∈ [((r * 32 + i / 2) / 32 * 65 + 2 * ((r * 32 + i / 2) % 32), _),
      ((r * 32 + i / 2) / 32 * 65 + 2 * ((r * 32 + i / 2) % 32) + 1, _)]
    rw [haddress, encodeFp4Row, ← op.nibble_loadByte kt hK hrow hi, nibble]
    rcases Nat.mod_two_eq_zero_or_one i with heven | hodd
    · rw [if_pos heven, show 2 * (i / 2) = i by omega]
      exact List.mem_cons_self
    · rw [if_neg (by omega), show 2 * (i / 2) = i - 1 by omega, Nat.add_assoc,
        Nat.sub_add_cancel (by omega)]
      exact List.mem_cons_of_mem _ List.mem_cons_self
  refine phase_perThread (covers_unrolledIndices (tileRows * 32) (T := 128) (by norm_num))
    (fun x => x / 65 * 32 + x % 65 / 2) ?_ ?_ (by omega) hstore sched tile.elems
  · intro idx _
    exact List.nodup_cons.mpr ⟨by simp, List.nodup_singleton _⟩
  · intro idx _ s hs
    have hs' : s.1 = idx / 32 * 65 + 2 * (idx % 32) ∨ s.1 = idx / 32 * 65 + 2 * (idx % 32) + 1 := by
      rcases List.mem_cons.mp hs with rfl | hs
      · exact Or.inl rfl
      · rw [List.mem_singleton.mp hs]
        exact Or.inr rfl
    omega

lemma loadFp4FromTile_loadPackedTile (hK : K % 2 = 0) (blockSize : ℕ) (hr : r < tileRows)
    (hrow : blockStart + r < op.rows) {i : ℕ} (hi : i < 64) (sched : Schedule) (tile : Fp4Tile Byte) :
    loadFp4FromTile
        (op.loadPackedTile nvfp4EmuConfig blockSize K tileRows sched blockStart kt tile).elems r i 32 =
      op.elem K (blockStart + r) (kt * 64 + i) := by
  have hphase := phase_perThread_single
    (covers_unrolledIndices (tileRows * 32) (T := 128) (by norm_num))
    (fun idx => (idx, op.loadByte nvfp4EmuConfig K blockStart kt idx)) (fun x => x) (fun _ _ => rfl)
    (show r * 32 + i / 2 < tileRows * 32 by omega) sched tile.elems
  rw [← op.nibble_loadByte kt hK hrow hi]
  exact congrArg (nibble · i) hphase

lemma loadScales_eq {blockSize : ℕ} (hr : r < tileRows)
    (hrow : blockStart + r < op.rows) {j : ℕ} (hj : j < 64 / blockSize) (sched : Schedule)
    (sfS : ℕ → Byte) :
    op.loadScales nvfp4EmuConfig blockSize K tileRows sched blockStart kt sfS
        (r * (64 / blockSize) + j) =
      if kt * (64 / blockSize) + j < (K + blockSize - 1) / blockSize then
        Swizzle.readScale blockSize op.sf (blockStart + r) (kt * (64 / blockSize) + j) K
      else 0#8 := by
  have hlt : r * (64 / blockSize) + j < tileRows * (64 / blockSize) :=
    calc r * (64 / blockSize) + j < (r + 1) * (64 / blockSize) := by linarith
      _ ≤ tileRows * (64 / blockSize) := Nat.mul_le_mul_right _ hr
  have hphase := phase_perThread_single
    (covers_strideIndices (tileRows * (64 / blockSize)) (T := 128) (by norm_num))
    (fun idx => (idx, op.loadScale nvfp4EmuConfig blockSize K blockStart kt idx)) (fun x => x)
    (fun _ _ => rfl) hlt sched sfS
  obtain ⟨hdiv, hmod⟩ := div_mod_of_lt (a := r) hj
  refine hphase.trans ?_
  simp only [loadScale, nvfp4EmuConfig_sfPerTile, hdiv, hmod, hrow, true_and]

end PackedOperand

end MmaEmu
