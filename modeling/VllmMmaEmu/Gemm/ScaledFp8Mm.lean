import VllmMmaEmu.Formats.Fp8E4m3
import VllmMmaEmu.Gemm.Tiling
import VllmMmaEmu.Gemm.TorchTensor

/-!
# FP8 GEMM kernels

The three kernels of `scaled_fp8_mm.cuh` share their tiles and their epilogue
and differ in the accumulation of a tile. Index arithmetic is over the
naturals; the per-tensor scales, the bias and the output type are one
`epilogue` that a launch applies to each accumulator.
-/

namespace MmaEmu

open Simt FusedSum Binary32

/-- Matrices of a launch and the order of the stores in each load phase. -/
structure Fp8Args where
  M : ℕ
  N : ℕ
  K : ℕ
  A : ℕ → Byte
  B : ℕ → Byte
  sched : (blockM blockN kTile : ℕ) → Schedule

structure Fp8Shared where
  AsDec : ℕ → BitVec 32
  BsDec : ℕ → BitVec 32

namespace Fp8Args

variable (args : Fp8Args)

/-- Address of `A` that a load reads, if any. -/
def aAddress (globalRow globalCol : ℕ) : Option ℕ :=
  if globalRow < args.M ∧ globalCol < args.K then some (globalRow * args.K + globalCol) else none

/-- Address of `B` that a load reads, if any. -/
def bAddress (globalRow globalCol : ℕ) : Option ℕ :=
  if globalRow < args.K ∧ globalCol < args.N then some (globalRow + globalCol * args.K) else none

def loadA (blockM kTile idx : ℕ) : ℕ × BitVec 32 :=
  let aRow := idx / fp8EmuConfig.BK
  let aCol := idx % fp8EmuConfig.BK
  let raw := loadOrZero args.A (args.aAddress (blockM + aRow) (kTile + aCol))
  (aRow * fp8EmuConfig.BKP + aCol, packDecoded (decodeOperand raw))

/-- The B tile is stored transposed. -/
def loadB (blockN kTile idx : ℕ) : ℕ × BitVec 32 :=
  let bRow := idx / fp8EmuConfig.BN
  let bCol := idx % fp8EmuConfig.BN
  let raw := loadOrZero args.B (args.bAddress (kTile + bRow) (blockN + bCol))
  (bCol * fp8EmuConfig.BKP + bRow, packDecoded (decodeOperand raw))

/-- Stores of all threads of a block to one of its tiles. -/
def fill (tileSize : ℕ) (load : ℕ → ℕ × BitVec 32) : List (ℕ × BitVec 32) :=
  perThread fp8EmuConfig.numThreads (unrolledIndices tileSize fp8EmuConfig.numThreads)
    fun idx => [load idx]

def loadTiles (blockM blockN kTile : ℕ) (smem : Fp8Shared) : Fp8Shared where
  AsDec := phase (args.sched blockM blockN kTile) smem.AsDec
    (fill (fp8EmuConfig.BM * fp8EmuConfig.BK) (args.loadA blockM kTile))
  BsDec := phase (args.sched blockM blockN kTile) smem.BsDec
    (fill (fp8EmuConfig.BN * fp8EmuConfig.BK) (args.loadB blockN kTile))

end Fp8Args

/-- The skeleton of the three kernels around the accumulation of one tile. -/
def fp8Kernel (args : Fp8Args)
    (accumulate : (kTile : ℕ) → (aRow bRow : ℕ → BitVec 32) → Fp32 → Fp32) : Kernel Fp8Shared where
  config := fp8EmuConfig
  kLoop := stepLoop args.K fp8EmuConfig.BK
  load := args.loadTiles
  compute := fun kTile localM localN _ _ smem acc =>
    accumulate kTile (fun i => smem.AsDec (localM * fp8EmuConfig.BKP + i))
      (fun i => smem.BsDec (localN * fp8EmuConfig.BKP + i)) acc

def mmaEmuScaledFp8MmCofdaKernel (F CS : ℕ) (args : Fp8Args) : Kernel Fp8Shared :=
  fp8Kernel args fun _ aRow bRow acc =>
    (stepLoop fp8EmuConfig.BK CS).foldl
      (fun acc kStart =>
        fp8CofdaMma F CS (-133) (fun i => aRow (kStart + i)) (fun i => bRow (kStart + i)) acc) acc

def mmaEmuScaledFp8MmCofdaDecoupledKernel (F CS : ℕ) (args : Fp8Args) : Kernel Fp8Shared :=
  fp8Kernel args fun kTile aRow bRow acc =>
    let F2 := 23
    let actualBk := min fp8EmuConfig.BK (args.K - kTile)
    (stepLoop actualBk CS).foldl
      (fun acc kStart =>
        let products := (List.range CS).map
          (fragProduct F (fun i => aRow (kStart + i)) (fun i => bRow (kStart + i)))
        cofdaDecoupledAccumulateProducts F F2 products acc) acc

def mmaEmuScaledFp8MmGdfsKernel (F G GS : ℕ) (args : Fp8Args) : Kernel Fp8Shared :=
  fp8Kernel args fun _ aRow bRow acc => fp8GdfsTile F G GS fp8EmuConfig.BK aRow bRow acc

/-- A kernel with template parameters from the design space. -/
inductive Fp8Launch where
  | gdfs (F G GS : ℕ) (hF : F ∈ gdfsF) (hG : G ∈ fp8G) (hGS : GS ∈ fp8Gs)
  | cofda (F CS : ℕ) (hF : F ∈ cofdaF) (hCS : CS ∈ fp8Cs)
  | cofdaDecoupled (F CS : ℕ) (hF : F ∈ cofdaF) (hCS : CS ∈ fp8Cs)

namespace Fp8Launch

def algorithm : Fp8Launch → Algorithm
  | gdfs .. => .gdfs
  | cofda .. => .cofda
  | cofdaDecoupled .. => .cofdaDecoupled

def kernel : Fp8Launch → Fp8Args → Kernel Fp8Shared
  | gdfs F G GS _ _ _ => mmaEmuScaledFp8MmGdfsKernel F G GS
  | cofda F CS _ _ => mmaEmuScaledFp8MmCofdaKernel F CS
  | cofdaDecoupled F CS _ _ => mmaEmuScaledFp8MmCofdaDecoupledKernel F CS

/-- Stores of the grid to the output. -/
def stores {β : Type} (launch : Fp8Launch) (args : Fp8Args) (smem : ℕ → ℕ → Fp8Shared)
    (epilogue : ℕ → Fp32 → β) : List (ℕ × β) :=
  (launch.kernel args).outputStores args.M args.N smem epilogue

end Fp8Launch

def dispatchByGroupSizeFp8 (fBits gBits groupSize : ℤ) : Except String Fp8Launch := do
  let ⟨GS, hGS⟩ ← selectCase fp8Gs groupSize "group_size must be 8 or 16, got "
  let ⟨F, hF⟩ ← selectCase gdfsF fBits
    "GDFS: f_bits must be one of \x7b7, 9, 10, 11, 13, 15, 25, 35\x7d, got "
  let ⟨G, hG⟩ ← selectCase fp8G gBits
    "GDFS: g_bits must be one of \x7b3, 4, 5, 6, 8, 13, 32\x7d, got "
  return .gdfs F G GS hF hG hGS

def dispatchByChunkSizeFp8 (fBits chunkSize : ℤ) : Except String Fp8Launch := do
  let ⟨CS, hCS⟩ ← selectCase fp8Cs chunkSize "CoFDA: chunk_size must be 16 or 32, got "
  let ⟨F, hF⟩ ← selectCase cofdaF fBits
    "CoFDA: f_bits must be one of \x7b3, 5, 7, 9, 10, 11, 12, 13, 17, 21, 25\x7d, got "
  return .cofda F CS hF hCS

def dispatchByChunkSizeFp8CofdaDecoupled (fBits chunkSize : ℤ) : Except String Fp8Launch := do
  let ⟨CS, hCS⟩ ← selectCase fp8Cs chunkSize
    "CoFDA (C-decoupled): chunk_size must be 16 or 32, got "
  let ⟨F, hF⟩ ← selectCase cofdaF fBits
    "CoFDA (C-decoupled): f_bits must be one of \x7b3, 5, 7, 9, 10, 11, 12, 13, 17, 21, 25\x7d, got "
  return .cofdaDecoupled F CS hF hCS

def checkFp8OutDtype (path : String) (outDtype : ScalarType) : Except String Unit :=
  torchCheck (outDtype == .bfloat16 || outDtype == .half)
    ("MMA-Emu FP8 " ++ path ++ " emulation: unsupported output dtype. " ++
      "Expected BFloat16 or Float16, got " ++ outDtype.name)

/-- The kernel that the host wrapper launches. -/
def mmaEmuScaledFp8MmEmu (outDtype : ScalarType) (algorithm fBits gBits groupSize chunkSize : ℤ) :
    Except String Fp8Launch :=
  if algorithm = 1 then do
    checkFp8OutDtype "GDFS" outDtype
    dispatchByGroupSizeFp8 fBits gBits groupSize
  else if algorithm = 2 then do
    checkFp8OutDtype "CoFDA" outDtype
    dispatchByChunkSizeFp8 fBits chunkSize
  else if algorithm = 3 then do
    checkFp8OutDtype "C-decoupled CoFDA" outDtype
    dispatchByChunkSizeFp8CofdaDecoupled fBits chunkSize
  else
    .error ("MMA-Emu FP8 emulation: algorithm must be 1 (GDFS), 2 (CoFDA, C-fused), or 3 " ++
      "(CoFDA, C-decoupled), got " ++ toString algorithm)

namespace Fp8Args

variable (args : Fp8Args) {blockM blockN kTile : ℕ}

/-- Row `m` of `A`, zero past its end. -/
def paddedRow (m k : ℕ) : Byte := if k < args.K then args.A (m * args.K + k) else 0#8

/-- Column `n` of `B`, zero past its end. -/
def paddedCol (n k : ℕ) : Byte := if k < args.K then args.B (k + n * args.K) else 0#8

lemma loadOrZero_aAddress {m : ℕ} (hm : m < args.M) (k : ℕ) :
    loadOrZero args.A (args.aAddress m k) = args.paddedRow m k := by
  by_cases hk : k < args.K
  · simp [loadOrZero, aAddress, paddedRow, hm, hk]
  · simp [loadOrZero, aAddress, paddedRow, hk]

lemma loadOrZero_bAddress {n : ℕ} (hn : n < args.N) (k : ℕ) :
    loadOrZero args.B (args.bAddress k n) = args.paddedCol n k := by
  by_cases hk : k < args.K
  · simp [loadOrZero, bAddress, paddedCol, hn, hk]
  · simp [loadOrZero, bAddress, paddedCol, hk]

/-- The padded A tile holds the rows of the block, decoded. -/
lemma loadTiles_AsDec {localM i : ℕ} (hm : localM < 32) (hi : i < 32) (hrow : blockM + localM < args.M)
    (smem : Fp8Shared) :
    (args.loadTiles blockM blockN kTile smem).AsDec (localM * fp8EmuConfig.BKP + i) =
      encodeRow (fun i => args.paddedRow (blockM + localM) (kTile + i)) i := by
  obtain ⟨hdiv, hmod⟩ := div_mod_of_lt (a := localM) hi
  have hphase := phase_perThread_single (covers_unrolledIndices (32 * 32) (T := 128) (by norm_num))
    (args.loadA blockM kTile) (fun x => x / 33 * 32 + x % 33)
    (fun idx hidx => by
      change (idx / 32 * 33 + idx % 32) / 33 * 32 + (idx / 32 * 33 + idx % 32) % 33 = idx
      omega)
    (show localM * 32 + i < 32 * 32 by omega) (args.sched blockM blockN kTile) smem.AsDec
  have haddress : (args.loadA blockM kTile (localM * 32 + i)).1 = localM * fp8EmuConfig.BKP + i := by
    change (localM * 32 + i) / 32 * 33 + (localM * 32 + i) % 32 = localM * 33 + i
    rw [hdiv, hmod]
  rw [haddress] at hphase
  refine hphase.trans ?_
  change packDecoded (decodeOperand (loadOrZero args.A (args.aAddress (blockM + (localM * 32 + i) / 32)
    (kTile + (localM * 32 + i) % 32)))) = _
  rw [hdiv, hmod, args.loadOrZero_aAddress hrow]
  rfl

/-- The padded B tile holds the columns of the block, decoded. -/
lemma loadTiles_BsDec {localN i : ℕ} (hn : localN < 8) (hi : i < 32) (hcol : blockN + localN < args.N)
    (smem : Fp8Shared) :
    (args.loadTiles blockM blockN kTile smem).BsDec (localN * fp8EmuConfig.BKP + i) =
      encodeRow (fun i => args.paddedCol (blockN + localN) (kTile + i)) i := by
  obtain ⟨hdiv, hmod⟩ := div_mod_of_lt (a := i) hn
  have hphase := phase_perThread_single (covers_unrolledIndices (8 * 32) (T := 128) (by norm_num))
    (args.loadB blockN kTile) (fun x => x % 33 * 8 + x / 33)
    (fun idx hidx => by
      change (idx % 8 * 33 + idx / 8) % 33 * 8 + (idx % 8 * 33 + idx / 8) / 33 = idx
      omega)
    (show i * 8 + localN < 8 * 32 by omega) (args.sched blockM blockN kTile) smem.BsDec
  have haddress : (args.loadB blockN kTile (i * 8 + localN)).1 = localN * fp8EmuConfig.BKP + i := by
    change (i * 8 + localN) % 8 * 33 + (i * 8 + localN) / 8 = localN * 33 + i
    rw [hdiv, hmod]
  rw [haddress] at hphase
  refine hphase.trans ?_
  change packDecoded (decodeOperand (loadOrZero args.B (args.bAddress (kTile + (i * 8 + localN) / 8)
    (blockN + (i * 8 + localN) % 8)))) = _
  rw [hdiv, hmod, args.loadOrZero_bAddress hcol]
  rfl

end Fp8Args

/-- The accumulation of a tile only looks at the 32 words of its row and column. -/
def TileLocal (accumulate : ℕ → (ℕ → BitVec 32) → (ℕ → BitVec 32) → Fp32 → Fp32) : Prop :=
  ∀ kTile {aRow aRow' bRow bRow'}, (∀ i < 32, aRow i = aRow' i) → (∀ i < 32, bRow i = bRow' i) →
    ∀ acc, accumulate kTile aRow bRow acc = accumulate kTile aRow' bRow' acc

lemma fp8Kernel_computes {accumulate : ℕ → (ℕ → BitVec 32) → (ℕ → BitVec 32) → Fp32 → Fp32}
    (hlocal : TileLocal accumulate) (args : Fp8Args) :
    (fp8Kernel args accumulate).Computes args.M args.N fun m n kTile acc =>
      accumulate kTile (encodeRow fun i => args.paddedRow m (kTile + i))
        (encodeRow fun i => args.paddedCol n (kTile + i)) acc := by
  intro blockM blockN localM localN kTile hm hn hrow hcol _ smem acc
  apply hlocal
  · exact fun i hi => args.loadTiles_AsDec hm hi hrow smem
  · exact fun i hi => args.loadTiles_BsDec hn hi hcol smem

lemma map_fragProduct_congr {F n : ℕ} {aFrag aFrag' bFrag bFrag' : ℕ → BitVec 32}
    (ha : ∀ i < n, aFrag i = aFrag' i) (hb : ∀ i < n, bFrag i = bFrag' i) :
    (List.range n).map (fragProduct F aFrag bFrag) =
      (List.range n).map (fragProduct F aFrag' bFrag') := by
  apply List.map_congr_left
  intro i hi
  have hlt := List.mem_range.mp hi
  rw [fragProduct, ha i hlt, hb i hlt, fragProduct]

lemma dvd_of_mem_fp8Cs {CS : ℕ} (hCS : CS ∈ fp8Cs) : 0 < CS ∧ CS ∣ 32 ∧ CS ≤ 32 := by
  revert CS
  decide

lemma tileLocal_cofda {CS : ℕ} (hCS : CS ∈ fp8Cs) (F : ℕ) :
    TileLocal fun _ aRow bRow acc => (stepLoop 32 CS).foldl
      (fun acc kStart =>
        fp8CofdaMma F CS (-133) (fun i => aRow (kStart + i)) (fun i => bRow (kStart + i)) acc)
      acc := by
  intro _ aRow aRow' bRow bRow' ha hb acc
  obtain ⟨hpos, hdvd, -⟩ := dvd_of_mem_fp8Cs hCS
  apply List.foldl_ext
  intro acc kStart hk
  have hend := add_le_of_mem_stepLoop hpos hdvd le_rfl hk
  rw [fp8CofdaMma_eq, fp8CofdaMma_eq,
    map_fragProduct_congr (fun i hi => ha _ (by omega)) (fun i hi => hb _ (by omega))]

lemma tileLocal_cofdaDecoupled {CS : ℕ} (hCS : CS ∈ fp8Cs) (F K : ℕ) :
    TileLocal fun kTile aRow bRow acc => (stepLoop (min 32 (K - kTile)) CS).foldl
      (fun acc kStart => cofdaDecoupledAccumulateProducts F 23 ((List.range CS).map
        (fragProduct F (fun i => aRow (kStart + i)) (fun i => bRow (kStart + i)))) acc) acc := by
  intro kTile aRow aRow' bRow bRow' ha hb acc
  obtain ⟨hpos, hdvd, -⟩ := dvd_of_mem_fp8Cs hCS
  apply List.foldl_ext
  intro acc kStart hk
  have hend := add_le_of_mem_stepLoop hpos hdvd (min_le_left _ _) hk
  rw [map_fragProduct_congr (fun i hi => ha _ (by omega)) (fun i hi => hb _ (by omega))]

lemma tileLocal_gdfs (F G GS : ℕ) : TileLocal fun _ => fp8GdfsTile F G GS 32 := by
  intro _ aRow aRow' bRow bRow' ha hb acc
  have hgroups : ((List.range (32 / GS)).map fun g =>
      fp8GroupOperand F G (fp8GdfsGroupAccumulatePredecoded G GS
        (fun i => aRow (g * GS + i)) (fun i => bRow (g * GS + i)))) =
      (List.range (32 / GS)).map fun g =>
      fp8GroupOperand F G (fp8GdfsGroupAccumulatePredecoded G GS
        (fun i => aRow' (g * GS + i)) (fun i => bRow' (g * GS + i))) := by
    apply List.map_congr_left
    intro g hg
    have hend : (g + 1) * GS ≤ 32 := by
      calc (g + 1) * GS ≤ 32 / GS * GS := Nat.mul_le_mul_right GS (List.mem_range.mp hg)
        _ ≤ 32 := Nat.div_mul_le_self 32 GS
    rw [Nat.add_mul] at hend
    rw [fp8GdfsGroupAccumulatePredecoded, fp8GdfsGroupAccumulatePredecoded,
      groupAccumulateStreamed_eq, groupAccumulateStreamed_eq,
      map_fragProduct_congr (fun i hi => ha _ (by omega)) (fun i hi => hb _ (by omega))]
  exact congrArg (gdfsAccumulateTile F · acc) hgroups

end MmaEmu
