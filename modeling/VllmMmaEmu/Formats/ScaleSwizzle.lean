import VllmMmaEmu.Core.IntRange
import VllmMmaEmu.Core.Types
import VllmMmaEmu.Library.RowMajor

/-!
# Swizzled block-scale layout

Three implementations of one interleaving: the reader of the emulation kernels,
the writer of the quantisation kernels and the PyTorch pad, reshape and permute.
-/

namespace MmaEmu

open RowMajor

namespace Swizzle

def mTileSize : ℕ := 128
def kBlocksPerTile : ℕ := 4

/-- Offset that `read_scale` reads for row `m` and block `kBlock`. -/
def swizzledIdx (BLKSZ m kBlock K : ℕ) : ℕ :=
  let numKBlocks := (K + BLKSZ - 1) / BLKSZ
  let kTiles := (numKBlocks + kBlocksPerTile - 1) / kBlocksPerTile
  let mTile := m / mTileSize
  let mInTile := m % mTileSize
  let groupOf4 := mInTile / 32
  let rowIn32 := mInTile % 32
  let kTile := kBlock / kBlocksPerTile
  let kInTile := kBlock % kBlocksPerTile
  kInTile + 4 * (groupOf4 + 4 * (rowIn32 + 32 * (kTile + kTiles * mTile)))

def readScale (BLKSZ : ℕ) (sfSwizzled : ℕ → Byte) (m kBlock K : ℕ) : Byte :=
  sfSwizzled (swizzledIdx BLKSZ m kBlock K)

/-- The arguments of `read_scale` and the values of its `int` expressions, as far as they exceed
those of their operands. -/
def readScaleInts (BLKSZ m kBlock M K : ℕ) : List ℕ :=
  let numKBlocks := (K + BLKSZ - 1) / BLKSZ
  let kTiles := (numKBlocks + kBlocksPerTile - 1) / kBlocksPerTile
  let tile := kBlock / kBlocksPerTile + kTiles * (m / mTileSize)
  let row := m % mTileSize % 32 + 32 * tile
  let group := m % mTileSize / 32 + 4 * row
  [m, kBlock, M, K, K + BLKSZ, numKBlocks + kBlocksPerTile, tile, row, group,
    swizzledIdx BLKSZ m kBlock K]

/-- The offset of `read_scale`, which is an `int`. -/
def readScaleOffset (BLKSZ m kBlock M K : ℕ) : Option ℕ :=
  if ∀ x ∈ readScaleInts BLKSZ m kBlock M K, FitsInt x then some (swizzledIdx BLKSZ m kBlock K)
  else none

end Swizzle

/-- Elements a thread of the quantisation kernels converts. -/
def cvtFp4EltsPerThread : ℕ := 8

/-- Offset of the scale a thread writes, if it is the one that writes it. -/
def cvtQuantToFp4GetSfOutOffset (numThreadsPerSf sfVecSize threadIdx rowIdx colIdx numCols : ℕ) :
    Option ℕ :=
  if threadIdx % numThreadsPerSf = 0 then
    let kIdx := colIdx / numThreadsPerSf
    let mIdx := rowIdx
    let mTileIdx := mIdx / (32 * 4)
    let factor := sfVecSize * 4
    let numKTiles := (numCols + factor - 1) / factor
    let mTileStride := numKTiles * 32 * 4 * 4
    let kTileIdx := kIdx / 4
    let kTileStride := 32 * 4 * 4
    let outerMIdx := mIdx % 32
    let outerMStride := 4 * 4
    let innerMIdx := (mIdx % (32 * 4)) / 32
    let innerMStride := 4
    let innerKIdx := kIdx % 4
    let innerKStride := 1
    some (mTileIdx * mTileStride + kTileIdx * kTileStride + outerMIdx * outerMStride +
      innerMIdx * innerMStride + innerKIdx * innerKStride)
  else none

/-- The arguments of the writer and its `int32_t` expressions. The offset itself is an `int64_t`. -/
def cvtQuantToFp4Ints (sfVecSize rowIdx colIdx numCols : ℕ) : List ℕ :=
  let factor := sfVecSize * 4
  let numKTiles := (numCols + factor - 1) / factor
  [rowIdx, colIdx, numCols, numCols + factor, numKTiles * 32 * 4 * 4]

/-- The offset that a thread writes to, if its `int32_t` expressions are in range. -/
def writeScaleOffset (numThreadsPerSf sfVecSize threadIdx rowIdx colIdx numCols : ℕ) : Option ℕ :=
  if ∀ x ∈ cvtQuantToFp4Ints sfVecSize rowIdx colIdx numCols, FitsInt x then
    cvtQuantToFp4GetSfOutOffset numThreadsPerSf sfVecSize threadIdx rowIdx colIdx numCols
  else none

/-- Threads of a block of the quantisation kernels. -/
def cvtBlockDim (numCols : ℕ) : ℕ := min (numCols / cvtFp4EltsPerThread) 512

/-- Column of a thread in round `i` of its column loop. -/
def cvtColIdx (numCols threadIdx i : ℕ) : ℕ := threadIdx + i * cvtBlockDim numCols

def roundUp (x m : ℕ) : ℕ := (x + m - 1) / m * m

/-- `swizzle_blockscale` on a batch of matrices, before the final reshape of the batch. -/
def swizzleBatch {α : Type*} (zero : α) (scale : Tensor α) (B M K : ℕ) : Tensor α :=
  let mPadded := roundUp M 128
  let kPadded := roundUp K 4
  let padded := (Tensor.full [B, mPadded, kPadded] zero).assignSlice scale
  (padded.reshape [B, mPadded / 128, 4, 32, kPadded / 4, 4]).permute [0, 1, 4, 3, 2, 5]

/-- `swizzle_blockscale` of a matrix of shape `[M, K]`. -/
def swizzleBlockscale {α : Type*} (zero : α) (scale : Tensor α) (M K : ℕ) : Tensor α :=
  (swizzleBatch zero (scale.reshape [1, M, K]) 1 M K).reshape [roundUp M 128, roundUp K 4]

/-- Shape and multi-index of the five-dimensional interleaving. -/
def swizzleShape (M kBlocks : ℕ) : List ℕ := [(M + 127) / 128, (kBlocks + 3) / 4, 32, 4, 4]

def swizzleIndex (m kBlock : ℕ) : List ℕ := [m / 128, kBlock / 4, m % 32, m % 128 / 32, kBlock % 4]

lemma inBounds_swizzleIndex {M kBlocks m kBlock : ℕ} (hm : m < M) (hk : kBlock < kBlocks) :
    InBounds (swizzleShape M kBlocks) (swizzleIndex m kBlock) := by
  simp only [InBounds, swizzleShape, swizzleIndex, List.forall₂_cons, List.forall₂_nil_left_iff,
    and_true]
  refine ⟨?_, ?_, ?_, ?_, ?_⟩ <;> omega

lemma swizzleShape_prod (M kBlocks : ℕ) :
    (swizzleShape M kBlocks).prod = roundUp M 128 * roundUp kBlocks 4 := by
  simp only [swizzleShape, roundUp, List.prod_cons, List.prod_nil]
  rw [show M + 128 - 1 = M + 127 by omega, show kBlocks + 4 - 1 = kBlocks + 3 by omega]
  ring

/-- Blocks of four blocks, counted in one division or in two. -/
lemma ceil_ceil {BLKSZ : ℕ} (hpos : 0 < BLKSZ) (K : ℕ) :
    ((K + BLKSZ - 1) / BLKSZ + 4 - 1) / 4 = (K + BLKSZ * 4 - 1) / (BLKSZ * 4) := by
  rw [← Nat.div_div_eq_div_mul]
  congr 1
  rw [show K + BLKSZ * 4 - 1 = K + BLKSZ - 1 + BLKSZ * 3 by omega,
    Nat.add_mul_div_left _ _ hpos]
  rfl

lemma swizzledIdx_eq_ravel (BLKSZ m kBlock K M : ℕ) :
    Swizzle.swizzledIdx BLKSZ m kBlock K =
      ravel (swizzleShape M ((K + BLKSZ - 1) / BLKSZ)) (swizzleIndex m kBlock) := by
  have hrow : m % 128 % 32 = m % 32 := by omega
  simp only [Swizzle.swizzledIdx, Swizzle.mTileSize, Swizzle.kBlocksPerTile, swizzleShape,
    swizzleIndex, ravel, List.prod_cons, List.prod_nil, hrow]
  rw [Nat.add_sub_assoc (by norm_num : 1 ≤ 4)]
  ring

lemma cvtQuantToFp4GetSfOutOffset_eq {BLKSZ n : ℕ} (hpos : 0 < BLKSZ) (threadIdx m colIdx K : ℕ) :
    cvtQuantToFp4GetSfOutOffset n BLKSZ threadIdx m colIdx K =
      if threadIdx % n = 0 then some (Swizzle.swizzledIdx BLKSZ m (colIdx / n) K) else none := by
  have hrow : m % 128 % 32 = m % 32 := by omega
  simp only [cvtQuantToFp4GetSfOutOffset, Swizzle.swizzledIdx, Swizzle.mTileSize,
    Swizzle.kBlocksPerTile, ceil_ceil hpos, hrow]
  congr 2
  ring

lemma ravel_padded (Mp q m kBlock : ℕ) :
    ravel [1, Mp, 4, 32, q, 4] [0, m / 128, m % 128 / 32, m % 32, kBlock / 4, kBlock % 4] =
      m * (4 * q) + kBlock := by
  have hm : m = 128 * (m / 128) + 32 * (m % 128 / 32) + m % 32 := by omega
  have hk : kBlock = 4 * (kBlock / 4) + kBlock % 4 := by omega
  conv_rhs => rw [hm, hk]
  simp only [ravel, List.prod_cons, List.prod_nil]
  ring

/-- The PyTorch path puts the scale of row `m` and block `kBlock` at that position. -/
lemma swizzleBlockscale_data {α : Type*} (zero : α) (scale : Tensor α) {M K m kBlock : ℕ}
    (hm : m < M) (hk : kBlock < K) :
    (swizzleBlockscale zero scale M K).data (ravel (swizzleShape M K) (swizzleIndex m kBlock)) =
      scale.data (m * K + kBlock) := by
  have hq : roundUp K 4 / 4 = (K + 3) / 4 := by
    rw [roundUp, Nat.mul_div_cancel _ (by norm_num), Nat.add_sub_assoc (by norm_num)]
  have hp : roundUp M 128 / 128 = (M + 127) / 128 := by
    rw [roundUp, Nat.mul_div_cancel _ (by norm_num), Nat.add_sub_assoc (by norm_num)]
  have hstride : roundUp K 4 = 4 * (roundUp K 4 / 4) := by
    rw [roundUp, Nat.mul_div_cancel _ (by norm_num), Nat.mul_comm]
  have hmp : m < roundUp M 128 := by
    rw [roundUp]
    omega
  have hkp : kBlock < roundUp K 4 := by
    rw [roundUp]
    omega
  -- the position in the padded matrix, seen through the six axes
  have hbounds : InBounds [1, roundUp M 128 / 128, 4, 32, roundUp K 4 / 4, 4]
      [0, m / 128, m % 128 / 32, m % 32, kBlock / 4, kBlock % 4] := by
    simp only [InBounds, List.forall₂_cons, List.forall₂_nil_left_iff, and_true]
    refine ⟨?_, ?_, ?_, ?_, ?_, ?_⟩ <;> omega
  have hperm : [0, 1, 4, 3, 2, 5].Perm (List.range 6) := by decide
  have hpermute := Tensor.get_permute
    (t := ((Tensor.full [1, roundUp M 128, roundUp K 4] zero).assignSlice
      (scale.reshape [1, M, K])).reshape [1, roundUp M 128 / 128, 4, 32, roundUp K 4 / 4, 4])
    hbounds hperm
  have hslice := Tensor.get_assignSlice (Tensor.full [1, roundUp M 128, roundUp K 4] zero)
    (scale.reshape [1, M, K]) [0, m, kBlock]
    (by simp [InBounds, Tensor.full, hmp, hkp]) (by simp [InBounds, Tensor.reshape, hm, hk])
  have hflat : ravel [1, roundUp M 128 / 128, 4, 32, roundUp K 4 / 4, 4]
      [0, m / 128, m % 128 / 32, m % 32, kBlock / 4, kBlock % 4] =
      ravel [1, roundUp M 128, roundUp K 4] [0, m, kBlock] := by
    rw [ravel_padded, ← hstride]
    simp [ravel]
  have htarget : ravel (swizzleShape M K) (swizzleIndex m kBlock) =
      ravel [1, roundUp M 128 / 128, roundUp K 4 / 4, 32, 4, 4]
        [0, m / 128, kBlock / 4, m % 32, m % 128 / 32, kBlock % 4] := by
    rw [hp, hq]
    simp [ravel, swizzleShape, swizzleIndex]
  rw [htarget]
  refine hpermute.trans ?_
  change Tensor.data _ (ravel [1, roundUp M 128 / 128, 4, 32, roundUp K 4 / 4, 4]
    [0, m / 128, m % 128 / 32, m % 32, kBlock / 4, kBlock % 4]) = _
  rw [hflat]
  refine hslice.trans ?_
  simp [Tensor.get, Tensor.reshape, ravel]

/-- `sf` holds the swizzled form of a linear scale matrix, with any padding. -/
def IsSwizzledForm (M kBlocks : ℕ) (linear : ℕ → ℕ → Byte) (sf : ℕ → Byte) : Prop :=
  ∀ m < M, ∀ kb < kBlocks, sf (ravel (swizzleShape M kBlocks) (swizzleIndex m kb)) = linear m kb

lemma isSwizzledForm_swizzleBlockscale (scale : Tensor Byte) (M kBlocks : ℕ) :
    IsSwizzledForm M kBlocks (fun m kb => scale.data (m * kBlocks + kb))
      (swizzleBlockscale 0#8 scale M kBlocks).data :=
  fun _ hm _ hkb => swizzleBlockscale_data 0#8 scale hm hkb

lemma ceil_of_dvd {BLKSZ K : ℕ} (hpos : 0 < BLKSZ) (hdvd : BLKSZ ∣ K) :
    (K + BLKSZ - 1) / BLKSZ = K / BLKSZ := by
  obtain ⟨q, rfl⟩ := hdvd
  rw [Nat.mul_div_cancel_left _ hpos, Nat.add_sub_assoc hpos, Nat.mul_add_div hpos,
    Nat.div_eq_of_lt (by omega), Nat.add_zero]

lemma isSwizzledForm_iff {BLKSZ K M : ℕ} (hpos : 0 < BLKSZ) (hdvd : BLKSZ ∣ K)
    {linear : ℕ → ℕ → Byte} {sf : ℕ → Byte} : IsSwizzledForm M (K / BLKSZ) linear sf ↔
      ∀ m < M, ∀ kb < K / BLKSZ, Swizzle.readScale BLKSZ sf m kb K = linear m kb := by
  simp only [IsSwizzledForm, Swizzle.readScale, swizzledIdx_eq_ravel BLKSZ _ _ K M,
    ceil_of_dvd hpos hdvd]

/-- Each block of a row is reached by a thread that writes its scale. -/
lemma exists_sf_writer {n q kb : ℕ} (hn : n = 2 ∨ n = 4) (hkb : kb < q) :
    ∃ threadIdx < cvtBlockDim (8 * n * q), ∃ i, cvtColIdx (8 * n * q) threadIdx i < n * q ∧
      cvtColIdx (8 * n * q) threadIdx i / n = kb ∧ threadIdx % n = 0 := by
  have hcols : 8 * n * q / cvtFp4EltsPerThread = n * q := by
    rw [cvtFp4EltsPerThread, Nat.mul_assoc, Nat.mul_div_cancel_left _ (by norm_num)]
  have hlt : kb * n < n * q := by
    rw [Nat.mul_comm]
    exact Nat.mul_lt_mul_of_pos_left hkb (by omega)
  have hdim : 0 < cvtBlockDim (8 * n * q) ∧ n ∣ cvtBlockDim (8 * n * q) := by
    rw [cvtBlockDim, hcols]
    rcases min_choice (n * q) 512 with h | h
    · rw [h]
      exact ⟨by omega, Nat.dvd_mul_right n q⟩
    · rw [h]
      exact ⟨by norm_num, by rcases hn with rfl | rfl <;> decide⟩
  have hcol : cvtColIdx (8 * n * q) (kb * n % cvtBlockDim (8 * n * q))
      (kb * n / cvtBlockDim (8 * n * q)) = kb * n := Nat.mod_add_div' _ _
  refine ⟨kb * n % cvtBlockDim (8 * n * q), Nat.mod_lt _ hdim.1, kb * n / cvtBlockDim (8 * n * q),
    ?_, ?_, ?_⟩
  · rwa [hcol]
  · rw [hcol, Nat.mul_div_cancel _ (by omega)]
  · rw [Nat.mod_mod_of_dvd _ hdim.2, Nat.mul_mod_left]

/-- Elements of the padded scale tensor. -/
def scaleCount (rows kBlocks : ℕ) : ℕ := roundUp rows 128 * roundUp kBlocks 4

lemma scaleCount_eq (rows kBlocks : ℕ) :
    scaleCount rows kBlocks = 512 * ((rows + 127) / 128 * ((kBlocks + 3) / 4)) := by
  rw [scaleCount, ← swizzleShape_prod]
  simp only [swizzleShape, List.prod_cons, List.prod_nil]
  ring

lemma swizzledIdx_block (BLKSZ m kb K : ℕ) :
    let block := kb / 4 + ((K + BLKSZ - 1) / BLKSZ + 3) / 4 * (m / 128)
    512 * block ≤ Swizzle.swizzledIdx BLKSZ m kb K ∧
      Swizzle.swizzledIdx BLKSZ m kb K < 512 * (block + 1) := by
  dsimp only
  simp only [Swizzle.swizzledIdx, Swizzle.mTileSize, Swizzle.kBlocksPerTile]
  rw [Nat.add_sub_assoc (by norm_num : 1 ≤ 4)]
  generalize ((K + BLKSZ - 1) / BLKSZ + (4 - 1)) / 4 * (m / 128) = base
  omega

lemma forall_swizzledIdx_iff (BLKSZ rows K : ℕ) :
    (∀ m < rows, ∀ kb < (K + BLKSZ - 1) / BLKSZ, FitsInt (Swizzle.swizzledIdx BLKSZ m kb K)) ↔
      scaleCount rows ((K + BLKSZ - 1) / BLKSZ) ≤ 2 ^ 31 := by
  have hblock := swizzledIdx_block BLKSZ
  dsimp only at hblock
  rw [scaleCount_eq]
  constructor
  · intro h
    generalize hq : (K + BLKSZ - 1) / BLKSZ = q at h hblock ⊢
    rcases Nat.eq_zero_or_pos rows with hrows | hrows
    · rw [hrows]
      norm_num
    rcases Nat.eq_zero_or_pos q with hzero | hpos
    · rw [hzero]
      norm_num
    -- the last row and the last block are in the last tile
    have hlast := h (rows - 1) (by omega) (q - 1) (by omega)
    have hlow := (hblock (rows - 1) (q - 1) K).1
    rw [hq] at hlow
    have htile : (rows - 1) / 128 + 1 = (rows + 127) / 128 := by omega
    have hktile : (q - 1) / 4 + 1 = (q + 3) / 4 := by omega
    have hcount : (rows + 127) / 128 * ((q + 3) / 4) =
        (q - 1) / 4 + (q + 3) / 4 * ((rows - 1) / 128) + 1 := by
      rw [← htile, Nat.add_mul, Nat.one_mul, Nat.mul_comm ((rows - 1) / 128)]
      omega
    rw [FitsInt] at hlast
    omega
  · intro h m hm kb hkb
    obtain ⟨-, hhigh⟩ := hblock m kb K
    generalize (K + BLKSZ - 1) / BLKSZ = q at h hkb hhigh
    have hktile : kb / 4 + 1 ≤ (q + 3) / 4 := by omega
    have htile : m / 128 + 1 ≤ (rows + 127) / 128 := by omega
    have hbound : kb / 4 + (q + 3) / 4 * (m / 128) + 1 ≤ (rows + 127) / 128 * ((q + 3) / 4) :=
      calc kb / 4 + (q + 3) / 4 * (m / 128) + 1 ≤ (m / 128 + 1) * ((q + 3) / 4) := by
            rw [Nat.add_mul, Nat.one_mul, Nat.mul_comm (m / 128)]
            omega
        _ ≤ (rows + 127) / 128 * ((q + 3) / 4) := Nat.mul_le_mul_right _ htile
    rw [FitsInt]
    omega

section Layout
variable {BLKSZ M K : ℕ}

lemma swizzledIdx_injective (hpos : 0 < BLKSZ) (hdvd : BLKSZ ∣ K) {m m' kb kb' : ℕ} (hm : m < M)
    (hkb : kb < K / BLKSZ) (hm' : m' < M) (hkb' : kb' < K / BLKSZ)
    (h : Swizzle.swizzledIdx BLKSZ m kb K = Swizzle.swizzledIdx BLKSZ m' kb' K) :
    m = m' ∧ kb = kb' := by
  rw [swizzledIdx_eq_ravel BLKSZ m kb K M, swizzledIdx_eq_ravel BLKSZ m' kb' K M,
    ceil_of_dvd hpos hdvd] at h
  have hidx := ravel_injective (inBounds_swizzleIndex hm hkb) (inBounds_swizzleIndex hm' hkb') h
  simp only [swizzleIndex, List.cons.injEq, and_true] at hidx
  omega

lemma swizzledIdx_lt (hpos : 0 < BLKSZ) (hdvd : BLKSZ ∣ K) {m kb : ℕ} (hm : m < M)
    (hkb : kb < K / BLKSZ) : Swizzle.swizzledIdx BLKSZ m kb K < scaleCount M (K / BLKSZ) := by
  rw [swizzledIdx_eq_ravel BLKSZ m kb K M, ceil_of_dvd hpos hdvd, scaleCount, ← swizzleShape_prod]
  exact ravel_lt (inBounds_swizzleIndex hm hkb)

/-- The bytes of a row of tiles are what the writer counts in 32 bits. -/
lemma tileStride_eq (hpos : 0 < BLKSZ) (hdvd : BLKSZ ∣ K) :
    (K + BLKSZ * 4 - 1) / (BLKSZ * 4) * 32 * 4 * 4 = 128 * roundUp (K / BLKSZ) 4 := by
  rw [← ceil_ceil hpos, ceil_of_dvd hpos hdvd, roundUp]
  ring

/-- A scale tensor that fits has few rows and few columns. -/
lemma le_scaleCount (hkb : 0 < K / BLKSZ) : 4 * M ≤ scaleCount M (K / BLKSZ) := by
  have hrows : M ≤ roundUp M 128 := by
    rw [roundUp]
    omega
  have hcols : 4 ≤ roundUp (K / BLKSZ) 4 := by
    rw [roundUp]
    omega
  calc 4 * M = M * 4 := Nat.mul_comm 4 M
    _ ≤ scaleCount M (K / BLKSZ) := Nat.mul_le_mul hrows hcols

/-- The 32-bit arithmetic of a row of tiles is in range. -/
def RowInRange (BLKSZ K : ℕ) : Prop := roundUp (K / BLKSZ) 4 < 2 ^ 24

instance (BLKSZ K : ℕ) : Decidable (RowInRange BLKSZ K) :=
  inferInstanceAs (Decidable (roundUp (K / BLKSZ) 4 < 2 ^ 24))

lemma lt_of_rowInRange (hblk : BLKSZ = 16 ∨ BLKSZ = 32) (hdvd : BLKSZ ∣ K)
    (h : RowInRange BLKSZ K) : K ≤ 2 ^ 29 := by
  have hround : K / BLKSZ ≤ roundUp (K / BLKSZ) 4 := by
    rw [roundUp]
    omega
  rw [RowInRange] at h
  have hK := Nat.div_mul_cancel hdvd
  rcases hblk with rfl | rfl <;> omega

lemma forall_readScaleInts_iff (hblk : BLKSZ = 16 ∨ BLKSZ = 32) {m kb : ℕ} (hm : m ≤ M) (hkb : kb ≤ K)
    (hM : M < 2 ^ 31) (hK : K + 64 < 2 ^ 31) :
    (∀ x ∈ Swizzle.readScaleInts BLKSZ m kb M K, FitsInt x) ↔
      FitsInt (Swizzle.swizzledIdx BLKSZ m kb K) := by
  refine ⟨fun h => h _ (by simp [Swizzle.readScaleInts]), fun hidx => ?_⟩
  have hblocks : (K + BLKSZ - 1) / BLKSZ ≤ K + 1 := by
    rcases hblk with rfl | rfl <;> omega
  have hnested : Swizzle.swizzledIdx BLKSZ m kb K = kb % 4 + 4 * (m % 128 / 32 + 4 *
      (m % 128 % 32 + 32 * (kb / 4 +
        ((K + BLKSZ - 1) / BLKSZ + 4 - 1) / 4 * (m / 128)))) := rfl
  rw [hnested] at hidx
  simp only [Swizzle.readScaleInts, Swizzle.kBlocksPerTile, Swizzle.mTileSize,
    List.forall_mem_cons, List.not_mem_nil, false_imp_iff, implies_true, and_true, hnested]
  generalize ((K + BLKSZ - 1) / BLKSZ + 4 - 1) / 4 * (m / 128) = base at hidx ⊢
  simp only [fitsInt_iff] at hidx ⊢
  refine ⟨?_, ?_, ?_, ?_, ?_, ?_, ?_, ?_, ?_, ?_⟩ <;> omega

lemma readScaleOffset_eq (hblk : BLKSZ = 16 ∨ BLKSZ = 32) {m kb : ℕ} (hm : m < M)
    (hkb : kb < K / BLKSZ) (hM : M < 2 ^ 31) (hK : K + 64 < 2 ^ 31)
    (hidx : FitsInt (Swizzle.swizzledIdx BLKSZ m kb K)) :
    Swizzle.readScaleOffset BLKSZ m kb M K = some (Swizzle.swizzledIdx BLKSZ m kb K) :=
  if_pos ((forall_readScaleInts_iff hblk hm.le (hkb.le.trans (Nat.div_le_self K BLKSZ)) hM hK).mpr hidx)

lemma writeScaleOffset_eq (hblk : BLKSZ = 16 ∨ BLKSZ = 32) (hdvd : BLKSZ ∣ K) {m kb : ℕ}
    (hm : m < 2 ^ 31) (hrow : RowInRange BLKSZ K) (hkb : kb < K / BLKSZ) (threadIdx : ℕ)
    {colIdx : ℕ} (hcol : colIdx / (BLKSZ / cvtFp4EltsPerThread) = kb) :
    writeScaleOffset (BLKSZ / cvtFp4EltsPerThread) BLKSZ threadIdx m colIdx K =
      if threadIdx % (BLKSZ / cvtFp4EltsPerThread) = 0 then
        some (Swizzle.swizzledIdx BLKSZ m kb K) else none := by
  have hpos : 0 < BLKSZ := by omega
  have hK := lt_of_rowInRange hblk hdvd hrow
  have hstride := tileStride_eq hpos hdvd
  have hcols : colIdx < K := by
    have hcancel := Nat.div_mul_cancel hdvd
    rcases hblk with rfl | rfl <;> simp only [cvtFp4EltsPerThread] at hcol <;> omega
  rw [writeScaleOffset, if_pos, cvtQuantToFp4GetSfOutOffset_eq hpos, hcol]
  simp only [cvtQuantToFp4Ints, hstride, List.forall_mem_cons, List.not_mem_nil, false_imp_iff,
    implies_true, and_true, fitsInt_iff]
  rw [RowInRange] at hrow
  refine ⟨hm, ?_, ?_, ?_, ?_⟩ <;> omega

/-- The reader reads the scale of a row and a block where the threads for this block write it and,
in blocks of 16, where the PyTorch path places it. The offsets are distinct and inside the scale
tensor. -/
structure ScaleAgrees (BLKSZ M K m kb : ℕ) (offset : ℕ) : Prop where
  read : Swizzle.readScaleOffset BLKSZ m kb M K = some offset
  written : ∀ threadIdx colIdx, colIdx / (BLKSZ / cvtFp4EltsPerThread) = kb →
    threadIdx % (BLKSZ / cvtFp4EltsPerThread) = 0 →
      writeScaleOffset (BLKSZ / cvtFp4EltsPerThread) BLKSZ threadIdx m colIdx K = some offset
  writer : ∃ threadIdx < cvtBlockDim K, ∃ i, cvtColIdx K threadIdx i < K / cvtFp4EltsPerThread ∧
    cvtColIdx K threadIdx i / (BLKSZ / cvtFp4EltsPerThread) = kb ∧
      threadIdx % (BLKSZ / cvtFp4EltsPerThread) = 0
  placed : BLKSZ = 16 → ∀ scale : Tensor Byte,
    (swizzleBlockscale 0#8 scale M (K / BLKSZ)).data offset = scale.data (m * (K / BLKSZ) + kb)
  injective : ∀ m' < M, ∀ kb' < K / BLKSZ,
    Swizzle.readScaleOffset BLKSZ m' kb' M K = some offset → m = m' ∧ kb = kb'
  inside : offset < roundUp M 128 * roundUp (K / BLKSZ) 4

/-- Each block of a row has a thread that writes its scale. -/
lemma exists_writer (hblk : BLKSZ = 16 ∨ BLKSZ = 32) (hdvd : BLKSZ ∣ K) {kb : ℕ}
    (hkb : kb < K / BLKSZ) :
    ∃ threadIdx < cvtBlockDim K, ∃ i, cvtColIdx K threadIdx i < K / cvtFp4EltsPerThread ∧
      cvtColIdx K threadIdx i / (BLKSZ / cvtFp4EltsPerThread) = kb ∧
        threadIdx % (BLKSZ / cvtFp4EltsPerThread) = 0 := by
  obtain ⟨q, rfl⟩ := hdvd
  obtain ⟨n, hn, rfl⟩ : ∃ n, (n = 2 ∨ n = 4) ∧ BLKSZ = 8 * n := by
    rcases hblk with rfl | rfl
    · exact ⟨2, Or.inl rfl, rfl⟩
    · exact ⟨4, Or.inr rfl, rfl⟩
  rw [Nat.mul_div_cancel_left _ (by omega : 0 < 8 * n)] at hkb
  obtain ⟨threadIdx, hthread, i, hbound, hblock, hfirst⟩ := exists_sf_writer hn hkb
  have hcols : 8 * n * q / cvtFp4EltsPerThread = n * q := by
    rw [cvtFp4EltsPerThread, Nat.mul_assoc, Nat.mul_div_cancel_left _ (by norm_num)]
  have hper : 8 * n / cvtFp4EltsPerThread = n := Nat.mul_div_cancel_left _ (by decide)
  refine ⟨threadIdx, hthread, i, by rwa [hcols], ?_, ?_⟩
  · rw [hper, hblock]
  · rw [hper, hfirst]

lemma scaleAgrees_of_inRange (hblk : BLKSZ = 16 ∨ BLKSZ = 32) (hdvd : BLKSZ ∣ K)
    (hcount : scaleCount M (K / BLKSZ) ≤ 2 ^ 31) (hrow : RowInRange BLKSZ K) {m kb : ℕ} (hm : m < M)
    (hkb : kb < K / BLKSZ) : ScaleAgrees BLKSZ M K m kb (Swizzle.swizzledIdx BLKSZ m kb K) := by
  have hpos : 0 < BLKSZ := by omega
  have hblocks := ceil_of_dvd hpos hdvd
  have hK := lt_of_rowInRange hblk hdvd hrow
  have hM := le_scaleCount (M := M) (Nat.zero_lt_of_lt hkb)
  have hoffsets := (forall_swizzledIdx_iff BLKSZ M K).mpr (by rwa [hblocks])
  rw [hblocks] at hoffsets
  have hread : ∀ m < M, ∀ kb < K / BLKSZ, Swizzle.readScaleOffset BLKSZ m kb M K =
      some (Swizzle.swizzledIdx BLKSZ m kb K) := fun m hm kb hkb =>
    readScaleOffset_eq hblk hm hkb (by omega) (by omega) (hoffsets m hm kb hkb)
  refine ⟨hread m hm kb hkb, ?_, exists_writer hblk hdvd hkb, ?_, ?_,
    swizzledIdx_lt hpos hdvd hm hkb⟩
  · intro threadIdx colIdx hcol hfirst
    rw [writeScaleOffset_eq hblk hdvd (by omega) hrow hkb threadIdx hcol, if_pos hfirst]
  · intro _ scale
    rw [swizzledIdx_eq_ravel BLKSZ m kb K M, hblocks, swizzleBlockscale_data 0#8 scale hm hkb]
  · intro m' hm' kb' hkb' hsame
    rw [hread m' hm' kb' hkb', Option.some.injEq] at hsame
    exact swizzledIdx_injective hpos hdvd hm hkb hm' hkb' hsame.symm

lemma ScaleAgrees.fitsInt {m kb offset : ℕ} (h : ScaleAgrees BLKSZ M K m kb offset) :
    FitsInt (Swizzle.swizzledIdx BLKSZ m kb K) := by
  have hread := h.read
  rw [Swizzle.readScaleOffset] at hread
  split_ifs at hread with hints
  exact hints _ (by simp [Swizzle.readScaleInts])

lemma ScaleAgrees.rowInRange (hdvd : BLKSZ ∣ K) (hpos : 0 < BLKSZ) {m offset : ℕ}
    (h : ScaleAgrees BLKSZ M K m 0 offset) : RowInRange BLKSZ K := by
  have hwritten := h.written 0 0 (Nat.zero_div _) (Nat.zero_mod _)
  rw [writeScaleOffset] at hwritten
  split_ifs at hwritten with hints
  have hstride := hints ((K + BLKSZ * 4 - 1) / (BLKSZ * 4) * 32 * 4 * 4)
    (by simp [cvtQuantToFp4Ints])
  rw [tileStride_eq hpos hdvd, fitsInt_iff] at hstride
  rw [RowInRange]
  omega

/-- All writers and readers of the layout agree if and only if there is no row, or the padded scale
tensor is not too large for the offsets of the reader and its rows for the strides of the writer. -/
theorem swizzled_layout_agrees_iff (hblk : BLKSZ = 16 ∨ BLKSZ = 32) (hdvd : BLKSZ ∣ K) :
    (∀ m < M, ∀ kb < K / BLKSZ, ∃ offset, ScaleAgrees BLKSZ M K m kb offset) ↔
      M = 0 ∨ scaleCount M (K / BLKSZ) ≤ 2 ^ 31 ∧ RowInRange BLKSZ K := by
  have hpos : 0 < BLKSZ := by omega
  have hblocks := ceil_of_dvd hpos hdvd
  constructor
  · intro h
    rcases Nat.eq_zero_or_pos M with hM | hM
    · exact Or.inl hM
    refine Or.inr ⟨?_, ?_⟩
    · rw [← hblocks, ← forall_swizzledIdx_iff]
      intro m hm kb hkb
      obtain ⟨offset, hagrees⟩ := h m hm kb (hblocks ▸ hkb)
      exact hagrees.fitsInt
    · rcases Nat.eq_zero_or_pos (K / BLKSZ) with hnone | hsome
      · rw [RowInRange, hnone, roundUp]
        norm_num
      · obtain ⟨offset, hagrees⟩ := h 0 hM 0 hsome
        exact hagrees.rowInRange hdvd hpos
  · rintro (rfl | ⟨hcount, hrow⟩) m hm kb hkb
    · cases hm
    · exact ⟨_, scaleAgrees_of_inRange hblk hdvd hcount hrow hm hkb⟩

/-- Both dimensions of 130 rows with 6 blocks are padded. -/
theorem swizzled_layout_agrees_iff_padded :
    ∃ offset, ScaleAgrees 16 130 96 33 5 offset :=
  (swizzled_layout_agrees_iff (Or.inl rfl) (by decide)).mpr
    (Or.inr ⟨by decide, by decide⟩) 33 (by decide) 5 (by decide)

/-- The scales of `2^20` rows with `2^12` blocks need offsets up to `2^32 - 1`. -/
theorem swizzled_offset_overflows :
    ¬ ∀ m < 2 ^ 20, ∀ kb < 2 ^ 16 / 16, ∃ offset, ScaleAgrees 16 (2 ^ 20) (2 ^ 16) m kb offset := by
  intro h
  obtain ⟨offset, hagrees⟩ := h (2 ^ 20 - 1) (by norm_num) (2 ^ 12 - 1) (by norm_num)
  have hread : Swizzle.readScaleOffset 16 (2 ^ 20 - 1) (2 ^ 12 - 1) (2 ^ 20) (2 ^ 16) = none := by
    decide
  rw [hagrees.read] at hread
  cases hread

end Layout

end MmaEmu
