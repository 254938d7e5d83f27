import Mathlib.Tactic.Ring
import VllmMmaEmu.Attention.LocalChunks
import VllmMmaEmu.Library.Numpy

/-!
# Virtual batches for local attention

`make_local_attention_virtual_batches` of `vllm/v1/attention/backends/utils.py`: every chunk that has
query tokens of a request becomes a request of its own, with its own row of the block table.
-/

namespace VllmV1

open Python Numpy Segments

/-- The numbers of repetitions that `np.repeat` accepts. -/
def toCounts (counts : List Int) : Except PyError (List Nat) :=
  if ∀ n ∈ counts, 0 ≤ n then .ok (counts.map Int.toNat)
  else .error (.valueError "repeats may not contain negative values.")

lemma toCounts_map_cast (counts : List Nat) : toCounts (counts.map Nat.cast) = .ok counts := by
  have hall : ∀ n ∈ counts.map (Nat.cast : Nat → Int), 0 ≤ n := by
    intro n hn
    obtain ⟨m, _, rfl⟩ := List.mem_map.mp hn
    exact Int.natCast_nonneg m
  have hcast : Int.toNat ∘ Nat.cast = (id : Nat → Nat) := funext Int.toNat_natCast
  rw [toCounts, if_pos hall, List.map_map, hcast, List.map_id]

/-- `xs[mask] = values` -/
def setMask {α : Type} (xs : List α) (mask : List Bool) (values : List α) :
    Except PyError (List α) :=
  if (nonzero mask).length = values.length then .ok (scatter xs ((nonzero mask).zip values))
  else .error (.valueError "cannot assign input values to the output values where the mask is true")

/-- `table[row, col]`, where a negative column counts from the end. -/
def tableItem (table : List (List Int)) (row : Nat) (col : Int) : Except PyError Int := do
  let items ← pyIndex table row
  let index := if col < 0 then col + items.length else col
  if index < 0 then .error .indexError
  else pyIndex items index.toNat

/-- `xs.view(rows, -1)` -/
def viewRows {α : Type} (xs : List α) (rows : Nat) : Except PyError (List (List α)) :=
  if rows = 0 ∨ xs.length % rows ≠ 0 then .error (.runtimeError "shape is invalid for input")
  else
    let width := xs.length / rows
    .ok ((List.range rows).map fun i => slice xs (i * width) ((i + 1) * width))

/-- `block_table.shape[1]` -/
def CommonAttentionMetadata.tableWidth (m : CommonAttentionMetadata) : Nat :=
  (m.blockTableTensor.headD []).length

def makeLocalAttentionVirtualBatches (attnChunkSize : Nat) (m : CommonAttentionMetadata)
    (blockSize : Nat) : Except PyError CommonAttentionMetadata := do
  let chunk : Int := attnChunkSize
  let qSeqlens := diffs m.queryStartLocCpu
  let actualBatchSize := m.seqLensCpu.length
  let qTokensInFirstBlock := List.zipWith (fun s q => min (chunk - (s - q).fmod chunk) q)
    m.seqLensCpu qSeqlens
  let tokensInLastBlock := m.seqLensCpu.map fun s => chunk + s.fmod (-chunk)
  let qTokensInOtherBlocks := List.zipWith (· - ·) qSeqlens qTokensInFirstBlock
  let localBlocks ← toCounts (qTokensInOtherBlocks.map fun n => 1 + cdiv n chunk)
  -- a batched arange over the blocks of the requests, and the same backwards
  let cuNumBlocks := cumsum localBlocks
  match cuNumBlocks.getLast? with
  | none => .error .indexError
  | some virtualBatches => do
    let blockOffsets := npRepeat (List.zipWith (· - ·) cuNumBlocks localBlocks) localBlocks
    let arange := List.zipWith (· - ·) (List.range virtualBatches) blockOffsets
    let rarange := List.zipWith (fun n j => n - j - 1) (npRepeat localBlocks localBlocks) arange
    let seqlensQLocal ← setMask (npRepeat qTokensInOtherBlocks localBlocks)
      (arange.map (· == 0)) qTokensInFirstBlock
    -- the mask `arange > 0` on both sides
    let seqlensQLocal := List.zipWith
      (fun q (j : Nat) => if 0 < j then min (q - chunk * ((j : Int) - 1)) chunk else q)
      seqlensQLocal arange
    let cuSeqlensQLocal := 0 :: cumsum seqlensQLocal
    -- every request has a block, so the ends are not negative
    let seqlensKLocal := scatter (List.replicate virtualBatches chunk)
      ((cuNumBlocks.map (· - 1)).zip tokensInLastBlock)
    let numComputedTokensLocal := List.zipWith (· - ·) seqlensKLocal seqlensQLocal
    let kSeqstartsAbsolute := List.zipWith (· - ·) (npRepeat m.seqLensCpu localBlocks)
      (List.zipWith (fun (j : Nat) last => (j : Int) * chunk + last) rarange
        (npRepeat tokensInLastBlock localBlocks))
    let blockStarts := kSeqstartsAbsolute.map fun start => start.fdiv blockSize
    let remainder ← pyMod attnChunkSize blockSize
    pyAssert (remainder = 0)
    let pagesPerLocalBatch := attnChunkSize / blockSize
    let width : Int := m.tableWidth
    let blockIndices := (blockStarts.flatMap fun start =>
      (List.range pagesPerLocalBatch).map fun (i : Nat) => start + (i : Int)).map (min · (width - 1))
    let batchIndices := npRepeat (List.range actualBatchSize)
      (localBlocks.map (· * pagesPerLocalBatch))
    let blocks ← (batchIndices.zip blockIndices).mapM fun p => tableItem m.blockTableTensor p.1 p.2
    let blockTableLocal ← viewRows blocks virtualBatches
    let maxSeqLen ← tensorMax seqlensKLocal
    let maxQueryLen ← tensorMax seqlensQLocal
    return {
      queryStartLocCpu := cuSeqlensQLocal
      queryStartLoc := cuSeqlensQLocal
      seqLensCpu := seqlensKLocal
      seqLens := seqlensKLocal
      numComputedTokensCpu := numComputedTokensLocal
      numReqs := seqlensKLocal.length
      numActualTokens := m.numActualTokens
      maxQueryLen := maxQueryLen
      maxSeqLen := maxSeqLen
      blockTableTensor := blockTableLocal
      slotMapping := m.slotMapping
      causal := true }

section Formulas

variable {b : QueryBatch} {chunk r j : Nat}

lemma min_sub_fmod (hchunk : 0 < chunk) (r : Nat) :
    min ((chunk : Int) - ((b.seqLen r : Int) - len b.queryLens r).fmod chunk) (len b.queryLens r) =
      b.localQueryLen chunk r 0 := by
  have hseq : b.seqLen r = len b.computed r + len b.queryLens r := rfl
  have hcomputed : (b.seqLen r : Int) - len b.queryLens r = (len b.computed r : Nat) := by omega
  have hfirst := QueryBatch.computed_mem_first (b := b) (r := r) hchunk
  have hmod : len b.computed r % chunk = len b.computed r - b.blockStart chunk r 0 := by
    rw [Nat.mod_eq_sub_div_mul, QueryBatch.blockStart, Nat.add_zero]
  rw [hcomputed, Int.fmod_eq_emod_of_nonneg _ (Int.natCast_nonneg _), ← Int.natCast_emod, hmod,
    QueryBatch.localQueryLen, QueryBatch.queryStart_zero hchunk, QueryBatch.blockEnd,
    QueryBatch.blockStart_succ]
  omega

/-- A negative modulus counts back from the next multiple. -/
lemma fmod_neg_eq {s chunk start : Int} (hchunk : 0 < chunk) (hdvd : chunk ∣ start)
    (hlt : start < s) (hle : s ≤ start + chunk) : s.fmod (-chunk) = s - start - chunk := by
  obtain ⟨q, rfl⟩ := hdvd
  have hdiv : (-s) / chunk = -q - 1 := by
    have h := (Int.ediv_emod_unique (a := -s) (r := chunk * q + chunk - s) (q := -q - 1) hchunk).mpr
      ⟨by ring, by omega, by omega⟩
    exact h.1
  rw [Int.fmod_def, ← Int.neg_fdiv_neg, neg_neg, Int.fdiv_eq_ediv_of_nonneg _ hchunk.le, hdiv]
  ring

lemma add_fmod_neg (hchunk : 0 < chunk) (hquery : 0 < len b.queryLens r) :
    (chunk : Int) + (b.seqLen r : Int).fmod (-chunk) =
      b.localKeyLen chunk r (b.localBlocks chunk r - 1) := by
  have hlast := QueryBatch.last_mem_last hchunk hquery
  have hpos : 0 < b.localBlocks chunk r := QueryBatch.localBlocks_pos r
  have hdvd : (chunk : Int) ∣ (b.blockStart chunk r (b.localBlocks chunk r - 1) : Nat) :=
    Int.natCast_dvd_natCast.mpr (Nat.dvd_mul_left _ _)
  rw [fmod_neg_eq (Int.natCast_pos.mpr hchunk) hdvd (by omega) (by omega),
    QueryBatch.localKeyLen, QueryBatch.blockEnd_last hchunk hquery (by omega)]
  omega

lemma one_add_cdiv (hchunk : 0 < chunk) (hquery : 0 < len b.queryLens r) :
    1 + cdiv ((len b.queryLens r : Int) - b.localQueryLen chunk r 0) chunk =
      b.localBlocks chunk r := by
  have hpos : 0 < b.localBlocks chunk r := QueryBatch.localBlocks_pos r
  obtain ⟨n, hn⟩ : ∃ n, b.localBlocks chunk r = n + 1 := ⟨_, (Nat.succ_pred hpos.ne').symm⟩
  have hlast := QueryBatch.last_mem_last hchunk hquery
  have hfirst := QueryBatch.computed_mem_first (b := b) (r := r) hchunk
  have hseq : b.seqLen r = len b.computed r + len b.queryLens r := rfl
  have hstart := b.blockStart_eq chunk r n
  rw [hn, Nat.add_sub_cancel] at hlast
  have hrest : (0 : Int) ≤ n * chunk - (len b.queryLens r - b.localQueryLen chunk r 0) ∧
      (n * chunk - (len b.queryLens r - b.localQueryLen chunk r 0) : Int) < chunk := by
    have hblocks : n * chunk = 0 ∨ chunk ≤ n * chunk := by
      rcases Nat.eq_zero_or_pos n with rfl | hn
      · exact .inl (Nat.zero_mul chunk)
      · exact .inr (Nat.le_mul_of_pos_left chunk hn)
    rw [QueryBatch.localQueryLen, QueryBatch.queryStart_zero hchunk, QueryBatch.blockEnd,
      QueryBatch.blockStart_succ, ← Nat.cast_mul]
    omega
  have hdiv : -((len b.queryLens r : Int) - b.localQueryLen chunk r 0) / chunk = -n := by
    have h := (Int.ediv_emod_unique
      (a := -((len b.queryLens r : Int) - b.localQueryLen chunk r 0))
      (r := n * chunk - (len b.queryLens r - b.localQueryLen chunk r 0)) (q := -n)
      (Int.natCast_pos.mpr hchunk)).mpr ⟨by ring, hrest.1, hrest.2⟩
    exact h.1
  rw [cdiv_eq (Int.natCast_pos.mpr hchunk), hdiv, hn]
  omega

lemma min_sub_mul (hchunk : 0 < chunk) (hquery : 0 < len b.queryLens r)
    (hj : j + 1 < b.localBlocks chunk r) :
    min ((len b.queryLens r : Int) - b.localQueryLen chunk r 0 - chunk * j) chunk =
      b.localQueryLen chunk r (j + 1) := by
  have hseq : b.seqLen r = len b.computed r + len b.queryLens r := rfl
  have hlt := QueryBatch.blockStart_lt hchunk hquery hj
  have hfirst := QueryBatch.blockEnd_of_lt hchunk hquery (j := 0) (by omega)
  have hzero := QueryBatch.queryStart_lt_blockEnd hchunk hquery (j := 0) (by omega)
  have hstart := b.blockStart_eq chunk r (j + 1)
  rw [Nat.succ_mul, Nat.mul_comm] at hstart
  rw [QueryBatch.queryStart_zero hchunk] at hzero
  rw [QueryBatch.localQueryLen, QueryBatch.localQueryLen, QueryBatch.queryStart_zero hchunk,
    QueryBatch.queryStart_succ hchunk, hfirst, QueryBatch.blockEnd,
    QueryBatch.blockStart_succ r (j + 1), ← Nat.cast_mul]
  rw [hfirst, QueryBatch.blockStart_succ] at hzero
  rw [QueryBatch.blockStart_succ r 0]
  omega

lemma localKeyLen_eq (hchunk : 0 < chunk) (hquery : 0 < len b.queryLens r)
    (hj : j + 1 < b.localBlocks chunk r) : b.localKeyLen chunk r j = chunk := by
  rw [QueryBatch.localKeyLen, QueryBatch.blockEnd_of_lt hchunk hquery hj,
    QueryBatch.blockStart_succ, Nat.add_sub_cancel_left]

/-- The start of a block, counted from the end of the sequence. -/
lemma sub_mul_add (hchunk : 0 < chunk) (hquery : 0 < len b.queryLens r)
    (hj : j < b.localBlocks chunk r) :
    (b.seqLen r : Int) - ((b.localBlocks chunk r - j - 1 : Nat) * chunk +
      b.localKeyLen chunk r (b.localBlocks chunk r - 1)) = b.blockStart chunk r j := by
  have hlast := QueryBatch.last_mem_last hchunk hquery
  have hstart := b.blockStart_eq chunk r j
  have hend := b.blockStart_eq chunk r (b.localBlocks chunk r - 1)
  have hmul : (b.localBlocks chunk r - 1) * chunk =
      j * chunk + (b.localBlocks chunk r - j - 1) * chunk := by
    rw [← Nat.add_mul]
    congr 1
    omega
  rw [QueryBatch.localKeyLen, QueryBatch.blockEnd_last hchunk hquery (by omega), ← Nat.cast_mul]
  omega

end Formulas

end VllmV1
