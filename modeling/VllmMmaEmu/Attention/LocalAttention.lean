import Mathlib.Data.List.Intervals
import Mathlib.Data.Nat.ModEq
import VllmMmaEmu.Attention.VirtualBatches

/-!
# Local attention by virtual batches

The arrays of `make_local_attention_virtual_batches` block by block, and what the queries of the
virtual requests see: under causal attention the keys of their own chunk up to themselves, in the
pages where they were.
-/

namespace VllmV1

open Python Numpy Segments

namespace QueryBatch

variable (b : QueryBatch) (chunk : Nat)

/-- The numbers of blocks of the requests. -/
def blockCounts : List Nat := (List.range b.numReqs).map (b.localBlocks chunk)

/-- The numbers of query tokens of the virtual requests. -/
def virtualLens : List Nat := spread (b.blockCounts chunk) (b.localQueryLen chunk)

variable {b chunk} {r j t v k i : Nat}

lemma length_blockCounts : (b.blockCounts chunk).length = b.numReqs := by
  rw [blockCounts, List.length_map, List.length_range]

lemma len_blockCounts (hr : r < b.numReqs) :
    len (b.blockCounts chunk) r = b.localBlocks chunk r := by
  simp [len, blockCounts, List.getD_eq_getElem?_getD, List.getElem?_range hr]

lemma blockCounts_pos : ∀ n ∈ b.blockCounts chunk, 0 < n := by
  intro n hn
  obtain ⟨r, _, rfl⟩ := List.mem_map.mp hn
  exact localBlocks_pos r

lemma sum_blockCounts_pos (hreqs : 0 < b.numReqs) : 0 < (b.blockCounts chunk).sum := by
  have hfirst : Locates (b.blockCounts chunk) 0 0 0 :=
    ⟨(len_blockCounts hreqs).symm ▸ localBlocks_pos 0, rfl⟩
  exact hfirst.lt_sum

lemma lt_of_locates (h : Locates (b.blockCounts chunk) v r j) :
    r < b.numReqs ∧ j < b.localBlocks chunk r := by
  have hr : r < b.numReqs := length_blockCounts (b := b) ▸ h.lt_length
  exact ⟨hr, len_blockCounts hr ▸ h.lt⟩

lemma length_virtualLens : (b.virtualLens chunk).length = (b.blockCounts chunk).sum :=
  length_spread _ _

lemma virtualLens_eq_flatten :
    b.virtualLens chunk = ((List.range b.numReqs).map (b.localQueryLens chunk)).flatten := by
  rw [virtualLens, spread, length_blockCounts, List.flatMap_def]
  congr 1
  apply List.map_congr_left
  intro r hr
  rw [len_blockCounts (List.mem_range.mp hr), localQueryLens]

section

variable (hchunk : 0 < chunk) (hquery : ∀ r < b.numReqs, 0 < len b.queryLens r)

include hchunk hquery

lemma map_sum_localQueryLens :
    ((List.range b.numReqs).map (b.localQueryLens chunk)).map List.sum = b.queryLens := by
  have hsum : ∀ r ∈ List.range b.numReqs,
      (List.sum ∘ b.localQueryLens chunk) r = len b.queryLens r := fun r hr =>
    sum_localQueryLens hchunk (hquery r (List.mem_range.mp hr))
  rw [List.map_map, List.map_congr_left hsum, numReqs, map_len_range]

lemma sum_virtualLens : (b.virtualLens chunk).sum = b.numTokens := by
  rw [virtualLens_eq_flatten, List.sum_flatten, map_sum_localQueryLens hchunk hquery, numTokens]

/-- A query token is in the virtual request of its block. -/
lemma locates_virtualLens (h : Locates b.queryLens t r k)
    (h' : Locates (b.localQueryLens chunk r) k j i) :
    Locates (b.virtualLens chunk) t (start (b.blockCounts chunk) r + j) i := by
  have hr : r < b.numReqs := h.lt_length
  have hlengths : ((List.range b.numReqs).map (b.localQueryLens chunk)).map List.length =
      b.blockCounts chunk := by
    rw [List.map_map, blockCounts]
    exact List.map_congr_left fun r _ => length_localQueryLens r
  rw [← map_sum_localQueryLens hchunk hquery] at h
  have hget : ((List.range b.numReqs).map (b.localQueryLens chunk)).getD r [] =
      b.localQueryLens chunk r := by
    simp [List.getD_eq_getElem?_getD, List.getElem?_range hr]
  rw [virtualLens_eq_flatten, ← hlengths]
  exact h.flatten (hget.symm ▸ h')

/-- The virtual request of a query token belongs to its block. -/
lemma exists_block (h : Locates b.queryLens t r k) (hv : Locates (b.virtualLens chunk) t v i) :
    ∃ j, Locates (b.blockCounts chunk) v r j ∧ Locates (b.localQueryLens chunk r) k j i := by
  have hr : r < b.numReqs := h.lt_length
  have hk : k < (b.localQueryLens chunk r).sum := by
    rw [sum_localQueryLens hchunk (hquery r hr)]
    exact h.lt
  obtain ⟨j, i', hblock⟩ := exists_locates hk
  obtain ⟨rfl, rfl⟩ := hv.unique (locates_virtualLens hchunk hquery h hblock)
  have hj : j < b.localBlocks chunk r := length_localQueryLens (b := b) r ▸ hblock.lt_length
  exact ⟨j, ⟨by rwa [len_blockCounts hr], rfl⟩, hblock⟩

end

end QueryBatch

section Arrays

variable {b : QueryBatch} {chunk : Nat}

lemma zipWith_map_range {α β γ : Type} (n : Nat) (g : α → β → γ) (f : Nat → α) (f' : Nat → β) :
    List.zipWith g ((List.range n).map f) ((List.range n).map f') =
      (List.range n).map fun r => g (f r) (f' r) := by
  rw [List.zipWith_map, List.zipWith_self]

lemma setMask_first :
    setMask
        (npRepeat ((List.range b.numReqs).map fun r =>
          (len b.queryLens r : Int) - b.localQueryLen chunk r 0) (b.blockCounts chunk))
        ((spread (b.blockCounts chunk) fun _ j => j).map (· == 0))
        ((List.range b.numReqs).map fun r => (b.localQueryLen chunk r 0 : Int)) =
      .ok (spread (b.blockCounts chunk) fun r j => if j = 0 then (b.localQueryLen chunk r 0 : Int)
        else (len b.queryLens r : Int) - b.localQueryLen chunk r 0) := by
  have hlength : (b.blockCounts chunk).length = b.numReqs := QueryBatch.length_blockCounts
  have hpos : ∀ r < (b.blockCounts chunk).length, 0 < len (b.blockCounts chunk) r :=
    fun r hr => QueryBatch.blockCounts_pos _ (List.mem_of_getElem? (getElem?_len hr))
  have hmask : nonzero ((spread (b.blockCounts chunk) fun _ j => j).map (· == 0)) =
      (List.range b.numReqs).map (start (b.blockCounts chunk)) := by
    rw [map_spread, nonzero_first QueryBatch.blockCounts_pos, hlength]
  have hscatter := scatter_spread _ hpos
    (fun r _ => (len b.queryLens r : Int) - b.localQueryLen chunk r 0)
    fun r => (b.localQueryLen chunk r 0 : Int)
  rw [hlength] at hscatter
  rw [setMask, hmask, if_pos (by simp), List.zip_map', ← hlength, npRepeat_eq_spread, hlength]
  exact congrArg Except.ok hscatter

variable (hchunk : 0 < chunk) (hquery : ∀ r < b.numReqs, 0 < len b.queryLens r)

include hchunk hquery

lemma seqlensQLocal_eq :
    List.zipWith (fun q (j : Nat) => if 0 < j then min (q - (chunk : Int) * ((j : Int) - 1)) chunk
        else q)
      (spread (b.blockCounts chunk) fun r j => if j = 0 then (b.localQueryLen chunk r 0 : Int)
        else (len b.queryLens r : Int) - b.localQueryLen chunk r 0)
      (spread (b.blockCounts chunk) fun _ j => j) =
        (b.virtualLens chunk).map Nat.cast := by
  rw [zipWith_spread, QueryBatch.virtualLens, map_spread]
  apply spread_congr
  intro r hr j hj
  rw [QueryBatch.length_blockCounts] at hr
  rw [QueryBatch.len_blockCounts hr] at hj
  cases j with
  | zero => rfl
  | succ j =>
    have hmin := min_sub_mul hchunk (hquery r hr) hj
    rw [if_pos (Nat.succ_pos j), if_neg (Nat.succ_ne_zero j), Nat.cast_succ, Int.add_sub_cancel,
      hmin]

lemma seqlensKLocal_eq :
    scatter (List.replicate (b.blockCounts chunk).sum (chunk : Int))
        (((cumsum (b.blockCounts chunk)).map (· - 1)).zip ((List.range b.numReqs).map fun r =>
          (b.localKeyLen chunk r (b.localBlocks chunk r - 1) : Int))) =
      spread (b.blockCounts chunk) fun r j => (b.localKeyLen chunk r j : Int) := by
  have hpos : ∀ r < b.numReqs, 0 < len (b.blockCounts chunk) r := fun r hr =>
    (QueryBatch.len_blockCounts hr).symm ▸ QueryBatch.localBlocks_pos r
  have hlength : (b.blockCounts chunk).length = b.numReqs := QueryBatch.length_blockCounts
  have hfull : List.replicate (b.blockCounts chunk).sum (chunk : Int) =
      spread (b.blockCounts chunk) fun _ _ => (chunk : Int) := by
    apply eq_spread (by simp)
    intro v r j hv
    rw [List.getElem?_replicate, if_pos hv.lt_sum]
  have hends : (cumsum (b.blockCounts chunk)).map (· - 1) = (List.range b.numReqs).map fun r =>
      start (b.blockCounts chunk) r + (len (b.blockCounts chunk) r - 1) := by
    rw [cumsum_eq_map, List.map_map, hlength]
    apply List.map_congr_left
    intro r hr
    have hr' := hpos r (List.mem_range.mp hr)
    simp only [Function.comp_apply, start_succ]
    omega
  have hplace : ∀ r < (b.blockCounts chunk).length,
      (fun r => len (b.blockCounts chunk) r - 1) r < len (b.blockCounts chunk) r :=
    fun r hr => Nat.sub_lt (hpos r (hlength ▸ hr)) Nat.one_pos
  have hscatter := scatter_spread (b.blockCounts chunk) hplace (fun _ _ => (chunk : Int))
    fun r => (b.localKeyLen chunk r (b.localBlocks chunk r - 1) : Int)
  rw [hlength] at hscatter
  rw [hfull, hends, List.zip_map', hscatter]
  apply spread_congr
  intro r hr j hj
  rw [hlength] at hr
  rw [QueryBatch.len_blockCounts hr] at hj
  rw [QueryBatch.len_blockCounts hr]
  by_cases hlast : j = b.localBlocks chunk r - 1
  · rw [if_pos hlast, hlast]
  · rw [if_neg hlast, localKeyLen_eq hchunk (hquery r hr) (by omega)]

lemma kSeqstartsAbsolute_eq :
    List.zipWith (· - ·)
        (npRepeat ((List.range b.numReqs).map fun r => (b.seqLen r : Int)) (b.blockCounts chunk))
        (List.zipWith (fun (j : Nat) last => (j : Int) * chunk + last)
          (List.zipWith (fun n j => n - j - 1)
            (npRepeat (b.blockCounts chunk) (b.blockCounts chunk))
            (spread (b.blockCounts chunk) fun _ j => j))
          (npRepeat ((List.range b.numReqs).map fun r =>
            (b.localKeyLen chunk r (b.localBlocks chunk r - 1) : Int)) (b.blockCounts chunk))) =
      spread (b.blockCounts chunk) fun r j => (b.blockStart chunk r j : Int) := by
  have hlength : (b.blockCounts chunk).length = b.numReqs := QueryBatch.length_blockCounts
  have hcounts := npRepeat_eq_spread (b.blockCounts chunk) (len (b.blockCounts chunk))
  rw [map_len_range] at hcounts
  rw [← hlength, npRepeat_eq_spread, npRepeat_eq_spread, hcounts, zipWith_spread, zipWith_spread,
    zipWith_spread]
  apply spread_congr
  intro r hr j hj
  rw [hlength] at hr
  rw [QueryBatch.len_blockCounts hr] at hj
  rw [QueryBatch.len_blockCounts hr, sub_mul_add hchunk (hquery r hr) hj]

end Arrays

namespace CommonAttentionMetadata

/-- The rows of the block table are wide enough for the sequences. -/
structure Covers (m : CommonAttentionMetadata) (b : QueryBatch) (blockSize : Nat) : Prop where
  rows : b.numReqs ≤ m.blockTableTensor.length
  rectangular : ∀ row ∈ m.blockTableTensor, row.length = m.tableWidth
  wide : ∀ r < b.numReqs, b.seqLen r ≤ m.tableWidth * blockSize

def page (m : CommonAttentionMetadata) (r i : Nat) : Int := (m.blockTableTensor.getD r []).getD i 0

end CommonAttentionMetadata

section BlockTable

variable {m : CommonAttentionMetadata} {b : QueryBatch} {chunk blockSize : Nat}

lemma tableItem_eq (hm : m.Covers b blockSize) {r i : Nat} (hr : r < b.numReqs)
    (hi : i < m.tableWidth) : tableItem m.blockTableTensor r (i : Int) = .ok (m.page r i) := by
  have hr' : r < m.blockTableTensor.length := hr.trans_le hm.rows
  have hwidth := hm.rectangular _ (List.getElem_mem hr')
  have hitems : pyIndex m.blockTableTensor r = .ok m.blockTableTensor[r] :=
    pyIndex_eq_ok.mpr (List.getElem?_eq_getElem hr')
  have hitem : pyIndex m.blockTableTensor[r] i = .ok (m.page r i) := by
    rw [pyIndex_eq_ok, CommonAttentionMetadata.page, List.getD_eq_getElem _ _ hr',
      List.getD_eq_getElem _ _ (hwidth.symm ▸ hi), List.getElem?_eq_getElem (hwidth.symm ▸ hi)]
  rw [tableItem, hitems, ok_bind, if_neg (by omega), if_neg (by omega), Int.toNat_natCast, hitem]

lemma tableWidth_pos (hm : m.Covers b blockSize) {r : Nat} (hr : r < b.numReqs)
    (hquery : 0 < len b.queryLens r) : 0 < m.tableWidth := by
  have hwide := hm.wide r hr
  have hseq : b.seqLen r = len b.computed r + len b.queryLens r := rfl
  by_contra hzero
  rw [Nat.eq_zero_of_not_pos hzero, Nat.zero_mul] at hwide
  omega

lemma zip_flatMap {α β γ : Type} (xs : List α) {f : α → List β} {g : α → List γ}
    (h : ∀ x ∈ xs, (f x).length = (g x).length) :
    (xs.flatMap f).zip (xs.flatMap g) = xs.flatMap fun x => (f x).zip (g x) := by
  induction xs with
  | nil => rfl
  | cons x rest ih =>
    rw [List.flatMap_cons, List.flatMap_cons, List.flatMap_cons, List.zip_append
      (h x List.mem_cons_self), ih fun y hy => h y (List.mem_cons_of_mem _ hy)]

lemma viewRows_flatMap {α β : Type} {xs : List α} {f : α → List β} {width : Nat}
    (hne : xs ≠ []) (h : ∀ x ∈ xs, (f x).length = width) :
    viewRows (xs.flatMap f) xs.length = .ok (xs.map f) := by
  have hpos := List.length_pos_iff.mpr hne
  have hlength : (xs.flatMap f).length = xs.length * width := by
    rw [List.length_flatMap, List.map_congr_left h]
    simp
  have hrow : ∀ (ys : List α), (∀ y ∈ ys, (f y).length = width) → ∀ i (hi : i < ys.length),
      slice (ys.flatMap f) (i * width) ((i + 1) * width) = f ys[i] := by
    intro ys
    induction ys with
    | nil => exact fun _ i hi => absurd hi (Nat.not_lt_zero i)
    | cons y rest ih =>
      intro hy i hi
      have hhead := hy y List.mem_cons_self
      cases i with
      | zero => simp [slice, ← hhead]
      | succ i =>
        have hrest := ih (fun z hz => hy z (List.mem_cons_of_mem _ hz)) i (Nat.lt_of_succ_lt_succ hi)
        rw [List.getElem_cons_succ, ← hrest, slice, slice, List.flatMap_cons, Nat.succ_mul i,
          Nat.add_comm (i * width), ← List.drop_drop, ← hhead, List.drop_left,
          Nat.succ_mul (i + 1), Nat.succ_mul i]
        congr 1
        omega
  have hwidth : xs.length * width / xs.length = width := Nat.mul_div_cancel_left _ hpos
  rw [viewRows, if_neg (by rw [hlength, Nat.mul_mod_right]; omega), hlength, hwidth]
  refine congrArg Except.ok (List.ext_getElem (by simp) ?_)
  intro i hi _
  rw [List.length_map, List.length_range] at hi
  simp [hrow xs h i hi]

/-- The column of a page of a block, which is clipped at the end of the row. -/
def blockIndex (m : CommonAttentionMetadata) (b : QueryBatch) (chunk blockSize r j i : Nat) : Nat :=
  min (b.blockStart chunk r j / blockSize + i) (m.tableWidth - 1)

/-- The blocks of all requests, in order. -/
def blocks (b : QueryBatch) (chunk : Nat) : List (Nat × Nat) :=
  spread (b.blockCounts chunk) Prod.mk

lemma spread_blockCounts {α : Type} (f : Nat → Nat → α) :
    spread (b.blockCounts chunk) f = (blocks b chunk).map fun p => f p.1 p.2 :=
  (map_spread (fun p : Nat × Nat => f p.1 p.2) Prod.mk).symm

lemma lt_of_mem_blocks {p : Nat × Nat} (h : p ∈ blocks b chunk) : p.1 < b.numReqs := by
  obtain ⟨r, hr, j, _, rfl⟩ := mem_spread.mp h
  exact QueryBatch.length_blockCounts (b := b) ▸ hr

lemma batchIndices_eq (pages : Nat) :
    npRepeat (List.range b.numReqs) ((b.blockCounts chunk).map (· * pages)) =
      (blocks b chunk).flatMap fun p => (List.range pages).map fun _ => p.1 := by
  have hrange : npRepeat (List.range b.numReqs) (b.blockCounts chunk) =
      spread (b.blockCounts chunk) fun r _ => r := by
    have h := npRepeat_eq_spread (b.blockCounts chunk) id
    rwa [List.map_id, QueryBatch.length_blockCounts] at h
  rw [npRepeat_map_mul, hrange, spread_blockCounts, List.flatMap_map]
  simp

lemma blockIndices_eq (hpos : 0 < m.tableWidth) (pages : Nat) :
    (((spread (b.blockCounts chunk) fun r j => (b.blockStart chunk r j : Int)).map
      fun start => start.fdiv blockSize).flatMap fun start =>
        (List.range pages).map fun (i : Nat) => start + (i : Int)).map
          (min · ((m.tableWidth : Int) - 1)) =
      (blocks b chunk).flatMap fun p => (List.range pages).map fun i =>
        (blockIndex m b chunk blockSize p.1 p.2 i : Int) := by
  rw [spread_blockCounts, List.map_map, List.flatMap_map, List.map_flatMap]
  congr 1
  funext p
  rw [List.map_map]
  apply List.map_congr_left
  intro i _
  simp only [Function.comp_apply]
  rw [Int.fdiv_eq_ediv_of_nonneg _ (Int.natCast_nonneg _), ← Int.natCast_ediv, blockIndex]
  omega

lemma blockTableLocal_eq (hm : m.Covers b blockSize) (hblocks : blocks b chunk ≠ [])
    (hpos : 0 < m.tableWidth) (pages : Nat) :
    (((npRepeat (List.range b.numReqs) ((b.blockCounts chunk).map (· * pages))).zip
        ((((spread (b.blockCounts chunk) fun r j => (b.blockStart chunk r j : Int)).map
          fun start => start.fdiv blockSize).flatMap fun start =>
            (List.range pages).map fun (i : Nat) => start + (i : Int)).map
              (min · ((m.tableWidth : Int) - 1)))).mapM fun p =>
                tableItem m.blockTableTensor p.1 p.2) >>=
        (viewRows · (b.blockCounts chunk).sum) =
      .ok (spread (b.blockCounts chunk) fun r j => (List.range pages).map fun i =>
        m.page r (blockIndex m b chunk blockSize r j i)) := by
  have hzip : ((blocks b chunk).flatMap fun p => (List.range pages).map fun _ => p.1).zip
      ((blocks b chunk).flatMap fun p => (List.range pages).map fun i =>
        (blockIndex m b chunk blockSize p.1 p.2 i : Int)) =
      (blocks b chunk).flatMap fun p => (List.range pages).map fun i =>
        (p.1, (blockIndex m b chunk blockSize p.1 p.2 i : Int)) := by
    rw [zip_flatMap _ (by simp)]
    simp only [List.zip_map']
  have hitems : ((blocks b chunk).flatMap fun p => (List.range pages).map fun i =>
        (p.1, (blockIndex m b chunk blockSize p.1 p.2 i : Int))).mapM
          (fun q => tableItem m.blockTableTensor q.1 q.2) =
      .ok (((blocks b chunk).flatMap fun p => (List.range pages).map fun i =>
        (p.1, (blockIndex m b chunk blockSize p.1 p.2 i : Int))).map
          fun q => m.page q.1 q.2.toNat) := by
    apply mapM_of_forall
    intro q hq
    obtain ⟨p, hp, hq⟩ := List.mem_flatMap.mp hq
    obtain ⟨i, _, rfl⟩ := List.mem_map.mp hq
    have hi : blockIndex m b chunk blockSize p.1 p.2 i < m.tableWidth := by
      rw [blockIndex]
      omega
    exact tableItem_eq hm (lt_of_mem_blocks hp) hi
  have hwidths : ∀ p ∈ blocks b chunk, ((List.range pages).map fun i =>
      m.page p.1 (blockIndex m b chunk blockSize p.1 p.2 i)).length = pages := by
    simp
  have hview := viewRows_flatMap hblocks hwidths
  have hlength : (blocks b chunk).length = (b.blockCounts chunk).sum := length_spread _ _
  rw [batchIndices_eq, blockIndices_eq hpos, hzip, hitems, ok_bind, List.map_flatMap]
  simp only [List.map_map, Function.comp_def, Int.toNat_natCast]
  rw [← hlength, hview, spread_blockCounts]

lemma makeLocalAttentionVirtualBatches_eq (hm : m.Describes b) (htable : m.Covers b blockSize)
    (hne : b.queryLens ≠ []) (hquery : ∀ r < b.numReqs, 0 < len b.queryLens r)
    (hchunk : 0 < chunk) (hdvd : blockSize ∣ chunk) :
    ∃ maxQueryLen maxSeqLen, makeLocalAttentionVirtualBatches chunk m blockSize = .ok {
      queryStartLocCpu := starts (b.virtualLens chunk)
      queryStartLoc := starts (b.virtualLens chunk)
      seqLensCpu := spread (b.blockCounts chunk) fun r j => (b.localKeyLen chunk r j : Int)
      seqLens := spread (b.blockCounts chunk) fun r j => (b.localKeyLen chunk r j : Int)
      numComputedTokensCpu := spread (b.blockCounts chunk) fun r j =>
        (b.localKeyLen chunk r j : Int) - b.localQueryLen chunk r j
      numReqs := (b.virtualLens chunk).length
      numActualTokens := m.numActualTokens
      maxQueryLen := maxQueryLen
      maxSeqLen := maxSeqLen
      blockTableTensor := spread (b.blockCounts chunk) fun r j =>
        (List.range (chunk / blockSize)).map fun i =>
          m.page r (blockIndex m b chunk blockSize r j i)
      slotMapping := m.slotMapping
      causal := true } := by
  have hblock : 0 < blockSize := Nat.pos_of_dvd_of_pos hdvd hchunk
  have hreqs : 0 < b.numReqs := List.length_pos_iff.mpr hne
  have hcounts : b.blockCounts chunk ≠ [] := by
    rw [← List.length_pos_iff, QueryBatch.length_blockCounts]
    exact hreqs
  have hsum : 0 < (b.blockCounts chunk).sum := QueryBatch.sum_blockCounts_pos hreqs
  have hq : diffs m.queryStartLocCpu =
      (List.range b.numReqs).map fun r => (len b.queryLens r : Int) := by
    rw [hm.queryStartLocCpu, diffs_starts]
    conv_lhs => rw [← map_len_range b.queryLens, List.map_map]
    rfl
  have hs : m.seqLensCpu = (List.range b.numReqs).map fun r => (b.seqLen r : Int) := by
    rw [hm.seqLensCpu, b.cast_seqLens]
  have hfirst : List.zipWith (fun s q => min ((chunk : Int) - (s - q).fmod chunk) q)
      ((List.range b.numReqs).map fun r => (b.seqLen r : Int))
      ((List.range b.numReqs).map fun r => (len b.queryLens r : Int)) =
      (List.range b.numReqs).map fun r => (b.localQueryLen chunk r 0 : Int) := by
    rw [zipWith_map_range]
    exact List.map_congr_left fun r _ => min_sub_fmod hchunk r
  have hlast : ((List.range b.numReqs).map fun r => (b.seqLen r : Int)).map
      (fun s => (chunk : Int) + s.fmod (-chunk)) = (List.range b.numReqs).map fun r =>
        (b.localKeyLen chunk r (b.localBlocks chunk r - 1) : Int) := by
    rw [List.map_map]
    exact List.map_congr_left fun r hr => add_fmod_neg hchunk (hquery r (List.mem_range.mp hr))
  have hblocks : toCounts (((List.range b.numReqs).map fun r =>
      (len b.queryLens r : Int) - b.localQueryLen chunk r 0).map fun n => 1 + cdiv n chunk) =
      .ok (b.blockCounts chunk) := by
    rw [← toCounts_map_cast, QueryBatch.blockCounts, List.map_map, List.map_map]
    congr 1
    exact List.map_congr_left fun r hr => one_add_cdiv hchunk (hquery r (List.mem_range.mp hr))
  have hothers : List.zipWith (· - ·)
      ((List.range b.numReqs).map fun r => (len b.queryLens r : Int))
      ((List.range b.numReqs).map fun r => (b.localQueryLen chunk r 0 : Int)) =
      (List.range b.numReqs).map fun r =>
        (len b.queryLens r : Int) - b.localQueryLen chunk r 0 := zipWith_map_range _ _ _ _
  have hmod : pyMod chunk blockSize = .ok 0 := pyMod_of_dvd hblock hdvd
  have hcomputed : List.zipWith (· - ·)
      (spread (b.blockCounts chunk) fun r j => (b.localKeyLen chunk r j : Int))
      ((b.virtualLens chunk).map Nat.cast) = spread (b.blockCounts chunk) fun r j =>
        (b.localKeyLen chunk r j : Int) - b.localQueryLen chunk r j := by
    rw [QueryBatch.virtualLens, map_spread, zipWith_spread]
  have hne' : ∀ {α : Type} (f : Nat → Nat → α), spread (b.blockCounts chunk) f ≠ [] := by
    intro α f
    rw [← List.length_pos_iff, length_spread]
    exact hsum
  obtain ⟨items, hitems, hview⟩ := bind_eq_ok.mp (blockTableLocal_eq htable (hne' Prod.mk)
    (tableWidth_pos htable hreqs (hquery 0 hreqs)) (chunk / blockSize))
  obtain ⟨maxSeqLen, hmaxSeqLen⟩ :=
    exists_tensorMax (hne' fun r j => (b.localKeyLen chunk r j : Int))
  obtain ⟨maxQueryLen, hmaxQueryLen⟩ : ∃ n, tensorMax ((b.virtualLens chunk).map Nat.cast) = .ok n := by
    apply exists_tensorMax
    rw [QueryBatch.virtualLens, map_spread]
    exact hne' _
  refine ⟨maxQueryLen, maxSeqLen, ?_⟩
  simp only [makeLocalAttentionVirtualBatches, hq, hs, hfirst, hlast, hothers, hblocks, ok_bind,
    getLast?_cumsum hcounts, zipWith_range_npRepeat, setMask_first,
    seqlensQLocal_eq hchunk hquery, seqlensKLocal_eq hchunk hquery,
    kSeqstartsAbsolute_eq hchunk hquery, hmod, List.length_map, List.length_range,
    cons_cumsum_cast, hcomputed, hitems, hview, hmaxSeqLen, hmaxQueryLen, pyAssert, if_true, pure_eq,
    length_spread, QueryBatch.length_virtualLens]

end BlockTable

namespace CommonAttentionMetadata

/-- Where key `j` of a request is: its page and its place there. -/
def keyAt (m : CommonAttentionMetadata) (blockSize r j : Nat) : Option (Int × Nat) := do
  let row ← m.blockTableTensor[r]?
  let page ← row[j / blockSize]?
  return (page, j % blockSize)

/-- The keys that query token `k` of a request sees under causal attention, where the last query
token sees the last key. -/
def causalKeys (m : CommonAttentionMetadata) (blockSize r k : Nat) : List (Option (Int × Nat)) :=
  let queryLen := (diffs m.queryStartLocCpu).getD r 0
  let seqLen := m.seqLensCpu.getD r 0
  ((List.range seqLen.toNat).filter fun (j : Nat) => (j : Int) ≤ k + (seqLen - queryLen)).map
    (m.keyAt blockSize r)

/-- The virtual requests partition the query tokens in their order, and each query token sees the
keys of its chunk up to its own position. -/
structure ChunkedLocally (m m' : CommonAttentionMetadata) (b : QueryBatch) (chunk blockSize : Nat)
    (lens : List Nat) : Prop where
  queryStartLoc : m'.queryStartLoc = starts lens
  queryStartLocCpu : m'.queryStartLocCpu = starts lens
  sum_lens : lens.sum = b.numTokens
  pos : ∀ n ∈ lens, 0 < n
  numReqs : m'.numReqs = lens.length
  seqLens : m'.seqLens = m'.seqLensCpu
  length_seqLens : m'.seqLensCpu.length = lens.length
  numActualTokens : m'.numActualTokens = m.numActualTokens
  causal : m'.causal = true
  keys : ∀ t r k v i, Locates b.queryLens t r k → Locates lens t v i →
    m'.causalKeys blockSize v i =
      (List.Ico (b.position r k / chunk * chunk) (b.position r k + 1)).map (m.keyAt blockSize r)
  located : ∀ t v i, Locates lens t v i → ∀ key ∈ m'.causalKeys blockSize v i, key.isSome

end CommonAttentionMetadata

section Keys

variable {m : CommonAttentionMetadata} {b : QueryBatch} {chunk blockSize : Nat}

lemma filter_range_le (n : Nat) (c : Nat) (h : c < n) :
    (List.range n).filter (fun j : Nat => decide ((j : Int) ≤ c)) = List.range (c + 1) := by
  obtain ⟨d, rfl⟩ := Nat.exists_eq_add_of_le (Nat.succ_le_of_lt h)
  have hlow : (List.range (c + 1)).filter (fun j : Nat => decide ((j : Int) ≤ c)) =
      List.range (c + 1) := by
    rw [List.filter_eq_self]
    intro j hj
    have hj' := List.mem_range.mp hj
    exact decide_eq_true (by omega)
  have hhigh : ((List.range d).map (c.succ + ·)).filter (fun j : Nat => decide ((j : Int) ≤ c)) = [] := by
    rw [List.filter_eq_nil_iff]
    intro j hj
    obtain ⟨x, _, rfl⟩ := List.mem_map.mp hj
    simp only [decide_eq_true_eq]
    omega
  rw [List.range_add, List.filter_append, hlow, hhigh, List.append_nil]

lemma keyAt_eq (hm : m.Covers b blockSize) {r j : Nat}
    (hr : r < b.numReqs) (hj : j < b.seqLen r) :
    j / blockSize < m.tableWidth ∧
      m.keyAt blockSize r j = some (m.page r (j / blockSize), j % blockSize) := by
  have hr' : r < m.blockTableTensor.length := hr.trans_le hm.rows
  have hwidth := hm.rectangular _ (List.getElem_mem hr')
  have hlt : j / blockSize < m.tableWidth :=
    Nat.div_lt_of_lt_mul (Nat.mul_comm _ _ ▸ hj.trans_le (hm.wide r hr))
  refine ⟨hlt, ?_⟩
  rw [CommonAttentionMetadata.keyAt, List.getElem?_eq_getElem hr', CommonAttentionMetadata.page,
    List.getD_eq_getElem _ _ hr', List.getD_eq_getElem _ _ (hwidth.symm ▸ hlt)]
  simp [List.getElem?_eq_getElem (hwidth.symm ▸ hlt)]

lemma keyAt_virtual {m' : CommonAttentionMetadata} (hm : m.Covers b blockSize)
    (hdvd : blockSize ∣ chunk)
    (htable : m'.blockTableTensor = spread (b.blockCounts chunk) fun r j =>
      (List.range (chunk / blockSize)).map fun i => m.page r (blockIndex m b chunk blockSize r j i))
    {v r j key : Nat} (hv : Locates (b.blockCounts chunk) v r j)
    (hkey : key < b.localKeyLen chunk r j) :
    m'.keyAt blockSize v key = m.keyAt blockSize r (b.blockStart chunk r j + key) := by
  obtain ⟨hr, hj⟩ := QueryBatch.lt_of_locates hv
  have hend : b.blockEnd chunk r j ≤ b.blockStart chunk r (j + 1) := Nat.min_le_right _ _
  have hseq : b.blockEnd chunk r j ≤ b.seqLen r := Nat.min_le_left _ _
  rw [QueryBatch.blockStart_succ] at hend
  rw [QueryBatch.localKeyLen] at hkey
  have hpage : key / blockSize < chunk / blockSize := by
    apply Nat.div_lt_div_of_lt_of_dvd hdvd
    omega
  have hstart : blockSize ∣ b.blockStart chunk r j := Dvd.dvd.mul_left hdvd _
  have hdiv : (b.blockStart chunk r j + key) / blockSize =
      b.blockStart chunk r j / blockSize + key / blockSize := Nat.add_div_of_dvd_right hstart
  have hmod : (b.blockStart chunk r j + key) % blockSize = key % blockSize := by
    rw [Nat.add_mod, Nat.mod_eq_zero_of_dvd hstart, Nat.zero_add, Nat.mod_mod]
  obtain ⟨hlt, hold⟩ := keyAt_eq hm hr (j := b.blockStart chunk r j + key) (by omega)
  have hindex : blockIndex m b chunk blockSize r j (key / blockSize) =
      (b.blockStart chunk r j + key) / blockSize := by
    rw [blockIndex, ← hdiv]
    omega
  rw [hold, hmod, CommonAttentionMetadata.keyAt, htable, hv.getElem?_spread]
  simp [List.getElem?_range hpage, hindex]

/-- What the metadata of the virtual requests has of its tensors. -/
structure CommonAttentionMetadata.IsVirtual (m m' : CommonAttentionMetadata) (b : QueryBatch)
    (chunk blockSize : Nat) : Prop where
  queryStartLocCpu : m'.queryStartLocCpu = starts (b.virtualLens chunk)
  seqLensCpu : m'.seqLensCpu =
    spread (b.blockCounts chunk) fun r j => (b.localKeyLen chunk r j : Int)
  blockTableTensor : m'.blockTableTensor = spread (b.blockCounts chunk) fun r j =>
    (List.range (chunk / blockSize)).map fun i => m.page r (blockIndex m b chunk blockSize r j i)

/-- A query token sees the keys of its block up to its own position. -/
lemma causalKeys_virtual {m' : CommonAttentionMetadata} (hm : m.Covers b blockSize)
    (hm' : m.IsVirtual m' b chunk blockSize) (hquery : ∀ r < b.numReqs, 0 < len b.queryLens r)
    (hchunk : 0 < chunk) (hdvd : blockSize ∣ chunk) {t r k v i : Nat}
    (h : Locates b.queryLens t r k) (hv : Locates (b.virtualLens chunk) t v i) :
    m'.causalKeys blockSize v i =
      (List.Ico (b.position r k / chunk * chunk) (b.position r k + 1)).map
        (m.keyAt blockSize r) := by
  obtain ⟨j, hblock, hplace⟩ := QueryBatch.exists_block hchunk hquery h hv
  have hr : r < b.numReqs := h.lt_length
  have hj := (QueryBatch.lt_of_locates hblock).2
  obtain ⟨hposition, hend, hstart⟩ := QueryBatch.position_of_locates hchunk (hquery r hr) hplace
  have hqueryLen : (diffs m'.queryStartLocCpu).getD v 0 = (b.localQueryLen chunk r j : Int) := by
    rw [hm'.queryStartLocCpu, diffs_starts, QueryBatch.virtualLens, map_spread,
      List.getD_eq_getElem?_getD, hblock.getElem?_spread, Option.getD_some]
  have hseqLen : m'.seqLensCpu.getD v 0 = (b.localKeyLen chunk r j : Int) := by
    rw [hm'.seqLensCpu, List.getD_eq_getElem?_getD, hblock.getElem?_spread, Option.getD_some]
  have hle : b.blockStart chunk r j ≤ b.queryStart chunk r j := Nat.le_max_right _ _
  have hseen : (i : Int) + (b.localKeyLen chunk r j - b.localQueryLen chunk r j) =
      (b.position r k - b.blockStart chunk r j : Nat) := by
    rw [QueryBatch.localKeyLen, QueryBatch.localQueryLen]
    omega
  have hlt : b.position r k - b.blockStart chunk r j < b.localKeyLen chunk r j := by
    rw [QueryBatch.localKeyLen]
    omega
  have hshift : List.Ico (b.blockStart chunk r j) (b.position r k + 1) =
      (List.range (b.position r k - b.blockStart chunk r j + 1)).map
        (b.blockStart chunk r j + ·) := by
    rw [← List.Ico.zero_bot, List.Ico.map_add, Nat.zero_add]
    congr 1
    omega
  rw [CommonAttentionMetadata.causalKeys, hqueryLen, hseqLen, hstart, hshift, List.map_map]
  simp only [hseen, Int.toNat_natCast]
  rw [filter_range_le _ _ hlt]
  apply List.map_congr_left
  intro key hkey
  have hkey' := List.mem_range.mp hkey
  exact keyAt_virtual hm hdvd hm'.blockTableTensor hblock (by omega)

/-- Three requests with 4, 10 and 5 query tokens, after 2, 7 and 4 others. -/
def threeQueries : QueryBatch where
  queryLens := [4, 10, 5]
  computed := [2, 7, 4]
  length_eq := rfl

def threeQueriesMetadata : CommonAttentionMetadata where
  queryStartLoc := [0, 4, 14, 19]
  queryStartLocCpu := [0, 4, 14, 19]
  seqLens := [6, 17, 9]
  seqLensCpu := [6, 17, 9]
  numComputedTokensCpu := [2, 7, 4]
  numReqs := 3
  numActualTokens := 19
  maxQueryLen := 10
  maxSeqLen := 17
  blockTableTensor := [[0, 1, 2, 3, 4, 5, 6, 7, 8, 9], [10, 11, 12, 13, 14, 15, 16, 17, 18, 19],
    [20, 21, 22, 23, 24, 25, 26, 27, 28, 29]]
  slotMapping := []

example : (makeLocalAttentionVirtualBatches 4 threeQueriesMetadata 2).map (·.blockTableTensor) =
    .ok [[0, 1], [2, 3], [12, 13], [14, 15], [16, 17], [18, 19], [22, 23], [24, 25]] := by
  decide

end Keys

end VllmV1
