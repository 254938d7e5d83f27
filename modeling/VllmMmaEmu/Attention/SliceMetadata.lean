import VllmMmaEmu.Attention.Metadata

/-!
# Splitting a batch into micro-batches

`slice_query_start_locs`, `_make_metadata_with_slice` and `split_attn_metadata` of
`vllm/v1/attention/backends/utils.py`, with `UBatchSlice` of `vllm/v1/worker/ubatch_utils.py`: the
metadata of the batch is cut at token boundaries, which may lie inside a request.
-/

namespace VllmV1

open Python Segments

/-- A slice object with bounds in order. -/
structure Slice where
  start : Nat
  stop : Nat
  le : start ≤ stop
  deriving DecidableEq

structure UBatchSlice where
  requestSlice : Slice
  tokenSlice : Slice
  deriving DecidableEq

def UBatchSlice.isEmpty (u : UBatchSlice) : Prop :=
  u.requestSlice.start = u.requestSlice.stop ∨ u.tokenSlice.start = u.tokenSlice.stop

instance (u : UBatchSlice) : Decidable u.isEmpty :=
  inferInstanceAs (Decidable (_ ∨ _))

def sliceQueryStartLocs (queryStartLoc : List Int) (requestSlice : Slice) :
    Except PyError (List Int) := do
  let first ← pyIndex queryStartLoc requestSlice.start
  return (slice queryStartLoc requestSlice.start (requestSlice.stop + 1)).map (· - first)

/-- `xs[1:] -= k`. -/
def subTail (xs : List Int) (k : Int) : List Int := xs.take 1 ++ (xs.drop 1).map (· - k)

/-- `xs[-1] -= k`. -/
def subLast (xs : List Int) (k : Int) : Except PyError (List Int) :=
  match xs.getLast? with
  | none => .error .indexError
  | some x => .ok (xs.dropLast ++ [x - k])

/-- The start locations after the tokens before the slice are dropped from its first request. -/
def skipFirst (splitsFirstRequest : Prop) [Decidable splitsFirstRequest] (tokensSkipped : Int)
    (queryStartLoc : List Int) : List Int :=
  if splitsFirstRequest then subTail queryStartLoc tokensSkipped else queryStartLoc

/-- The tensors that a slice cuts inside its first and its last request. -/
structure SliceLens where
  queryStartLoc : List Int
  queryStartLocCpu : List Int
  seqLens : List Int
  seqLensCpu : List Int

/-- The last request loses its tokens behind the slice. The stop of the slice counts from the first
token of the batch. -/
def SliceLens.skipLast (splitsLastRequest : Prop) [Decidable splitsLastRequest] (stop : Int)
    (l : SliceLens) : Except PyError SliceLens :=
  if splitsLastRequest then do
    let tokensSkipped := l.queryStartLocCpu.getLastD 0 - stop
    let queryStartLoc ← subLast l.queryStartLoc tokensSkipped
    let queryStartLocCpu ← subLast l.queryStartLocCpu tokensSkipped
    let seqLens ← subLast l.seqLens tokensSkipped
    let seqLensCpu ← subLast l.seqLensCpu tokensSkipped
    return ⟨queryStartLoc, queryStartLocCpu, seqLens, seqLensCpu⟩
  else .ok l

/-- The metadata of the slice, after its tensors are cut. -/
def SliceLens.metadata (u : UBatchSlice) (m : CommonAttentionMetadata) (l : SliceLens) :
    Except PyError CommonAttentionMetadata := do
  let maxSeqLen ← tensorMax l.seqLensCpu
  let maxQueryLen ← tensorMax ((diffs l.queryStartLocCpu).map fun q => (q.natAbs : Int))
  return {
    queryStartLoc := l.queryStartLoc
    queryStartLocCpu := l.queryStartLocCpu
    seqLens := l.seqLens
    seqLensCpu := l.seqLensCpu
    numComputedTokensCpu :=
      slice m.numComputedTokensCpu u.requestSlice.start u.requestSlice.stop
    numReqs := u.requestSlice.stop - u.requestSlice.start
    numActualTokens := u.tokenSlice.stop - u.tokenSlice.start
    -- in a dummy run all start locations are zero
    maxQueryLen := if maxQueryLen = 0 then m.maxQueryLen else maxQueryLen
    maxSeqLen := maxSeqLen
    blockTableTensor := slice m.blockTableTensor u.requestSlice.start u.requestSlice.stop
    slotMapping := slice m.slotMapping u.tokenSlice.start u.tokenSlice.stop }

def makeMetadataWithSlice (u : UBatchSlice) (m : CommonAttentionMetadata) :
    Except PyError CommonAttentionMetadata := do
  pyAssert (¬ u.isEmpty)
  let startLocs := m.queryStartLocCpu
  let firstReq := u.requestSlice.start
  let firstTok : Int := u.tokenSlice.start
  let lastReq := u.requestSlice.stop - 1
  let lastTok : Int := u.tokenSlice.stop - 1
  let firstStart ← pyIndex startLocs firstReq
  let firstEnd ← pyIndex startLocs (firstReq + 1)
  pyAssert (firstStart ≤ firstTok ∧ firstTok < firstEnd)
  let lastStart ← pyIndex startLocs lastReq
  let lastEnd ← pyIndex startLocs (lastReq + 1)
  pyAssert (lastStart ≤ lastTok ∧ lastTok < lastEnd)
  let splitsFirstRequest := firstTok > firstStart
  let splitsLastRequest := lastTok < lastEnd - 1
  let queryStartLocCpu ← sliceQueryStartLocs startLocs u.requestSlice
  let queryStartLoc ← sliceQueryStartLocs m.queryStartLoc u.requestSlice
  pyAssert (2 ≤ queryStartLoc.length)
  let l : SliceLens := {
    queryStartLoc := skipFirst splitsFirstRequest (firstTok - firstStart) queryStartLoc
    queryStartLocCpu := skipFirst splitsFirstRequest (firstTok - firstStart) queryStartLocCpu
    seqLens := slice m.seqLens u.requestSlice.start u.requestSlice.stop
    seqLensCpu := slice m.seqLensCpu u.requestSlice.start u.requestSlice.stop }
  let l ← l.skipLast splitsLastRequest u.tokenSlice.stop
  l.metadata u m

def splitAttnMetadata (ubatchSlices : List UBatchSlice) (m : CommonAttentionMetadata) :
    Except PyError (List CommonAttentionMetadata) :=
  ubatchSlices.mapM fun u => makeMetadataWithSlice u m

def UBatchSlice.numRequests (u : UBatchSlice) : Nat := u.requestSlice.stop - u.requestSlice.start

def UBatchSlice.numTokens (u : UBatchSlice) : Nat := u.tokenSlice.stop - u.tokenSlice.start

lemma UBatchSlice.stop_eq (u : UBatchSlice) :
    u.requestSlice.stop = u.requestSlice.start + u.numRequests := by
  have hle := u.requestSlice.le
  unfold numRequests
  omega

/-- The request slice is the smallest one that contains the tokens of the slice. -/
structure QueryBatch.FitsSlice (b : QueryBatch) (u : UBatchSlice) : Prop where
  nonempty : u.tokenSlice.start < u.tokenSlice.stop
  first : ∃ k, Locates b.queryLens u.tokenSlice.start u.requestSlice.start k
  last : ∃ r k, u.requestSlice.stop = r + 1 ∧ Locates b.queryLens (u.tokenSlice.stop - 1) r k

section Ranges

variable {α : Type} {f : Nat → α} {n k : Nat}

lemma slice_map_range {a c : Nat} (h : a + c ≤ n) :
    slice ((List.range n).map f) a (a + c) = (List.range c).map fun j => f (a + j) := by
  refine List.ext_getElem? fun j => ?_
  rw [slice, Nat.add_sub_cancel_left, List.getElem?_take, List.getElem?_drop, List.getElem?_map,
    List.getElem?_map]
  split_ifs with hj
  · rw [List.getElem?_range hj, List.getElem?_range (by omega)]
    rfl
  · rw [List.getElem?_eq_none (by simpa using hj)]
    rfl

lemma subTail_map_range (f : Nat → Int) (k : Int) : subTail ((List.range (n + 1)).map f) k =
    (List.range (n + 1)).map fun j => if j = 0 then f 0 else f j - k := by
  rw [List.range_succ_eq_map, subTail]
  simp

lemma subLast_map_range (hn : 0 < n) (f : Nat → Int) (k : Int) :
    subLast ((List.range n).map f) k =
      .ok ((List.range n).map fun j => if j + 1 = n then f j - k else f j) := by
  obtain ⟨n, rfl⟩ := Nat.exists_eq_succ_of_ne_zero hn.ne'
  have hlast : ((List.range (n + 1)).map f).getLast? = some (f n) := by
    rw [List.range_succ, List.map_append]
    simp
  simp only [Nat.succ_eq_add_one, subLast, hlast]
  refine congrArg Except.ok ?_
  rw [List.range_succ, List.map_append, List.map_append, List.map_singleton, List.map_singleton,
    List.dropLast_concat, if_pos rfl]
  refine congrArg (· ++ [f n - k]) (List.map_congr_left fun j hj => ?_)
  have hne : j + 1 ≠ n + 1 := Nat.succ_ne_succ_iff.mpr (List.mem_range.mp hj).ne
  rw [if_neg hne]

end Ranges

namespace QueryBatch.FitsSlice

variable {b : QueryBatch} {u : UBatchSlice}

lemma first_le (h : b.FitsSlice u) :
    start b.queryLens u.requestSlice.start ≤ u.tokenSlice.start := by
  obtain ⟨k, hk⟩ := h.first
  have heq := hk.eq
  omega

lemma first_lt (h : b.FitsSlice u) :
    u.tokenSlice.start < start b.queryLens (u.requestSlice.start + 1) := by
  obtain ⟨k, hk⟩ := h.first
  exact hk.lt_start_succ

lemma stop_pos (h : b.FitsSlice u) : 0 < u.requestSlice.stop := by
  obtain ⟨r, k, hr, -⟩ := h.last
  omega

lemma last_lt (h : b.FitsSlice u) :
    start b.queryLens (u.requestSlice.stop - 1) < u.tokenSlice.stop := by
  obtain ⟨r, k, hr, hk⟩ := h.last
  have hne := h.nonempty
  have heq := hk.eq
  rw [hr, Nat.add_sub_cancel]
  omega

lemma last_le (h : b.FitsSlice u) :
    u.tokenSlice.stop ≤ start b.queryLens u.requestSlice.stop := by
  obtain ⟨r, k, hr, hk⟩ := h.last
  have hlt := hk.lt_start_succ
  rw [hr]
  omega

lemma stop_le (h : b.FitsSlice u) : u.requestSlice.stop ≤ b.numReqs := by
  obtain ⟨r, k, hr, hk⟩ := h.last
  rw [hr]
  exact hk.lt_length

lemma start_lt_stop (h : b.FitsSlice u) : u.requestSlice.start < u.requestSlice.stop := by
  by_contra hge
  have hmono := start_mono b.queryLens (Nat.le_of_not_lt hge)
  have hfirst := h.first_le
  have hlast := h.last_le
  have hne := h.nonempty
  omega

lemma numRequests_pos (h : b.FitsSlice u) : 0 < u.numRequests := by
  have hlt := h.start_lt_stop
  have heq := u.stop_eq
  omega

end QueryBatch.FitsSlice

namespace QueryBatch

variable (b : QueryBatch) (u : UBatchSlice)

/-- The last entry of the start locations that the code computes. -/
def codeEnd : Int :=
  if u.tokenSlice.stop < start b.queryLens u.requestSlice.stop then u.tokenSlice.stop
  else start b.queryLens u.requestSlice.stop - u.tokenSlice.start

def codeStart (j : Nat) : Int :=
  if j = u.numRequests then b.codeEnd u
  else if j = 0 then 0
  else start b.queryLens (u.requestSlice.start + j) - u.tokenSlice.start

/-- What the code takes from the last sequence length. -/
def codeSkipped : Int :=
  if u.tokenSlice.stop < start b.queryLens u.requestSlice.stop then
    start b.queryLens u.requestSlice.stop - u.tokenSlice.start - u.tokenSlice.stop
  else 0

def codeSeqLen (j : Nat) : Int :=
  if j + 1 = u.numRequests then b.seqLen (u.requestSlice.start + j) - b.codeSkipped u
  else b.seqLen (u.requestSlice.start + j)

/-- The metadata that the code computes for a slice. -/
structure CodeMetadata (m m' : CommonAttentionMetadata) : Prop where
  queryStartLoc : m'.queryStartLoc = (List.range (u.numRequests + 1)).map (b.codeStart u)
  queryStartLocCpu : m'.queryStartLocCpu = (List.range (u.numRequests + 1)).map (b.codeStart u)
  seqLens : m'.seqLens = (List.range u.numRequests).map (b.codeSeqLen u)
  seqLensCpu : m'.seqLensCpu = (List.range u.numRequests).map (b.codeSeqLen u)
  numComputedTokensCpu : m'.numComputedTokensCpu = (List.range u.numRequests).map fun j =>
    (len b.computed (u.requestSlice.start + j) : Int)
  numReqs : m'.numReqs = u.numRequests
  numActualTokens : m'.numActualTokens = u.numTokens
  blockTableTensor : m'.blockTableTensor =
    slice m.blockTableTensor u.requestSlice.start u.requestSlice.stop
  slotMapping : m'.slotMapping = slice m.slotMapping u.tokenSlice.start u.tokenSlice.stop

end QueryBatch

section Code

variable {b : QueryBatch} {u : UBatchSlice} {m : CommonAttentionMetadata}

lemma sliceQueryStartLocs_starts (h : b.FitsSlice u) :
    sliceQueryStartLocs (starts b.queryLens) u.requestSlice =
      .ok ((List.range (u.numRequests + 1)).map fun j =>
        (start b.queryLens (u.requestSlice.start + j) : Int) -
          start b.queryLens u.requestSlice.start) := by
  have hstop := u.stop_eq
  have hle : u.requestSlice.stop ≤ b.queryLens.length := h.stop_le
  have hfirst : pyIndex (starts b.queryLens) u.requestSlice.start =
      .ok (start b.queryLens u.requestSlice.start : Int) :=
    pyIndex_eq_ok.mpr (getElem?_starts (by omega))
  rw [sliceQueryStartLocs, hfirst, ok_bind, pure_eq, starts, hstop, Nat.add_assoc,
    slice_map_range (by omega), List.map_map]
  rfl

/-- Dropping the tokens before the slice shifts the later start locations. -/
lemma skipFirst_starts (h : b.FitsSlice u) :
    skipFirst ((u.tokenSlice.start : Int) > start b.queryLens u.requestSlice.start)
      (u.tokenSlice.start - start b.queryLens u.requestSlice.start)
      ((List.range (u.numRequests + 1)).map fun j =>
        (start b.queryLens (u.requestSlice.start + j) : Int) -
          start b.queryLens u.requestSlice.start) =
      (List.range (u.numRequests + 1)).map fun j => if j = 0 then 0 else
        (start b.queryLens (u.requestSlice.start + j) : Int) - u.tokenSlice.start := by
  have hle := h.first_le
  rw [skipFirst]
  split_ifs with hsplit
  · rw [subTail_map_range]
    refine List.map_congr_left fun j _ => ?_
    split_ifs
    · simp
    · omega
  · refine List.map_congr_left fun j _ => ?_
    split_ifs with hj
    · rw [hj, Nat.add_zero, Int.sub_self]
    · omega

/-- A slice that fits is not empty, and its first and last token lie in its first and last
request. -/
lemma FitsSlice.locations (h : b.FitsSlice u) (hm : m.Describes b) :
    pyIndex m.queryStartLocCpu u.requestSlice.start =
        .ok (start b.queryLens u.requestSlice.start : Int) ∧
      pyIndex m.queryStartLocCpu (u.requestSlice.start + 1) =
        .ok (start b.queryLens (u.requestSlice.start + 1) : Int) ∧
      pyIndex m.queryStartLocCpu (u.requestSlice.stop - 1) =
        .ok (start b.queryLens (u.requestSlice.stop - 1) : Int) ∧
      pyIndex m.queryStartLocCpu (u.requestSlice.stop - 1 + 1) =
        .ok (start b.queryLens u.requestSlice.stop : Int) := by
  have hle : u.requestSlice.stop ≤ b.queryLens.length := h.stop_le
  have hlt := h.start_lt_stop
  have hlast : u.requestSlice.stop - 1 + 1 = u.requestSlice.stop := Nat.sub_add_cancel h.stop_pos
  rw [hm.queryStartLocCpu, hlast]
  exact ⟨pyIndex_eq_ok.mpr (getElem?_starts (by omega)),
    pyIndex_eq_ok.mpr (getElem?_starts (by omega)),
    pyIndex_eq_ok.mpr (getElem?_starts (by omega)), pyIndex_eq_ok.mpr (getElem?_starts hle)⟩

lemma slice_seqLens (h : b.FitsSlice u) :
    slice (b.seqLens.map (Nat.cast : Nat → Int)) u.requestSlice.start u.requestSlice.stop =
      (List.range u.numRequests).map fun j => (b.seqLen (u.requestSlice.start + j) : Int) := by
  have hle := h.stop_le
  rw [b.cast_seqLens, u.stop_eq, slice_map_range (by rw [← u.stop_eq]; exact hle)]

lemma slice_computed (h : b.FitsSlice u) :
    slice (b.computed.map (Nat.cast : Nat → Int)) u.requestSlice.start u.requestSlice.stop =
      (List.range u.numRequests).map fun j =>
        (len b.computed (u.requestSlice.start + j) : Int) := by
  have hle := h.stop_le
  rw [b.cast_computed, u.stop_eq, slice_map_range (by rw [← u.stop_eq]; exact hle)]

lemma skipLast_eq (h : b.FitsSlice u) :
    let starts := (List.range (u.numRequests + 1)).map fun j => if j = 0 then 0 else
      (start b.queryLens (u.requestSlice.start + j) : Int) - u.tokenSlice.start
    let seqLens := (List.range u.numRequests).map fun j =>
      (b.seqLen (u.requestSlice.start + j) : Int)
    SliceLens.skipLast ((u.tokenSlice.stop : Int) - 1 <
        (start b.queryLens u.requestSlice.stop : Int) - 1) u.tokenSlice.stop
        ⟨starts, starts, seqLens, seqLens⟩ =
      .ok ⟨(List.range (u.numRequests + 1)).map (b.codeStart u),
        (List.range (u.numRequests + 1)).map (b.codeStart u),
        (List.range u.numRequests).map (b.codeSeqLen u),
        (List.range u.numRequests).map (b.codeSeqLen u)⟩ := by
  intro starts seqLens
  have hpos := h.numRequests_pos
  have hstop := u.stop_eq
  have hlast : starts.getLastD 0 =
      (start b.queryLens u.requestSlice.stop : Int) - u.tokenSlice.start := by
    simp only [starts, List.range_succ, List.map_append, List.map_singleton,
      List.getLastD_concat, if_neg hpos.ne', ← hstop]
  rw [SliceLens.skipLast]
  split_ifs with hsplit
  · have hlt : u.tokenSlice.stop < start b.queryLens u.requestSlice.stop := by omega
    simp only [hlast]
    simp only [starts, seqLens, subLast_map_range hpos, subLast_map_range (Nat.succ_pos _),
      ok_bind, pure_eq]
    have hstarts : ∀ j ∈ List.range (u.numRequests + 1),
        (if j + 1 = u.numRequests + 1 then
          (if j = 0 then 0 else (start b.queryLens (u.requestSlice.start + j) : Int) -
            u.tokenSlice.start) -
            ((start b.queryLens u.requestSlice.stop : Int) - u.tokenSlice.start -
              u.tokenSlice.stop)
        else if j = 0 then 0 else
          (start b.queryLens (u.requestSlice.start + j) : Int) - u.tokenSlice.start) =
        b.codeStart u j := by
      intro j _
      rw [QueryBatch.codeStart]
      by_cases hj : j = u.numRequests
      · rw [if_pos (by omega), if_neg (by omega), if_pos hj, QueryBatch.codeEnd, if_pos hlt, hj,
          ← hstop]
        omega
      · rw [if_neg (by omega), if_neg hj]
    have hseqLens : ∀ j ∈ List.range u.numRequests,
        (if j + 1 = u.numRequests then (b.seqLen (u.requestSlice.start + j) : Int) -
          ((start b.queryLens u.requestSlice.stop : Int) - u.tokenSlice.start - u.tokenSlice.stop)
        else b.seqLen (u.requestSlice.start + j)) = b.codeSeqLen u j := by
      intro j _
      rw [QueryBatch.codeSeqLen, QueryBatch.codeSkipped, if_pos hlt]
    rw [List.map_congr_left hstarts, List.map_congr_left hseqLens]
  · have hge : ¬ (u.tokenSlice.stop < start b.queryLens u.requestSlice.stop) := by omega
    have hstarts : starts = (List.range (u.numRequests + 1)).map (b.codeStart u) := by
      refine List.map_congr_left fun j _ => ?_
      rw [QueryBatch.codeStart]
      by_cases hj : j = u.numRequests
      · rw [if_neg (by omega), if_pos hj, QueryBatch.codeEnd, if_neg hge, hj, ← hstop]
      · rw [if_neg hj]
    have hseqLens : seqLens = (List.range u.numRequests).map (b.codeSeqLen u) := by
      refine List.map_congr_left fun j _ => ?_
      rw [QueryBatch.codeSeqLen, QueryBatch.codeSkipped, if_neg hge, Int.sub_zero, ite_self]
    rw [hstarts, hseqLens]

lemma makeMetadataWithSlice_eq (h : b.FitsSlice u) (hm : m.Describes b) :
    ∃ m', makeMetadataWithSlice u m = .ok m' ∧ b.CodeMetadata u m m' := by
  obtain ⟨hfirst, hnext, hlast, hend⟩ := FitsSlice.locations h hm
  have hne := h.nonempty
  have hlt := h.start_lt_stop
  have hpos := h.numRequests_pos
  have hempty : ¬ u.isEmpty := by
    rintro (heq | heq) <;> omega
  have hin : (start b.queryLens u.requestSlice.start : Int) ≤ u.tokenSlice.start ∧
      (u.tokenSlice.start : Int) < start b.queryLens (u.requestSlice.start + 1) := by
    have hle := h.first_le
    have hlt := h.first_lt
    omega
  have hin' : (start b.queryLens (u.requestSlice.stop - 1) : Int) ≤ u.tokenSlice.stop - 1 ∧
      (u.tokenSlice.stop - 1 : Int) < start b.queryLens u.requestSlice.stop := by
    have hle := h.last_le
    have hlt := h.last_lt
    omega
  have hcpu := hm.queryStartLocCpu ▸ sliceQueryStartLocs_starts h
  have hgpu := hm.queryStartLoc ▸ sliceQueryStartLocs_starts h
  have hlong : 2 ≤ u.numRequests + 1 := Nat.succ_le_succ hpos
  have hseqs : (List.range u.numRequests).map (b.codeSeqLen u) ≠ [] := by
    refine List.ne_nil_of_length_pos ?_
    simpa using hpos
  have hqueries : ((diffs ((List.range (u.numRequests + 1)).map (b.codeStart u))).map
      fun q => (q.natAbs : Int)) ≠ [] := by
    refine List.ne_nil_of_length_pos ?_
    simpa [diffs] using hpos
  obtain ⟨maxSeqLen, hseq⟩ := exists_tensorMax hseqs
  obtain ⟨maxQueryLen, hquery⟩ := exists_tensorMax hqueries
  rw [makeMetadataWithSlice, pyAssert, if_pos hempty, ok_bind]
  simp only [hfirst, hnext, hlast, hend, hcpu, hgpu, ok_bind]
  rw [pyAssert, if_pos hin, ok_bind, pyAssert, if_pos hin', ok_bind, pyAssert,
    if_pos (by simpa using hlong), ok_bind, skipFirst_starts h, hm.seqLens, hm.seqLensCpu,
    slice_seqLens h, skipLast_eq h, ok_bind]
  simp only [SliceLens.metadata, hseq, hquery, ok_bind, pure_eq, hm.numComputedTokensCpu,
    slice_computed h]
  refine ⟨_, rfl, rfl, rfl, rfl, rfl, rfl, ?_, ?_, rfl, rfl⟩
  · rw [UBatchSlice.numRequests, Nat.cast_sub u.requestSlice.le]
  · rw [UBatchSlice.numTokens, Nat.cast_sub u.tokenSlice.le]

end Code

end VllmV1
