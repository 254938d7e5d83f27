import VllmMmaEmu.Attention.Metadata
import VllmMmaEmu.Library.Exchanges
import VllmMmaEmu.Worker.BatchRuns

/-!
# Decodes in front of prefills

`reorder_batch_to_split_decodes_and_prefills` and `split_decodes_and_prefills` of
`vllm/v1/attention/backends/utils.py`: the requests with few scheduled tokens are swapped to the
front of the persistent batch, and the boundary is found again in the metadata of the batch.
-/

namespace VllmV1

open Python Segments

/-- `split_decodes_and_prefills`: the numbers of decodes and of prefills, then of their tokens. -/
def splitDecodesAndPrefills (m : CommonAttentionMetadata) (decodeThreshold : Int)
    (requireUniform : Bool) : Except PyError (Int × Int × Int × Int) :=
  if m.maxQueryLen ≤ decodeThreshold ∧ (¬ requireUniform ∨ decodeThreshold ≤ 1) then
    .ok (m.numReqs, 0, m.numActualTokens, 0)
  else do
    let queryLens := diffs m.queryStartLocCpu
    let firstLen ← pyIndex queryLens 0
    if firstLen > decodeThreshold then
      -- the first request is no decode
      return (0, m.numReqs, 0, m.numActualTokens)
    let isPrefill := queryLens.map fun l =>
      if requireUniform then decide (l ≠ firstLen) else decide (l > decodeThreshold)
    if ¬ isPrefill.any id then return (m.numReqs, 0, m.numActualTokens, 0)
    let firstPrefill := isPrefill.findIdx id
    pyAssert (∀ l ∈ queryLens.take firstPrefill, l ≤ decodeThreshold)
    let numDecodeTokens ← pyIndex m.queryStartLocCpu firstPrefill
    return (firstPrefill, m.numReqs - firstPrefill, numDecodeTokens,
      m.numActualTokens - numDecodeTokens)

section Separated

variable {m : CommonAttentionMetadata} {decodes prefills : List Nat} {p : Nat}
  {decodeThreshold : Int}

lemma findIdx_isPrefill (hdecodes : ∀ l ∈ decodes, (l : Int) ≤ decodeThreshold)
    (hp : decodeThreshold < (p : Int)) :
    (((decodes ++ p :: prefills).map (Nat.cast : Nat → Int)).map
      fun l => decide (l > decodeThreshold)).findIdx id = decodes.length := by
  have hnone : ¬ decodes.findIdx (fun l : Nat => decide ((l : Int) > decodeThreshold)) <
      decodes.length := by
    rw [List.findIdx_lt_length]
    rintro ⟨l, hl, hlong⟩
    exact Int.not_lt.mpr (hdecodes l hl) (of_decide_eq_true hlong)
  rw [List.findIdx_map, List.findIdx_map, List.findIdx_append]
  simp only [Function.comp_def, id_eq, hnone, if_false]
  rw [List.findIdx_cons, decide_eq_true hp]
  simp

/-- Where the decodes are in front, they and their tokens are counted exactly. -/
lemma splitDecodesAndPrefills_append (hm : m.HasQueryLens (decodes ++ prefills))
    (hdecodes : ∀ l ∈ decodes, (l : Int) ≤ decodeThreshold)
    (hprefills : ∀ l ∈ prefills, decodeThreshold < (l : Int)) :
    splitDecodesAndPrefills m decodeThreshold false =
      .ok (decodes.length, prefills.length, decodes.sum, prefills.sum) := by
  have hreqs : m.numReqs = decodes.length + prefills.length := by
    rw [hm.numReqs, List.length_append, Nat.cast_add]
  have htokens : m.numActualTokens = decodes.sum + prefills.sum := by
    rw [hm.numActualTokens, List.sum_append, Nat.cast_add]
  have hlens : diffs m.queryStartLocCpu = (decodes ++ prefills).map Nat.cast := by
    rw [hm.queryStartLocCpu, diffs_starts]
  cases prefills with
  | nil =>
    obtain ⟨l, hl, hmax⟩ := hm.maxQueryLen_mem
    rw [List.append_nil] at hl
    have hshort : m.maxQueryLen ≤ decodeThreshold := hmax ▸ hdecodes l hl
    rw [splitDecodesAndPrefills, if_pos ⟨hshort, by simp⟩, hreqs, htokens]
    simp
  | cons p prefills =>
    have hp : decodeThreshold < (p : Int) := hprefills p List.mem_cons_self
    have hlong : ¬ (m.maxQueryLen ≤ decodeThreshold) := by
      have hle := hm.le_maxQueryLen p (by simp)
      omega
    rw [splitDecodesAndPrefills, if_neg fun h => hlong h.1, hlens]
    cases decodes with
    | nil =>
      have hfirst : pyIndex (([] ++ p :: prefills).map (Nat.cast : Nat → Int)) 0 = .ok (p : Int) :=
        rfl
      simp only [hfirst, ok_bind, gt_iff_lt, hp, if_true, pure_eq, hreqs, htokens]
      simp
    | cons d decodes =>
      have hd : ¬ (decodeThreshold < (d : Int)) := Int.not_lt.mpr (hdecodes d List.mem_cons_self)
      have hfirst : pyIndex ((d :: decodes ++ p :: prefills).map (Nat.cast : Nat → Int)) 0 =
          .ok (d : Int) := rfl
      have hany : (((d :: decodes ++ p :: prefills).map (Nat.cast : Nat → Int)).map
          fun l => decide (l > decodeThreshold)).any id = true := by
        simp [hp]
      have hall : ∀ l ∈ ((d :: decodes ++ p :: prefills).map (Nat.cast : Nat → Int)).take
          (d :: decodes).length, l ≤ decodeThreshold := by
        intro l hl
        rw [← List.map_take, List.take_left] at hl
        obtain ⟨l', hl', rfl⟩ := List.mem_map.mp hl
        exact hdecodes l' hl'
      have hend : pyIndex m.queryStartLocCpu (d :: decodes).length =
          .ok ((d :: decodes).sum : Int) := by
        rw [hm.queryStartLocCpu, pyIndex_eq_ok, getElem?_starts (by simp), start_append_left]
      simp only [hfirst, ok_bind, gt_iff_lt, hd, if_false, Bool.false_eq_true, not_true, hany,
        findIdx_isPrefill hdecodes hp]
      rw [pyAssert, if_pos hall, ok_bind, hend, ok_bind, pure_eq, hreqs, htokens]
      simp

end Separated

namespace Worker.InputBatch

variable {F : Type}

/-- The scheduled tokens of the requests of the batch, row by row. -/
def scheduledTokens (b : InputBatch F) (numScheduledTokens : Dict String Nat) :
    Except PyError (List Nat) :=
  b.reqIds.mapM fun reqId => match reqId with
    | some reqId => numScheduledTokens.getItem reqId
    | none => .error .keyError

/-- The loop over the pairs `(prefills[i - 1], decodes[num_decodes - i])`. It stops at the first
decode that is in place. -/
def swapLoop (numDecodes : Nat) :
    List (Nat × Nat) → InputBatch F → Bool → Except PyError (Bool × InputBatch F)
  | [], b, modified => .ok (modified, b)
  | (prefillIdx, decodeIdx) :: pairs, b, modified =>
    if decodeIdx < numDecodes then .ok (modified, b)
    else do
      let b ← b.swapStates prefillIdx decodeIdx
      swapLoop numDecodes pairs b true

/-- `reorder_batch_to_split_decodes_and_prefills`: whether the batch was modified, and the batch. -/
def reorderBatchToSplitDecodesAndPrefills (b : InputBatch F) (numScheduledTokens : Dict String Nat)
    (decodeThreshold : Int) : Except PyError (Bool × InputBatch F) := do
  let numTokens ← b.scheduledTokens numScheduledTokens
  let isDecode (i : Nat) : Bool := decide ((len numTokens i : Int) ≤ decodeThreshold)
  let decodes := (List.range numTokens.length).filter isDecode
  let prefills := (List.range numTokens.length).filter (!isDecode ·)
  b.swapLoop decodes.length (prefills.zip decodes.reverse) false

/-- Rows are swapped, one pair after the other. -/
def swapPairs (b : InputBatch F) (pairs : List (Nat × Nat)) : Except PyError (InputBatch F) :=
  pairs.foldlM (fun b pair => b.swapStates pair.1 pair.2) b

lemma swapLoop_eq (numDecodes : Nat) (pairs : List (Nat × Nat)) (b : InputBatch F)
    (modified : Bool) : b.swapLoop numDecodes pairs modified = (do
      let swaps := pairs.takeWhile fun pair => decide (numDecodes ≤ pair.2)
      let b ← b.swapPairs swaps
      return (modified || !swaps.isEmpty, b)) := by
  induction pairs generalizing b modified with
  | nil => simp [swapLoop, swapPairs]
  | cons pair pairs ih =>
    obtain ⟨prefillIdx, decodeIdx⟩ := pair
    by_cases hlt : decodeIdx < numDecodes
    · have hstop : ¬ numDecodes ≤ decodeIdx := Nat.not_le_of_lt hlt
      simp [swapLoop, swapPairs, hlt, hstop]
    · have hgo : numDecodes ≤ decodeIdx := Nat.le_of_not_lt hlt
      simp only [swapLoop, hlt, if_false, ih, List.takeWhile_cons, decide_eq_true hgo, if_true,
        swapPairs, List.foldlM_cons, Bool.true_or, List.isEmpty_cons, Bool.not_false, Bool.or_true,
        bind_assoc]

variable {b b' : InputBatch F} {heap : Heap} {rows : Seats F} {lens : List Nat}
  {numScheduledTokens : Dict String Nat}

lemma Settled.exists_swap (h : Settled heap b rows) {i j : Nat} (hi : i < b.numReqs)
    (hj : j < b.numReqs) : ∃ b', b.swapStates i j = .ok b' ∧
      Settled heap b' (Rows.swap rows i j) ∧ b'.numReqs = b.numReqs := by
  obtain ⟨r₁, hr₁⟩ := h.full.isSome_iff.mpr hi
  obtain ⟨r₂, hr₂⟩ := h.full.isSome_iff.mpr hj
  have hids := swapIds_ok (h.linked.getElem?_reqIds hr₁) (h.linked.getElem?_reqIds hr₂)
    (h.linked.getElem?_outputs hr₁) (h.linked.getElem?_outputs hr₂) (h.get?_reqId hr₁)
    (h.get?_reqId hr₂)
  have hok : ∃ b', b.swapStates i j = .ok b' := by
    simp only [swapStates, hids, ok_bind, pure_eq]
    exact ⟨_, rfl⟩
  obtain ⟨b', hswap⟩ := hok
  have hsettled := h.swap hswap
  exact ⟨b', hswap, hsettled, hsettled.full.unique (h.full.update_swap hi hj)⟩

lemma Settled.exists_swapPairs (h : Settled heap b rows) (pairs : List (Nat × Nat))
    (hpairs : ∀ pair ∈ pairs, pair.1 < b.numReqs ∧ pair.2 < b.numReqs) :
    ∃ b', b.swapPairs pairs = .ok b' ∧ Settled heap b' (Rows.swapAll rows pairs) ∧
      b'.numReqs = b.numReqs := by
  induction pairs generalizing b rows with
  | nil => exact ⟨b, rfl, h, rfl⟩
  | cons pair pairs ih =>
    obtain ⟨hfst, hsnd⟩ := hpairs pair List.mem_cons_self
    obtain ⟨b₁, hswap, hsettled, hnum⟩ := h.exists_swap hfst hsnd
    obtain ⟨b', hrest, hsettled', hnum'⟩ := ih hsettled fun pair' hpair' => by
      rw [hnum]
      exact hpairs pair' (List.mem_cons_of_mem _ hpair')
    refine ⟨b', ?_, hsettled', hnum'.trans hnum⟩
    rw [swapPairs, List.foldlM_cons, hswap, ok_bind]
    exact hrest

/-- The scheduled tokens of the request on a row. -/
def rowTokens (numScheduledTokens : Dict String Nat) : Option (CachedRequestState F) → Nat
  | some r => (numScheduledTokens.get? r.reqId).getD 0
  | none => 0

lemma Settled.scheduledTokens_eq (h : Settled heap b rows)
    (hall : ∀ i r, rows i = some r → ∃ k, numScheduledTokens.get? r.reqId = some k) :
    b.scheduledTokens numScheduledTokens =
      .ok ((List.range b.numReqs).map fun i => rowTokens numScheduledTokens (rows i)) := by
  have hids : b.reqIds = (List.range b.numReqs).map fun i => (rows i).map (·.reqId) := by
    refine List.ext_getElem? fun i => ?_
    rw [List.getElem?_map]
    by_cases hi : i < b.numReqs
    · obtain ⟨r, hr⟩ := h.full.isSome_iff.mpr hi
      rw [h.linked.getElem?_reqIds hr, List.getElem?_range hi, Option.map_some, hr]
      rfl
    · rw [List.getElem?_eq_none (by rw [h.length]; omega), List.getElem?_eq_none (by simpa using hi)]
      rfl
  rw [scheduledTokens, hids, List.mapM_map]
  refine mapM_of_forall fun i hi => ?_
  obtain ⟨r, hr⟩ := h.full.isSome_iff.mpr (List.mem_range.mp hi)
  obtain ⟨k, hk⟩ := hall i r hr
  simp only [Function.comp_apply, hr, Option.map_some, rowTokens, Dict.getItem_eq_ok.mpr hk, hk,
    Option.getD_some]

lemma Settled.found_of_scheduledTokens (h : Settled heap b rows)
    (hlens : b.scheduledTokens numScheduledTokens = .ok lens) {i : Nat} {r : CachedRequestState F}
    (hr : rows i = some r) : ∃ k, numScheduledTokens.get? r.reqId = some k := by
  have hpair := List.forall₂_iff_get.mp (forall₂_of_mapM hlens)
  obtain ⟨hlt, hid⟩ := List.getElem?_eq_some_iff.mp (h.linked.getElem?_reqIds hr)
  have hget := hpair.2 i hlt (hpair.1 ▸ hlt)
  simp only [List.get_eq_getElem, hid] at hget
  exact ⟨_, Dict.getItem_eq_ok.mp hget⟩

section Reordered

variable {decodeThreshold : Int}

/-- The query lengths of the decodes. -/
def decodeLens (decodeThreshold : Int) (lens : List Nat) : List Nat :=
  lens.filter fun l => decide ((l : Int) ≤ decodeThreshold)

def prefillLens (decodeThreshold : Int) (lens : List Nat) : List Nat :=
  lens.filter fun l => !decide ((l : Int) ≤ decodeThreshold)

/-- The requests on the first rows are the decodes. -/
def Separated (decodeThreshold : Int) (lens : List Nat) : Prop :=
  ∀ i < lens.length,
    (len lens i : Int) ≤ decodeThreshold ↔ i < (decodeLens decodeThreshold lens).length

/-- The decodes on rows that the decodes do not reach. -/
def misplacedDecodes (decodeThreshold : Int) (lens : List Nat) : Nat :=
  (List.range lens.length).countP fun i =>
    decide ((decodeLens decodeThreshold lens).length ≤ i ∧ (len lens i : Int) ≤ decodeThreshold)

lemma boundary_eq (decodeThreshold : Int) (lens : List Nat) :
    Rows.boundary (fun i => decide ((len lens i : Int) ≤ decodeThreshold)) lens.length =
      (decodeLens decodeThreshold lens).length := by
  conv_rhs => rw [decodeLens, ← map_len_range lens, List.filter_map, List.length_map]
  rfl

lemma length_exchanges_eq (decodeThreshold : Int) (lens : List Nat) :
    (Rows.exchanges (fun i => decide ((len lens i : Int) ≤ decodeThreshold)) lens.length).length =
      misplacedDecodes decodeThreshold lens := by
  have hback : ∀ i < lens.length, decide ((decodeLens decodeThreshold lens).length ≤ i ∧
      (len lens i : Int) ≤ decodeThreshold) = true ↔ i ∈ Rows.misplacedBack
        (fun i => decide ((len lens i : Int) ≤ decodeThreshold)) lens.length := by
    intro i hi
    rw [Rows.mem_misplacedBack, boundary_eq]
    simp [hi]
  rw [Rows.length_exchanges, misplacedDecodes, List.countP_eq_length_filter]
  have hnodup : (Rows.misplacedBack (fun i => decide ((len lens i : Int) ≤ decodeThreshold))
      lens.length).Nodup := (List.nodup_range').filter _
  refine ((List.perm_ext_iff_of_nodup hnodup (List.nodup_range.filter _)).mpr fun i => ?_).length_eq
  rw [List.mem_filter, List.mem_range]
  constructor
  · intro hi
    have hlt := (Rows.mem_misplacedBack.mp hi).2.1
    exact ⟨hlt, (hback i hlt).mpr hi⟩
  · exact fun hi => (hback i hi.1).mp hi.2

/-- Separated lengths are the decodes followed by the prefills. -/
lemma Separated.eq_append (h : Separated decodeThreshold lens) :
    decodeLens decodeThreshold lens ++ prefillLens decodeThreshold lens = lens := by
  let D := (decodeLens decodeThreshold lens).length
  have hfront : ∀ l ∈ lens.take D, decide ((l : Int) ≤ decodeThreshold) = true := by
    intro l hl
    obtain ⟨i, hi, rfl⟩ := List.getElem_of_mem hl
    rw [List.length_take] at hi
    have hdecode := (h i (by omega)).mpr (by omega)
    rw [len, List.getD_eq_getElem _ _ (by omega)] at hdecode
    rw [List.getElem_take]
    exact decide_eq_true hdecode
  have hback : ∀ l ∈ lens.drop D, decide ((l : Int) ≤ decodeThreshold) = false := by
    intro l hl
    obtain ⟨i, hi, rfl⟩ := List.getElem_of_mem hl
    rw [List.length_drop] at hi
    have hprefill := (h (D + i) (by omega)).not.mpr (by omega)
    rw [len, List.getD_eq_getElem _ _ (by omega)] at hprefill
    rw [List.getElem_drop]
    exact decide_eq_false hprefill
  have hdecodes : decodeLens decodeThreshold lens = lens.take D := by
    conv_lhs => rw [decodeLens, ← List.take_append_drop D lens, List.filter_append,
      List.filter_eq_self.mpr hfront, List.filter_eq_nil_iff.mpr fun l hl => by simp [hback l hl]]
    rw [List.append_nil]
  have hprefills : prefillLens decodeThreshold lens = lens.drop D := by
    conv_lhs => rw [prefillLens, ← List.take_append_drop D lens, List.filter_append,
      List.filter_eq_nil_iff.mpr fun l hl => by simp [hfront l hl],
      List.filter_eq_self.mpr fun l hl => by simp [hback l hl]]
    rw [List.nil_append]
  rw [hdecodes, hprefills, List.take_append_drop]

lemma le_of_mem_decodeLens {l : Nat} (h : l ∈ decodeLens decodeThreshold lens) :
    (l : Int) ≤ decodeThreshold := of_decide_eq_true (List.mem_filter.mp h).2

lemma lt_of_mem_prefillLens {l : Nat} (h : l ∈ prefillLens decodeThreshold lens) :
    decodeThreshold < (l : Int) := by
  have hnot := (List.mem_filter.mp h).2
  rw [Bool.not_eq_true', decide_eq_false_iff_not] at hnot
  exact Int.not_le.mp hnot

/-- What reordering makes of the batch: rows are swapped across the boundary, as often as decodes
are behind it, and afterwards the decodes are in front and are counted exactly. -/
structure Reordered (b b' : InputBatch F) (numScheduledTokens : Dict String Nat)
    (decodeThreshold : Int) (lens : List Nat) (modified : Bool) : Prop where
  swapped : ∃ pairs : List (Nat × Nat), b.swapPairs pairs = .ok b' ∧
    pairs.length = misplacedDecodes decodeThreshold lens ∧
    (∀ pair ∈ pairs, pair.1 < (decodeLens decodeThreshold lens).length ∧
      (decodeLens decodeThreshold lens).length ≤ pair.2 ∧ pair.2 < lens.length) ∧
    (modified = true ↔ pairs ≠ [])
  identity : Separated decodeThreshold lens → b' = b
  separated : ∃ lens', b'.scheduledTokens numScheduledTokens = .ok lens' ∧ lens'.Perm lens ∧
    Separated decodeThreshold lens' ∧
    ∀ m : CommonAttentionMetadata, m.HasQueryLens lens' →
      splitDecodesAndPrefills m decodeThreshold false =
        .ok ((decodeLens decodeThreshold lens).length, (prefillLens decodeThreshold lens).length,
          (decodeLens decodeThreshold lens).sum, (prefillLens decodeThreshold lens).sum)

lemma isDecode_row (h : Settled heap b rows)
    (hlens : b.scheduledTokens numScheduledTokens = .ok lens) (i : Nat) :
    len lens i = rowTokens numScheduledTokens (rows i) := by
  have hrows := h.scheduledTokens_eq fun i r hr => h.found_of_scheduledTokens hlens hr
  obtain rfl := Except.ok.inj (hlens.symm.trans hrows)
  rw [len, List.getD_eq_getElem?_getD, List.getElem?_map]
  by_cases hi : i < b.numReqs
  · rw [List.getElem?_range hi]
    rfl
  · rw [List.getElem?_eq_none (by simpa using hi), (h.full i).mpr (Nat.le_of_not_lt hi)]
    rfl

/-- The swaps across the boundary that `reorder_batch_to_split_decodes_and_prefills` makes. -/
def boundarySwaps (decodeThreshold : Int) (lens : List Nat) : List (Nat × Nat) :=
  Rows.exchanges (fun i => decide ((len lens i : Int) ≤ decodeThreshold)) lens.length

lemma crosses_of_mem_boundarySwaps {pair : Nat × Nat}
    (h : pair ∈ boundarySwaps decodeThreshold lens) :
    pair.1 < (decodeLens decodeThreshold lens).length ∧
      (decodeLens decodeThreshold lens).length ≤ pair.2 ∧ pair.2 < lens.length := by
  obtain ⟨⟨hlt, -⟩, hge, hlt', -⟩ := Rows.crosses_of_mem (i := pair.1) (j := pair.2) h
  rw [boundary_eq] at hlt hge
  exact ⟨hlt, hge, hlt'⟩

lemma Separated.boundarySwaps_eq_nil (h : Separated decodeThreshold lens) :
    boundarySwaps decodeThreshold lens = [] := by
  refine Rows.exchanges_eq_nil fun i hi => ?_
  rw [boundary_eq]
  exact decide_eq_true_iff.trans (h i hi)

/-- What the loop does: the swaps across the boundary, and nothing else. -/
lemma reorderBatch_eq (hlens : b.scheduledTokens numScheduledTokens = .ok lens) :
    b.reorderBatchToSplitDecodesAndPrefills numScheduledTokens decodeThreshold = (do
      let b' ← b.swapPairs (boundarySwaps decodeThreshold lens)
      return (!(boundarySwaps decodeThreshold lens).isEmpty, b')) := by
  have hpairs := Rows.takeWhile_zip (n := lens.length)
    (q := fun i => decide ((len lens i : Int) ≤ decodeThreshold))
  unfold Rows.boundary Rows.others Rows.chosen at hpairs
  rw [reorderBatchToSplitDecodesAndPrefills, hlens, ok_bind, swapLoop_eq, hpairs]
  rfl

/-- The swaps leave the same requests on the rows, and the decodes in front. -/
lemma Settled.separated_swapAll (h : Settled heap b rows)
    (hlens : b.scheduledTokens numScheduledTokens = .ok lens)
    (hsettled : Settled heap b' (Rows.swapAll rows (boundarySwaps decodeThreshold lens)))
    (hnum : b'.numReqs = b.numReqs) :
    ∃ lens', b'.scheduledTokens numScheduledTokens = .ok lens' ∧ lens'.Perm lens ∧
      Separated decodeThreshold lens' := by
  have hfound : ∀ i r, rows i = some r → ∃ k, numScheduledTokens.get? r.reqId = some k :=
    fun i r hr => h.found_of_scheduledTokens hlens hr
  have hlens_eq : lens = (List.range b.numReqs).map fun i => rowTokens numScheduledTokens (rows i) :=
    Except.ok.inj (hlens.symm.trans (h.scheduledTokens_eq hfound))
  have hlength : lens.length = b.numReqs := by rw [hlens_eq, List.length_map, List.length_range]
  have hfound' : ∀ i r, Rows.swapAll rows (boundarySwaps decodeThreshold lens) i = some r →
      ∃ k, numScheduledTokens.get? r.reqId = some k := by
    intro i r hr
    obtain ⟨l, hl⟩ := Rows.exists_swapAll_eq rows (boundarySwaps decodeThreshold lens) i
    exact hfound l r (hl ▸ hr)
  have hlens' := hsettled.scheduledTokens_eq hfound'
  have hperm : ((List.range b'.numReqs).map fun i => rowTokens numScheduledTokens
      (Rows.swapAll rows (boundarySwaps decodeThreshold lens) i)).Perm lens := by
    have hrange : ∀ pair ∈ boundarySwaps decodeThreshold lens,
        pair.1 < b'.numReqs ∧ pair.2 < b'.numReqs := by
      intro pair hpair
      obtain ⟨hlt, hge, hlt'⟩ := crosses_of_mem_boundarySwaps hpair
      omega
    have hrows := (Rows.map_range_swapAll rows hrange).map (rowTokens numScheduledTokens)
    rw [List.map_map, List.map_map] at hrows
    exact hrows.trans (List.Perm.of_eq (by rw [hnum]; exact hlens_eq.symm))
  refine ⟨_, hlens', hperm, fun i hi => ?_⟩
  rw [hperm.length_eq] at hi
  have hside := Rows.swapAll_exchanges rows
    (fun o => decide ((rowTokens numScheduledTokens o : Int) ≤ decodeThreshold))
    (fun i => by rw [← isDecode_row h hlens i]) hi
  rw [boundary_eq, decide_eq_true_iff] at hside
  have hcount := (hperm.filter fun l : Nat => decide ((l : Int) ≤ decodeThreshold)).length_eq
  rw [isDecode_row hsettled hlens' i]
  exact hside.trans (Eq.to_iff (congrArg (i < ·) hcount.symm))

lemma Settled.reordered (h : Settled heap b rows)
    (hlens : b.scheduledTokens numScheduledTokens = .ok lens) (decodeThreshold : Int) :
    ∃ modified b', b.reorderBatchToSplitDecodesAndPrefills numScheduledTokens decodeThreshold =
        .ok (modified, b') ∧
      Reordered b b' numScheduledTokens decodeThreshold lens modified := by
  have hlength : lens.length = b.numReqs := by
    have hrows := h.scheduledTokens_eq fun i r hr => h.found_of_scheduledTokens hlens hr
    rw [Except.ok.inj (hlens.symm.trans hrows), List.length_map, List.length_range]
  obtain ⟨b', hswap, hsettled, hnum⟩ := h.exists_swapPairs (boundarySwaps decodeThreshold lens)
    fun pair hpair => by
      obtain ⟨hlt, hge, hlt'⟩ := crosses_of_mem_boundarySwaps hpair
      omega
  obtain ⟨lens', hlens', hperm, hseparated⟩ := h.separated_swapAll hlens hsettled hnum
  refine ⟨!(boundarySwaps decodeThreshold lens).isEmpty, b', ?_, ?_, ?_, ?_⟩
  · rw [reorderBatch_eq hlens, hswap]
    rfl
  · exact ⟨_, hswap, length_exchanges_eq decodeThreshold lens,
      fun pair => crosses_of_mem_boundarySwaps, by simp⟩
  · intro hsep
    rw [hsep.boundarySwaps_eq_nil] at hswap
    exact (Except.ok.inj hswap).symm
  · refine ⟨lens', hlens', hperm, hseparated, fun m hm => ?_⟩
    have hdecodes := hperm.filter fun l : Nat => decide ((l : Int) ≤ decodeThreshold)
    have hprefills := hperm.filter fun l : Nat => !decide ((l : Int) ≤ decodeThreshold)
    rw [← hseparated.eq_append] at hm
    rw [splitDecodesAndPrefills_append hm (fun l => le_of_mem_decodeLens)
      (fun l => lt_of_mem_prefillLens)]
    unfold decodeLens prefillLens
    rw [hdecodes.length_eq, hprefills.length_eq, hdecodes.sum_eq, hprefills.sum_eq]

end Reordered

end Worker.InputBatch

namespace Worker.Session

open InputBatch

variable {F : Type} {fl : FloatOps F} {s : Session F} {lens : List Nat}
  {numScheduledTokens : Dict String Nat}

/-- In every run a batch without gaps is reordered so that its decodes are in front. -/
theorem reordered_of_reached (h : ReachedFrom fl s)
    (hstage : s.stage = .ready ∨ s.stage = .condensed)
    (hlens : s.batch.scheduledTokens numScheduledTokens = .ok lens) (decodeThreshold : Int) :
    ∃ modified b', s.batch.reorderBatchToSplitDecodesAndPrefills numScheduledTokens
        decodeThreshold = .ok (modified, b') ∧
      Reordered s.batch b' numScheduledTokens decodeThreshold lens modified := by
  obtain ⟨rows, htracks⟩ := tracks_of_reached h
  exact (htracks.settled_of hstage).reordered hlens decodeThreshold

/-- A prefill in front of two decodes. -/
def prefillFirstRun : List (Op Nat) :=
  [.add (plainRequest "a" 0 (plainParams 0)), .add (plainRequest "b" 1 (plainParams 0)),
    .add (plainRequest "c" 2 (plainParams 0)), .condense]

def prefillFirstTokens : Dict String Nat := ⟨[("a", 2), ("b", 1), ("c", 1)], by decide⟩

theorem reordered_of_reached_prefill_first : ∃ s : Session Nat,
    s.batch.reqIds = [some "a", some "b", some "c"] ∧
    ∃ modified b', s.batch.reorderBatchToSplitDecodesAndPrefills prefillFirstTokens 1 =
        .ok (modified, b') ∧
      Reordered s.batch b' prefillFirstTokens 1 [2, 1, 1] modified := by
  have hrun : (Runs.runAllowed Ordered (fun s op => s.step natFloatOps op)
      (emptySession Nat natFloatOps) prefillFirstRun).map
      (fun s => (s.stage, s.batch.reqIds)) =
        some (.condensed, [some "a", some "b", some "c"]) := by decide +kernel
  obtain ⟨s, hs, heq⟩ := Option.map_eq_some_iff.mp hrun
  obtain ⟨hstage, hids⟩ := Prod.mk.inj heq
  have hlens : s.batch.scheduledTokens prefillFirstTokens = .ok [2, 1, 1] := by
    rw [scheduledTokens, hids]
    decide +kernel
  exact ⟨s, hids, reordered_of_reached (.of_runAllowed (.start (start_emptySession natFloatOps)) hs)
    (Or.inr hstage) hlens 1⟩

end Worker.Session

end VllmV1
