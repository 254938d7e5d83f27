import VllmMmaEmu.SpecDecode.NgramMatcher

/-!
# Drafts of a batch

`NgramProposer.propose` and `batch_propose` of `vllm/v1/spec_decode/ngram_proposer.py`. The
results pass through preallocated buffers: the loop of `batch_propose_numba` writes them by
position in the list of valid requests, and `batch_propose` reads them by request.
-/

namespace VllmV1

open Python

/-- The checked settings of n-gram speculation. -/
structure NgramConfig where
  promptLookupMin : Nat
  promptLookupMax : Nat
  numSpeculativeTokens : Nat
  maxModelLen : Nat
  min_pos : 1 ≤ promptLookupMin
  min_le_max : promptLookupMin ≤ promptLookupMax
  tokens_pos : 0 < numSpeculativeTokens

/-- The preallocated buffers. -/
structure NgramBuffers where
  validNgramDraft : List (List Int)
  validNgramNumDrafts : List Nat
  deriving DecidableEq

/-- The arguments of `propose`. -/
structure NgramBatch where
  sampledTokenIds : List (List Int)
  reqIds : List String
  numTokensNoSpec : List Nat
  tokenIdsCpu : List (List Int)
  specDecodeUnsupportedReqs : List String
  reqIds_length : sampledTokenIds.length ≤ reqIds.length
  numTokens_length : sampledTokenIds.length ≤ numTokensNoSpec.length
  tokenIds_length : sampledTokenIds.length ≤ tokenIdsCpu.length

variable (c : NgramConfig) (b : NgramBatch)

/-- The matcher on the tokens of request `idx`. -/
def NgramBatch.drafts (idx : Nat) : Except PyError (List Int) := do
  let numTokens ← pyIndex b.numTokensNoSpec idx
  let tokenIds ← pyIndex b.tokenIdsCpu idx
  findLongestMatchedNgramAndProposeTokens (tokenIds.take numTokens) c.promptLookupMin
    c.promptLookupMax c.maxModelLen c.numSpeculativeTokens

/-- `valid_ngram_num_drafts[i] = n` and, for a draft, `valid_ngram_draft[i, :n] = draft`. -/
def NgramBuffers.write (buf : NgramBuffers) (i : Nat) (drafterOutput : List Int) :
    Except PyError NgramBuffers := do
  let validNgramNumDrafts ← pySetItem buf.validNgramNumDrafts i drafterOutput.length
  if drafterOutput.length = 0 then return { buf with validNgramNumDrafts }
  let row ← pyIndex buf.validNgramDraft i
  let validNgramDraft ← pySetItem buf.validNgramDraft i
    (drafterOutput ++ row.drop drafterOutput.length)
  return { validNgramDraft, validNgramNumDrafts }

/-- `batch_propose_numba` from position `i` of the valid requests on. -/
def batchProposeNumba : List Nat → Nat → NgramBuffers → Except PyError NgramBuffers
  | [], _, buf => .ok buf
  | idx :: rest, i, buf => do
    let drafterOutput ← b.drafts c idx
    let buf ← buf.write i drafterOutput
    batchProposeNumba rest (i + 1) buf

/-- What `batch_propose` reads for request `i`. -/
def NgramBuffers.read (buf : NgramBuffers) (validNgramRequests : List Nat) (i : Nat) :
    Except PyError (List Int) :=
  if i ∈ validNgramRequests then do
    let numDrafts ← pyIndex buf.validNgramNumDrafts i
    if numDrafts > 0 then
      let row ← pyIndex buf.validNgramDraft i
      return row.take numDrafts
    else return []
  else return []

def batchPropose (numRequests : Nat) (validNgramRequests : List Nat) (buf : NgramBuffers) :
    Except PyError (List (List Int) × NgramBuffers) := do
  let buf ← if validNgramRequests.length = 0 then .ok buf
    else batchProposeNumba c b validNgramRequests 0 buf
  let draftTokenIds ← (List.range numRequests).mapM (buf.read validNgramRequests)
  return (draftTokenIds, buf)

/-- Whether request `i`, which sampled `sampledIds`, needs a proposal. -/
def NgramBatch.needsProposal (i : Nat) (sampledIds : List Int) : Except PyError Bool :=
  if sampledIds.length = 0 then .ok false
  else do
    let reqId ← pyIndex b.reqIds i
    if reqId ∈ b.specDecodeUnsupportedReqs then .ok false
    else
      let numTokens ← pyIndex b.numTokensNoSpec i
      .ok (numTokens < c.maxModelLen)

/-- The first loop of `propose`, from request `i` on. -/
def NgramBatch.validNgramRequests : List (List Int) → Nat → Except PyError (List Nat)
  | [], _ => .ok []
  | sampledIds :: rest, i => do
    let needed ← b.needsProposal c i sampledIds
    let valid ← validNgramRequests rest (i + 1)
    return if needed then i :: valid else valid

def propose (buf : NgramBuffers) : Except PyError (List (List Int) × NgramBuffers) := do
  let valid ← b.validNgramRequests c b.sampledTokenIds 0
  batchPropose c b b.sampledTokenIds.length valid buf

/-- The shapes of the buffers; a count fits its row. -/
structure NgramBuffers.Shaped (rows : Nat) (buf : NgramBuffers) : Prop where
  drafts : buf.validNgramDraft.length = rows
  counts : buf.validNgramNumDrafts.length = rows
  row : ∀ row ∈ buf.validNgramDraft, row.length = c.numSpeculativeTokens
  count : ∀ n ∈ buf.validNgramNumDrafts, n ≤ c.numSpeculativeTokens

/-- The draft that row `i` holds. -/
def NgramBuffers.entry (buf : NgramBuffers) (i : Nat) : List Int :=
  (buf.validNgramDraft.getD i []).take (buf.validNgramNumDrafts.getD i 0)

variable {c b} {rows : Nat} {buf : NgramBuffers}

lemma NgramBuffers.Shaped.write (h : buf.Shaped c rows) {i : Nat} (hi : i < rows)
    {d : List Int} (hd : d.length ≤ c.numSpeculativeTokens) :
    ∃ buf', buf.write i d = .ok buf' ∧ buf'.Shaped c rows ∧ buf'.entry i = d ∧
      ∀ j ≠ i, buf'.entry j = buf.entry j := by
  have hdraft : i < buf.validNgramDraft.length := h.drafts ▸ hi
  have hcount : i < buf.validNgramNumDrafts.length := h.counts ▸ hi
  have hcounts : ∀ n ∈ buf.validNgramNumDrafts.set i d.length, n ≤ c.numSpeculativeTokens :=
    fun n hn => (List.mem_or_eq_of_mem_set hn).elim (h.count n) (fun heq => heq ▸ hd)
  rw [NgramBuffers.write, pySetItem_of_lt hcount, ok_bind]
  by_cases hempty : d.length = 0
  · obtain rfl := List.length_eq_zero_iff.mp hempty
    refine ⟨_, if_pos rfl, ⟨h.drafts, List.length_set.trans h.counts, h.row, hcounts⟩, ?_, ?_⟩
    · simp [entry, List.getD_eq_getElem?_getD, hcount]
    · intro j hj
      simp [entry, List.getD_eq_getElem?_getD, List.getElem?_set_ne hj.symm]
  · rw [if_neg hempty, pyIndex_eq_ok.mpr (List.getElem?_eq_getElem hdraft), ok_bind,
      pySetItem_of_lt hdraft, ok_bind]
    refine ⟨_, rfl, ⟨List.length_set.trans h.drafts, List.length_set.trans h.counts, ?_, hcounts⟩,
      ?_, ?_⟩
    · intro row hrow
      rcases List.mem_or_eq_of_mem_set hrow with hrow | rfl
      · exact h.row row hrow
      · rw [List.length_append, List.length_drop, h.row _ (List.getElem_mem hdraft)]
        omega
    · simp [entry, List.getD_eq_getElem?_getD, hcount, hdraft]
    · intro j hj
      simp [entry, List.getD_eq_getElem?_getD, List.getElem?_set_ne hj.symm]

lemma NgramBuffers.Shaped.read (h : buf.Shaped c rows) {i : Nat} (hi : i < rows)
    (valid : List Nat) : buf.read valid i = .ok (if i ∈ valid then buf.entry i else []) := by
  have hdraft : i < buf.validNgramDraft.length := h.drafts ▸ hi
  have hcount : i < buf.validNgramNumDrafts.length := h.counts ▸ hi
  unfold NgramBuffers.read
  split_ifs
  · rw [pyIndex_eq_ok.mpr (List.getElem?_eq_getElem hcount), ok_bind]
    split_ifs with hpos
    · rw [pyIndex_eq_ok.mpr (List.getElem?_eq_getElem hdraft), ok_bind]
      simp [entry, List.getD_eq_getElem?_getD, hcount, hdraft]
    · have hzero : buf.validNgramNumDrafts[i] = 0 := by omega
      simp [entry, List.getD_eq_getElem?_getD, hcount, hzero]
  · rfl

/-- `propose` skips the request. -/
def NgramBatch.Skipped (c : NgramConfig) (b : NgramBatch) (i : Nat) : Prop :=
  b.sampledTokenIds.getD i [] = [] ∨ b.reqIds.getD i "" ∈ b.specDecodeUnsupportedReqs ∨
    c.maxModelLen ≤ b.numTokensNoSpec.getD i 0

instance (i : Nat) : Decidable (b.Skipped c i) := inferInstanceAs (Decidable (_ ∨ _ ∨ _))

/-- The requests that are not skipped. -/
def NgramBatch.valid (c : NgramConfig) (b : NgramBatch) : List Nat :=
  (List.range b.sampledTokenIds.length).filter fun i => ¬ b.Skipped c i

lemma NgramBatch.mem_valid {i : Nat} :
    i ∈ b.valid c ↔ i < b.sampledTokenIds.length ∧ ¬ b.Skipped c i := by
  simp [valid]

lemma NgramBatch.needsProposal_eq {i : Nat} (hi : i < b.sampledTokenIds.length) :
    b.needsProposal c i b.sampledTokenIds[i] = .ok (¬ b.Skipped c i) := by
  have hreq : i < b.reqIds.length := hi.trans_le b.reqIds_length
  have hnum : i < b.numTokensNoSpec.length := hi.trans_le b.numTokens_length
  unfold needsProposal
  rw [pyIndex_eq_ok.mpr (List.getElem?_eq_getElem hreq),
    pyIndex_eq_ok.mpr (List.getElem?_eq_getElem hnum), ok_bind, ok_bind]
  simp only [Skipped, List.getD_eq_getElem?_getD, List.getElem?_eq_getElem hi,
    List.getElem?_eq_getElem hreq, List.getElem?_eq_getElem hnum, Option.getD_some]
  split_ifs with hnone hreqs
  · simp [List.length_eq_zero_iff.mp hnone]
  · simp [hreqs]
  · simp [hreqs, List.length_eq_zero_iff.not.mp hnone]

lemma NgramBatch.validNgramRequests_eq :
    b.validNgramRequests c b.sampledTokenIds 0 = .ok (b.valid c) := by
  have hrest : ∀ rest i, b.sampledTokenIds.drop i = rest →
      b.validNgramRequests c rest i =
        .ok ((List.range' i rest.length).filter fun i => ¬ b.Skipped c i) := by
    intro rest
    induction rest with
    | nil => exact fun i _ => rfl
    | cons sampledIds rest ih =>
      intro i hdrop
      have hi : i < b.sampledTokenIds.length := by
        by_contra hle
        rw [List.drop_eq_nil_of_le (not_lt.mp hle)] at hdrop
        cases hdrop
      rw [List.drop_eq_getElem_cons hi, List.cons.injEq] at hdrop
      obtain ⟨rfl, hrest⟩ := hdrop
      rw [validNgramRequests, needsProposal_eq hi, ok_bind, ih (i + 1) hrest, ok_bind,
        List.length_cons, List.range'_succ, List.filter_cons]
      rfl
  rw [hrest _ 0 List.drop_zero, ← List.range_eq_range']
  rfl

lemma NgramBatch.drafts_eq_ok {idx : Nat} (hidx : idx < b.sampledTokenIds.length) :
    ∃ d, b.drafts c idx = .ok d ∧ d.length ≤ c.numSpeculativeTokens := by
  rw [drafts, pyIndex_eq_ok.mpr (List.getElem?_eq_getElem (hidx.trans_le b.numTokens_length)),
    pyIndex_eq_ok.mpr (List.getElem?_eq_getElem (hidx.trans_le b.tokenIds_length))]
  exact findLongestMatched_length_le _ c.min_pos c.min_le_max c.maxModelLen c.numSpeculativeTokens

/-- The loop puts the drafts of the valid requests in consecutive rows from `i` on. -/
lemma batchProposeNumba_eq_ok {valid : List Nat} {i : Nat} (h : buf.Shaped c rows)
    (hvalid : ∀ idx ∈ valid, idx < b.sampledTokenIds.length) (hrows : i + valid.length ≤ rows) :
    ∃ buf', batchProposeNumba c b valid i buf = .ok buf' ∧ buf'.Shaped c rows ∧
      (∀ j r, valid[j]? = some r → b.drafts c r = .ok (buf'.entry (i + j))) ∧
      ∀ j, j < i ∨ i + valid.length ≤ j → buf'.entry j = buf.entry j := by
  induction valid generalizing i buf with
  | nil => exact ⟨buf, rfl, h, fun j r hr => absurd hr (by simp), fun j _ => rfl⟩
  | cons idx rest ih =>
    rw [List.length_cons] at hrows
    obtain ⟨d, hd, hlen⟩ := b.drafts_eq_ok (c := c) (hvalid idx List.mem_cons_self)
    obtain ⟨buf₁, hwrite, hshape, hentry, hothers⟩ := h.write (i := i) (by omega) hlen
    obtain ⟨buf₂, hloop, hshape₂, hdrafts, hkept⟩ := ih hshape (i := i + 1)
      (fun r hr => hvalid r (List.mem_cons_of_mem idx hr)) (by omega)
    refine ⟨buf₂, by rw [batchProposeNumba, hd, ok_bind, hwrite, ok_bind, hloop], hshape₂, ?_, ?_⟩
    · intro j r hr
      cases j with
      | zero =>
        obtain rfl := Option.some.inj hr
        rw [Nat.add_zero, hkept i (Or.inl (Nat.lt_succ_self i)), hentry, hd]
      | succ j =>
        rw [show i + (j + 1) = i + 1 + j by omega]
        exact hdrafts j r hr
    · intro j hj
      rw [List.length_cons] at hj
      rw [hkept j (by omega), hothers j (by omega)]

/-- Row `i` will hold the drafts of request `i`: those of the `i`-th valid request are the same,
or there is none and the leftover is. -/
def NgramBatch.RowFits (c : NgramConfig) (b : NgramBatch) (buf : NgramBuffers) (i : Nat) : Prop :=
  match (b.valid c)[i]? with
  | some r => b.drafts c r = b.drafts c i
  | none => b.drafts c i = .ok (buf.entry i)

/-- Every request gets its own drafts, a skipped one none. -/
def NgramBatch.Routed (c : NgramConfig) (b : NgramBatch) (out : List (List Int)) : Prop :=
  out.length = b.sampledTokenIds.length ∧ ∀ i < b.sampledTokenIds.length,
    (b.Skipped c i → out[i]? = some []) ∧
    (¬ b.Skipped c i → ∃ d, b.drafts c i = .ok d ∧ out[i]? = some d)

lemma propose_eq_ok (h : buf.Shaped c rows) (hrows : b.sampledTokenIds.length ≤ rows) :
    ∃ buf', propose c b buf = .ok ((List.range b.sampledTokenIds.length).map fun i =>
        if i ∈ b.valid c then buf'.entry i else [], buf') ∧ buf'.Shaped c rows ∧
      (∀ j r, (b.valid c)[j]? = some r → b.drafts c r = .ok (buf'.entry j)) ∧
      ∀ j, (b.valid c)[j]? = none → buf'.entry j = buf.entry j := by
  have hle : (b.valid c).length ≤ b.sampledTokenIds.length := by
    simpa [NgramBatch.valid] using
      List.length_filter_le (fun i => ¬ b.Skipped c i) (List.range b.sampledTokenIds.length)
  have hvalid : ∀ idx ∈ b.valid c, idx < b.sampledTokenIds.length :=
    fun idx hidx => (NgramBatch.mem_valid.mp hidx).1
  obtain ⟨buf', hloop, hshape, hdrafts, hkept⟩ :=
    batchProposeNumba_eq_ok (i := 0) h hvalid (by omega)
  refine ⟨buf', ?_, hshape, ?_, fun j hj => hkept j (Or.inr ?_)⟩
  · have hread := mapM_range_of_forall fun i hi =>
      hshape.read (i := i) (lt_of_lt_of_le hi hrows) (b.valid c)
    rw [propose, NgramBatch.validNgramRequests_eq, ok_bind, batchPropose]
    dsimp only
    split_ifs with hnone
    · have hsame : buf = buf' := by
        rw [List.length_eq_zero_iff.mp hnone] at hloop
        exact Except.ok.inj hloop
      rw [hsame, ok_bind, hread, ok_bind]
      rfl
    · rw [hloop, ok_bind, hread, ok_bind]
      rfl
  · simpa using hdrafts
  · simpa using List.getElem?_eq_none_iff.mp hj

/-- `propose` succeeds, and every request gets its own drafts if and only if each row that is
read fits. -/
theorem propose_routed_iff (h : buf.Shaped c rows) (hrows : b.sampledTokenIds.length ≤ rows) :
    ∃ out buf', propose c b buf = .ok (out, buf') ∧ buf'.Shaped c rows ∧
      (b.Routed c out ↔
        ∀ i < b.sampledTokenIds.length, ¬ b.Skipped c i → b.RowFits c buf i) := by
  obtain ⟨buf', hpropose, hshape, hdrafts, hkept⟩ := propose_eq_ok h hrows
  refine ⟨_, buf', hpropose, hshape, ?_⟩
  have hfits : ∀ i, b.RowFits c buf i ↔ b.drafts c i = .ok (buf'.entry i) := by
    intro i
    unfold NgramBatch.RowFits
    split
    · next r hr => rw [hdrafts i r hr, eq_comm]
    · next hnone => rw [hkept i hnone]
  constructor
  · rintro ⟨-, hall⟩ i hi hskip
    obtain ⟨d, hd, hout⟩ := (hall i hi).2 hskip
    rw [List.getElem?_map, List.getElem?_range hi, Option.map_some,
      if_pos (NgramBatch.mem_valid.mpr ⟨hi, hskip⟩)] at hout
    rw [hfits, hd, Option.some.inj hout]
  · intro hall
    refine ⟨by rw [List.length_map, List.length_range], fun i hi =>
      ⟨fun hskip => ?_, fun hskip => ?_⟩⟩
    · rw [List.getElem?_map, List.getElem?_range hi, Option.map_some,
        if_neg fun hmem => (NgramBatch.mem_valid.mp hmem).2 hskip]
    · refine ⟨buf'.entry i, (hfits i).mp (hall i hi hskip), ?_⟩
      rw [List.getElem?_map, List.getElem?_range hi, Option.map_some,
        if_pos (NgramBatch.mem_valid.mpr ⟨hi, hskip⟩)]

def oneTokenConfig : NgramConfig := ⟨1, 1, 1, 8, by decide, by decide, Nat.one_pos⟩

/-- The first request has no sampled tokens; the second repeats a token. -/
def skippedFirst : NgramBatch :=
  ⟨[[], [1]], ["a", "b"], [3, 3], [[3, 4, 5], [1, 2, 1]], [], by decide, by decide, by decide⟩

def zeroBuffers : NgramBuffers := ⟨[[0], [0]], [0, 0]⟩

lemma zeroBuffers_shaped : zeroBuffers.Shaped oneTokenConfig 2 :=
  ⟨rfl, rfl, by decide, by decide⟩

/-- The draft of the second request is written to the first row and the second row is read. -/
theorem skippedFirst_not_routed :
    ∃ out buf', propose oneTokenConfig skippedFirst zeroBuffers = .ok (out, buf') ∧
      skippedFirst.drafts oneTokenConfig 1 = .ok [2] ∧ ¬ skippedFirst.Routed oneTokenConfig out := by
  have hdrafts : skippedFirst.drafts oneTokenConfig 1 = .ok [2] := by decide
  refine ⟨[[], []], ⟨[[2], [0]], [1, 0]⟩, by decide, hdrafts, fun ⟨_, hall⟩ => ?_⟩
  obtain ⟨d, hd, hout⟩ := (hall 1 (by decide)).2 (by decide)
  rw [hdrafts] at hd
  rw [← Except.ok.inj hd] at hout
  exact absurd hout (by decide)

theorem propose_routed_iff_skipped_first :
    ∃ out buf', propose oneTokenConfig skippedFirst zeroBuffers = .ok (out, buf') ∧
      buf'.Shaped oneTokenConfig 2 ∧
      (skippedFirst.Routed oneTokenConfig out ↔
        ∀ i < skippedFirst.sampledTokenIds.length, ¬ skippedFirst.Skipped oneTokenConfig i →
          skippedFirst.RowFits oneTokenConfig zeroBuffers i) :=
  propose_routed_iff zeroBuffers_shaped (by decide)

end VllmV1
