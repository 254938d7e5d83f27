import VllmMmaEmu.Worker.RowData

/-!
# What one operation changes

Each operation of the batch as a change of its arrays. The sampling state and the moves that
are recorded for the logits processors are kept apart from the rest.
-/

namespace VllmV1.Worker

open Python

variable {F : Type} {fl : FloatOps F} {heap : Heap}

namespace InputBatch

variable {b b' : InputBatch F} {r : CachedRequestState F}

/-- The batch with the sampling state of another one. -/
def withSampling (b s : InputBatch F) : InputBatch F :=
  { b with
    temperatureCpu := s.temperatureCpu
    topPCpu := s.topPCpu
    topKCpu := s.topKCpu
    frequencyPenaltiesCpu := s.frequencyPenaltiesCpu
    presencePenaltiesCpu := s.presencePenaltiesCpu
    repetitionPenaltiesCpu := s.repetitionPenaltiesCpu
    numAcceptedTokensCpu := s.numAcceptedTokensCpu
    generators := s.generators
    allowedTokenIdsMaskCpuTensor := s.allowedTokenIdsMaskCpuTensor
    badWordsTokenIds := s.badWordsTokenIds
    logitsProcessingNeedsTokenIds := s.logitsProcessingNeedsTokenIds
    batchUpdateBuilder := { b.batchUpdateBuilder with moved := s.batchUpdateBuilder.moved } }

lemma addMask_ok {i : Nat} {ids : Option (List Nat)} (h : b.addMask i ids = .ok b') :
    b' = { b with allowedTokenIdsMaskCpuTensor := b'.allowedTokenIdsMaskCpuTensor } := by
  unfold addMask at h
  split at h
  · split_ifs at h
    obtain rfl := Except.ok.inj h
    rfl
  · obtain rfl := Except.ok.inj h
    rfl

lemma addSampling_frame {i : Nat} {params : SamplingParams F} {generator : Option Nat}
    (h : b.addSampling fl i params generator = .ok b') : b' = b.withSampling b' := by
  obtain ⟨b₁, hmask, hret⟩ := bind_eq_ok.mp h
  obtain rfl := Except.ok.inj hret
  rw [addMask_ok hmask]
  rfl

lemma addParams_frame {i : Nat} (h : b.addParams fl i r = .ok b') : b' = b.withSampling b' := by
  unfold addParams at h
  split at h
  · exact addSampling_frame h
  · obtain rfl := Except.ok.inj h
    rfl
  · cases h

lemma removeSampling_frame (b : InputBatch F) (i : Nat) :
    b.removeSampling i = b.withSampling (b.removeSampling i) := rfl

lemma swapSampling_frame (b : InputBatch F) (i j : Nat) :
    b.swapSampling i j = b.withSampling (b.swapSampling i j) := rfl

lemma moveSampling_frame (b : InputBatch F) (src tgt : Nat) :
    b.moveSampling src tgt = b.withSampling (b.moveSampling src tgt) := rfl

lemma registerAddRequest_ok {i : Nat} (h : b.registerAddRequest r = .ok (i, b')) :
    i = b.batchUpdateBuilder.popRemoved.1.getD b.numReqs ∧ i < b.maxNumReqs ∧
      b' = { b with batchUpdateBuilder := { b.batchUpdateBuilder.popRemoved.2 with
        batchChanged := true
        added := b.batchUpdateBuilder.popRemoved.2.added ++
          (r.samplingParams.map fun params =>
            ⟨i, params, r.promptTokenIds, r.outputTokenIds⟩).toList } } := by
  unfold registerAddRequest at h
  simp only [bind_eq_ok, pyAssert_eq_ok] at h
  obtain ⟨-, hlt, hret⟩ := h
  obtain ⟨rfl, rfl⟩ := Prod.mk.inj (Except.ok.inj hret)
  refine ⟨rfl, hlt, ?_⟩
  cases r.samplingParams with
  | none => simp
  | some params => rfl

lemma addTokens_ok {i : Nat}
    (h : b.addTokens i r.numPromptTokens r.promptTokenIds (heap r.outputTokenIds) = .ok b') :
    ∃ row isRow, b' = { b with
        tokenIdsCpu := Function.update b.tokenIdsCpu i row
        isTokenIds := Function.update b.isTokenIds i isRow } ∧
      (∀ j t, r.tokenAt heap j = some t → j < b.maxModelLen → row j = t) ∧
      ∀ j < r.numTokens heap, isRow j = (r.tokenAt heap j).isSome := by
  simp only [addTokens, bind_eq_ok] at h
  obtain ⟨⟨row₁, isRow₁⟩, hprompt, row, houtput, hret⟩ := h
  obtain rfl := Except.ok.inj hret
  have hfirst : (∀ j t, j < r.numPromptTokens → r.promptTokenIds.bind (·[j]?) = some t →
      j < b.maxModelLen → row₁ j = t) ∧
      ∀ j < r.numPromptTokens, isRow₁ j = (r.promptTokenIds.bind (·[j]?)).isSome := by
    cases hids : r.promptTokenIds with
    | none =>
      simp only [hids, addPromptTokens, Except.ok.injEq, Prod.mk.injEq] at hprompt
      obtain ⟨-, rfl⟩ := hprompt
      exact ⟨by simp, fun j hj => if_pos hj⟩
    | some ids =>
      have hn : r.numPromptTokens = ids.length := by rw [CachedRequestState.numPromptTokens, hids]
      simp only [hids, addPromptTokens, bind_eq_ok, pure_eq, Except.ok.injEq, Prod.mk.injEq] at hprompt
      obtain ⟨row₂, hrow, rfl, rfl⟩ := hprompt
      refine ⟨fun j t _ ht hwidth => ?_, fun j hj => ?_⟩
      · exact (assignSlice_apply hrow (by omega)).1 t ht (Nat.zero_le j) hwidth
      · have hlt : j < ids.length := hn ▸ hj
        simp [copyFirst, hj, List.getElem?_eq_getElem hlt]
  refine ⟨row, _, rfl, fun j t ht hwidth => ?_, fun j hj => ?_⟩
  · have happly := assignSlice_apply houtput rfl (j := j)
    rw [CachedRequestState.tokenAt] at ht
    split_ifs at ht with hlt
    · rw [happly.2 (Or.inl hlt)]
      exact hfirst.1 j t hlt ht hwidth
    · exact happly.1 t ht (Nat.le_of_not_lt hlt) hwidth
  · rw [CachedRequestState.numTokens] at hj
    rw [CachedRequestState.tokenAt]
    by_cases hlt : j < r.numPromptTokens
    · rw [if_pos hlt, ← hfirst.2 j hlt]
      exact if_neg (by omega)
    · rw [if_neg hlt, List.getElem?_eq_getElem (by omega), Option.isSome_some]
      exact if_pos ⟨by omega, by omega⟩

lemma addCounts_ok {i : Nat} (h : b.addCounts heap i r.numPromptTokens r = .ok b') :
    ∃ tables, b.blockTable.addRow r.blockIds i = .ok tables ∧ b' = { b with
      numPromptTokens := Function.update b.numPromptTokens i r.numPromptTokens
      reqPromptEmbeds := setIfGiven b.reqPromptEmbeds i r.promptEmbeds
      numTokens := Function.update b.numTokens i (r.numTokens heap)
      numTokensNoSpec := Function.update b.numTokensNoSpec i (r.numTokens heap)
      numComputedTokensCpu := Function.update b.numComputedTokensCpu i r.numComputedTokens
      blockTable := tables } := by
  obtain ⟨tables, htables, hret⟩ := bind_eq_ok.mp h
  exact ⟨tables, htables, (Except.ok.inj hret).symm⟩

/-- What the new row of a request gets, its sampling state apart. -/
def withRow (heap : Heap) (b : InputBatch F) (i : Nat) (r : CachedRequestState F)
    (row : Nat → Int) (isRow : Nat → Bool) (tables : MultiGroupBlockTable) : InputBatch F :=
  { b.addIds i r with
    batchUpdateBuilder := { b.batchUpdateBuilder.popRemoved.2 with
      batchChanged := true
      added := b.batchUpdateBuilder.popRemoved.2.added ++ (r.samplingParams.map fun params =>
        ⟨i, params, r.promptTokenIds, r.outputTokenIds⟩).toList }
    tokenIdsCpu := Function.update b.tokenIdsCpu i row
    isTokenIds := Function.update b.isTokenIds i isRow
    numPromptTokens := Function.update b.numPromptTokens i r.numPromptTokens
    reqPromptEmbeds := setIfGiven b.reqPromptEmbeds i r.promptEmbeds
    numTokens := Function.update b.numTokens i (r.numTokens heap)
    numTokensNoSpec := Function.update b.numTokensNoSpec i (r.numTokens heap)
    numComputedTokensCpu := Function.update b.numComputedTokensCpu i r.numComputedTokens
    blockTable := tables }

lemma addRequest_ok (h : b.addRequest fl heap r = .ok b') :
    ∃ i row isRow tables s,
      i = b.batchUpdateBuilder.popRemoved.1.getD b.numReqs ∧ i < b.maxNumReqs ∧
      (∀ j t, r.tokenAt heap j = some t → j < b.maxModelLen → row j = t) ∧
      (∀ j < r.numTokens heap, isRow j = (r.tokenAt heap j).isSome) ∧
      b.blockTable.addRow r.blockIds i = .ok tables ∧
      (b.withRow heap i r row isRow tables).addParams fl i r = .ok s ∧
      b' = addLora { s with
        numAcceptedTokensCpu := Function.update s.numAcceptedTokensCpu i 1 } i r.reqId
          r.loraRequest := by
  obtain ⟨⟨i, b₁⟩, hregister, hrest⟩ := bind_eq_ok.mp h
  obtain ⟨n, hn, hrest⟩ := bind_eq_ok.mp hrest
  obtain ⟨b₂, htokens, hrest⟩ := bind_eq_ok.mp hrest
  obtain ⟨b₃, hcounts, hrest⟩ := bind_eq_ok.mp hrest
  obtain ⟨s, hparams, hret⟩ := bind_eq_ok.mp hrest
  obtain ⟨hi, hlt, rfl⟩ := registerAddRequest_ok hregister
  obtain rfl := lengthFromPrompt_eq hn
  obtain ⟨row, isRow, rfl, hrow, hisRow⟩ := addTokens_ok htokens
  obtain ⟨tables, htables, rfl⟩ := addCounts_ok hcounts
  exact ⟨i, row, isRow, tables, s, hi, hlt, hrow, hisRow, htables, hparams,
    (Except.ok.inj hret).symm⟩

lemma removeLora_ok {i : Nat} (reqId : String)
    (hnonempty : ∀ l, b.loraIdToRequestIds.get? l ≠ some ∅)
    (hfound : b.requestLoraMapping i ≠ 0 →
      ∃ ids, b.loraIdToRequestIds.get? (b.requestLoraMapping i) = some ids) :
    ∃ loraIds : Dict Nat (Finset String), b.removeLora i reqId = .ok { b with
        loraIdToRequestIds := loraIds
        requestLoraMapping := Function.update b.requestLoraMapping i 0 } ∧
      (∀ l id, id ∈ (loraIds.get? l).getD ∅ ↔ id ∈ (b.loraIdToRequestIds.get? l).getD ∅ ∧
        (b.requestLoraMapping i = l → l ≠ 0 → id ≠ reqId)) ∧
      ∀ l, loraIds.get? l ≠ some ∅ := by
  by_cases hzero : b.requestLoraMapping i = 0
  · refine ⟨b.loraIdToRequestIds, ?_, fun l id => ?_, hnonempty⟩
    · rw [removeLora, if_neg (not_not.mpr hzero), ← hzero, Function.update_eq_self]
    · rw [hzero, and_iff_left]
      exact fun h0 hne => absurd h0.symm hne
  · obtain ⟨ids, hids⟩ := hfound hzero
    have hget : b.loraIdToRequestIds.getItem (b.requestLoraMapping i) = .ok ids :=
      Dict.getItem_eq_ok.mpr hids
    refine ⟨if ids.erase reqId = ∅ then b.loraIdToRequestIds.erase (b.requestLoraMapping i)
        else b.loraIdToRequestIds.set (b.requestLoraMapping i) (ids.erase reqId),
      by simp only [removeLora, ne_eq, hzero, not_false_iff, if_true, hget, ok_bind, pure_eq],
      fun l id => ?_, fun l => ?_⟩
    · by_cases hl : b.requestLoraMapping i = l
      · subst hl
        rw [hids, Option.getD_some]
        split_ifs with hempty
        · rw [Dict.get?_erase_self, Option.getD_none]
          simp only [Finset.notMem_empty, false_iff, not_and, Classical.not_imp, not_not]
          intro hmem
          refine ⟨trivial, hzero, ?_⟩
          by_contra hne
          have := Finset.mem_erase.mpr ⟨hne, hmem⟩
          rw [hempty] at this
          exact Finset.notMem_empty _ this
        · rw [Dict.get?_set_self, Option.getD_some, Finset.mem_erase]
          simp [hzero, and_comm]
      · rw [and_iff_left fun h => absurd h hl]
        split_ifs
        · rw [Dict.get?_erase_of_ne hl]
        · rw [Dict.get?_set_of_ne hl]
    · split_ifs with hempty
      · rw [Dict.get?_erase]
        split_ifs
        · exact (Option.some_ne_none _).symm
        · exact hnonempty l
      · rw [Dict.get?_set]
        split_ifs
        · simpa using hempty
        · exact hnonempty l

/-- The batch after the request on row `i` was removed. -/
def withoutRow (b : InputBatch F) (i : Nat) (reqId : String) (loraIds : Dict Nat (Finset String)) :
    InputBatch F :=
  { b with
    reqIdToIndex := b.reqIdToIndex.erase reqId
    batchUpdateBuilder := { b.batchUpdateBuilder with
      removed := b.batchUpdateBuilder.removed ++ [i]
      batchChanged := true }
    reqIds := b.reqIds.set i none
    reqOutputTokenIds := b.reqOutputTokenIds.set i none
    loraIdToRequestIds := loraIds
    requestLoraMapping := Function.update b.requestLoraMapping i 0 }

lemma removeRequest_unknown {reqId : String} (h : b.reqIdToIndex.get? reqId = none) :
    b.removeRequest reqId = .ok b := by
  rw [removeRequest, h]

lemma removeRequest_ok {i : Nat} {reqId : String} (h : b.reqIdToIndex.get? reqId = some i)
    (hsorted : b.batchUpdateBuilder.isRemovedSorted = false)
    (hnonempty : ∀ l, b.loraIdToRequestIds.get? l ≠ some ∅)
    (hfound : b.requestLoraMapping i ≠ 0 →
      ∃ ids, b.loraIdToRequestIds.get? (b.requestLoraMapping i) = some ids) :
    ∃ loraIds : Dict Nat (Finset String), b.removeRequest reqId =
        .ok (if b.isPoolingModel then b.withoutRow i reqId loraIds
          else (b.withoutRow i reqId loraIds).removeSampling i) ∧
      (∀ l id, id ∈ (loraIds.get? l).getD ∅ ↔ id ∈ (b.loraIdToRequestIds.get? l).getD ∅ ∧
        (b.requestLoraMapping i = l → l ≠ 0 → id ≠ reqId)) ∧
      ∀ l, loraIds.get? l ≠ some ∅ := by
  obtain ⟨loraIds, hlora, hids, hne⟩ := removeLora_ok (i := i) (b := { b with
    reqIdToIndex := b.reqIdToIndex.erase reqId
    batchUpdateBuilder := { b.batchUpdateBuilder with
      removed := b.batchUpdateBuilder.removed ++ [i]
      batchChanged := true }
    reqIds := b.reqIds.set i none
    reqOutputTokenIds := b.reqOutputTokenIds.set i none }) reqId hnonempty hfound
  have happend : b.batchUpdateBuilder.removedAppend i = .ok { b.batchUpdateBuilder with
      removed := b.batchUpdateBuilder.removed ++ [i]
      batchChanged := true } := if_neg (by rw [hsorted]; exact Bool.false_ne_true)
  refine ⟨loraIds, ?_, hids, hne⟩
  simp only [removeRequest, h, happend, ok_bind, hlora, pure_eq]
  rfl

lemma swapIds_ok {i j : Nat} {id₁ id₂ : String} {out₁ out₂ : Option ListRef}
    (h₁ : b.reqIds[i]? = some (some id₁)) (h₂ : b.reqIds[j]? = some (some id₂))
    (ho₁ : b.reqOutputTokenIds[i]? = some out₁) (ho₂ : b.reqOutputTokenIds[j]? = some out₂)
    (hi : b.reqIdToIndex.get? id₁ = some i) (hj : b.reqIdToIndex.get? id₂ = some j) :
    b.swapIds i j = .ok { b with
      reqIds := (b.reqIds.set i (some id₂)).set j (some id₁)
      reqOutputTokenIds := (b.reqOutputTokenIds.set i out₂).set j out₁
      reqIdToIndex := (b.reqIdToIndex.set id₁ j).set id₂ i } := by
  simp only [swapIds, h₁, h₂, ho₁, ho₂, Dict.getItem_eq_ok.mpr hi, Dict.getItem_eq_ok.mpr hj,
    ok_bind, pure_eq]

lemma swapIds_error {i j : Nat} (h : b.swapIds i j = .ok b') :
    ∃ id₁ id₂, b.reqIds[i]? = some (some id₁) ∧ b.reqIds[j]? = some (some id₂) := by
  unfold swapIds at h
  split at h
  · rename_i id₁ id₂ out₁ out₂ h₁ h₂ ho₁ ho₂
    split at h
    · exact ⟨_, _, h₁, h₂⟩
    · cases h
  · cases h

/-- The batch after the data of two rows were exchanged, names and sampling state apart. -/
def withRowsSwapped (b : InputBatch F) (i1 i2 : Nat) : InputBatch F :=
  { b with
    numTokens := Rows.swap b.numTokens i1 i2
    numTokensNoSpec := Rows.swap b.numTokensNoSpec i1 i2
    numPromptTokens := Rows.swap b.numPromptTokens i1 i2
    numComputedTokensCpu := Rows.swap b.numComputedTokensCpu i1 i2
    tokenIdsCpu := Rows.swap b.tokenIdsCpu i1 i2
    isTokenIds := Rows.swap b.isTokenIds i1 i2
    reqPromptEmbeds := swapDictValues b.reqPromptEmbeds i1 i2
    blockTable := b.blockTable.swapRow i1 i2
    requestLoraMapping := Rows.swap b.requestLoraMapping i1 i2 }

lemma swapStates_ok {i j : Nat} (h : b.swapStates i j = .ok b') :
    ∃ b₁, b.swapIds i j = .ok b₁ ∧ b' = if b.isPoolingModel then b₁.withRowsSwapped i j
      else (b₁.withRowsSwapped i j).swapSampling i j := by
  obtain ⟨b₁, hids, hret⟩ := bind_eq_ok.mp h
  refine ⟨b₁, hids, ?_⟩
  have hpooling : b₁.isPoolingModel = b.isPoolingModel := by
    unfold swapIds at hids
    split at hids
    · split at hids
      · simp only [bind_eq_ok, pure_eq, Except.ok.injEq] at hids
        obtain ⟨-, -, -, -, rfl⟩ := hids
        rfl
      · cases hids
    · cases hids
  rw [← hpooling]
  exact (Except.ok.inj hret).symm

/-- The batch after a row moved down, its sampling state apart. -/
def withRowMoved (b : InputBatch F) (src tgt : Nat) (reqId : String) : InputBatch F :=
  { b with
    reqIds := (b.reqIds.set tgt (some reqId)).set src none
    reqOutputTokenIds :=
      (b.reqOutputTokenIds.set tgt (b.reqOutputTokenIds.getD src none)).set src none
    reqIdToIndex := b.reqIdToIndex.set reqId tgt
    tokenIdsCpu := Function.update b.tokenIdsCpu tgt
      (copyFirst (b.numTokens src) (b.tokenIdsCpu tgt) (b.tokenIdsCpu src))
    isTokenIds := Function.update b.isTokenIds tgt
      (copyFirst (b.numTokens src) (b.isTokenIds tgt) (b.isTokenIds src))
    reqPromptEmbeds := moveDictEntry b.reqPromptEmbeds src tgt
    numTokens := Rows.move b.numTokens src tgt
    numTokensNoSpec := Rows.move b.numTokensNoSpec src tgt
    numPromptTokens := Rows.move b.numPromptTokens src tgt
    numComputedTokensCpu := Rows.move b.numComputedTokensCpu src tgt
    blockTable := b.blockTable.moveRow src tgt
    requestLoraMapping := Rows.move b.requestLoraMapping src tgt }

lemma moveDown_ok {src tgt : Nat} {reqId : String} (h : b.reqIds[src]? = some (some reqId)) :
    b.moveDown src tgt = .ok (if b.isPoolingModel then b.withRowMoved src tgt reqId
      else (b.withRowMoved src tgt reqId).moveSampling src tgt) := by
  rw [moveDown, h]
  rfl

lemma getAndReset_snd (u : BatchUpdateBuilder F) (n : Nat) : (u.getAndReset n).2 = {} := by
  unfold BatchUpdateBuilder.getAndReset
  split_ifs with h
  · obtain ⟨hremoved, hmoved, hadded⟩ := h
    rw [List.isEmpty_iff] at hadded
    cases u
    simp_all
  · rfl

/-- Only the builder and the processors change, and nothing is left to report. -/
lemma refreshMetadata_frame (fl : FloatOps F) (heap : Heap) (b : InputBatch F) :
    b.refreshMetadata fl heap = { b with
      batchUpdateBuilder := {}
      logitsprocs := (b.refreshMetadata fl heap).logitsprocs } := by
  unfold refreshMetadata
  split_ifs
  · rfl
  · simp only [getAndReset_snd]

end InputBatch

end VllmV1.Worker
