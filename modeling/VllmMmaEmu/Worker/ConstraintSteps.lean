import VllmMmaEmu.Worker.Constraints

/-!
# What an operation does to the sampling state

Each operation of the batch seen in the rows of the sampling state.
-/

namespace VllmV1.Worker

open Python

variable {F : Type} {fl : FloatOps F} {heap : Heap}

namespace InputBatch

variable {b b' : InputBatch F} {r : CachedRequestState F} {i j src tgt : Nat}

lemma addMask_eq {ids : Option (List Nat)} (h : b.addMask i ids = .ok b') :
    b' = { b with
      allowedTokenIdsMaskCpuTensor := if ids.getD [] = [] then b.allowedTokenIdsMaskCpuTensor
        else some (Function.update (b.allowedTokenIdsMaskCpuTensor.getD fun _ _ => false) i
          fun t => decide (t ∉ ids.getD [])) } := by
  unfold addMask at h
  split at h
  · split_ifs at h
    obtain rfl := Except.ok.inj h
    rfl
  · rename_i hids
    obtain rfl := Except.ok.inj h
    cases ids with
    | none => rfl
    | some ids =>
      cases ids with
      | nil => rfl
      | cons id ids => exact absurd rfl (hids id ids)

lemma addSampling_ok {params : SamplingParams F} {generator : Option Nat}
    (h : b.addSampling fl i params generator = .ok b') :
    (∀ k, k ≠ i → b'.rowSampling k = b.rowSampling k) ∧
      (b'.rowSampling i).Stores fl b.vocabSize params ∧
      b'.rowSampling i = { b'.rowSampling i with
        numAcceptedTokens := b.numAcceptedTokensCpu i
        generator := generator.or (b.generators.get? i)
        badWordsTokenIds :=
          (params.badWordsTokenIds.filter (¬ ·.isEmpty)).or (b.badWordsTokenIds.get? i)
        promptEmbeds := b.reqPromptEmbeds.get? i
        needsTokenIds := b.logitsProcessingNeedsTokenIds i } ∧
      b'.allowedTokenIdsMaskCpuTensor =
        if params.allowedTokenIds.getD [] = [] then b.allowedTokenIdsMaskCpuTensor
        else some (Function.update (b.allowedTokenIdsMaskCpuTensor.getD fun _ _ => false) i
          fun t => decide (t ∉ params.allowedTokenIds.getD [])) := by
  obtain ⟨b₁, hmask, hret⟩ := bind_eq_ok.mp h
  obtain rfl := Except.ok.inj hret
  have hb₁ := addMask_eq hmask
  clear hmask
  subst hb₁
  obtain ⟨hgenerator, hgenerators⟩ := get?_setIfGiven b.generators i generator
  obtain ⟨hword, hwords⟩ := get?_setIfGiven b.badWordsTokenIds i
    (params.badWordsTokenIds.filter (¬ ·.isEmpty))
  refine ⟨fun k hk => ?_, ⟨?_, ?_, ?_, ?_, ?_, ?_⟩, ?_, rfl⟩
  · simp only [rowSampling, Function.update_of_ne hk, hgenerators k hk, hwords k hk]
  · exact Function.update_self ..
  · exact Function.update_self ..
  · exact Function.update_self ..
  · exact Function.update_self ..
  · exact Function.update_self ..
  · exact Function.update_self ..
  · simp only [rowSampling, hgenerator, hword]

/-- A pooling model has pooling requests only, and other models have none. -/
def Fits (isPoolingModel : Bool) (r : CachedRequestState F) : Prop :=
  if isPoolingModel then r.samplingParams = none ∧ r.poolingParams.isSome
  else r.samplingParams.isSome

instance (isPoolingModel : Bool) (r : CachedRequestState F) : Decidable (Fits isPoolingModel r) := by
  unfold Fits
  infer_instance

/-- What holds of the arrays that only one kind of model uses. -/
structure Unused (b : InputBatch F) : Prop where
  pooling : b.isPoolingModel = true → b.generators = Dict.empty ∧ b.badWordsTokenIds = Dict.empty ∧
    b.allowedTokenIdsMaskCpuTensor = none ∧ b.numAcceptedTokensCpu = fun _ => 1
  sampling : b.isPoolingModel = false → b.logitsProcessingNeedsTokenIds = fun _ => false

/-- The sampling state of a batch after a request was added. -/
structure AddsSampling (fl : FloatOps F) (b b' : InputBatch F) (i : Nat)
    (r : CachedRequestState F) : Prop where
  others : ∀ k, k ≠ i → b'.rowSampling k = b.rowSampling k
  row : ∀ numAccepted : String → Nat, numAccepted r.reqId = 1 →
    (b'.rowSampling i).Carries fl b.vocabSize numAccepted r
  mask : b'.allowedTokenIdsMaskCpuTensor =
    if r.allowedTokenIds = [] then b.allowedTokenIdsMaskCpuTensor
    else some (Function.update (b.allowedTokenIdsMaskCpuTensor.getD fun _ _ => false) i
      fun t => decide (t ∉ r.allowedTokenIds))
  vocabSize : b'.vocabSize = b.vocabSize
  isPoolingModel : b'.isPoolingModel = b.isPoolingModel
  unused : b'.Unused

lemma AddsSampling.addLora {reqId : String} {lora : Option LoRARequest}
    (h : AddsSampling fl b b' i r) : AddsSampling fl b (b'.addLora i reqId lora) i r := by
  cases lora with
  | none => exact ⟨h.others, h.row, h.mask, h.vocabSize, h.isPoolingModel, h.unused.1, h.unused.2⟩
  | some lora =>
    exact ⟨h.others, h.row, h.mask, h.vocabSize, h.isPoolingModel, h.unused.1, h.unused.2⟩

lemma withRow_rowSampling (heap : Heap) (row : Nat → Int) (isRow : Nat → Bool)
    (tables : MultiGroupBlockTable)
    (hembeds : r.promptEmbeds = none → b.reqPromptEmbeds.get? i = none) :
    (∀ k, k ≠ i → (b.withRow heap i r row isRow tables).rowSampling k = b.rowSampling k) ∧
      (b.withRow heap i r row isRow tables).reqPromptEmbeds.get? i = r.promptEmbeds := by
  obtain ⟨hembed, hothers⟩ := get?_setIfGiven b.reqPromptEmbeds i r.promptEmbeds
  constructor
  · intro k hk
    show RowSampling.mk _ _ _ _ _ _ _ _ _ ((setIfGiven b.reqPromptEmbeds i r.promptEmbeds).get? k) _
      = _
    rw [hothers k hk]
    rfl
  · refine hembed.trans ?_
    cases hr : r.promptEmbeds with
    | none => rw [hembeds hr, Option.or_none]
    | some embeds => rfl

lemma AddsSampling.of_sampling {row : Nat → Int} {isRow : Nat → Bool}
    {tables : MultiGroupBlockTable} {params : SamplingParams F} (hunused : b.Unused)
    (hmodel : b.isPoolingModel = false) (hparams : r.samplingParams = some params)
    (hgenerator : b.generators.get? i = none) (hwords : b.badWordsTokenIds.get? i = none)
    (hembeds : r.promptEmbeds = none → b.reqPromptEmbeds.get? i = none)
    (h : (b.withRow heap i r row isRow tables).addSampling fl i params r.generator = .ok b') :
    AddsSampling fl b { b' with
      numAcceptedTokensCpu := Function.update b'.numAcceptedTokensCpu i 1 } i r := by
  obtain ⟨hothers₀, hembed⟩ := withRow_rowSampling heap row isRow tables hembeds
  obtain ⟨hothers, hstores, hrow, hmask⟩ := addSampling_ok h
  have hframe := addSampling_frame h
  have hmodel' : b'.isPoolingModel = false := (congrArg InputBatch.isPoolingModel hframe).trans hmodel
  have hvocab : b'.vocabSize = b.vocabSize := (congrArg InputBatch.vocabSize hframe).trans rfl
  have hallowed : r.allowedTokenIds = params.allowedTokenIds.getD [] := by
    rw [CachedRequestState.allowedTokenIds, hparams]
    rfl
  have hneeds : b'.logitsProcessingNeedsTokenIds = fun _ => false := by
    rw [← hunused.sampling hmodel]
    funext k
    by_cases hk : k = i
    · rw [hk]
      exact congrArg RowSampling.needsTokenIds hrow
    · exact congrArg RowSampling.needsTokenIds ((hothers k hk).trans (hothers₀ k hk))
  refine ⟨fun k hk => ?_, fun numAccepted hone => ?_, ?_, hvocab,
    hmodel'.trans hmodel.symm, fun hc => ?_, fun _ => hneeds⟩
  · rw [← hothers₀ k hk, ← hothers k hk]
    simp only [rowSampling, Function.update_of_ne hk]
  · have hgenerator' := congrArg RowSampling.generator hrow
    have hwords' := congrArg RowSampling.badWordsTokenIds hrow
    have hembeds' := congrArg RowSampling.promptEmbeds hrow
    refine ⟨fun params' hparams' => ?_, ?_, ?_, ?_, ?_, ?_⟩
    · obtain rfl := Option.some.inj (hparams.symm.trans hparams')
      exact ⟨hstores.1, hstores.2, hstores.3, hstores.4, hstores.5, hstores.6⟩
    · rw [hone]
      exact Function.update_self ..
    · refine hgenerator'.trans ?_
      rw [CachedRequestState.ownGenerator, hparams]
      show r.generator.or (b.generators.get? i) = r.generator
      rw [hgenerator, Option.or_none]
    · refine hwords'.trans ?_
      rw [CachedRequestState.ownBadWords, hparams]
      show Option.or _ (b.badWordsTokenIds.get? i) = _
      rw [hwords, Option.or_none]
      rfl
    · exact hembeds'.trans hembed
    · rw [CachedRequestState.needsTokenIds, hparams]
      exact congrFun hneeds i
  · rw [hallowed]
    exact hmask
  · rw [show b'.isPoolingModel = true from hc] at hmodel'
    cases hmodel'

lemma AddsSampling.of_pooling {row : Nat → Int} {isRow : Nat → Bool}
    {tables : MultiGroupBlockTable} {pooling : PoolingParams} (hunused : b.Unused)
    (hmodel : b.isPoolingModel = true) (hparams : r.samplingParams = none)
    (hpooling : r.poolingParams = some pooling)
    (hembeds : r.promptEmbeds = none → b.reqPromptEmbeds.get? i = none) :
    AddsSampling fl b { b.withRow heap i r row isRow tables with
      logitsProcessingNeedsTokenIds :=
        Function.update b.logitsProcessingNeedsTokenIds i pooling.requiresTokenIds
      numAcceptedTokensCpu := Function.update b.numAcceptedTokensCpu i 1 } i r := by
  obtain ⟨hothers₀, hembed⟩ := withRow_rowSampling heap row isRow tables hembeds
  obtain ⟨hgenerators, hwords, hmask, haccepted⟩ := hunused.pooling hmodel
  have hallowed : r.allowedTokenIds = [] := by
    rw [CachedRequestState.allowedTokenIds, hparams]
    rfl
  refine ⟨fun k hk => ?_, fun numAccepted hone => ⟨?_, ?_, ?_, ?_, hembed, ?_⟩, ?_, rfl, rfl,
    fun _ => ⟨hgenerators, hwords, hmask, ?_⟩, fun hc => ?_⟩
  · rw [← hothers₀ k hk]
    simp only [rowSampling, Function.update_of_ne hk]
    rfl
  · intro params hsome
    rw [hparams] at hsome
    cases hsome
  · rw [hone]
    exact Function.update_self ..
  · show b.generators.get? i = _
    rw [hgenerators, CachedRequestState.ownGenerator, hparams]
    rfl
  · show b.badWordsTokenIds.get? i = _
    rw [hwords, CachedRequestState.ownBadWords, hparams]
    rfl
  · rw [CachedRequestState.needsTokenIds, hparams, hpooling]
    exact Function.update_self ..
  · rw [if_pos hallowed]
    rfl
  · dsimp only
    rw [haccepted]
    exact Function.update_eq_self i _
  · rw [show b.isPoolingModel = false from hc] at hmodel
    cases hmodel

lemma addRequest_sampling (h : b.addRequest fl heap r = .ok b') (hunused : b.Unused)
    (hfits : Fits b.isPoolingModel r) (hgenerator : b.generators.get? b.nextRow = none)
    (hwords : b.badWordsTokenIds.get? b.nextRow = none)
    (hembeds : r.promptEmbeds = none → b.reqPromptEmbeds.get? b.nextRow = none) :
    AddsSampling fl b b' b.nextRow r := by
  obtain ⟨i, row, isRow, tables, s, rfl, -, -, -, -, hparams, rfl⟩ := addRequest_ok h
  refine AddsSampling.addLora ?_
  rw [addParams] at hparams
  cases hmodel : b.isPoolingModel with
  | false =>
    rw [hmodel] at hfits
    obtain ⟨params, hsome⟩ := Option.isSome_iff_exists.mp hfits
    simp only [hsome] at hparams
    exact .of_sampling hunused hmodel hsome hgenerator hwords hembeds hparams
  | true =>
    rw [hmodel] at hfits
    obtain ⟨hnone, hpooling⟩ := hfits
    obtain ⟨pooling, hpooling⟩ := Option.isSome_iff_exists.mp hpooling
    simp only [hnone, hpooling, Except.ok.injEq] at hparams
    subst hparams
    exact .of_pooling hunused hmodel hnone hpooling hembeds

/-- The generator and the bad words of the row go, or the model has none. -/
lemma removed_rowSampling (hunused : b.Unused) {reqId : String} {loraIds : Dict Nat (Finset String)}
    (hb' : b' = if b.isPoolingModel then b.withoutRow i reqId loraIds
      else (b.withoutRow i reqId loraIds).removeSampling i) :
    (∀ k, k ≠ i → b'.rowSampling k = b.rowSampling k) ∧
      ((b'.rowSampling i).generator = none ∧ (b'.rowSampling i).badWordsTokenIds = none) ∧
      (b'.allowedTokenIdsMaskCpuTensor = b.allowedTokenIdsMaskCpuTensor ∨
        b'.allowedTokenIdsMaskCpuTensor = b.allowedTokenIdsMaskCpuTensor.map fun mask =>
          Function.update mask i fun _ => false) ∧
      b'.vocabSize = b.vocabSize ∧ b'.isPoolingModel = b.isPoolingModel ∧ b'.Unused := by
  subst hb'
  by_cases hmodel : b.isPoolingModel = true
  · obtain ⟨hgenerators, hwords, -⟩ := hunused.pooling hmodel
    rw [if_pos hmodel]
    refine ⟨fun _ _ => rfl, ⟨?_, ?_⟩, Or.inl rfl, rfl, rfl, hunused.pooling, hunused.sampling⟩
    · show b.generators.get? i = none
      rw [hgenerators]
      rfl
    · show b.badWordsTokenIds.get? i = none
      rw [hwords]
      rfl
  · rw [Bool.not_eq_true] at hmodel
    rw [if_neg (by rw [hmodel]; exact Bool.false_ne_true)]
    refine ⟨fun k hk => ?_, ⟨Dict.get?_erase_self .., Dict.get?_erase_self ..⟩, Or.inr rfl, rfl,
      rfl, fun hc => absurd (hmodel.symm.trans hc) Bool.false_ne_true, hunused.sampling⟩
    simp only [rowSampling, removeSampling, withoutRow, Dict.get?_erase_of_ne (Ne.symm hk)]

lemma carries_of_pooling {vocabSize : Nat} {numAccepted : String → Nat} {d d' : RowSampling F}
    (h : d.Carries fl vocabSize numAccepted r) (hparams : r.samplingParams = none)
    (haccepted : d'.numAcceptedTokens = d.numAcceptedTokens) (hgenerator : d'.generator = d.generator)
    (hwords : d'.badWordsTokenIds = d.badWordsTokenIds) (hembeds : d'.promptEmbeds = d.promptEmbeds)
    (hneeds : d'.needsTokenIds = d.needsTokenIds) : d'.Carries fl vocabSize numAccepted r := by
  refine ⟨fun params hsome => ?_, haccepted.trans h.numAcceptedTokens, hgenerator.trans h.generator,
    hwords.trans h.badWordsTokenIds, hembeds.trans h.promptEmbeds, hneeds.trans h.needsTokenIds⟩
  rw [hparams] at hsome
  cases hsome

/-- What a request finds on row `k` of `b` it finds on row `k'` of `b'`. -/
def Passes (fl : FloatOps F) (b b' : InputBatch F) (k k' : Nat) : Prop :=
  ∀ numAccepted r, Fits b.isPoolingModel r →
    (b.rowSampling k).Carries fl b.vocabSize numAccepted r →
    (b'.rowSampling k').Carries fl b.vocabSize numAccepted r

lemma Passes.of_eq {k k' : Nat} (h : b'.rowSampling k' = b.rowSampling k) : Passes fl b b' k k' := by
  intro numAccepted r _ hcarries
  rw [h]
  exact hcarries

lemma moved_rowSampling (fl : FloatOps F) (reqId : String) (hunused : b.Unused) (hne : src ≠ tgt)
    (hgenerator : b.generators.get? tgt = none) (hwords : b.badWordsTokenIds.get? tgt = none)
    (hembeds : b.reqPromptEmbeds.get? src = none → b.reqPromptEmbeds.get? tgt = none)
    (hneeds : b.logitsProcessingNeedsTokenIds src = b.logitsProcessingNeedsTokenIds tgt) :
    let b' := b.moved src tgt reqId
    (∀ k, k ≠ src → k ≠ tgt → b'.rowSampling k = b.rowSampling k) ∧ Passes fl b b' src tgt ∧
      ((b'.rowSampling src).generator = none ∧ (b'.rowSampling src).badWordsTokenIds = none) ∧
      (b'.allowedTokenIdsMaskCpuTensor = b.allowedTokenIdsMaskCpuTensor.map fun mask =>
        Rows.move mask src tgt) ∧
      b'.vocabSize = b.vocabSize ∧ b'.isPoolingModel = b.isPoolingModel ∧ b'.Unused := by
  have hor : (b.reqPromptEmbeds.get? src).or (b.reqPromptEmbeds.get? tgt) =
      b.reqPromptEmbeds.get? src := by
    cases hsrc : b.reqPromptEmbeds.get? src with
    | none => rw [hembeds hsrc, Option.or_none]
    | some embeds => rfl
  simp only [moved]
  by_cases hmodel : b.isPoolingModel = true
  · obtain ⟨hgenerators, hwords', hmask, haccepted⟩ := hunused.pooling hmodel
    rw [if_pos hmodel]
    refine ⟨fun k hks hkt => ?_, ?_, ⟨?_, ?_⟩, ?_, rfl, rfl, hunused.pooling, hunused.sampling⟩
    · simp only [rowSampling, withRowMoved, get?_moveDictEntry _ hne, hks, hkt, if_false]
    · intro numAccepted r hfits hcarries
      rw [hmodel] at hfits
      refine carries_of_pooling hcarries hfits.1 ?_ ?_ ?_ ?_ hneeds.symm
      · simp only [rowSampling, withRowMoved, haccepted]
      · simp only [rowSampling, withRowMoved, hgenerators, Dict.get?_empty]
      · simp only [rowSampling, withRowMoved, hwords', Dict.get?_empty]
      · simp only [rowSampling, withRowMoved, get?_moveDictEntry _ hne, hne.symm, if_false, if_true,
          hor]
    · simp only [rowSampling, withRowMoved, hgenerators, Dict.get?_empty]
    · simp only [rowSampling, withRowMoved, hwords', Dict.get?_empty]
    · simp only [withRowMoved, hmask, Option.map_none]
  · rw [Bool.not_eq_true] at hmodel
    rw [if_neg (by rw [hmodel]; exact Bool.false_ne_true)]
    refine ⟨fun k hks hkt => ?_, Passes.of_eq ?_, ⟨?_, ?_⟩, rfl, rfl, rfl,
      fun hc => absurd (hmodel.symm.trans hc) Bool.false_ne_true, hunused.sampling⟩
    · simp only [rowSampling, moveSampling, withRowMoved, Rows.move, Function.update_of_ne hkt,
        get?_moveDictEntry _ hne, hks, hkt, if_false]
    · simp only [rowSampling, moveSampling, withRowMoved, Rows.move, Function.update_self,
        get?_moveDictEntry _ hne, hne.symm, if_false, if_true, hgenerator, hwords, hor,
        Option.or_none, hneeds]
    · exact (get?_moveDictEntry _ hne src).trans (if_pos rfl)
    · exact (get?_moveDictEntry _ hne src).trans (if_pos rfl)

lemma swapped_rowSampling (fl : FloatOps F) (hunused : b.Unused) {r₁ r₂ : CachedRequestState F}
    (hneeds : b.logitsProcessingNeedsTokenIds i = b.logitsProcessingNeedsTokenIds j)
    (hb' : b' = if b.isPoolingModel then (b.withIdsSwapped i j r₁ r₂).withRowsSwapped i j
      else ((b.withIdsSwapped i j r₁ r₂).withRowsSwapped i j).swapSampling i j) :
    (∀ k, k ≠ i → k ≠ j → b'.rowSampling k = b.rowSampling k) ∧ Passes fl b b' i j ∧
      Passes fl b b' j i ∧
      (b'.allowedTokenIdsMaskCpuTensor = b.allowedTokenIdsMaskCpuTensor.map fun mask =>
        Rows.swapViews mask i j) ∧
      b'.vocabSize = b.vocabSize ∧ b'.isPoolingModel = b.isPoolingModel ∧ b'.Unused := by
  subst hb'
  by_cases hmodel : b.isPoolingModel = true
  · obtain ⟨hgenerators, hwords, hmask, haccepted⟩ := hunused.pooling hmodel
    rw [if_pos hmodel]
    refine ⟨fun k hki hkj => ?_, ?_, ?_, ?_, rfl, rfl, hunused.pooling, hunused.sampling⟩
    · simp only [rowSampling, withRowsSwapped, withIdsSwapped, get?_swapDictValues,
        Rows.swap_apply, hki, hkj, if_false]
    · intro numAccepted r hfits hcarries
      rw [hmodel] at hfits
      refine carries_of_pooling hcarries hfits.1 ?_ ?_ ?_ ?_ hneeds.symm
      · simp only [rowSampling, withRowsSwapped, withIdsSwapped, haccepted]
      · simp only [rowSampling, withRowsSwapped, withIdsSwapped, hgenerators, Dict.get?_empty]
      · simp only [rowSampling, withRowsSwapped, withIdsSwapped, hwords, Dict.get?_empty]
      · simp only [rowSampling, withRowsSwapped, withIdsSwapped, get?_swapDictValues,
          Rows.swap_apply, if_true]
    · intro numAccepted r hfits hcarries
      rw [hmodel] at hfits
      refine carries_of_pooling hcarries hfits.1 ?_ ?_ ?_ ?_ hneeds
      · simp only [rowSampling, withRowsSwapped, withIdsSwapped, haccepted]
      · simp only [rowSampling, withRowsSwapped, withIdsSwapped, hgenerators, Dict.get?_empty]
      · simp only [rowSampling, withRowsSwapped, withIdsSwapped, hwords, Dict.get?_empty]
      · simp only [rowSampling, withRowsSwapped, withIdsSwapped, get?_swapDictValues,
          Rows.swap_apply, if_true]
        split_ifs with hij
        · rw [hij]
        · rfl
    · simp only [withRowsSwapped, withIdsSwapped, hmask, Option.map_none]
  · rw [Bool.not_eq_true] at hmodel
    rw [if_neg (by rw [hmodel]; exact Bool.false_ne_true)]
    refine ⟨fun k hki hkj => ?_, Passes.of_eq ?_, Passes.of_eq ?_, rfl, rfl, rfl,
      fun hc => absurd (hmodel.symm.trans hc) Bool.false_ne_true, hunused.sampling⟩
    · simp only [rowSampling, swapSampling, withRowsSwapped, withIdsSwapped, get?_swapDictValues,
        Rows.swap_apply, hki, hkj, if_false]
    · simp only [rowSampling, swapSampling, withRowsSwapped, withIdsSwapped, get?_swapDictValues,
        Rows.swap_apply, if_true, hneeds]
    · simp only [rowSampling, swapSampling, withRowsSwapped, withIdsSwapped, get?_swapDictValues,
        Rows.swap_apply, if_true, hneeds]
      split_ifs with hij
      · rw [hij]
      · rfl

end InputBatch

end VllmV1.Worker
