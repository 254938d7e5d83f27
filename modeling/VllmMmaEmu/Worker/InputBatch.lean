import Mathlib.Data.Finset.Basic
import VllmMmaEmu.Worker.BlockTable
import VllmMmaEmu.Worker.LogitsProcessors

/-!
# The persistent batch of the model runner

`CachedRequestState` and `InputBatch` of `vllm/v1/worker/gpu_input_batch.py`: parallel arrays
with a row for each request of the batch. What only the sampling metadata reads (the sets of
request ids by kind of sampling, the numbers of logprobs) is left out.
-/

namespace VllmV1.Worker

open Python

variable {F : Type}

/-- Adapter ids are positive. -/
@[ext]
structure LoRARequest where
  loraIntId : Nat
  pos : 0 < loraIntId

instance : DecidableEq LoRARequest := fun _ _ => decidable_of_iff' _ LoRARequest.ext_iff

structure PoolingParams where
  requiresTokenIds : Bool
  deriving DecidableEq

structure CachedRequestState (F : Type) where
  reqId : String
  promptTokenIds : Option (List Int)
  promptEmbeds : Option (List (List F))
  samplingParams : Option (SamplingParams F)
  poolingParams : Option PoolingParams
  generator : Option Nat
  blockIds : List (List Nat)
  numComputedTokens : Nat
  outputTokenIds : ListRef
  loraRequest : Option LoRARequest

def lengthFromPromptTokenIdsOrEmbeds (promptTokenIds : Option (List Int))
    (promptEmbeds : Option (List (List F))) : Except PyError Nat :=
  match promptTokenIds, promptEmbeds with
  | none, none =>
    .error (.valueError "Neither prompt_token_ids nor prompt_embeds were defined.")
  | none, some embeds => .ok embeds.length
  | some ids, none => .ok ids.length
  | some ids, some embeds =>
    if embeds.length ≠ ids.length then
      .error (.valueError "Prompt token ids and prompt embeds had different lengths")
    else .ok ids.length

structure InputBatch (F : Type) where
  isPoolingModel : Bool
  maxNumReqs : Nat
  maxModelLen : Nat
  vocabSize : Nat
  reqIds : List (Option String)
  reqIdToIndex : Dict String Nat
  tokenIdsCpu : Nat → Nat → Int
  isTokenIds : Nat → Nat → Bool
  reqPromptEmbeds : Dict Nat (List (List F))
  numTokens : Nat → Nat
  numTokensNoSpec : Nat → Nat
  numPromptTokens : Nat → Nat
  numComputedTokensCpu : Nat → Nat
  blockTable : MultiGroupBlockTable
  temperatureCpu : Nat → F
  topPCpu : Nat → F
  topKCpu : Nat → Int
  frequencyPenaltiesCpu : Nat → F
  presencePenaltiesCpu : Nat → F
  repetitionPenaltiesCpu : Nat → F
  numAcceptedTokensCpu : Nat → Nat
  requestLoraMapping : Nat → Nat
  loraIdToRequestIds : Dict Nat (Finset String)
  generators : Dict Nat Nat
  batchUpdateBuilder : BatchUpdateBuilder F
  allowedTokenIdsMaskCpuTensor : Option (Nat → Nat → Bool)
  badWordsTokenIds : Dict Nat (List (List Int))
  logitsProcessingNeedsTokenIds : Nat → Bool
  reqOutputTokenIds : List (Option ListRef)
  logitsprocs : LogitsProcessors F

/-- `if v is not None: d[key] = v`. -/
def setIfGiven {V : Type} (d : Dict Nat V) (key : Nat) : Option V → Dict Nat V
  | some v => d.set key v
  | none => d

/-- `d[key] = v`, or `d.pop(key, None)` when there is no value. -/
def setOrPop {V : Type} (d : Dict Nat V) (key : Nat) : Option V → Dict Nat V
  | some v => d.set key v
  | none => d.erase key

/-- `d[key1], d[key2] = d[key2], d[key1]` for keys that may be missing. -/
def swapDictValues {V : Type} (d : Dict Nat V) (key1 key2 : Nat) : Dict Nat V :=
  let v1 := d.get? key1
  let v2 := d.get? key2
  setOrPop (setOrPop d key2 v1) key1 v2

namespace InputBatch

def numReqs (b : InputBatch F) : Nat := b.reqIdToIndex.entries.length

/-- `_register_add_request`: the row of the new request. -/
def registerAddRequest (b : InputBatch F) (request : CachedRequestState F) :
    Except PyError (Nat × InputBatch F) := do
  let (popped, builder) := b.batchUpdateBuilder.popRemoved
  let newReqIndex := popped.getD b.numReqs
  pyAssert (newReqIndex < b.maxNumReqs)
  let builder := { builder with batchChanged := true }
  let builder := match request.samplingParams with
    | some params => { builder with
        added := builder.added ++
          [⟨newReqIndex, params, request.promptTokenIds, request.outputTokenIds⟩] }
    | none => builder
  return (newReqIndex, { b with batchUpdateBuilder := builder })

def addIds (b : InputBatch F) (reqIndex : Nat) (request : CachedRequestState F) : InputBatch F :=
  { b with
    reqIds := if reqIndex = b.reqIds.length then b.reqIds ++ [some request.reqId]
      else b.reqIds.set reqIndex (some request.reqId)
    reqOutputTokenIds :=
      if reqIndex = b.reqIds.length then b.reqOutputTokenIds ++ [some request.outputTokenIds]
      else b.reqOutputTokenIds.set reqIndex (some request.outputTokenIds)
    reqIdToIndex := b.reqIdToIndex.set request.reqId reqIndex }

/-- The prompt of the row, and where it has token ids. -/
def addPromptTokens (b : InputBatch F) (reqIndex numPromptTokens : Nat) :
    Option (List Int) → Except PyError ((Nat → Int) × (Nat → Bool))
  | some ids => do
    let row ← assignSlice b.maxModelLen (b.tokenIdsCpu reqIndex) 0 numPromptTokens ids
    return (row, copyFirst numPromptTokens (b.isTokenIds reqIndex) fun _ => true)
  | none => .ok (b.tokenIdsCpu reqIndex,
      copyFirst numPromptTokens (b.isTokenIds reqIndex) fun _ => false)

/-- The prompt, then the output tokens, and where the row has token ids. -/
def addTokens (b : InputBatch F) (reqIndex numPromptTokens : Nat) (promptTokenIds : Option (List Int))
    (outputTokenIds : List Int) : Except PyError (InputBatch F) := do
  let startIdx := numPromptTokens
  let endIdx := startIdx + outputTokenIds.length
  let (row, isRow) ← b.addPromptTokens reqIndex numPromptTokens promptTokenIds
  let row ← assignSlice b.maxModelLen row startIdx endIdx outputTokenIds
  return { b with
    tokenIdsCpu := Function.update b.tokenIdsCpu reqIndex row
    isTokenIds := Function.update b.isTokenIds reqIndex
      fun j => if startIdx ≤ j ∧ j < endIdx then true else isRow j }

/-- The mask of the allowed tokens; an index out of the vocabulary raises. -/
def addMask (b : InputBatch F) (reqIndex : Nat) (allowedTokenIds : Option (List Nat)) :
    Except PyError (InputBatch F) :=
  match allowedTokenIds with
  | some (id :: ids) =>
    if ∀ t ∈ id :: ids, t < b.vocabSize then
      let mask := b.allowedTokenIdsMaskCpuTensor.getD fun _ _ => false
      .ok { b with
        allowedTokenIdsMaskCpuTensor := some
          (Function.update mask reqIndex fun t => decide (t ∉ id :: ids)) }
    else .error .indexError
  | _ => .ok b

/-- The sampling state of the row. -/
def addSampling (fl : FloatOps F) (b : InputBatch F) (reqIndex : Nat) (params : SamplingParams F)
    (generator : Option Nat) : Except PyError (InputBatch F) := do
  let topK := if 0 < params.topK ∧ params.topK < b.vocabSize then params.topK else b.vocabSize
  let b := { b with
    temperatureCpu := Function.update b.temperatureCpu reqIndex
      (if params.greedy then fl.zero else fl.toFloat32 params.temperature)
    topPCpu := Function.update b.topPCpu reqIndex (fl.toFloat32 params.topP)
    topKCpu := Function.update b.topKCpu reqIndex topK
    frequencyPenaltiesCpu :=
      Function.update b.frequencyPenaltiesCpu reqIndex (fl.toFloat32 params.frequencyPenalty)
    presencePenaltiesCpu :=
      Function.update b.presencePenaltiesCpu reqIndex (fl.toFloat32 params.presencePenalty)
    repetitionPenaltiesCpu :=
      Function.update b.repetitionPenaltiesCpu reqIndex (fl.toFloat32 params.repetitionPenalty)
    generators := setIfGiven b.generators reqIndex generator }
  let b ← b.addMask reqIndex params.allowedTokenIds
  return { b with
    badWordsTokenIds := setIfGiven b.badWordsTokenIds reqIndex
      (params.badWordsTokenIds.filter (¬ ·.isEmpty)) }

def addLora (b : InputBatch F) (reqIndex : Nat) (reqId : String) :
    Option LoRARequest → InputBatch F
  | some lora => { b with
      requestLoraMapping := Function.update b.requestLoraMapping reqIndex lora.loraIntId
      loraIdToRequestIds := b.loraIdToRequestIds.set lora.loraIntId
        (insert reqId ((b.loraIdToRequestIds.get? lora.loraIntId).getD ∅)) }
  | none => { b with requestLoraMapping := Function.update b.requestLoraMapping reqIndex 0 }

/-- The numbers of tokens and the block tables of the row. -/
def addCounts (heap : Heap) (b : InputBatch F) (reqIndex numPromptTokens : Nat)
    (request : CachedRequestState F) : Except PyError (InputBatch F) := do
  let numTokens := numPromptTokens + (heap request.outputTokenIds).length
  let blockTable ← b.blockTable.addRow request.blockIds reqIndex
  return { b with
    numPromptTokens := Function.update b.numPromptTokens reqIndex numPromptTokens
    reqPromptEmbeds := setIfGiven b.reqPromptEmbeds reqIndex request.promptEmbeds
    numTokens := Function.update b.numTokens reqIndex numTokens
    numTokensNoSpec := Function.update b.numTokensNoSpec reqIndex numTokens
    numComputedTokensCpu :=
      Function.update b.numComputedTokensCpu reqIndex request.numComputedTokens
    blockTable := blockTable }

def addParams (fl : FloatOps F) (b : InputBatch F) (reqIndex : Nat)
    (request : CachedRequestState F) : Except PyError (InputBatch F) :=
  match request.samplingParams, request.poolingParams with
  | some params, _ => b.addSampling fl reqIndex params request.generator
  | none, some pooling => .ok { b with
      logitsProcessingNeedsTokenIds :=
        Function.update b.logitsProcessingNeedsTokenIds reqIndex pooling.requiresTokenIds }
  | none, none => .error .notImplementedError

def addRequest (fl : FloatOps F) (heap : Heap) (b : InputBatch F)
    (request : CachedRequestState F) : Except PyError (InputBatch F) := do
  let (reqIndex, b) ← b.registerAddRequest request
  let b := b.addIds reqIndex request
  let numPromptTokens ←
    lengthFromPromptTokenIdsOrEmbeds request.promptTokenIds request.promptEmbeds
  let b ← b.addTokens reqIndex numPromptTokens request.promptTokenIds (heap request.outputTokenIds)
  let b ← b.addCounts heap reqIndex numPromptTokens request
  let b ← b.addParams fl reqIndex request
  let b := { b with numAcceptedTokensCpu := Function.update b.numAcceptedTokensCpu reqIndex 1 }
  return b.addLora reqIndex request.reqId request.loraRequest

def removeLora (b : InputBatch F) (reqIndex : Nat) (reqId : String) :
    Except PyError (InputBatch F) :=
  let loraId := b.requestLoraMapping reqIndex
  if loraId ≠ 0 then do
    let loraReqIds ← b.loraIdToRequestIds.getItem loraId
    let loraReqIds := loraReqIds.erase reqId
    return { b with
      loraIdToRequestIds :=
        if loraReqIds = ∅ then b.loraIdToRequestIds.erase loraId
        else b.loraIdToRequestIds.set loraId loraReqIds
      requestLoraMapping := Function.update b.requestLoraMapping reqIndex 0 }
  else .ok b

def removeSampling (b : InputBatch F) (reqIndex : Nat) : InputBatch F :=
  { b with
    generators := b.generators.erase reqIndex
    allowedTokenIdsMaskCpuTensor := b.allowedTokenIdsMaskCpuTensor.map fun mask =>
      Function.update mask reqIndex fun _ => false
    badWordsTokenIds := b.badWordsTokenIds.erase reqIndex }

/-- `remove_request`; an unknown id changes nothing. -/
def removeRequest (b : InputBatch F) (reqId : String) : Except PyError (InputBatch F) :=
  match b.reqIdToIndex.get? reqId with
  | none => .ok b
  | some reqIndex => do
    let builder ← b.batchUpdateBuilder.removedAppend reqIndex
    let b := { b with
      reqIdToIndex := b.reqIdToIndex.erase reqId
      batchUpdateBuilder := builder
      reqIds := b.reqIds.set reqIndex none
      reqOutputTokenIds := b.reqOutputTokenIds.set reqIndex none }
    let b ← b.removeLora reqIndex reqId
    return if b.isPoolingModel then b else b.removeSampling reqIndex

def swapIds (b : InputBatch F) (i1 i2 : Nat) : Except PyError (InputBatch F) :=
  match b.reqIds[i1]?, b.reqIds[i2]?, b.reqOutputTokenIds[i1]?, b.reqOutputTokenIds[i2]? with
  | some id1, some id2, some out1, some out2 => match id1, id2 with
    | some oldId1, some oldId2 => do
      let index1 ← b.reqIdToIndex.getItem oldId1
      let index2 ← b.reqIdToIndex.getItem oldId2
      return { b with
        reqIds := (b.reqIds.set i1 id2).set i2 id1
        reqOutputTokenIds := (b.reqOutputTokenIds.set i1 out2).set i2 out1
        reqIdToIndex := (b.reqIdToIndex.set oldId1 index2).set oldId2 index1 }
    | _, _ => .error .assertionError
  | _, _, _, _ => .error .indexError

/-- The rows of a torch mask are views, so they are not swapped but made equal. -/
def swapSampling (b : InputBatch F) (i1 i2 : Nat) : InputBatch F :=
  { b with
    batchUpdateBuilder := { b.batchUpdateBuilder with
      moved := b.batchUpdateBuilder.moved ++ [⟨i1, i2, .swap⟩] }
    temperatureCpu := Rows.swap b.temperatureCpu i1 i2
    topPCpu := Rows.swap b.topPCpu i1 i2
    topKCpu := Rows.swap b.topKCpu i1 i2
    frequencyPenaltiesCpu := Rows.swap b.frequencyPenaltiesCpu i1 i2
    presencePenaltiesCpu := Rows.swap b.presencePenaltiesCpu i1 i2
    repetitionPenaltiesCpu := Rows.swap b.repetitionPenaltiesCpu i1 i2
    numAcceptedTokensCpu := Rows.swap b.numAcceptedTokensCpu i1 i2
    generators := swapDictValues b.generators i1 i2
    badWordsTokenIds := swapDictValues b.badWordsTokenIds i1 i2
    allowedTokenIdsMaskCpuTensor :=
      b.allowedTokenIdsMaskCpuTensor.map fun mask => Rows.swapViews mask i1 i2 }

def swapStates (b : InputBatch F) (i1 i2 : Nat) : Except PyError (InputBatch F) := do
  let b ← b.swapIds i1 i2
  let b := { b with
    numTokens := Rows.swap b.numTokens i1 i2
    numTokensNoSpec := Rows.swap b.numTokensNoSpec i1 i2
    numPromptTokens := Rows.swap b.numPromptTokens i1 i2
    numComputedTokensCpu := Rows.swap b.numComputedTokensCpu i1 i2
    tokenIdsCpu := Rows.swap b.tokenIdsCpu i1 i2
    isTokenIds := Rows.swap b.isTokenIds i1 i2
    reqPromptEmbeds := swapDictValues b.reqPromptEmbeds i1 i2
    blockTable := b.blockTable.swapRow i1 i2
    requestLoraMapping := Rows.swap b.requestLoraMapping i1 i2 }
  return if b.isPoolingModel then b else b.swapSampling i1 i2

/-- A dict entry moves to another row; without one the row keeps its own. -/
def moveDictEntry {V : Type} (d : Dict Nat V) (src tgt : Nat) : Dict Nat V :=
  match d.get? src with
  | some v => (d.erase src).set tgt v
  | none => d

def moveSampling (b : InputBatch F) (src tgt : Nat) : InputBatch F :=
  { b with
    batchUpdateBuilder := { b.batchUpdateBuilder with
      moved := b.batchUpdateBuilder.moved ++ [⟨src, tgt, .unidirectional⟩] }
    temperatureCpu := Rows.move b.temperatureCpu src tgt
    topPCpu := Rows.move b.topPCpu src tgt
    topKCpu := Rows.move b.topKCpu src tgt
    frequencyPenaltiesCpu := Rows.move b.frequencyPenaltiesCpu src tgt
    presencePenaltiesCpu := Rows.move b.presencePenaltiesCpu src tgt
    repetitionPenaltiesCpu := Rows.move b.repetitionPenaltiesCpu src tgt
    numAcceptedTokensCpu := Rows.move b.numAcceptedTokensCpu src tgt
    generators := moveDictEntry b.generators src tgt
    allowedTokenIdsMaskCpuTensor :=
      b.allowedTokenIdsMaskCpuTensor.map fun mask => Rows.move mask src tgt
    badWordsTokenIds := moveDictEntry b.badWordsTokenIds src tgt }

/-- The active request of the last row moves down into the empty row. -/
def moveDown (b : InputBatch F) (lastReqIndex emptyIndex : Nat) : Except PyError (InputBatch F) :=
  match b.reqIds[lastReqIndex]? with
  | some (some reqId) =>
    let numTokens := b.numTokens lastReqIndex
    let b := { b with
      reqIds := (b.reqIds.set emptyIndex (some reqId)).set lastReqIndex none
      reqOutputTokenIds := (b.reqOutputTokenIds.set emptyIndex
        (b.reqOutputTokenIds.getD lastReqIndex none)).set lastReqIndex none
      reqIdToIndex := b.reqIdToIndex.set reqId emptyIndex
      tokenIdsCpu := Function.update b.tokenIdsCpu emptyIndex
        (copyFirst numTokens (b.tokenIdsCpu emptyIndex) (b.tokenIdsCpu lastReqIndex))
      isTokenIds := Function.update b.isTokenIds emptyIndex
        (copyFirst numTokens (b.isTokenIds emptyIndex) (b.isTokenIds lastReqIndex))
      reqPromptEmbeds := moveDictEntry b.reqPromptEmbeds lastReqIndex emptyIndex
      numTokens := Rows.move b.numTokens lastReqIndex emptyIndex
      numTokensNoSpec := Rows.move b.numTokensNoSpec lastReqIndex emptyIndex
      numPromptTokens := Rows.move b.numPromptTokens lastReqIndex emptyIndex
      numComputedTokensCpu := Rows.move b.numComputedTokensCpu lastReqIndex emptyIndex
      blockTable := b.blockTable.moveRow lastReqIndex emptyIndex
      requestLoraMapping := Rows.move b.requestLoraMapping lastReqIndex emptyIndex }
    .ok (if b.isPoolingModel then b else b.moveSampling lastReqIndex emptyIndex)
  | some none => .error .assertionError
  | none => .error .indexError

/-- `last_req_index + 1` after the empty rows at the end are skipped. -/
def skipEmpty (emptyReqIndices : List Nat) : Nat → Nat
  | 0 => 0
  | lastReqIndex + 1 =>
    if lastReqIndex ∈ emptyReqIndices then skipEmpty emptyReqIndices lastReqIndex
    else lastReqIndex + 1

/-- The loop of `condense`. Every turn that goes on pops an empty row; `stop` is
`last_req_index + 1`. -/
def condenseLoop : (fuel : Nat) → InputBatch F → (stop : Nat) → Except PyError (InputBatch F)
  | 0, b, _ => .ok b
  | fuel + 1, b, stop =>
    if b.batchUpdateBuilder.removed = [] then .ok b
    else
      let stop := skipEmpty b.batchUpdateBuilder.removed stop
      match b.batchUpdateBuilder.peekRemoved.1 with
      | none => .error .assertionError
      | some emptyIndex =>
        if emptyIndex + 1 ≥ stop then .ok b
        else do
          let b := { b with batchUpdateBuilder := b.batchUpdateBuilder.popRemoved.2 }
          let b ← b.moveDown (stop - 1) emptyIndex
          condenseLoop fuel b (stop - 1)

def condense (b : InputBatch F) : Except PyError (InputBatch F) := do
  let numReqs := b.numReqs
  let b := { b with batchUpdateBuilder := b.batchUpdateBuilder.ensureRemovedSorted }
  let emptyReqIndices := b.batchUpdateBuilder.removed
  if emptyReqIndices = [] then return b
  if numReqs = 0 then return { b with reqIds := [], reqOutputTokenIds := [] }
  let b ← condenseLoop emptyReqIndices.length b (numReqs + emptyReqIndices.length)
  return { b with
    reqIds := b.reqIds.take numReqs
    reqOutputTokenIds := b.reqOutputTokenIds.take numReqs }

def refreshMetadata (fl : FloatOps F) (heap : Heap) (b : InputBatch F) : InputBatch F :=
  if b.isPoolingModel then { b with batchUpdateBuilder := b.batchUpdateBuilder.reset.2 }
  else
    let (batchUpdate, builder) := b.batchUpdateBuilder.getAndReset b.numReqs
    { b with
      batchUpdateBuilder := builder
      logitsprocs := b.logitsprocs.updateState fl heap batchUpdate }

/-- What `_update_states_after_model_execute` of the model runner writes. -/
def recordAccepted (b : InputBatch F) (numAcceptedTokens : List Nat) : InputBatch F :=
  { b with
    numAcceptedTokensCpu := fun i => numAcceptedTokens.getD i (b.numAcceptedTokensCpu i) }

/-- What `_bookkeeping_sync` of the model runner writes for sampled tokens of a row. -/
def recordSampled (b : InputBatch F) (reqIdx : Nat) (sampledIds : List Int) :
    Except PyError (InputBatch F) := do
  let startIdx := b.numTokensNoSpec reqIdx
  let endIdx := startIdx + sampledIds.length
  pyAssert (endIdx ≤ b.maxModelLen)
  let row ← assignSlice b.maxModelLen (b.tokenIdsCpu reqIdx) startIdx endIdx sampledIds
  return { b with
    tokenIdsCpu := Function.update b.tokenIdsCpu reqIdx row
    isTokenIds := Function.update b.isTokenIds reqIdx
      fun j => if startIdx ≤ j ∧ j < endIdx then true else b.isTokenIds reqIdx j
    numTokensNoSpec := Function.update b.numTokensNoSpec reqIdx endIdx
    numTokens := Function.update b.numTokens reqIdx endIdx }

end InputBatch

end VllmV1.Worker
