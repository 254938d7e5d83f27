import VllmMmaEmu.Frontend.Detokenizer
import VllmMmaEmu.Frontend.ParallelSampling

/-!
# The output processor

`OutputProcessor`, `RequestState` and `RequestOutputCollector` of
`vllm/v1/engine/output_processor.py` and `LogprobsProcessor` of `vllm/v1/engine/logprobs.py`, for
one request of a user with all its children. The objects of other requests are not touched by it.
-/

namespace VllmV1.Frontend

open Python

variable {P : Payloads} {δ : Type}

/-- `EngineCoreOutput` of a request that generates tokens. -/
structure EngineCoreOutput (P : Payloads) where
  requestId : String
  newTokenIds : List Nat
  newLogprobs : Option (List P.Logprobs)
  finishReason : Option FinishReason
  stopReason : Option StopReason
  kvTransferParams : Option P.KvTransferParams

structure LogprobsProcessor (P : Payloads) where
  logprobs : Option (List P.Logprobs)
  cumulativeLogprob : Option P.Float

namespace LogprobsProcessor

def fromNewRequest (P : Payloads) (numLogprobs : Option Nat) : LogprobsProcessor P where
  logprobs := if numLogprobs.isSome then some [] else none
  cumulativeLogprob := if numLogprobs.isSome then some P.zero else none

def updateFromOutput (l : LogprobsProcessor P) (output : EngineCoreOutput P) :
    Except PyError (LogprobsProcessor P) :=
  match output.newLogprobs with
  | none => .ok l
  | some newLogprobs =>
    match l.logprobs, l.cumulativeLogprob with
    | some logprobs, some cumulative => .ok
      { logprobs := some (logprobs ++ newLogprobs)
        cumulativeLogprob :=
          some (newLogprobs.foldl (fun sum entry => P.add sum (P.sampled entry)) cumulative) }
    | _, _ => .error .assertionError

end LogprobsProcessor

structure RequestOutputCollector (P : Payloads) where
  aggregate : Bool
  output : Option (RequestOutput P)

namespace RequestOutputCollector

def init (P : Payloads) (outputKind : RequestOutputKind) : RequestOutputCollector P :=
  ⟨decide (outputKind = .delta), none⟩

def put (q : RequestOutputCollector P) (output : RequestOutput P) :
    Except PyError (RequestOutputCollector P) :=
  match q.output with
  | none => .ok { q with output := some output }
  | some pending => do
    let merged ← pending.add output q.aggregate
    return { q with output := some merged }

/-- `get`, once there is an output. -/
def get (q : RequestOutputCollector P) : Option (RequestOutput P × RequestOutputCollector P) :=
  q.output.map fun output => (output, { q with output := none })

end RequestOutputCollector

/-- `RequestState`. The parent is an object of its own. -/
structure RequestState (P : Payloads) (δ : Type) where
  requestId : String
  requestIndex : Nat
  outputKind : RequestOutputKind
  logprobsProcessor : LogprobsProcessor P
  detokenizer : IncrementalDetokenizer δ

namespace RequestState

def newCompletionOutput (r : RequestState P δ) (tokenIds : List Nat)
    (finishReason : Option FinishReason) (stopReason : Option StopReason) :
    CompletionOutput P × RequestState P δ :=
  let finished := finishReason.isSome
  let delta := decide (r.outputKind = .delta)
  let text := r.detokenizer.getNextOutputText finished delta
  let tokenIds := if delta then tokenIds else text.2.outputTokenIds
  -- Python's `-0` is `0`: without new tokens the slice is the whole list
  let logprobs := r.logprobsProcessor.logprobs.map fun logprobs =>
    if delta then pyFrom logprobs (-(tokenIds.length : Int)) else logprobs
  ({ index := r.requestIndex
     text := text.1
     tokenIds := tokenIds
     cumulativeLogprob := r.logprobsProcessor.cumulativeLogprob
     logprobs := logprobs
     finishReason := finishReason
     stopReason := if finished then stopReason else none },
    { r with detokenizer := text.2 })

/-- What `make_request_output` returns and leaves behind. -/
structure Made (P : Payloads) (δ : Type) where
  output : Option (RequestOutput P)
  state : RequestState P δ
  parent : Option (ParentRequest P)

def makeRequestOutput (r : RequestState P δ) (parentReq : Option (ParentRequest P))
    (newTokenIds : List Nat) (finishReason : Option FinishReason)
    (stopReason : Option StopReason) (kvTransferParams : Option P.KvTransferParams) :
    Except PyError (Made P δ) :=
  let finished := finishReason.isSome
  if finished = false ∧ r.outputKind = .finalOnly then .ok ⟨none, r, parentReq⟩
  else
    let made := r.newCompletionOutput newTokenIds finishReason stopReason
    match parentReq with
    | none => .ok ⟨some ⟨r.requestId, [some made.1], finished, kvTransferParams⟩, made.2, none⟩
    | some parent => do
      let ((requestId, outputs, finished), parent) ← parent.getOutputs r.requestId made.1
      if outputs = [] then return ⟨none, made.2, some parent⟩
      else return ⟨some ⟨requestId, outputs, finished, kvTransferParams⟩, made.2, some parent⟩

def fromNewRequest (requestId : String) (requestIndex : Nat) (params : SamplingParams)
    (detokenizer : IncrementalDetokenizer δ) : RequestState P δ where
  requestId := requestId
  requestIndex := requestIndex
  outputKind := params.outputKind
  logprobsProcessor := .fromNewRequest P params.logprobs
  detokenizer := detokenizer

end RequestState

/-- What `OutputProcessor` has of a request of a user, with its parent and its collector. -/
structure OutputProcessor (P : Payloads) (δ : Type) where
  requestStates : String → Option (RequestState P δ)
  /-- The parent is in `parent_requests`. -/
  parentRegistered : Bool
  parent : Option (ParentRequest P)
  queue : RequestOutputCollector P
  /-- The requests that are still to be aborted in the engine core. -/
  reqsToAbort : List String

namespace OutputProcessor

/-- Put the output that was made, if there is one, and keep or free the state of the request. -/
def handOut (p : OutputProcessor P δ) (requestId : String) (made : RequestState.Made P δ)
    (free : Bool) : Except PyError (OutputProcessor P δ) := do
  let queue ← match made.output with
    | none => .ok p.queue
    | some output => p.queue.put output
  return { p with
    requestStates := Function.update p.requestStates requestId
      (if free then none else some made.state)
    parent := made.parent
    queue := queue }

def addRequest (p : OutputProcessor P δ) (requestId : String) (requestIndex : Nat)
    (params : SamplingParams) (detokenizer : IncrementalDetokenizer δ) :
    Except PyError (OutputProcessor P δ) :=
  if (p.requestStates requestId).isSome then
    .error (.valueError ("Request id " ++ requestId ++ " already running."))
  else .ok { p with
    requestStates := Function.update p.requestStates requestId
      (some (.fromNewRequest requestId requestIndex params detokenizer))
    parentRegistered := p.parentRegistered || p.parent.isSome }

variable (decodeNext : δ → Nat → List Char × δ)

/-- The stop string that ends the request, if its text came to contain one. -/
def stopString (r : RequestState P δ) (output : EngineCoreOutput P) : Option (List Char) :=
  (r.detokenizer.update decodeNext output.newTokenIds
    (decide (output.finishReason = some .stop))).1.filter (· ≠ [])

/-- The finish reason after the check for stop strings. -/
def finishReason (r : RequestState P δ) (output : EngineCoreOutput P) : Option FinishReason :=
  if (stopString decodeNext r output).isSome then some .stop else output.finishReason

/-- When a request ended, its parent is removed with the last child, and the engine core is told if
it does not know. -/
def noteEnd (p : OutputProcessor P δ) (output : EngineCoreOutput P) (ended : Bool) :
    OutputProcessor P δ :=
  let childrenLeft := match p.parent with
    | none => true
    | some parent => decide (parent.childRequests ≠ ∅)
  { p with
    parentRegistered := p.parentRegistered && (!ended || childrenLeft)
    reqsToAbort :=
      if ended ∧ output.finishReason = none then p.reqsToAbort ++ [output.requestId]
      else p.reqsToAbort }

/-- One round of the loop of `process_outputs`. -/
def processOutput (p : OutputProcessor P δ) (output : EngineCoreOutput P) :
    Except PyError (OutputProcessor P δ) :=
  match p.requestStates output.requestId with
  | none => .ok p
  | some r => do
    let detokenizer := (r.detokenizer.update decodeNext output.newTokenIds
      (decide (output.finishReason = some .stop))).2
    let finishReason := finishReason decodeNext r output
    let stopReason := ((stopString decodeNext r output).map StopReason.string).or output.stopReason
    let logprobsProcessor ← r.logprobsProcessor.updateFromOutput output
    let made ← RequestState.makeRequestOutput
      { r with detokenizer := detokenizer, logprobsProcessor := logprobsProcessor } p.parent
      output.newTokenIds finishReason stopReason output.kvTransferParams
    let p ← p.handOut output.requestId made finishReason.isSome
    return p.noteEnd output finishReason.isSome

/-- `abort_requests` for a request that has a state: a final output without new tokens. -/
def abortOne (p : OutputProcessor P δ) (requestId : String) :
    Except PyError (OutputProcessor P δ) :=
  match p.requestStates requestId with
  | none => .ok p
  | some r => do
    let made ← r.makeRequestOutput p.parent [] (some .abort) none none
    let p ← p.handOut requestId made true
    return { p with reqsToAbort := p.reqsToAbort ++ [requestId] }

/-- The requests that `abort_requests` aborts for an id: its own, or the children of a parent in
whatever order the set gives them. -/
def aborted (p : OutputProcessor P δ) (requestId : String) (children : List String) :
    List String :=
  if (p.requestStates requestId).isSome then [requestId]
  else match p.parent with
    | none => []
    | some parent =>
      if p.parentRegistered ∧ parent.requestId = requestId then children else []

def abortRequests (p : OutputProcessor P δ) (requestId : String) (children : List String) :
    Except PyError (OutputProcessor P δ) := do
  let known := (p.requestStates requestId).isSome
  let p' ← (p.aborted requestId children).foldlM abortOne p
  return { p' with
    parentRegistered :=
      if known ∨ p.parent.all (fun parent => decide (parent.requestId ≠ requestId)) then
        p'.parentRegistered
      else false }

end OutputProcessor

end VllmV1.Frontend
