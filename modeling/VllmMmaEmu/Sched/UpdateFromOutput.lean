import VllmMmaEmu.Sched.Schedule

/-!
# update_from_output

`Scheduler.update_from_output`: the sampled tokens of an executed step are appended to the
requests that the output names, and requests that stop are freed. Log probabilities,
statistics and the grammar's own state are left out.
-/

namespace VllmV1

open Python

structure KVConnectorOutput where
  finishedRecving : List String := []
  finishedSending : List String := []

/-- `ModelRunnerOutput`. A pooler output is there or not for each request. -/
structure ModelRunnerOutput where
  reqIdToIndex : Dict String Nat
  sampledTokenIds : List (List Int)
  poolerOutput : List Bool := []
  kvConnectorOutput : Option KVConnectorOutput := none

inductive FinishReason where
  | stop
  | length
  | abort
  deriving DecidableEq, Repr

/-- `_FINISHED_REASON_MAP`. -/
def RequestStatus.getFinishedReason : RequestStatus → Option FinishReason
  | .finishedStopped => some .stop
  | .finishedLengthCapped => some .length
  | .finishedAborted => some .abort
  | .finishedIgnored => some .length
  | .waiting | .waitingForFsm | .waitingForRemoteKvs | .running | .preempted => none

structure EngineCoreOutput where
  requestId : String
  newTokenIds : List Int
  finishReason : Option FinishReason
  deriving DecidableEq, Repr

/-- `check_stop`: the status of a request that stops. -/
def checkStop (request : Request) (maxModelLen : Int) (poolerOutput : Bool) :
    Except PyError (Option RequestStatus) :=
  if (request.numTokens : Int) ≥ maxModelLen ∨ request.numOutputTokens ≥ request.maxTokens then
    .ok (some .finishedLengthCapped)
  else if request.poolingParams then
    .ok (if poolerOutput then some .finishedStopped else none)
  else match request.samplingParams, request.outputTokenIds.getLast? with
    | none, _ => .error .assertionError
    | some _, none => .error .indexError
    | some sp, some lastTokenId =>
      if (sp.ignoreEos = false ∧ request.eosTokenId = some lastTokenId) ∨
          lastTokenId ∈ sp.stopTokenIds then .ok (some .finishedStopped)
      else .ok none

namespace Scheduler

/-- `check_stop` with the assignment to the status: whether the request stops. -/
def applyStop (s : Scheduler) (r : Ref) (poolerOutput : Bool) : Except PyError (Bool × Scheduler) := do
  let stop ← checkStop (s.objs r) s.maxModelLen poolerOutput
  match stop with
  | none => return (false, s)
  | some status => return (true, s.setStatus r status)

/-- `request.append_output_token_ids(token)`. -/
def appendToken (s : Scheduler) (r : Ref) (token : Int) : Except PyError Scheduler := do
  let request ← (s.objs r).appendOutputTokenIds s.config.blockHasher [token]
  return s.modify r fun _ => request

/-- The loop of `_update_request_with_output`: the tokens that were appended, and whether
the request stopped at the last of them. -/
def appendLoop (r : Ref) : Scheduler → List Int → Except PyError (List Int × Bool × Scheduler)
  | s, [] => .ok ([], false, s)
  | s, token :: rest => do
    let s ← s.appendToken r token
    let (stopped, s) ← s.applyStop r false
    if stopped then return ([token], true, s)
    else do
      let (appended, stopped, s) ← appendLoop r s rest
      return (token :: appended, stopped, s)

/-- What `AsyncScheduler` adds: placeholders become tokens, and the tokens of a request that
was running are cached. -/
def settlePlaceholders (s : Scheduler) (r : Ref) (statusBeforeUpdate : RequestStatus)
    (numNew : Nat) : Except PyError Scheduler := do
  let s := s.modify r fun request =>
    { request with numOutputPlaceholders := request.numOutputPlaceholders - numNew }
  pyAssert ((s.objs r).numOutputPlaceholders ≥ 0)
  if statusBeforeUpdate = .running then do
    let kv ← s.kvCacheManager.cacheBlocks (s.req r)
      ((s.objs r).numComputedTokens - (s.objs r).numOutputPlaceholders)
    return { s with kvCacheManager := kv }
  else return s

/-- `_update_request_with_output` of both schedulers; without tokens it is not called. -/
def updateRequestWithOutput (s : Scheduler) (r : Ref) (tokens : List Int) :
    Except PyError (List Int × Bool × Scheduler) :=
  if tokens = [] then .ok ([], false, s)
  else do
    let statusBeforeUpdate := (s.objs r).status
    let (appended, stopped, s) ← appendLoop r s tokens
    if s.config.asyncScheduling then do
      let s ← s.settlePlaceholders r statusBeforeUpdate appended.length
      return (appended, stopped, s)
    else return (appended, stopped, s)

/-- The computed tokens go back by the number of rejected draft tokens. An empty list of
scheduled draft tokens counts as none. -/
def rollback (s : Scheduler) (out : SchedulerOutput) (r : Ref) (requestId : String)
    (generated : List Int) : Scheduler :=
  match out.scheduledSpecDecodeTokens.get? requestId with
  | none => s
  | some l =>
    if s.lists l = [] then s
    else
      let numAccepted : Int := generated.length - 1
      let numRejected : Int := (s.lists l).length - numAccepted
      s.setComputed r ((s.objs r).numComputedTokens - numRejected)

/-- The check of a pooler output replaces the earlier result. -/
def poolerStop (s : Scheduler) (runner : ModelRunnerOutput) (r : Ref) (index : Nat)
    (stopped : Bool) : Except PyError (Bool × Bool × Scheduler) :=
  if runner.poolerOutput = [] then .ok (false, stopped, s)
  else do
    let poolerOutput ← pyIndex runner.poolerOutput index
    let (stopped, s) ← s.applyStop r poolerOutput
    return (poolerOutput, stopped, s)

/-- `sampled_token_ids[req_index] if sampled_token_ids else []`. -/
def generatedTokenIds (runner : ModelRunnerOutput) (index : Nat) : Except PyError (List Int) :=
  if runner.sampledTokenIds = [] then .ok [] else pyIndex runner.sampledTokenIds index

end Scheduler

/-- The local variables of `update_from_output`. -/
structure UpdateState where
  sched : Scheduler
  stoppedRunningReqs : List Ref
  stoppedPreemptedReqs : List Ref
  outputs : List EngineCoreOutput

namespace UpdateState

def start (s : Scheduler) : UpdateState where
  sched := s
  stoppedRunningReqs := []
  stoppedPreemptedReqs := []
  outputs := []

/-- A stopped request is freed and noted under the status it had before. -/
def freeStopped (st : UpdateState) (answers : FinishAnswers) (r : Ref)
    (statusBeforeStop : RequestStatus) (stopped : Bool) : Except PyError (Bool × UpdateState) :=
  if stopped then do
    let (params, s) ← st.sched.freeRequest answers r
    let st := { st with sched := s }
    if statusBeforeStop = .running then
      return (params, { st with stoppedRunningReqs := st.stoppedRunningReqs.insert r })
    else return (params, { st with stoppedPreemptedReqs := st.stoppedPreemptedReqs.insert r })
  else .ok (false, st)

/-- A client hears of a request that has something to tell. -/
def addOutput (st : UpdateState) (r : Ref) (requestId : String) (newTokenIds : List Int)
    (poolerOutput params : Bool) : UpdateState :=
  if newTokenIds ≠ [] ∨ poolerOutput = true ∨ params = true then
    { st with outputs := st.outputs ++
        [⟨requestId, newTokenIds, (st.sched.objs r).status.getFinishedReason⟩] }
  else st

/-- What an output does to a request that is still known. -/
def updateRequest (out : SchedulerOutput) (runner : ModelRunnerOutput) (answers : FinishAnswers)
    (st : UpdateState) (requestId : String) (r : Ref) : Except PyError UpdateState := do
  let index ← runner.reqIdToIndex.getItem requestId
  let generated ← Scheduler.generatedTokenIds runner index
  let s := st.sched.rollback out r requestId generated
  let statusBeforeStop := (s.objs r).status
  let (newTokenIds, stopped, s) ← s.updateRequestWithOutput r generated
  let (poolerOutput, stopped, s) ← s.poolerStop runner r index stopped
  let (params, st) ← { st with sched := s }.freeStopped answers r statusBeforeStop stopped
  return st.addOutput r requestId newTokenIds poolerOutput params

/-- One turn of the loop over the scheduled requests. A request that is gone was finished
while the model was running. -/
def updateEntry (out : SchedulerOutput) (runner : ModelRunnerOutput) (answers : FinishAnswers)
    (st : UpdateState) (scheduled : String × Int) : Except PyError UpdateState := do
  pyAssert (scheduled.2 > 0)
  match st.sched.requests.get? scheduled.1 with
  | none => return st
  | some r => st.updateRequest out runner answers scheduled.1 r

/-- The stopped requests leave the queues. -/
def removeStopped (st : UpdateState) : Except PyError Scheduler := do
  let waiting ← if st.stoppedPreemptedReqs = [] then .ok st.sched.waiting
    else st.sched.waiting.removeRequests st.stoppedPreemptedReqs
  return { st.sched with
    running := Scheduler.removeAll st.sched.running st.stoppedRunningReqs
    waiting := waiting }

end UpdateState

namespace Scheduler

/-- The blocks of a request whose transfer to another instance is over are freed. -/
def finishSending (s : Scheduler) (requestId : String) : Except PyError Scheduler := do
  let r ← s.requests.getItem requestId
  s.freeBlocks r

def updateFromKvXferFinished (s : Scheduler) (kv : KVConnectorOutput) : Except PyError Scheduler :=
  kv.finishedSending.foldlM finishSending
    { s with finishedRecvingKvReqIds :=
        kv.finishedRecving.foldl (fun ids id => ids.insert id) s.finishedRecvingKvReqIds }

/-- The part of the connector in the output of the model runner. -/
def updateTransfers (s : Scheduler) (runner : ModelRunnerOutput) : Except PyError Scheduler :=
  match runner.kvConnectorOutput with
  | none => .ok s
  | some kv => s.updateFromKvXferFinished kv

def updateFromOutput (s : Scheduler) (out : SchedulerOutput) (runner : ModelRunnerOutput)
    (answers : FinishAnswers) : Except PyError (List EngineCoreOutput × Scheduler) := do
  let st ← out.numScheduledTokens.entries.foldlM (UpdateState.updateEntry out runner answers)
    (UpdateState.start s)
  let s ← st.removeStopped
  let s ← s.updateTransfers runner
  return (st.outputs, s)

end Scheduler

end VllmV1
