import VllmMmaEmu.KvCache.Manager
import VllmMmaEmu.Sched.EncoderCacheManager
import VllmMmaEmu.Sched.RequestQueue

/-!
# The state of the scheduler

`vllm/v1/core/sched/scheduler.py` with `async_scheduler.py` and `utils.py`. Requests and
lists of draft tokens are objects that several places share, so they live in two stores and
are handed around by reference. The KV connector and the grammar backend are not modelled:
what they answer is an argument.
-/

namespace VllmV1

open Python

/-- The identity of a list of draft tokens. -/
abbrev ListRef := Nat

/-- `request_finished` of the connector for a request: whether its blocks are freed later,
and whether there are transfer parameters for the client. -/
abbrev FinishAnswers := Ref → Bool × Bool

/-- What the grammar keeps of the draft tokens of a request, if its grammar advances. -/
abbrev GrammarAnswers := Ref → List Int → Option (List Int)

/-- What the scheduler reads of the engine's configuration. `kv.maxModelLen` is
`max_model_len`; `blockSize` is scaled by the DCP world size. -/
structure SchedulerConfig where
  kv : KVCacheConfig
  blockSize : Nat
  policy : SchedulingPolicy := .fcfs
  maxNumRunningReqs : Nat
  maxNumScheduledTokens : Int
  longPrefillTokenThreshold : Int := 0
  chunkedPrefillEnabled : Bool := true
  encoder : EncoderConfig := {}
  maxNumEncoderInputTokens : Int := 0
  encoderComputeBudget : Int := 0
  encoderCacheSize : Int := 0
  maxLoras : Option Nat := none
  numLookaheadTokens : Nat := 0
  hasConnector : Bool := false
  usePp : Bool := false
  asyncScheduling : Bool := false
  blockHasher : Option Request.BlockHasher := none

instance : Inhabited Request where
  default :=
    { requestId := ""
      priority := 0
      samplingParams := none
      poolingParams := false
      eosTokenId := none
      loraRequest := none
      arrivalTime := 0
      status := .waiting
      useStructuredOutput := false
      maxTokens := 0
      numPromptTokens := 0
      outputTokenIds := []
      allTokenIds := []
      numOutputPlaceholders := 0
      specTokenIds := []
      numComputedTokens := 0
      cacheSalt := none
      mmFeatures := []
      numCachedTokens := -1
      blockHashes := [] }

/-- `Scheduler`. The draft tokens of `r` are the list `lists (specRef r)`; the field
`specTokenIds` of `objs r` is not used. -/
structure Scheduler where
  config : SchedulerConfig
  kvCacheManager : KVCacheManager
  encoderCacheManager : EncoderCacheManager
  objs : Ref → Request
  nextRef : Ref
  lists : ListRef → List Int
  nextList : ListRef
  specRef : Ref → ListRef
  requests : Dict String Ref
  waiting : RequestQueue
  running : List Ref
  finishedReqIds : List String
  finishedRecvingKvReqIds : List String

namespace Scheduler

def init (config : SchedulerConfig) : Except PyError Scheduler := do
  if config.hasConnector then
    pyAssert (config.kv.kvCacheGroups.length = 1)
    pyAssert (config.encoder.isEncoderDecoder = false)
  pyAssert (0 < config.kv.numBlocks)
  let kvCacheManager ← KVCacheManager.init config.kv
  return {
    config := config
    kvCacheManager := kvCacheManager
    encoderCacheManager := EncoderCacheManager.init config.encoderCacheSize
    objs := fun _ => default
    nextRef := 0
    lists := fun _ => []
    nextList := 0
    specRef := fun _ => 0
    requests := Dict.empty
    waiting := RequestQueue.create config.policy
    running := []
    finishedReqIds := []
    finishedRecvingKvReqIds := [] }

/-- The request object with the draft tokens it refers to. -/
def req (s : Scheduler) (r : Ref) : Request :=
  { s.objs r with specTokenIds := s.lists (s.specRef r) }

def maxModelLen (s : Scheduler) : Int := s.config.kv.maxModelLen

/-- Assignments to attributes of a request. -/
def modify (s : Scheduler) (r : Ref) (f : Request → Request) : Scheduler :=
  { s with objs := fun r' => if r' = r then f (s.objs r') else s.objs r' }

def setStatus (s : Scheduler) (r : Ref) (status : RequestStatus) : Scheduler :=
  s.modify r fun request => { request with status := status }

def setComputed (s : Scheduler) (r : Ref) (n : Int) : Scheduler :=
  s.modify r fun request => { request with numComputedTokens := n }

/-- A list of draft tokens is changed in place. -/
def setList (s : Scheduler) (l : ListRef) (tokens : List Int) : Scheduler :=
  { s with lists := fun l' => if l' = l then tokens else s.lists l' }

/-- `request.spec_token_ids = tokens`, with a list that nobody else refers to. -/
def assignSpecTokenIds (s : Scheduler) (r : Ref) (tokens : List Int) : Scheduler :=
  { s with
    lists := fun l' => if l' = s.nextList then tokens else s.lists l'
    nextList := s.nextList + 1
    specRef := fun r' => if r' = r then s.nextList else s.specRef r' }

/-- What the queues store for a request. -/
def item (s : Scheduler) (r : Ref) : HeapItem :=
  { priority := (s.objs r).priority
    arrivalTime := (s.objs r).arrivalTime
    request := r }

/-- The engine's `add_request`: the request object is made and put into the queue. -/
def addRequest (s : Scheduler) (e : EngineCoreRequest) : Except PyError Scheduler := do
  let request ← Request.init s.config.blockHasher e
  let r := s.nextRef
  let s := { s with
    objs := fun r' => if r' = r then request else s.objs r'
    nextRef := r + 1 }.assignSpecTokenIds r []
  let waiting ← s.waiting.addRequest (s.item r)
  return { s with
    waiting := waiting
    requests := s.requests.set request.requestId r }

/-- `remove_all`: a single item is removed where it is found first. -/
def removeAll (l items : List Ref) : List Ref :=
  match items with
  | [] => l
  | [item] => l.erase item
  | _ => l.filter fun r => r ∉ items

/-- `(block_ids,) = self.kv_cache_manager.get_block_ids(request_id)`. -/
def onlyBlockIds (s : Scheduler) (requestId : String) : Except PyError (List BlockId) :=
  match s.kvCacheManager.singleTypeManagers with
  | [m] => .ok (m.blocksOf requestId)
  | _ => .error (.valueError "unpacking the block ids of one group")

def connectorFinished (s : Scheduler) (answers : FinishAnswers) (r : Ref) :
    Except PyError (Bool × Bool) :=
  if s.config.hasConnector then do
    let _ ← s.onlyBlockIds (s.objs r).requestId
    return answers r
  else .ok (false, false)

def freeBlocks (s : Scheduler) (r : Ref) : Except PyError Scheduler := do
  pyAssert ((s.objs r).isFinished = true)
  let requests ← s.requests.delItem (s.objs r).requestId
  return { s with
    kvCacheManager := s.kvCacheManager.free (s.objs r).requestId
    requests := requests }

/-- `_free_request`; the flag tells whether there are transfer parameters. -/
def freeRequest (s : Scheduler) (answers : FinishAnswers) (r : Ref) :
    Except PyError (Bool × Scheduler) := do
  pyAssert ((s.objs r).isFinished = true)
  let (delayFreeBlocks, params) ← s.connectorFinished answers r
  let s := { s with
    encoderCacheManager := s.encoderCacheManager.free (s.req r)
    finishedReqIds := s.finishedReqIds.insert (s.objs r).requestId }
  if delayFreeBlocks then return (params, s)
  else return (params, ← s.freeBlocks r)

/-- The second pass of `finish_requests` over the requests that were found. -/
def finishLoop (answers : FinishAnswers) (status : RequestStatus) :
    Scheduler → List Ref → Except PyError Scheduler
  | s, [] => .ok s
  | s, r :: rest => do
    let (_, s) ← (s.setStatus r status).freeRequest answers r
    finishLoop answers status s rest

/-- The requests of the ids; an unknown id is ignored. -/
def validRequests (s : Scheduler) (requestIds : List String) : List Ref :=
  requestIds.dedup.filterMap s.requests.get?

/-- The queues without the requests that are to be finished. -/
def removeFromQueues (s : Scheduler) (requests : List Ref) : Except PyError Scheduler := do
  let runningToRemove := requests.filter fun r => (s.objs r).status = .running
  let waitingToRemove := requests.filter fun r => (s.objs r).status ≠ .running
  let waiting ← if waitingToRemove = [] then .ok s.waiting
    else s.waiting.removeRequests waitingToRemove
  return { s with
    running := removeAll s.running runningToRemove
    waiting := waiting }

/-- `finish_requests`. The ids are a set in Python; the list gives its order. -/
def finishRequests (s : Scheduler) (answers : FinishAnswers) (requestIds : List String)
    (finishedStatus : RequestStatus) : Except PyError Scheduler := do
  pyAssert (finishedStatus.isFinished = true)
  let requests := s.validRequests requestIds
  let s ← s.removeFromQueues requests
  finishLoop answers finishedStatus s requests

/-- One request of `update_draft_token_ids`. -/
def updateDraft (answers : GrammarAnswers) (s : Scheduler) (draft : String × List Int) : Scheduler :=
  match s.requests.get? draft.1 with
  | none => s
  | some r =>
    if (s.objs r).isFinished then s
    else if draft.2 = [] then s.setList (s.specRef r) []
    else match answers r draft.2 with
      | some validated => s.assignSpecTokenIds r validated
      | none => s.assignSpecTokenIds r draft.2

def updateDraftTokenIds (s : Scheduler) (answers : GrammarAnswers)
    (drafts : List (String × List Int)) : Scheduler :=
  drafts.foldl (updateDraft answers) s

end Scheduler

end VllmV1
