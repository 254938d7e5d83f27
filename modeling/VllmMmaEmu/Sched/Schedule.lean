import VllmMmaEmu.Sched.Scheduler

/-!
# schedule

`Scheduler.schedule`: the running requests get their tokens first and may preempt each
other; if nobody was preempted, waiting requests follow. The loops are over a record of the
function's local variables.
-/

namespace VllmV1

open Python

/-- `NewRequestData`; what it copies from the request without change is left out. -/
structure NewRequestData where
  reqId : String
  blockIds : List (List BlockId)
  numComputedTokens : Int
  deriving DecidableEq, Repr

/-- `CachedRequestData`, one record for each request. -/
structure CachedRequestData where
  reqId : String
  resumedFromPreemption : Bool
  newTokenIds : Option (List Int)
  newBlockIds : Option (List (List BlockId))
  numComputedTokens : Int
  deriving DecidableEq, Repr

structure SchedulerOutput where
  scheduledNewReqs : List NewRequestData
  scheduledCachedReqs : List CachedRequestData
  numScheduledTokens : Dict String Int
  totalNumScheduledTokens : Int
  scheduledSpecDecodeTokens : Dict String ListRef
  scheduledEncoderInputs : Dict String (List Nat)
  finishedReqIds : List String
  freeEncoderMmHashes : List String
  structuredOutputRequestIds : Dict String Nat

/-- What the connector and the grammar backend answer during one call. The connector
counts the tokens it can load beyond the given ones, and tells whether it loads them
asynchronously; it may not know yet. -/
structure ScheduleAnswers where
  getNumNewMatchedTokens : Ref → Int → Option (Int × Bool) := fun _ _ => some (0, false)
  grammarReady : Ref → Bool := fun _ => true

/-- The local variables of `schedule`. -/
structure ScheduleState where
  sched : Scheduler
  scheduledNewReqs : List Ref
  scheduledResumedReqs : List Ref
  scheduledRunningReqs : List Ref
  preemptedReqs : List Ref
  reqToNewBlocks : Dict String (List (List BlockId))
  numScheduledTokens : Dict String Int
  tokenBudget : Int
  scheduledEncoderInputs : Dict String (List Nat)
  encoderComputeBudget : Int
  scheduledSpecDecodeTokens : Dict String ListRef
  reqIndex : Nat
  scheduledLoras : List Int
  skippedWaitingRequests : RequestQueue

namespace ScheduleState

def start (s : Scheduler) : ScheduleState where
  sched := s
  scheduledNewReqs := []
  scheduledResumedReqs := []
  scheduledRunningReqs := []
  preemptedReqs := []
  reqToNewBlocks := Dict.empty
  numScheduledTokens := Dict.empty
  tokenBudget := s.config.maxNumScheduledTokens
  scheduledEncoderInputs := Dict.empty
  encoderComputeBudget := s.config.encoderComputeBudget
  scheduledSpecDecodeTokens := Dict.empty
  reqIndex := 0
  scheduledLoras := []
  skippedWaitingRequests := RequestQueue.create s.config.policy

def config (st : ScheduleState) : SchedulerConfig := st.sched.config

/-- The cap of `long_prefill_token_threshold`. -/
def capLongPrefill (st : ScheduleState) (n : Int) : Int :=
  if 0 < st.config.longPrefillTokenThreshold ∧ st.config.longPrefillTokenThreshold < n then
    st.config.longPrefillTokenThreshold
  else n

def setKv (st : ScheduleState) (kv : KVCacheManager) : ScheduleState :=
  { st with sched := { st.sched with kvCacheManager := kv } }

def setEncoder (st : ScheduleState) (m : EncoderCacheManager) : ScheduleState :=
  { st with sched := { st.sched with encoderCacheManager := m } }

def setWaiting (st : ScheduleState) (waiting : RequestQueue) : ScheduleState :=
  { st with sched := { st.sched with waiting := waiting } }

/-- The encoder inputs of a request for a step from `numComputedTokens` on. -/
def encoderInputs (st : ScheduleState) (r : Ref) (numComputedTokens numNewTokens : Int) :
    Except PyError EncoderInputs :=
  tryScheduleEncoderInputs st.config.encoder st.sched.encoderCacheManager (st.sched.req r)
    numComputedTokens numNewTokens st.encoderComputeBudget

/-- `encoder_cache_manager.allocate` for the scheduled inputs. -/
def allocateInputs (request : Request) :
    EncoderCacheManager → List Nat → Except PyError EncoderCacheManager
  | m, [] => .ok m
  | m, i :: rest => do
    let feature ← pyIndex request.mmFeatures i
    let m ← m.allocate request.requestId feature
    allocateInputs request m rest

/-- The encoder inputs of a scheduled request are recorded and get their room. -/
def recordEncoderInputs (st : ScheduleState) (r : Ref) (inputs : List Nat)
    (newEncoderComputeBudget : Int) : Except PyError ScheduleState :=
  if inputs = [] then .ok st
  else do
    let m ← allocateInputs (st.sched.req r) st.sched.encoderCacheManager inputs
    return { st.setEncoder m with
      scheduledEncoderInputs :=
        st.scheduledEncoderInputs.set (st.sched.objs r).requestId inputs
      encoderComputeBudget := newEncoderComputeBudget }

/-- The tokens a running request asks for. -/
def runningTokens (st : ScheduleState) (r : Ref) : Int :=
  let request := st.sched.req r
  let n := (request.numTokensWithSpec : Int) + request.numOutputPlaceholders
    - request.numComputedTokens
  min (min (st.capLongPrefill n) st.tokenBudget)
    (st.sched.maxModelLen - 1 - request.numComputedTokens)

/-- `max(self.running, key=...)`: the first request with the largest key. -/
def maxRunning (s : Scheduler) : List Ref → Option Ref
  | [] => none
  | r :: rest => some (rest.foldl (fun best r' =>
      if (s.objs best).priority < (s.objs r').priority ∨
        (s.objs best).priority = (s.objs r').priority ∧
          (s.objs best).arrivalTime < (s.objs r').arrivalTime then r' else best) r)

/-- The request that is preempted next, and the variables without it. -/
def chooseVictim (st : ScheduleState) : Except PyError (Ref × ScheduleState) :=
  match st.config.policy with
  | .priority => match maxRunning st.sched st.sched.running with
    | none => .error (.valueError "max() arg is an empty sequence")
    | some v => .ok (v, { st with
        sched := { st.sched with running := st.sched.running.erase v }
        scheduledRunningReqs := st.scheduledRunningReqs.erase v })
  | .fcfs => match st.sched.running.getLast? with
    | none => .error .indexError
    | some v => .ok (v, { st with
        sched := { st.sched with running := st.sched.running.dropLast } })

/-- A victim loses its blocks and goes back to the waiting queue. -/
def preempt (st : ScheduleState) (v : Ref) : Except PyError ScheduleState := do
  let s := { st.sched with
    kvCacheManager := st.sched.kvCacheManager.free (st.sched.objs v).requestId
    encoderCacheManager := st.sched.encoderCacheManager.free (st.sched.req v) }
  let s := (s.setStatus v .preempted).setComputed v 0
  let waiting ← s.waiting.prependRequest (s.item v)
  return { st with
    sched := { s with waiting := waiting }
    preemptedReqs := st.preemptedReqs ++ [v] }

/-- The arguments of `allocate_slots` for a running request. -/
def runningArgs (st : ScheduleState) (numNewTokens : Int) : KVCacheManager.AllocArgs :=
  { numNewTokens := numNewTokens
    numLookaheadTokens := st.config.numLookaheadTokens }

/-- The inner loop: preempt until the request gets its blocks or is preempted itself. -/
def allocateOrPreempt (r : Ref) (numNewTokens : Int) :
    (fuel : Nat) → ScheduleState → Except PyError (Option (List (List BlockId)) × ScheduleState)
  | 0, _ => .error .outOfFuel
  | fuel + 1, st => do
    let (newBlocks, kv) ← st.sched.kvCacheManager.allocateSlots (st.sched.req r)
      (st.runningArgs numNewTokens)
    match newBlocks with
    | some newBlocks => return (some newBlocks, st.setKv kv)
    | none => do
      let (v, st) ← (st.setKv kv).chooseVictim
      let st ← st.preempt v
      if v = r then return (none, st) else allocateOrPreempt r numNewTokens fuel st

/-- The draft tokens of a scheduled request: the list is cut in place to the tokens that
are scheduled, and the output refers to the same list. -/
def recordSpecTokens (st : ScheduleState) (r : Ref) (numNewTokens : Int) : ScheduleState :=
  let request := st.sched.req r
  let numScheduledSpecTokens :=
    numNewTokens + request.numComputedTokens - (request.numTokens : Int)
  if request.specTokenIds ≠ [] ∧ numScheduledSpecTokens > 0 then
    { st with
      sched := st.sched.setList (st.sched.specRef r)
        (request.specTokenIds.take numScheduledSpecTokens.toNat)
      scheduledSpecDecodeTokens :=
        st.scheduledSpecDecodeTokens.set request.requestId (st.sched.specRef r) }
  else st

/-- A running request that got its blocks is recorded. -/
def recordRunning (st : ScheduleState) (r : Ref) (newBlocks : List (List BlockId))
    (numNewTokens : Int) : ScheduleState :=
  let requestId := (st.sched.objs r).requestId
  let st := { st with
    scheduledRunningReqs := st.scheduledRunningReqs ++ [r]
    reqToNewBlocks := st.reqToNewBlocks.set requestId newBlocks
    numScheduledTokens := st.numScheduledTokens.set requestId numNewTokens
    tokenBudget := st.tokenBudget - numNewTokens
    reqIndex := st.reqIndex + 1 }
  st.recordSpecTokens r numNewTokens

/-- One turn of the loop over the running requests; the flag tells whether it goes on. -/
def runningStep (st : ScheduleState) (r : Ref) : Except PyError (Bool × ScheduleState) := do
  let e ← st.encoderInputs r (st.sched.objs r).numComputedTokens (st.runningTokens r)
  let st := st.setEncoder e.manager
  if e.numNewTokens = 0 then return (true, { st with reqIndex := st.reqIndex + 1 })
  else do
    let (newBlocks, st) ←
      st.allocateOrPreempt r e.numNewTokens (st.sched.running.length + 1)
    match newBlocks with
    | none => return (false, st)
    | some newBlocks => do
      let st ← (st.recordRunning r newBlocks e.numNewTokens).recordEncoderInputs r
        e.encoderInputsToSchedule e.encoderComputeBudget
      return (true, st)

/-- The loop over the running requests; each turn moves the index or removes requests. -/
def runningLoop : (fuel : Nat) → ScheduleState → Except PyError ScheduleState
  | 0, st => .ok st
  | fuel + 1, st =>
    match st.sched.running[st.reqIndex]? with
    | none => .ok st
    | some r =>
      if st.tokenBudget > 0 then do
        let (goOn, st) ← st.runningStep r
        if goOn then runningLoop fuel st else return st
      else .ok st

/-- The LoRA adapters of the scheduled running requests. -/
def recordLoras (st : ScheduleState) : Except PyError ScheduleState :=
  match st.config.maxLoras with
  | none => .ok st
  | some maxLoras => do
    let loras := (st.scheduledRunningReqs.filterMap fun r => (st.sched.objs r).loraRequest).filter
      (· > 0)
    pyAssert (loras.dedup.length ≤ maxLoras)
    return { st with scheduledLoras := loras.dedup }

end ScheduleState

namespace Scheduler

/-- The tokens that a finished transfer brought: whole blocks, and one token less than the
request has, so that something is left to compute. -/
def receivedTokens (s : Scheduler) (r : Ref) (blockIds : List BlockId) : Int :=
  let numTokens : Int := (s.objs r).numTokens
  let n := min (blockIds.length * s.config.blockSize : Int) numTokens
  if n = numTokens then n - 1 else n

def updateWaitingForRemoteKv (s : Scheduler) (r : Ref) : Except PyError (Bool × Scheduler) :=
  let requestId := (s.objs r).requestId
  if s.config.hasConnector then
    if requestId ∈ s.finishedRecvingKvReqIds then do
      let blockIds ← s.onlyBlockIds requestId
      let n := s.receivedTokens r blockIds
      let kv ← s.kvCacheManager.cacheBlocks (s.req r) n
      let s := { s with kvCacheManager := kv }.setComputed r n
      return (true, { s with
        finishedRecvingKvReqIds := s.finishedRecvingKvReqIds.erase requestId })
    else .ok (false, s)
  else .error .assertionError

/-- The check for a request that waits for remote KVs. -/
def checkRemoteKvs (s : Scheduler) (r : Ref) : Except PyError (Bool × Scheduler) :=
  if (s.objs r).status = .waitingForRemoteKvs then do
    let (isReady, s) ← s.updateWaitingForRemoteKv r
    return (isReady, if isReady then s.setStatus r .waiting else s)
  else .ok (true, s)

/-- The check for a request whose grammar is being compiled. -/
def checkGrammar (answers : ScheduleAnswers) (s : Scheduler) (r : Ref) : Bool × Scheduler :=
  if (s.objs r).status = .waitingForFsm then
    if answers.grammarReady r then (true, s.setStatus r .waiting) else (false, s)
  else (true, s)

end Scheduler

/-- The tokens of a waiting request that need no computation. -/
structure ComputedTokens where
  newComputedBlocks : List (List BlockId)
  numNewLocalComputedTokens : Int
  numExternalComputedTokens : Int
  loadKvAsync : Bool
  numComputedTokens : Int

namespace ScheduleState

/-- Whether the request's adapter would be one too many. -/
def exceedsLoras (st : ScheduleState) (r : Ref) : Bool :=
  match st.config.maxLoras, (st.sched.objs r).loraRequest with
  | some maxLoras, some lora =>
    decide (st.scheduledLoras.length = maxLoras) && decide (lora ∉ st.scheduledLoras)
  | _, _ => false

/-- The first waiting request is set aside until the end of the call. -/
def skipFirst (st : ScheduleState) : Except PyError ScheduleState := do
  let (item, waiting) ← st.sched.waiting.popRequest
  let skipped ← st.skippedWaitingRequests.prependRequest item
  return { st.setWaiting waiting with skippedWaitingRequests := skipped }

/-- The tokens cached locally and at the connector; nothing when the connector does not
know yet. -/
def externalTokens (answers : ScheduleAnswers) (st : ScheduleState) (r : Ref)
    (hits : List (List BlockId)) (numLocal : Int) : Option ComputedTokens :=
  if st.config.hasConnector then
    match answers.getNumNewMatchedTokens r numLocal with
    | none => none
    | some (numExternal, loadKvAsync) => some
        ⟨hits, numLocal, numExternal, loadKvAsync, numLocal + numExternal⟩
  else some ⟨hits, numLocal, 0, false, numLocal⟩

/-- The computed tokens of the first waiting request. -/
def findComputed (answers : ScheduleAnswers) (st : ScheduleState) (r : Ref) :
    Except PyError (Option ComputedTokens) :=
  if (st.sched.objs r).numComputedTokens = 0 then do
    let (hits, numLocal) ← st.sched.kvCacheManager.getComputedBlocks (st.sched.req r)
    return st.externalTokens answers r hits numLocal
  else .ok (some ⟨st.sched.kvCacheManager.createEmptyBlockList, 0, 0, false,
    (st.sched.objs r).numComputedTokens⟩)

/-- The arguments of `allocate_slots` for a waiting request. -/
def waitingArgs (st : ScheduleState) (r : Ref) (c : ComputedTokens) (numNewTokens : Int) :
    KVCacheManager.AllocArgs where
  numNewTokens := numNewTokens + c.numExternalComputedTokens
  numNewComputedTokens := c.numNewLocalComputedTokens
  newComputedBlocks := some c.newComputedBlocks
  numLookaheadTokens :=
    if (st.sched.objs r).numComputedTokens = 0 then 0 else st.config.numLookaheadTokens
  delayCacheBlocks := c.loadKvAsync
  numEncoderTokens :=
    if st.config.encoder.isEncoderDecoder ∧ (st.sched.objs r).mmFeatures ≠ [] then
      st.config.maxNumEncoderInputTokens
    else 0

/-- A waiting request is new or resumed; no other status is left. -/
def classify (st : ScheduleState) (r : Ref) : Except PyError ScheduleState :=
  match (st.sched.objs r).status with
  | .waiting => .ok { st with scheduledNewReqs := st.scheduledNewReqs ++ [r] }
  | .preempted => .ok { st with scheduledResumedReqs := st.scheduledResumedReqs ++ [r] }
  | _ => .error (.runtimeError "Invalid request status")

/-- The adapter of a scheduled request. -/
def addLora (st : ScheduleState) (r : Ref) : ScheduleState :=
  match st.config.maxLoras, (st.sched.objs r).loraRequest with
  | some _, some lora => { st with scheduledLoras := st.scheduledLoras.insert lora }
  | _, _ => st

/-- A waiting request that was taken out of the queue runs from now on. -/
def startRunning (st : ScheduleState) (r : Ref) (c : ComputedTokens) (numNewTokens : Int) :
    ScheduleState :=
  let requestId := (st.sched.objs r).requestId
  { st with
    sched := st.sched.modify r fun request => { request with
      status := .running
      numComputedTokens := c.numComputedTokens
      numCachedTokens := if request.numCachedTokens < 0 then c.numComputedTokens
        else request.numCachedTokens }
    reqToNewBlocks := st.reqToNewBlocks.set requestId
      (st.sched.kvCacheManager.singleTypeManagers.map fun m => m.blocksOf requestId)
    numScheduledTokens := st.numScheduledTokens.set requestId numNewTokens
    tokenBudget := st.tokenBudget - numNewTokens }

/-- The waiting request joins the running ones and is recorded. -/
def recordWaiting (st : ScheduleState) (r : Ref) (c : ComputedTokens) (numNewTokens : Int) :
    Except PyError ScheduleState := do
  let st := { st with
    sched := { st.sched with running := st.sched.running ++ [r] }
    reqIndex := st.reqIndex + 1 }
  let st ← st.classify r
  return (st.addLora r).startRunning r c numNewTokens

/-- The request waits for an asynchronous load, with its blocks allocated. -/
def waitForLoad (st : ScheduleState) (item : HeapItem) : Except PyError ScheduleState := do
  let skipped ← st.skippedWaitingRequests.prependRequest item
  return { st with
    sched := st.sched.setStatus item.request .waitingForRemoteKvs
    skippedWaitingRequests := skipped }

/-- The request is taken out of the queue after its blocks have been allocated. -/
def takeWaiting (st : ScheduleState) (c : ComputedTokens) (numNewTokens : Int)
    (inputs : List Nat) (newEncoderComputeBudget : Int) : Except PyError ScheduleState := do
  let (item, waiting) ← st.sched.waiting.popRequest
  let st := st.setWaiting waiting
  if c.loadKvAsync then st.waitForLoad item
  else do
    let st ← st.recordWaiting item.request c numNewTokens
    st.recordEncoderInputs item.request inputs newEncoderComputeBudget

/-- Blocks for the first waiting request; without them the loop ends. -/
def allocateWaiting (st : ScheduleState) (r : Ref) (c : ComputedTokens) (numNewTokens : Int)
    (inputs : List Nat) (newEncoderComputeBudget : Int) :
    Except PyError (Bool × ScheduleState) := do
  let (newBlocks, kv) ← st.sched.kvCacheManager.allocateSlots (st.sched.req r)
    (st.waitingArgs r c numNewTokens)
  match newBlocks with
  | none => return (false, st.setKv kv)
  | some _ => do
    let st ← (st.setKv kv).takeWaiting c numNewTokens inputs newEncoderComputeBudget
    return (true, st)

/-- The new tokens of the first waiting request, with its encoder inputs. -/
def scheduleWaiting (st : ScheduleState) (r : Ref) (c : ComputedTokens) :
    Except PyError (Bool × ScheduleState) :=
  if c.loadKvAsync then do
    pyAssert (c.numExternalComputedTokens > 0)
    st.allocateWaiting r c 0 [] st.encoderComputeBudget
  else
    let n := st.capLongPrefill ((st.sched.objs r).numTokens - c.numComputedTokens)
    if st.config.chunkedPrefillEnabled = false ∧ n > st.tokenBudget then do
      let st ← st.skipFirst
      return (true, st)
    else do
      let n := min n st.tokenBudget
      pyAssert (n > 0)
      let e ← st.encoderInputs r c.numComputedTokens n
      let st := st.setEncoder e.manager
      if e.numNewTokens = 0 then return (false, st)
      else st.allocateWaiting r c e.numNewTokens e.encoderInputsToSchedule e.encoderComputeBudget

/-- The first waiting request is scheduled or set aside, after the status checks. -/
def considerWaiting (answers : ScheduleAnswers) (st : ScheduleState) (r : Ref) (ready : Bool) :
    Except PyError (Bool × ScheduleState) :=
  if ready = false ∨ st.exceedsLoras r = true then do
    let st ← st.skipFirst
    return (true, st)
  else do
    let computed ← st.findComputed answers r
    match computed with
    | none => do
      let st ← st.skipFirst
      return (true, st)
    | some c => st.scheduleWaiting r c

/-- One turn of the loop over the waiting requests. -/
def waitingStep (answers : ScheduleAnswers) (st : ScheduleState) :
    Except PyError (Bool × ScheduleState) := do
  let item ← st.sched.waiting.peekRequest
  let (ready, s) ← st.sched.checkRemoteKvs item.request
  if ready then
    let (ready, s) := s.checkGrammar answers item.request
    let st := { st with sched := s }
    st.considerWaiting answers item.request ready
  else
    let st := { st with sched := s }
    st.considerWaiting answers item.request false

/-- The loop over the waiting requests; each turn takes one out of the queue. -/
def waitingLoop (answers : ScheduleAnswers) :
    (fuel : Nat) → ScheduleState → Except PyError ScheduleState
  | 0, st => .ok st
  | fuel + 1, st =>
    if st.sched.waiting.isEmpty = true ∨ st.tokenBudget ≤ 0 ∨
        st.sched.running.length = st.config.maxNumRunningReqs then .ok st
    else do
      let (goOn, st) ← st.waitingStep answers
      if goOn then waitingLoop answers fuel st else return st

/-- The waiting requests are considered only when nobody was preempted. -/
def scheduleWaitingReqs (answers : ScheduleAnswers) (st : ScheduleState) :
    Except PyError ScheduleState :=
  if st.preemptedReqs = [] then st.waitingLoop answers st.sched.waiting.items.length else .ok st

/-- The skipped requests go back to the head of the queue. -/
def restoreSkipped (st : ScheduleState) : Except PyError ScheduleState :=
  if st.skippedWaitingRequests.isEmpty then .ok st
  else do
    let waiting ← st.sched.waiting.prependRequests st.skippedWaitingRequests
    return st.setWaiting waiting

/-- The scheduling constraints. -/
def checkConstraints (st : ScheduleState) : Except PyError Unit := do
  pyAssert (st.numScheduledTokens.values.sum ≤ st.config.maxNumScheduledTokens)
  pyAssert (st.tokenBudget ≥ 0)
  pyAssert (st.sched.running.length ≤ st.config.maxNumRunningReqs)
  pyAssert (st.scheduledNewReqs.length + st.scheduledResumedReqs.length +
    st.scheduledRunningReqs.length ≤ st.sched.running.length)

/-- `NewRequestData.from_request`. -/
def newRequestData (st : ScheduleState) (r : Ref) : Except PyError NewRequestData := do
  let blockIds ← st.reqToNewBlocks.getItem (st.sched.objs r).requestId
  return {
    reqId := (st.sched.objs r).requestId
    blockIds := blockIds
    numComputedTokens := (st.sched.objs r).numComputedTokens }

/-- The tokens that are sent along with a cached request: with pipeline parallelism the
sampled ones, with a connector a placeholder. -/
def newTokenIds (st : ScheduleState) (request : Request) (numTokens : Int) : Option (List Int) :=
  if st.config.usePp then
    some (pySlice request.allTokenIds request.numComputedTokens
      (request.numComputedTokens + numTokens))
  else if st.config.hasConnector then some []
  else none

/-- One turn of `_make_cached_request_data`. -/
def cachedRequestData (st : ScheduleState) (resumed : Bool) (r : Ref) :
    Except PyError CachedRequestData := do
  let request := st.sched.objs r
  let numScheduled ← st.numScheduledTokens.getItem request.requestId
  let blocks ← st.reqToNewBlocks.getItem request.requestId
  let numSpec := match st.scheduledSpecDecodeTokens.get? request.requestId with
    | none => 0
    | some l => (st.sched.lists l).length
  return {
    reqId := request.requestId
    resumedFromPreemption := resumed
    newTokenIds := st.newTokenIds request (numScheduled - numSpec)
    newBlockIds := if ∀ b ∈ blocks, b = [] then none else some blocks
    numComputedTokens := request.numComputedTokens }

/-- The scheduled requests with structured output and their places in the batch. -/
def structuredOutputRequestIds (st : ScheduleState) : Dict String Nat :=
  let scheduled := st.scheduledNewReqs ++ st.scheduledRunningReqs ++ st.scheduledResumedReqs
  Dict.ofPairs ((scheduled.zipIdx.filter fun p => (st.sched.objs p.1).useStructuredOutput).map
    fun p => ((st.sched.objs p.1).requestId, p.2))

/-- The output of the call; the freed encoder hashes are handed out once. -/
def makeOutput (st : ScheduleState) : Except PyError (SchedulerOutput × Scheduler) := do
  let newReqs ← st.scheduledNewReqs.mapM st.newRequestData
  let runningReqs ← st.scheduledRunningReqs.mapM (st.cachedRequestData false)
  let resumedReqs ← st.scheduledResumedReqs.mapM (st.cachedRequestData true)
  let (freed, encoder) := st.sched.encoderCacheManager.getFreedMmHashes
  return ({
    scheduledNewReqs := newReqs
    scheduledCachedReqs := runningReqs ++ resumedReqs
    numScheduledTokens := st.numScheduledTokens
    totalNumScheduledTokens := st.numScheduledTokens.values.sum
    scheduledSpecDecodeTokens := st.scheduledSpecDecodeTokens
    scheduledEncoderInputs := st.scheduledEncoderInputs
    finishedReqIds := st.sched.finishedReqIds
    freeEncoderMmHashes := freed
    structuredOutputRequestIds := st.structuredOutputRequestIds },
    { st.sched with encoderCacheManager := encoder })

end ScheduleState

namespace Scheduler

/-- The computed tokens of a scheduled request advance. -/
def advance (s : Scheduler) (scheduled : String × Int) : Except PyError Scheduler := do
  let r ← s.requests.getItem scheduled.1
  let s := s.setComputed r ((s.objs r).numComputedTokens + scheduled.2)
  return { s with
    encoderCacheManager := freeEncoderInputs s.config.encoder s.encoderCacheManager (s.objs r) }

/-- The turn of the asynchronous scheduler: a request that has caught up will get a new
token in this step. -/
def addPlaceholder (s : Scheduler) (requestId : String) : Except PyError Scheduler := do
  let r ← s.requests.getItem requestId
  let request := s.objs r
  if request.numComputedTokens = request.numTokens + request.numOutputPlaceholders then
    return s.modify r fun request =>
      { request with numOutputPlaceholders := request.numOutputPlaceholders + 1 }
  else return s

/-- The placeholders are counted by `AsyncScheduler` only. -/
def addPlaceholders (s : Scheduler) (requestIds : List String) : Except PyError Scheduler :=
  if s.config.asyncScheduling then requestIds.foldlM addPlaceholder s else .ok s

def updateAfterSchedule (s : Scheduler) (out : SchedulerOutput) : Except PyError Scheduler := do
  let s ← out.numScheduledTokens.entries.foldlM advance s
  let s := { s with finishedReqIds := [] }
  s.addPlaceholders out.numScheduledTokens.keys

def schedule (s : Scheduler) (answers : ScheduleAnswers) :
    Except PyError (SchedulerOutput × Scheduler) := do
  let st ← (ScheduleState.start s).runningLoop s.running.length
  let st ← st.recordLoras
  let st ← st.scheduleWaitingReqs answers
  let st ← st.restoreSkipped
  st.checkConstraints
  let (out, s) ← st.makeOutput
  let s ← s.updateAfterSchedule out
  return (out, s)

end Scheduler

end VllmV1
