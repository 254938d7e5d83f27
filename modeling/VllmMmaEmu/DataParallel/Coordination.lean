import Mathlib.Data.Fintype.Basic
import Mathlib.Logic.Function.Basic
import VllmMmaEmu.Library.Runs

/-!
# Waves of the data-parallel engines

Between two waves the engines pause together: each steps until an all-reduce finds no unfinished
request anywhere. A client that adds a request while they pause tells the coordinator, which wakes
the others. The clients, the coordinator and the engines each keep a wave number and a flag of their
own, and learn of changes by messages over FIFO channels.

The request counts for load balancing, the elastic scaling and the batch queue are left out.
-/

namespace DataParallel

/-- The engine that a wave start leaves out, as the value that travels: a client sends the bytes of
the engine's identity, the coordinator on its own the index. -/
inductive Excluded (n : Nat) where
  | none
  | identity (engine : Fin n)
  | index (engine : Fin n)
  deriving DecidableEq, Repr

/-- `exclude_eng_index != self.engine_index`. Bytes never equal an index. -/
def Excluded.neIndex {n : Nat} : Excluded n → Fin n → Bool
  | .none, _ => true
  | .identity _, _ => true
  | .index i, engineIndex => i != engineIndex

/-- What an engine finds in its input queue. -/
inductive EngineCoreRequest (n : Nat) (ρ : Type) where
  | add (request : ρ) (requestWave : Nat)
  | abort (ids : List ρ)
  | startDpWave (newWave : Nat) (excludeEngIndex : Excluded n)
  deriving DecidableEq, Repr

/-- What an engine sends to the coordinator. -/
inductive EngineCoreOutputs where
  | waveComplete (wave : Nat)
  | startWave (wave : Nat)
  deriving DecidableEq, Repr

/-- Where the busy loop of an engine stands. -/
inductive Phase where
  /-- In `_process_input_queue`. -/
  | input
  /-- The input queue was found empty and there is a step to perform. -/
  | stepping
  /-- In the all-reduce. -/
  | reducing (localUnfinishedReqs : Bool)
  /-- Between the all-reduce and the code that follows. -/
  | reduced (globalUnfinishedReqs : Bool)
  deriving DecidableEq, Repr

def Phase.isReducing : Phase → Bool
  | .reducing _ => true
  | _ => false

structure DPEngineCoreProc (n : Nat) (ρ : Type) where
  currentWave : Nat := 0
  enginesRunning : Bool := false
  stepCounter : Nat := 0
  /-- The unfinished requests of the scheduler. -/
  requests : List ρ := []
  finishedReqIds : List ρ := []
  inputQueue : List (EngineCoreRequest n ρ) := []
  phase : Phase := .input

namespace DPEngineCoreProc

variable {n : Nat} {ρ : Type}

def hasUnfinishedRequests (eng : DPEngineCoreProc n ρ) : Bool :=
  !eng.requests.isEmpty

def hasRequests (eng : DPEngineCoreProc n ρ) : Bool :=
  eng.hasUnfinishedRequests || !eng.finishedReqIds.isEmpty

def addRequest (eng : DPEngineCoreProc n ρ) (request : ρ) (requestWave : Nat) :
    DPEngineCoreProc n ρ × List EngineCoreOutputs :=
  let added := { eng with requests := eng.requests ++ [request] }
  if requestWave ≠ eng.currentWave then
    if requestWave > eng.currentWave then
      ({ added with currentWave := requestWave }, [])
    else if !eng.enginesRunning then
      -- the request came for a wave that is over
      (added, [.startWave eng.currentWave])
    else (added, [])
  else (added, [])

def abortRequests [DecidableEq ρ] (eng : DPEngineCoreProc n ρ) (ids : List ρ) :
    DPEngineCoreProc n ρ :=
  { eng with
    requests := eng.requests.filter (· ∉ ids)
    finishedReqIds := eng.finishedReqIds ++ eng.requests.filter (· ∈ ids) }

def startDpWave (eng : DPEngineCoreProc n ρ) (engineIndex : Fin n) (newWave : Nat)
    (excludeEngIndex : Excluded n) : DPEngineCoreProc n ρ :=
  if excludeEngIndex.neIndex engineIndex ∧ newWave ≥ eng.currentWave then
    { eng with currentWave := newWave, enginesRunning := true }
  else eng

def handleClientRequest [DecidableEq ρ] (eng : DPEngineCoreProc n ρ) (engineIndex : Fin n) :
    EngineCoreRequest n ρ → DPEngineCoreProc n ρ × List EngineCoreOutputs
  | .add request requestWave => eng.addRequest request requestWave
  | .abort ids => (eng.abortRequests ids, [])
  | .startDpWave newWave excludeEngIndex =>
    (eng.startDpWave engineIndex newWave excludeEngIndex, [])

/-- One step of the engine core in which the requests `finished` finish. Only requests that were
scheduled finish. -/
def processEngineStep [DecidableEq ρ] (eng : DPEngineCoreProc n ρ) (executed : Bool)
    (finished : List ρ) : Option (DPEngineCoreProc n ρ) :=
  if (executed → eng.requests ≠ []) ∧ (!executed → finished = []) then
    some { eng with
      requests := eng.requests.filter (· ∉ finished)
      -- the ids of the step before went out with the schedule
      finishedReqIds := eng.requests.filter (· ∈ finished) }
  else none

/-- What the busy loop does after a step, up to the all-reduce. -/
def afterStep (eng : DPEngineCoreProc n ρ) (executed : Bool) : DPEngineCoreProc n ρ :=
  let localUnfinishedReqs := eng.hasUnfinishedRequests
  if !executed ∧ !localUnfinishedReqs ∧ !eng.enginesRunning then
    { eng with phase := .input }
  else
    let eng := { eng with stepCounter := eng.stepCounter + 1 }
    if eng.stepCounter % 32 ≠ 0 then
      { eng with enginesRunning := true, phase := .input }
    else { eng with phase := .reducing localUnfinishedReqs }

/-- What the busy loop does after the all-reduce. -/
def afterAllReduce (eng : DPEngineCoreProc n ρ) (dpRank : Nat) (result : Bool) :
    DPEngineCoreProc n ρ × List EngineCoreOutputs :=
  let eng := { eng with enginesRunning := result, phase := .input }
  if !eng.enginesRunning then
    ({ eng with currentWave := eng.currentWave + 1, stepCounter := 0 },
      if dpRank = 0 then [.waveComplete eng.currentWave] else [])
  else (eng, [])

end DPEngineCoreProc

structure DPAsyncMPClient (n : Nat) where
  currentWave : Nat := 0
  enginesRunning : Bool := false
  /-- The `FIRST_REQ` notes between the tasks that add requests and the stats task. -/
  firstReqSocket : List (Excluded n) := []

structure DPCoordinatorProc where
  currentWave : Nat := 0
  enginesRunning : Bool := false

namespace DPCoordinatorProc

variable {n : Nat}

/-- A client sent a request while the engines pause. The second part is the wave start to send. -/
def handleFront (coord : DPCoordinatorProc) (engineToExclude : Excluded n) (wave : Nat) :
    DPCoordinatorProc × Option (Nat × Excluded n) :=
  if !coord.enginesRunning then
    ({ coord with enginesRunning := true },
      some (coord.currentWave, if wave < coord.currentWave then .none else engineToExclude))
  else (coord, none)

/-- An engine reports the end of a wave or a request for a wave that is over. The last part tells
whether the wave state changed. -/
def handleBack (coord : DPCoordinatorProc) (engIndex : Fin n) :
    EngineCoreOutputs → DPCoordinatorProc × Option (Nat × Excluded n) × Bool
  | .waveComplete wave =>
    if coord.currentWave ≤ wave then
      ({ currentWave := wave + 1, enginesRunning := false }, none, true)
    else (coord, none, false)
  | .startWave wave =>
    if wave > coord.currentWave ∨ wave = coord.currentWave ∧ !coord.enginesRunning then
      ({ currentWave := wave, enginesRunning := true }, some (wave, .index engIndex), true)
    else (coord, none, false)

end DPCoordinatorProc

/-- `n + 1` engines, `m` clients, the coordinator and the messages between them. -/
structure System (n m : Nat) (ρ : Type) where
  engines : Fin (n + 1) → DPEngineCoreProc (n + 1) ρ := fun _ => {}
  clients : Fin m → DPAsyncMPClient (n + 1) := fun _ => {}
  coordinator : DPCoordinatorProc := {}
  /-- From a client to an engine. -/
  inputs : Fin m → Fin (n + 1) → List (EngineCoreRequest (n + 1) ρ) := fun _ _ => []
  /-- From the coordinator to an engine. -/
  startWaves : Fin (n + 1) → List (EngineCoreRequest (n + 1) ρ) := fun _ => []
  /-- From an engine to the coordinator. -/
  outputs : Fin (n + 1) → List EngineCoreOutputs := fun _ => []
  /-- From a client to the coordinator, with the wave of the client. -/
  firstReqs : Fin m → List (Excluded (n + 1) × Nat) := fun _ => []
  /-- From the coordinator to a client: its wave, and whether the engines run. -/
  statuses : Fin m → List (Nat × Bool) := fun _ => []

inductive Action (n m : Nat) (ρ : Type) where
  | addRequest (client : Fin m) (request : ρ) (engine : Fin (n + 1))
  | abortRequests (client : Fin m) (ids : List ρ) (engine : Fin (n + 1))
  /-- The stats task passes on a `FIRST_REQ`. -/
  | forwardFirstReq (client : Fin m)
  /-- The stats task reads the `count` statuses that have arrived. -/
  | readStatus (client : Fin m) (count : Nat)
  /-- One pass of the coordinator's loop, with the sockets that have a message. -/
  | coordinate (front : Option (Fin m)) (back : Option (Fin (n + 1)))
  /-- The input thread of an engine takes a message from a client or the coordinator. -/
  | receive (engine : Fin (n + 1)) (source : Option (Fin m))
  | handleRequest (engine : Fin (n + 1))
  | enterStep (engine : Fin (n + 1))
  | step (engine : Fin (n + 1)) (executed : Bool) (finished : List ρ)
  | allReduce
  | afterAllReduce (engine : Fin (n + 1)) (result : Bool)
  deriving DecidableEq

namespace System

open Function

variable {n m : Nat} {ρ : Type}

def setEngine (s : System n m ρ) (e : Fin (n + 1)) (eng : DPEngineCoreProc (n + 1) ρ) :
    System n m ρ :=
  { s with engines := update s.engines e eng }

@[simp] lemma setEngine_engines_self (s : System n m ρ) (e : Fin (n + 1))
    (eng : DPEngineCoreProc (n + 1) ρ) : (s.setEngine e eng).engines e = eng :=
  update_self ..

lemma setEngine_engines_of_ne {s : System n m ρ} {e b : Fin (n + 1)}
    {eng : DPEngineCoreProc (n + 1) ρ} (h : b ≠ e) :
    (s.setEngine e eng).engines b = s.engines b :=
  update_of_ne h ..

def setClient (s : System n m ρ) (c : Fin m) (client : DPAsyncMPClient (n + 1)) : System n m ρ :=
  { s with clients := update s.clients c client }

def sendInput (s : System n m ρ) (c : Fin m) (e : Fin (n + 1))
    (msg : EngineCoreRequest (n + 1) ρ) : System n m ρ :=
  { s with inputs := update s.inputs c (update (s.inputs c) e (s.inputs c e ++ [msg])) }

def putOutputs (s : System n m ρ) (e : Fin (n + 1)) (out : List EngineCoreOutputs) :
    System n m ρ :=
  { s with outputs := update s.outputs e (s.outputs e ++ out) }

@[simp] lemma putOutputs_self (s : System n m ρ) (e : Fin (n + 1))
    (out : List EngineCoreOutputs) : (s.putOutputs e out).outputs e = s.outputs e ++ out :=
  update_self ..

lemma putOutputs_of_ne {s : System n m ρ} {e b : Fin (n + 1)} {out : List EngineCoreOutputs}
    (h : b ≠ e) : (s.putOutputs e out).outputs b = s.outputs b :=
  update_of_ne h ..

/-- `add_request_async`, up to its first await. -/
def addRequest (s : System n m ρ) (c : Fin m) (request : ρ) (chosenEngine : Fin (n + 1)) :
    System n m ρ :=
  let client := s.clients c
  let s := s.sendInput c chosenEngine (.add request client.currentWave)
  if !client.enginesRunning then
    s.setClient c { client with
      firstReqSocket := client.firstReqSocket ++ [.identity chosenEngine] }
  else s

def forwardFirstReq (s : System n m ρ) (c : Fin m) : Option (System n m ρ) :=
  match (s.clients c).firstReqSocket with
  | [] => none
  | targetEngIndex :: rest =>
    let client := { s.clients c with enginesRunning := true, firstReqSocket := rest }
    let s := s.setClient c client
    some { s with
      firstReqs := update s.firstReqs c (s.firstReqs c ++ [(targetEngIndex, client.currentWave)]) }

/-- Only the last of the statuses counts. -/
def readStatus (s : System n m ρ) (c : Fin m) (count : Nat) : Option (System n m ρ) :=
  match ((s.statuses c).take count).getLast? with
  | none => none
  | some (wave, running) =>
    let s := s.setClient c { s.clients c with currentWave := wave, enginesRunning := running }
    some { s with statuses := update s.statuses c ((s.statuses c).drop count) }

def sendStartWave (s : System n m ρ) : Option (Nat × Excluded (n + 1)) → System n m ρ
  | none => s
  | some (wave, excludeEngineIndex) =>
    { s with startWaves := fun e => s.startWaves e ++ [.startDpWave wave excludeEngineIndex] }

def publish (s : System n m ρ) : System n m ρ :=
  { s with statuses := fun c =>
      s.statuses c ++ [(s.coordinator.currentWave, s.coordinator.enginesRunning)] }

/-- The coordinator takes a message from a client. The flag is `wave_state_changed`. -/
def receiveFront (s : System n m ρ) (c : Fin m) : Option (System n m ρ × Bool) :=
  match s.firstReqs c with
  | [] => none
  | (engineToExclude, wave) :: rest =>
    let (coord, start) := s.coordinator.handleFront engineToExclude wave
    let s := { s with coordinator := coord, firstReqs := update s.firstReqs c rest }
    some (s.sendStartWave start, start.isSome)

/-- The coordinator takes a message from an engine. -/
def receiveBack (s : System n m ρ) (e : Fin (n + 1)) : Option (System n m ρ × Bool) :=
  match s.outputs e with
  | [] => none
  | msg :: rest =>
    let (coord, start, changed) := s.coordinator.handleBack e msg
    let s := { s with coordinator := coord, outputs := update s.outputs e rest }
    some (s.sendStartWave start, changed)

/-- One pass of the coordinator's loop. It publishes at most once, after both messages. -/
def coordinate (s : System n m ρ) (front : Option (Fin m)) (back : Option (Fin (n + 1))) :
    Option (System n m ρ) :=
  if front.isNone ∧ back.isNone then some s.publish  -- the poll timed out
  else do
    let (s, changedFront) ← front.elim (some (s, false)) s.receiveFront
    let (s, changedBack) ← back.elim (some (s, false)) s.receiveBack
    some (if changedFront || changedBack then s.publish else s)

def receive (s : System n m ρ) (e : Fin (n + 1)) (source : Option (Fin m)) :
    Option (System n m ρ) :=
  let eng := s.engines e
  match source with
  | some c =>
    match s.inputs c e with
    | [] => none
    | msg :: rest =>
      let s := s.setEngine e { eng with inputQueue := eng.inputQueue ++ [msg] }
      some { s with inputs := update s.inputs c (update (s.inputs c) e rest) }
  | none =>
    match s.startWaves e with
    | [] => none
    | msg :: rest =>
      let s := s.setEngine e { eng with inputQueue := eng.inputQueue ++ [msg] }
      some { s with startWaves := update s.startWaves e rest }

def handleRequest [DecidableEq ρ] (s : System n m ρ) (e : Fin (n + 1)) : Option (System n m ρ) :=
  let eng := s.engines e
  if eng.phase = .input then
    match eng.inputQueue with
    | [] => none
    | msg :: rest =>
      let (eng, out) := ({ eng with inputQueue := rest }).handleClientRequest e msg
      some ((s.setEngine e eng).putOutputs e out)
  else none

def enterStep (s : System n m ρ) (e : Fin (n + 1)) : Option (System n m ρ) :=
  let eng := s.engines e
  if eng.phase = .input ∧ eng.inputQueue = [] ∧ (eng.enginesRunning || eng.hasRequests) then
    some (s.setEngine e { eng with phase := .stepping })
  else none

def engineStep [DecidableEq ρ] (s : System n m ρ) (e : Fin (n + 1)) (executed : Bool)
    (finished : List ρ) : Option (System n m ρ) :=
  if (s.engines e).phase = .stepping then do
    let eng ← (s.engines e).processEngineStep executed finished
    some (s.setEngine e (eng.afterStep executed))
  else none

/-- The all-reduce takes place when every engine is in it, and finds the maximum. -/
def allReduce (s : System n m ρ) : Option (System n m ρ) :=
  if ∀ e, (s.engines e).phase.isReducing then
    let result := decide (∃ e, (s.engines e).phase = .reducing true)
    some { s with engines := fun e => { s.engines e with phase := .reduced result } }
  else none

def afterAllReduce (s : System n m ρ) (e : Fin (n + 1)) (result : Bool) :
    Option (System n m ρ) :=
  if (s.engines e).phase = .reduced result then
    let (eng, out) := (s.engines e).afterAllReduce e result
    some ((s.setEngine e eng).putOutputs e out)
  else none

def step [DecidableEq ρ] (s : System n m ρ) : Action n m ρ → Option (System n m ρ)
  | .addRequest c request e => some (s.addRequest c request e)
  | .abortRequests c ids e => some (s.sendInput c e (.abort ids))
  | .forwardFirstReq c => s.forwardFirstReq c
  | .readStatus c count => s.readStatus c count
  | .coordinate front back => s.coordinate front back
  | .receive e source => s.receive e source
  | .handleRequest e => s.handleRequest e
  | .enterStep e => s.enterStep e
  | .step e executed finished => s.engineStep e executed finished
  | .allReduce => s.allReduce
  | .afterAllReduce e result => s.afterAllReduce e result

end System

end DataParallel
