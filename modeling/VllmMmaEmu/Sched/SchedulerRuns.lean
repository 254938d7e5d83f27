import VllmMmaEmu.Library.Runs
import VllmMmaEmu.Sched.Retirement

/-!
# Runs of the scheduler

The engine adds and finishes requests, schedules steps and hands the outputs of the model
runner back in the order of the steps. Several steps may have been issued whose outputs have
not come back (pipeline parallelism, asynchronous scheduling).
-/

namespace VllmV1

open Python

/-- A step that was issued, with what the scheduler knew then: the request objects under
their ids, how many requests had been added, and the running ones. -/
structure IssuedStep where
  out : SchedulerOutput
  known : Dict String Ref
  numAdded : Nat
  running : List Ref

/-- The scheduler with its history. `issued` and `returned` are oldest first; the outputs
come back in order, so that the first steps of `issued` are those of `returned`. -/
structure EngineState where
  sched : Scheduler
  issued : List IssuedStep
  returned : List ModelRunnerOutput

inductive EngineEvent where
  | addRequest (request : EngineCoreRequest)
  | finishRequests (answers : FinishAnswers) (requestIds : List String) (status : RequestStatus)
  | updateDraftTokenIds (answers : GrammarAnswers) (drafts : List (String × List Int))
  | schedule (answers : ScheduleAnswers)
  | updateFromOutput (runner : ModelRunnerOutput) (answers : FinishAnswers)

namespace EngineState

/-- The issued steps whose outputs have not come back. -/
def inFlight (σ : EngineState) : List IssuedStep := σ.issued.drop σ.returned.length

/-- The steps whose outputs have come back, with these. -/
def processed (σ : EngineState) : List (IssuedStep × ModelRunnerOutput) :=
  (σ.issued.take σ.returned.length).zip σ.returned

def issue (σ : EngineState) (out : SchedulerOutput) (s : Scheduler) : EngineState where
  sched := s
  issued := σ.issued ++ [⟨out, s.requests, s.nextRef, s.running⟩]
  returned := σ.returned

def next (σ : EngineState) : EngineEvent → Except PyError EngineState
  | .addRequest request => do
    let s ← σ.sched.addRequest request
    return { σ with sched := s }
  | .finishRequests answers requestIds status => do
    let s ← σ.sched.finishRequests answers requestIds status
    return { σ with sched := s }
  | .updateDraftTokenIds answers drafts =>
    .ok { σ with sched := σ.sched.updateDraftTokenIds answers drafts }
  | .schedule answers => do
    let (out, s) ← σ.sched.schedule answers
    return σ.issue out s
  | .updateFromOutput runner answers =>
    match σ.inFlight with
    | [] => .error .indexError
    | step :: _ => do
      let (_, s) ← σ.sched.updateFromOutput step.out runner answers
      return { σ with sched := s, returned := σ.returned ++ [runner] }

/-- An engine whose scheduler was just made. -/
def Started (σ : EngineState) : Prop :=
  ∃ config, Scheduler.init config = .ok σ.sched ∧ σ.issued = [] ∧ σ.returned = []

/-- A request is added under an id that no unfinished request has; the frontend raises
otherwise. -/
def Admissible (σ : EngineState) : EngineEvent → Prop
  | .addRequest request => ∀ r ∈ σ.sched.requests.get? request.requestId,
      (σ.sched.objs r).isFinished = true
  | _ => True

instance (σ : EngineState) : (e : EngineEvent) → Decidable (Admissible σ e)
  | .addRequest request => inferInstanceAs (Decidable (∀ r ∈ σ.sched.requests.get? request.requestId,
      (σ.sched.objs r).isFinished = true))
  | .finishRequests .. | .updateDraftTokenIds .. | .schedule _ | .updateFromOutput .. =>
    isTrue trivial

abbrev ReachedBy (allowed : EngineState → EngineEvent → Prop) : EngineState → Prop :=
  Runs.Reached Started allowed fun σ e σ' => σ.next e = .ok σ'

/-- A run from the start, as long as each event is allowed and none raises. -/
def runFrom (allowed : EngineState → EngineEvent → Prop) [∀ σ e, Decidable (allowed σ e)]
    (config : SchedulerConfig) (events : List EngineEvent) : Option EngineState :=
  (Scheduler.init config).toOption.bind fun s => Runs.runAllowed allowed next ⟨s, [], []⟩ events

lemma ReachedBy.of_runFrom {allowed checked : EngineState → EngineEvent → Prop}
    [∀ σ e, Decidable (checked σ e)] {config : SchedulerConfig} {events : List EngineEvent}
    {σ : EngineState} (himp : ∀ e ∈ events, ∀ σ, checked σ e → allowed σ e)
    (h : runFrom checked config events = some σ) : ReachedBy allowed σ := by
  obtain ⟨s, hinit, hrun⟩ := Option.bind_eq_some_iff.mp h
  exact Runs.Reached.of_runAllowed_imp (.start ⟨config, eq_ok_of_toOption hinit, rfl, rfl⟩) himp hrun

/-- Every request is registered and in its queue. -/
def Registered (σ : EngineState) : Prop :=
  Registry σ.sched σ.sched.running σ.sched.waiting.refs

variable {σ σ' : EngineState}

/-- A scheduler that was just made. -/
structure Empty (s : Scheduler) : Prop where
  objs : s.objs = fun _ => default
  requests : s.requests = Dict.empty
  running : s.running = []
  waiting : s.waiting.refs = []

lemma Started.empty (h : Started σ) : Empty σ.sched := by
  obtain ⟨config, hinit, -, -⟩ := h
  unfold Scheduler.init at hinit
  split_ifs at hinit
  · obtain ⟨_, -, hrest⟩ := bind_eq_ok.mp hinit
    obtain ⟨_, -, hrest⟩ := bind_eq_ok.mp hrest
    obtain ⟨_, -, hrest⟩ := bind_eq_ok.mp hrest
    obtain ⟨kv, -, hret⟩ := bind_eq_ok.mp hrest
    rw [← Except.ok.inj hret]
    exact ⟨rfl, rfl, rfl, by simp [RequestQueue.refs]⟩
  · obtain ⟨_, -, hrest⟩ := bind_eq_ok.mp hinit
    obtain ⟨kv, -, hret⟩ := bind_eq_ok.mp hrest
    rw [← Except.ok.inj hret]
    exact ⟨rfl, rfl, rfl, by simp [RequestQueue.refs]⟩

lemma Started.registered (h : Started σ) : Registered σ := by
  obtain ⟨-, hrequests, hrunning, hwaiting⟩ := h.empty
  rw [Registered, hrunning, hwaiting]
  refine ⟨List.nodup_nil, nofun, nofun, nofun, fun id r hget => ?_, fun id r hget => ?_⟩
  · rw [hrequests, Dict.get?_empty] at hget
    cases hget
  · rw [hrequests, Dict.get?_empty] at hget
    cases hget

lemma Registered.next (h : Registered σ) {e : EngineEvent} (ok : Admissible σ e)
    (hnext : σ.next e = .ok σ') : Registered σ' := by
  cases e with
  | addRequest request =>
    obtain ⟨s, hadd, hret⟩ := bind_eq_ok.mp hnext
    obtain rfl := Except.ok.inj hret
    exact Scheduler.addRequest_registry hadd ok h
  | finishRequests answers requestIds status =>
    obtain ⟨s, hfinish, hret⟩ := bind_eq_ok.mp hnext
    obtain rfl := Except.ok.inj hret
    exact Scheduler.finishRequests_registry hfinish h
  | updateDraftTokenIds answers drafts =>
    obtain rfl := Except.ok.inj hnext
    have hkeeps := Scheduler.updateDraftTokenIds_keeps σ.sched answers drafts
    rw [Registered, hkeeps.running, hkeeps.waiting]
    exact hkeeps.registry h
  | schedule answers =>
    obtain ⟨⟨out, s⟩, hschedule, hret⟩ := bind_eq_ok.mp hnext
    obtain rfl := Except.ok.inj hret
    exact Scheduler.schedule_registry hschedule h
  | updateFromOutput runner answers =>
    simp only [EngineState.next] at hnext
    split at hnext
    · cases hnext
    · obtain ⟨⟨outputs, s⟩, hupdate, hret⟩ := bind_eq_ok.mp hnext
      obtain rfl := Except.ok.inj hret
      exact Scheduler.updateFromOutput_registry hupdate h

/-- In every run a request that is not finished is registered and in one queue. -/
theorem ReachedBy.registered {allowed : EngineState → EngineEvent → Prop}
    (hallowed : ∀ σ e, allowed σ e → Admissible σ e) (h : ReachedBy allowed σ) : Registered σ :=
  Runs.Reached.invariant (fun _ hstart => hstart.registered)
    (fun σ e _ hreg ok hnext => hreg.next (hallowed σ e ok) hnext) h

end EngineState

end VllmV1
