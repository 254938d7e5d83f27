import VllmMmaEmu.Sched.Attribution

/-!
# New and resumed requests

A step tells the workers about a request as new once, before it has any output; later it is
resumed. Whether a waiting request is new is read off its status, so this holds as long as no
preempted request waits for an asynchronous load, after which it counts as waiting.
-/

namespace VllmV1

open Python

/-- The states of a request that has not run yet. -/
def RequestStatus.isUnstarted : RequestStatus → Bool
  | .waiting | .waitingForFsm | .waitingForRemoteKvs => true
  | _ => false

/-- The states of a request that has run and is not over. -/
def RequestStatus.hasStarted : RequestStatus → Bool
  | .running | .preempted => true
  | _ => false

namespace ScheduleState

open Scheduler

/-- No preempted request waits for a load. -/
def resumeGuard : Guard where
  load st r := (st.sched.objs r).status ≠ .preempted

/-- What a call knows of the requests that were announced before it, `told`. -/
structure Announcing (told : Ref → Prop) (before : List Ref) (st : ScheduleState) : Prop where
  unstarted : ∀ r, (st.sched.objs r).status.isUnstarted = true →
    ¬ told r ∧ r ∉ st.scheduledNewReqs ∧ (st.sched.objs r).outputTokenIds = []
  started : ∀ r, (st.sched.objs r).status.hasStarted = true → told r ∨ r ∈ st.scheduledNewReqs
  new : ∀ r ∈ st.scheduledNewReqs, ¬ told r ∧ (st.sched.objs r).outputTokenIds = [] ∧
    r ∈ st.sched.running ++ st.waitingRefs
  nodup : st.scheduledNewReqs.Nodup
  resumed : ∀ r ∈ st.sched.running, r ∉ before → told r → r ∈ st.scheduledResumedReqs
  keys : ∀ id ∈ st.numScheduledTokens.keys, ∃ r ∈ st.sched.running ++ st.waitingRefs,
    (st.sched.objs r).requestId = id ∧ (told r ∨ r ∈ st.scheduledNewReqs)

variable {answers : ScheduleAnswers} {G : Guard} {st st' : ScheduleState} {told : Ref → Prop}
  {before : List Ref} {r : Ref}

/-- A request that is not admitted changes its status, within the states of a request that
has not run, or within those of one that has. -/
lemma Announcing.replace (h : Announcing told before st) {request : Request}
    (hsame : SameRegister st st') (hsilent : Silent st.sched st'.sched)
    (hobjs : Replaces st.sched st'.sched r request)
    (hunstarted : request.status.isUnstarted = true → (st.sched.objs r).status.isUnstarted = true)
    (hstarted : request.status.hasStarted = true → (st.sched.objs r).status.hasStarted = true)
    (hreg : Registry st.sched st.sched.running st.waitingRefs)
    (hrunning : ∀ r' ∈ st'.sched.running, r' ∈ st.sched.running)
    (hperm : (st'.sched.running ++ st'.waitingRefs).Perm (st.sched.running ++ st.waitingRefs))
    (hadmitted : SameAdmitted st st') : Announcing told before st' := by
  refine ⟨fun r' hr' => ?_, fun r' hr' => ?_, ?_, ?_, ?_, ?_⟩
  · rw [hadmitted.new, hsilent.outputTokenIds]
    refine h.unstarted r' ?_
    by_cases hne : r' = r
    · rw [hne, hobjs.self] at hr'
      rw [hne]
      exact hunstarted hr'
    · rwa [hobjs.others r' hne] at hr'
  · rw [hadmitted.new]
    refine h.started r' ?_
    by_cases hne : r' = r
    · rw [hne, hobjs.self] at hr'
      rw [hne]
      exact hstarted hr'
    · rwa [hobjs.others r' hne] at hr'
  · intro r' hr'
    rw [hadmitted.new] at hr'
    rw [hsilent.outputTokenIds, hperm.mem_iff]
    exact h.new r' hr'
  · rw [hadmitted.new]
    exact h.nodup
  · rw [hadmitted.resumed]
    exact fun r' hr' => h.resumed r' (hrunning r' hr')
  · intro id hid
    rcases hsame.keys id hid with hid | ⟨r', hr', hid⟩
    · obtain ⟨r', hr', hname, htold⟩ := h.keys id hid
      refine ⟨r', hperm.mem_iff.mpr hr', ?_, ?_⟩
      · rw [hsilent.requestId, hname]
      · rwa [hadmitted.new]
    · refine ⟨r', List.mem_append_left _ hr', ?_, ?_⟩
      · rw [hsilent.requestId, hid]
      · rw [hadmitted.new]
        refine h.started r' ?_
        rw [hreg.runs r' (hrunning r' hr')]
        rfl

lemma Announcing.admit (h : Announcing told before st) {computed cached : Int}
    (hsame : SameRegister st st') (hsilent : Silent st.sched st'.sched)
    (hobjs : Replaces st.sched st'.sched r { st.sched.objs r with
      status := .running, numComputedTokens := computed, numCachedTokens := cached })
    (hreg : Registry st.sched st.sched.running st.waitingRefs)
    (hrunning : st'.sched.running = st.sched.running ++ [r])
    (hperm : (st'.sched.running ++ st'.waitingRefs).Perm (st.sched.running ++ st.waitingRefs))
    (hadmits : Admits st st' r) : Announcing told before st' := by
  have hnew : ∀ r', r' ∈ st'.scheduledNewReqs →
      r' ∈ st.scheduledNewReqs ∨ r' = r ∧ (st.sched.objs r).status = .waiting := by
    intro r' hr'
    rcases hadmits with ⟨hstatus, hnew, -⟩ | ⟨-, hnew, -⟩
    · rw [hnew, List.mem_append, List.mem_singleton] at hr'
      exact hr'.imp id fun heq => ⟨heq, hstatus⟩
    · rw [hnew] at hr'
      exact Or.inl hr'
  have hgrows : ∀ r' ∈ st.scheduledNewReqs, r' ∈ st'.scheduledNewReqs := by
    intro r' hr'
    rcases hadmits with ⟨-, hnew, -⟩ | ⟨-, hnew, -⟩
    · rw [hnew]
      exact List.mem_append_left _ hr'
    · rwa [hnew]
  have hself : told r ∨ r ∈ st'.scheduledNewReqs := by
    rcases hadmits with ⟨-, hnew, -⟩ | ⟨hstatus, -, -⟩
    · rw [hnew]
      exact Or.inr (List.mem_append_right _ (List.mem_singleton_self r))
    · exact (h.started r (by rw [hstatus]; rfl)).imp id (hgrows r)
  refine ⟨fun r' hr' => ?_, fun r' hr' => ?_, fun r' hr' => ?_, ?_, fun r' hr' hout htold => ?_,
    fun requestId hid => ?_⟩
  · have hne : r' ≠ r := by
      rintro rfl
      rw [hobjs.self] at hr'
      cases hr'
    rw [hobjs.others r' hne] at hr' ⊢
    obtain ⟨hnot, hout, hempty⟩ := h.unstarted r' hr'
    exact ⟨hnot, fun hmem => (hnew r' hmem).elim hout fun heq => hne heq.1, hempty⟩
  · by_cases hne : r' = r
    · rwa [hne]
    · rw [hobjs.others r' hne] at hr'
      exact (h.started r' hr').imp id (hgrows r')
  · rw [hsilent.outputTokenIds, hperm.mem_iff]
    rcases hnew r' hr' with hmem | ⟨rfl, hstatus⟩
    · exact h.new r' hmem
    · obtain ⟨hnot, -, hempty⟩ := h.unstarted r' (by rw [hstatus]; rfl)
      refine ⟨hnot, hempty, hperm.mem_iff.mp (List.mem_append_left _ ?_)⟩
      rw [hrunning]
      exact List.mem_append_right _ (List.mem_singleton_self r')
  · rcases hadmits with ⟨hstatus, hnew, -⟩ | ⟨-, hnew, -⟩
    · rw [hnew, List.nodup_append']
      refine ⟨h.nodup, List.nodup_singleton r, List.disjoint_singleton.mpr ?_⟩
      exact (h.unstarted r (by rw [hstatus]; rfl)).2.1
    · rw [hnew]
      exact h.nodup
  · have hkept : r' ∈ st.scheduledResumedReqs → r' ∈ st'.scheduledResumedReqs := by
      intro hmem
      rcases hadmits with ⟨-, -, hresumed⟩ | ⟨-, -, hresumed⟩
      · rwa [hresumed]
      · rw [hresumed]
        exact List.mem_append_left _ hmem
    rw [hrunning, List.mem_append, List.mem_singleton] at hr'
    rcases hr' with hr' | rfl
    · exact hkept (h.resumed r' hr' hout htold)
    · rcases hadmits with ⟨hstatus, -, -⟩ | ⟨-, -, hresumed⟩
      · exact absurd htold (h.unstarted r' (by rw [hstatus]; rfl)).1
      · rw [hresumed]
        exact List.mem_append_right _ (List.mem_singleton_self r')
  · rcases hsame.keys requestId hid with hid | ⟨r', hr', hid⟩
    · obtain ⟨r', hr', hname, htold⟩ := h.keys requestId hid
      exact ⟨r', hperm.mem_iff.mpr hr', by rw [hsilent.requestId, hname], htold.imp id (hgrows r')⟩
    · refine ⟨r', List.mem_append_left _ hr', by rw [hsilent.requestId, hid], ?_⟩
      rw [hrunning, List.mem_append, List.mem_singleton] at hr'
      rcases hr' with hr' | rfl
      · exact (h.started r' (by rw [hreg.runs r' hr']; rfl)).imp id (hgrows r')
      · exact hself

lemma Announcing.move (h : Announcing told before st) (hmove : Move answers resumeGuard st st')
    (hreg : Registry st.sched st.sched.running st.waitingRefs) : Announcing told before st' := by
  obtain ⟨hsame, heffect⟩ := hmove.effect
  have hsilent := hmove.silent
  cases heffect with
  | quiet objs running waiting admitted =>
    have hobjs : Replaces st.sched st'.sched 0 (st.sched.objs 0) :=
      ⟨by rw [objs], fun r' _ => by rw [objs]⟩
    refine h.replace hsame hsilent hobjs id id hreg (fun r' hr' => running ▸ hr') ?_ admitted
    rw [running]
    exact waiting.append_left _
  | preempted v objs running waiting admitted =>
    have hv : v ∈ st.sched.running := running.mem_iff.mp List.mem_cons_self
    refine h.replace hsame hsilent objs nofun (fun _ => ?_) hreg
      (fun r' hr' => running.mem_iff.mp (List.mem_cons_of_mem v hr')) ?_ admitted
    · rw [hreg.runs v hv]
      rfl
    · exact ((waiting.append_left _).trans List.perm_middle).trans (running.append_right _)
  | woken r n hr status objs running waiting admitted =>
    refine h.replace hsame hsilent objs (fun _ => ?_) nofun hreg (fun r' hr' => running ▸ hr') ?_
      admitted
    · rcases status with heq | heq <;> rw [heq] <;> rfl
    · rw [running, waiting]
  | loads r hr guard objs running waiting admitted =>
    refine h.replace hsame hsilent objs (fun _ => ?_) nofun hreg (fun r' hr' => running ▸ hr') ?_
      admitted
    · obtain ⟨hunfinished, hnot⟩ := hreg.waits r hr
      have hguard : (st.sched.objs r).status ≠ .preempted := guard
      revert hunfinished hnot hguard
      cases (st.sched.objs r).status <;> simp [RequestStatus.isUnstarted, RequestStatus.isFinished]
    · rw [running]
      exact waiting.append_left _
  | starts r computed cached objs running waiting admitted =>
    refine h.admit hsame hsilent objs hreg running ?_ admitted
    rw [running, List.append_assoc]
    exact waiting.append_left _

lemma Announcing.moves (h : Announcing told before st) (hmoves : Moves answers resumeGuard st st')
    (hreg : Registry st.sched st.sched.running st.waitingRefs) : Announcing told before st' := by
  induction hmoves with
  | refl => exact h
  | tail hmoves hmove ih => exact ih.move hmove (Moves.registry hmoves hreg)

lemma makeOutput_new {out : SchedulerOutput} {s : Scheduler} (h : st.makeOutput = .ok (out, s)) :
    out.scheduledNewReqs.map (·.reqId) =
      st.scheduledNewReqs.map fun r => (st.sched.objs r).requestId := by
  obtain ⟨newReqs, hnew, hrest⟩ := bind_eq_ok.mp h
  obtain ⟨runningReqs, -, hrest⟩ := bind_eq_ok.mp hrest
  obtain ⟨resumedReqs, -, hrest⟩ := bind_eq_ok.mp hrest
  obtain ⟨rfl, -⟩ := Prod.mk.inj (Except.ok.inj hrest)
  symm
  rw [← List.forall₂_eq_eq_eq, List.forall₂_map_left_iff, List.forall₂_map_right_iff]
  refine (forall₂_of_mapM hnew).imp fun r d hd => ?_
  obtain ⟨blockIds, -, hret⟩ := bind_eq_ok.mp hd
  obtain rfl := Except.ok.inj hret
  rfl

lemma makeOutput_resumed {out : SchedulerOutput} {s : Scheduler}
    (h : st.makeOutput = .ok (out, s)) (hr : r ∈ st.scheduledResumedReqs) :
    ∃ c ∈ out.scheduledCachedReqs,
      c.reqId = (st.sched.objs r).requestId ∧ c.resumedFromPreemption = true := by
  obtain ⟨newReqs, -, hrest⟩ := bind_eq_ok.mp h
  obtain ⟨runningReqs, -, hrest⟩ := bind_eq_ok.mp hrest
  obtain ⟨resumedReqs, hresumed, hrest⟩ := bind_eq_ok.mp hrest
  obtain ⟨rfl, -⟩ := Prod.mk.inj (Except.ok.inj hrest)
  obtain ⟨i, hi, rfl⟩ := List.getElem_of_mem hr
  have hcached := forall₂_of_mapM hresumed
  have hlen : i < resumedReqs.length := hcached.length_eq ▸ hi
  obtain ⟨numScheduled, -, hrest⟩ := bind_eq_ok.mp (hcached.get hi hlen)
  obtain ⟨blocks, -, hret⟩ := bind_eq_ok.mp hrest
  refine ⟨resumedReqs.get ⟨i, hlen⟩, List.mem_append_right _ (List.get_mem _ _), ?_⟩
  rw [← Except.ok.inj hret]
  exact ⟨rfl, rfl⟩

lemma makeOutput_keys {out : SchedulerOutput} {s : Scheduler} (h : st.makeOutput = .ok (out, s)) :
    out.numScheduledTokens = st.numScheduledTokens := by
  obtain ⟨newReqs, -, hrest⟩ := bind_eq_ok.mp h
  obtain ⟨runningReqs, -, hrest⟩ := bind_eq_ok.mp hrest
  obtain ⟨resumedReqs, -, hrest⟩ := bind_eq_ok.mp hrest
  obtain ⟨rfl, -⟩ := Prod.mk.inj (Except.ok.inj hrest)
  rfl

end ScheduleState

namespace EngineState

open Scheduler ScheduleState

/-- The requests that the issued steps have announced as new. -/
def announced (σ : EngineState) : List Ref :=
  σ.issued.flatMap fun step => step.out.scheduledNewReqs.filterMap fun d =>
    step.known.get? d.reqId

/-- The request was running after an issued step. -/
def HasRun (σ : EngineState) (r : Ref) : Prop := ∃ step ∈ σ.issued, r ∈ step.running

/-- A step announces requests without output, each for the first time, and resumes those
that have run. -/
structure Announces (σ : EngineState) (out : SchedulerOutput) (s : Scheduler) : Prop where
  new : ∀ d ∈ out.scheduledNewReqs, ∃ r, s.requests.get? d.reqId = some r ∧
    (s.objs r).outputTokenIds = [] ∧ r ∉ σ.announced
  once : (out.scheduledNewReqs.map (·.reqId)).Nodup
  resumed : ∀ r ∈ s.running, r ∉ σ.sched.running → σ.HasRun r →
    ∃ c ∈ out.scheduledCachedReqs,
      c.reqId = (s.objs r).requestId ∧ c.resumedFromPreemption = true

/-- The statuses agree with what has been announced. -/
structure Telling (σ : EngineState) : Prop extends Attributing σ where
  unstarted : ∀ r, (σ.sched.objs r).status.isUnstarted = true →
    r ∉ σ.announced ∧ (σ.sched.objs r).outputTokenIds = []
  started : ∀ r, (σ.sched.objs r).status.hasStarted = true → r ∈ σ.announced
  flight : ∀ step ∈ σ.inFlight, ∀ id ∈ step.out.numScheduledTokens.keys, ∀ r,
    step.known.get? id = some r → r ∈ σ.announced
  ran : ∀ r, σ.HasRun r → r ∈ σ.announced
  added : ∀ r ∈ σ.announced, r < σ.sched.nextRef

variable {σ σ' : EngineState}

lemma isUnstarted_eq_false {request : Request} (h : request.isFinished = true) :
    request.status.isUnstarted = false := by
  unfold Request.isFinished at h
  revert h
  cases request.status <;> simp [RequestStatus.isFinished, RequestStatus.isUnstarted]

lemma hasStarted_eq_false {request : Request} (h : request.isFinished = true) :
    request.status.hasStarted = false := by
  unfold Request.isFinished at h
  revert h
  cases request.status <;> simp [RequestStatus.isFinished, RequestStatus.hasStarted]

/-- Requests that keep their status or end, and of which the announced ones may get tokens. -/
lemma Telling.ends (h : Telling σ) {s : Scheduler} {returned : List ModelRunnerOutput}
    (hattributing : Attributing { σ with sched := s, returned := returned })
    (hends : KeepsOrEnds σ.sched s) (hnext : s.nextRef = σ.sched.nextRef)
    (htokens : ∀ r, (s.objs r).outputTokenIds = (σ.sched.objs r).outputTokenIds ∨ r ∈ σ.announced)
    (hflight : ∀ step ∈ inFlight { σ with sched := s, returned := returned }, step ∈ σ.inFlight) :
    Telling { σ with sched := s, returned := returned } := by
  refine ⟨hattributing, fun r hr => ?_, fun r hr => ?_,
    fun step hstep => h.flight step (hflight step hstep), h.ran, fun r hr => ?_⟩
  · have hbefore : (σ.sched.objs r).status.isUnstarted = true := by
      rcases hends r with heq | hended
      · rwa [← heq]
      · rw [isUnstarted_eq_false hended] at hr
        cases hr
    obtain ⟨hnot, hempty⟩ := h.unstarted r hbefore
    exact ⟨hnot, ((htokens r).resolve_right hnot).trans hempty⟩
  · refine h.started r ?_
    rcases hends r with heq | hended
    · rwa [← heq]
    · rw [hasStarted_eq_false hended] at hr
      cases hr
  · rw [hnext]
    exact h.added r hr

lemma Telling.addRequest (h : Telling σ) {e : EngineCoreRequest} {s : Scheduler}
    (hattributing : Attributing { σ with sched := s }) (hadd : σ.sched.addRequest e = .ok s) :
    Telling { σ with sched := s } := by
  obtain ⟨request, hadds⟩ := Scheduler.addRequest_adds hadd
  refine ⟨hattributing, fun r hr => ?_, fun r hr => ?_, h.flight, h.ran, fun r hr => ?_⟩
  · by_cases hne : r = σ.sched.nextRef
    · refine ⟨fun hmem => (h.added r hmem).ne hne, ?_⟩
      rw [hne, hadds.self, hadds.outputTokenIds]
    · rw [hadds.others r hne] at hr ⊢
      exact h.unstarted r hr
  · refine h.started r ?_
    by_cases hne : r = σ.sched.nextRef
    · rw [hne, hadds.self] at hr
      rcases hadds.status with heq | heq <;> rw [heq] at hr <;> cases hr
    · rwa [hadds.others r hne] at hr
  · rw [hadds.nextRef]
    exact Nat.lt_succ_of_lt (h.added r hr)

lemma Telling.start (h : Telling σ) :
    Announcing (· ∈ σ.announced) σ.sched.running (ScheduleState.start σ.sched) where
  unstarted r hr := ⟨(h.unstarted r hr).1, List.not_mem_nil, (h.unstarted r hr).2⟩
  started r hr := Or.inl (h.started r hr)
  new := nofun
  nodup := List.nodup_nil
  resumed _ hr hout := absurd hr hout
  keys := nofun

/-- What a call that announces the requests `fresh` knows at its end. -/
structure Told (σ : EngineState) (out : SchedulerOutput) (s : Scheduler) (fresh : List Ref) :
    Prop where
  unstarted : ∀ r, (s.objs r).status.isUnstarted = true →
    r ∉ σ.announced ∧ r ∉ fresh ∧ (s.objs r).outputTokenIds = []
  started : ∀ r, (s.objs r).status.hasStarted = true → r ∈ σ.announced ∨ r ∈ fresh
  ids : out.scheduledNewReqs.map (·.reqId) = fresh.map fun r => (s.objs r).requestId
  new : ∀ r ∈ fresh, r ∉ σ.announced ∧ (s.objs r).outputTokenIds = [] ∧
    s.requests.get? (s.objs r).requestId = some r
  nodup : fresh.Nodup
  resumed : ∀ r ∈ s.running, r ∉ σ.sched.running → r ∈ σ.announced →
    ∃ c ∈ out.scheduledCachedReqs,
      c.reqId = (s.objs r).requestId ∧ c.resumedFromPreemption = true
  keys : ∀ id ∈ out.numScheduledTokens.keys, ∀ r, s.requests.get? id = some r →
    r ∈ σ.announced ∨ r ∈ fresh

lemma Telling.schedule (h : Telling σ) {answers : ScheduleAnswers} {out : SchedulerOutput}
    {s : Scheduler} (hclean : σ.sched.Clean answers resumeGuard)
    (hschedule : σ.sched.schedule answers = .ok (out, s)) : ∃ fresh, Told σ out s fresh := by
  obtain ⟨st, st', s₁, hmoves, hrestore, hout, hupdate⟩ := schedule_spec hclean hschedule
  obtain ⟨waiting, rfl, hwaiting⟩ := ScheduleState.restoreSkipped_spec hrestore
  have hstart : Registry (ScheduleState.start σ.sched).sched
      (ScheduleState.start σ.sched).sched.running (ScheduleState.start σ.sched).waitingRefs := by
    simpa [ScheduleState.start, ScheduleState.waitingRefs, RequestQueue.refs, Registered]
      using h.registered
  have hreg := Moves.registry hmoves hstart
  have hst := h.start.moves hmoves hstart
  have hkeeps := (makeOutput_keeps hout).trans (updateAfterSchedule_keeps hupdate)
  have hregistered : ∀ r ∈ st.sched.running ++ st.waitingRefs,
      s.requests.get? (s.objs r).requestId = some r := fun r hr => by
    rw [hkeeps.requests, hkeeps.requestId]
    exact hreg.registered r hr
  refine ⟨st.scheduledNewReqs, fun r hr => ?_, fun r hr => ?_, ?_, fun r hr => ?_, hst.nodup,
    fun r hr hout' htold => ?_, fun id hid r hget => ?_⟩
  · rw [hkeeps.status] at hr
    rw [hkeeps.outputTokenIds]
    exact hst.unstarted r hr
  · rw [hkeeps.status] at hr
    exact hst.started r hr
  · rw [makeOutput_new hout]
    exact List.map_congr_left fun r _ => (hkeeps.requestId r).symm
  · obtain ⟨hnot, hempty, hin⟩ := hst.new r hr
    rw [hkeeps.outputTokenIds]
    exact ⟨hnot, hempty, hregistered r hin⟩
  · rw [hkeeps.running] at hr
    rw [hkeeps.requestId]
    exact makeOutput_resumed hout (hst.resumed r hr hout' htold)
  · rw [makeOutput_keys hout] at hid
    obtain ⟨r', hr', hname, htold⟩ := hst.keys id hid
    have hget' := hregistered r' hr'
    rw [hkeeps.requestId] at hget'
    have hsame : s.requests.get? id = some r' := hname ▸ hget'
    obtain rfl := Option.some.inj (hget.symm.trans hsame)
    exact htold

lemma Told.announces {out : SchedulerOutput} {s : Scheduler} {fresh : List Ref}
    (h : Told σ out s fresh) (hσ : Telling σ) : Announces σ out s := by
  refine ⟨fun d hd => ?_, ?_, fun r hr hout hran => h.resumed r hr hout (hσ.ran r hran)⟩
  · have hid : d.reqId ∈ fresh.map fun r => (s.objs r).requestId := by
      rw [← h.ids]
      exact List.mem_map_of_mem hd
    obtain ⟨r, hr, hname⟩ := List.mem_map.mp hid
    obtain ⟨hnot, hempty, hget⟩ := h.new r hr
    exact ⟨r, hname ▸ hget, hempty, hnot⟩
  · rw [h.ids]
    refine h.nodup.map_on fun r hr r' hr' hsame => ?_
    have hget := (h.new r hr).2.2
    rw [hsame, (h.new r' hr').2.2] at hget
    exact (Option.some.inj hget).symm

lemma Told.announced {out : SchedulerOutput} {s : Scheduler} {fresh : List Ref}
    (h : Told σ out s fresh) : (σ.issue out s).announced = σ.announced ++ fresh := by
  have hfresh : out.scheduledNewReqs.filterMap (fun d => s.requests.get? d.reqId) = fresh := by
    calc out.scheduledNewReqs.filterMap (fun d => s.requests.get? d.reqId)
        = (out.scheduledNewReqs.map (·.reqId)).filterMap s.requests.get? := by
          rw [List.filterMap_map]
          rfl
      _ = fresh.filterMap fun r => s.requests.get? (s.objs r).requestId := by
          rw [h.ids, List.filterMap_map]
          rfl
      _ = fresh.filterMap some := List.filterMap_congr fun r hr => (h.new r hr).2.2
      _ = fresh := List.filterMap_some
  simp only [EngineState.announced, issue, List.flatMap_append, List.flatMap_cons,
    List.flatMap_nil, List.append_nil, hfresh]

lemma Told.telling {out : SchedulerOutput} {s : Scheduler} {fresh : List Ref}
    (h : Told σ out s fresh) (hσ : Telling σ) (hattributing : Attributing (σ.issue out s))
    (hnext : s.nextRef = σ.sched.nextRef) : Telling (σ.issue out s) := by
  have hregistered : Registered (σ.issue out s) := hattributing.registered
  have hall : ∀ r, r ∈ σ.announced ∨ r ∈ fresh → r ∈ (σ.issue out s).announced := fun r hr => by
    rw [h.announced]
    exact List.mem_append.mpr hr
  refine ⟨hattributing, fun r hr => ?_, fun r hr => hall r (h.started r hr),
    fun step hstep id hid r hget => ?_, fun r hr => ?_, fun r hr => ?_⟩
  · obtain ⟨hnot, hout, hempty⟩ := h.unstarted r hr
    rw [h.announced, List.mem_append, not_or]
    exact ⟨⟨hnot, hout⟩, hempty⟩
  · simp only [inFlight, issue, List.drop_append_of_le_length hσ.returned, List.mem_append,
      List.mem_singleton] at hstep
    rcases hstep with hstep | rfl
    · exact hall r (Or.inl (hσ.flight step hstep id hid r hget))
    · exact hall r (h.keys id hid r hget)
  · obtain ⟨step, hstep, hrunning⟩ := hr
    simp only [issue, List.mem_append, List.mem_singleton] at hstep
    rcases hstep with hstep | rfl
    · exact hall r (Or.inl (hσ.ran r ⟨step, hstep, hrunning⟩))
    · refine hall r (h.started r ?_)
      have hstatus : (s.objs r).status = .running := hregistered.runs r hrunning
      rw [hstatus]
      rfl
  · rw [h.announced, List.mem_append] at hr
    rcases hr with hr | hr
    · exact (hσ.added r hr).trans_eq hnext.symm
    · exact (hregistered.named _ r (h.new r hr).2.2).2

lemma Started.telling (h : Started σ) : Telling σ := by
  obtain ⟨-, -, hissued, -⟩ := id h
  have hnone : σ.announced = [] := by rw [announced, hissued]; rfl
  refine ⟨h.attributing, fun r _ => ?_, fun r hr => ?_, ?_, fun r hr => ?_, fun r hr => ?_⟩
  · rw [hnone, h.empty.objs]
    exact ⟨List.not_mem_nil, rfl⟩
  · rw [h.empty.objs] at hr
    cases hr
  · simp [inFlight, hissued]
  · obtain ⟨step, hstep, -⟩ := hr
    rw [hissued] at hstep
    cases hstep
  · rw [hnone] at hr
    cases hr

/-- No call of the run lets a preempted request wait for an asynchronous load. -/
def KeepsPreempted (σ : EngineState) : EngineEvent → Prop
  | .schedule answers => σ.sched.Clean answers resumeGuard
  | _ => True

lemma clean_of_sync {answers : ScheduleAnswers}
    (hsync : ∀ r n k, answers.getNumNewMatchedTokens r n ≠ some (k, true)) (s : Scheduler) :
    s.Clean answers resumeGuard := by
  refine ⟨runningClean_of_forall (fun _ _ => trivial) _ _,
    fun _ _ _ _ => waitingClean_of_forall (fun st r _ c _ hgot hasync => ?_) _ _⟩
  have hcomputed := hgot.computed
  unfold findComputed at hcomputed
  split_ifs at hcomputed
  · obtain ⟨⟨hits, numLocal⟩, -, hret⟩ := bind_eq_ok.mp hcomputed
    have hexternal := Except.ok.inj hret
    simp only [externalTokens] at hexternal
    split_ifs at hexternal
    · split at hexternal
      · cases hexternal
      · rename_i k async hanswer
        obtain rfl := Option.some.inj hexternal
        obtain rfl : async = true := hasync
        exact absurd hanswer (hsync r numLocal k)
    · obtain rfl := Option.some.inj hexternal
      cases hasync
  · obtain rfl := Option.some.inj (Except.ok.inj hcomputed)
    cases hasync

lemma Telling.next (h : Telling σ) {e : EngineEvent} (hok : Admissible σ e) (hkeeps : KeepsIds σ e)
    (hpreempted : KeepsPreempted σ e) (hnext : σ.next e = .ok σ') : Telling σ' := by
  have hattributing := h.toAttributing.next hok hkeeps hnext
  cases e with
  | addRequest request =>
    obtain ⟨s, hadd, hret⟩ := bind_eq_ok.mp hnext
    obtain rfl := Except.ok.inj hret
    exact h.addRequest hattributing hadd
  | finishRequests answers requestIds status =>
    obtain ⟨s, hfinish, hret⟩ := bind_eq_ok.mp hnext
    obtain rfl := Except.ok.inj hret
    obtain ⟨hsilent, hends⟩ := Scheduler.finishRequests_silent hfinish h.registered
    exact h.ends hattributing hends hsilent.nextRef (fun r => Or.inl (hsilent.outputTokenIds r))
      fun _ => id
  | updateDraftTokenIds answers drafts =>
    obtain rfl := Except.ok.inj hnext
    have hsame := Scheduler.updateDraftTokenIds_keeps σ.sched answers drafts
    exact h.ends hattributing (fun r => Or.inl (hsame.status r)) hsame.nextRef
      (fun r => Or.inl (hsame.outputTokenIds r)) fun _ => id
  | schedule answers =>
    obtain ⟨⟨out, s⟩, hschedule, hret⟩ := bind_eq_ok.mp hnext
    obtain rfl := Except.ok.inj hret
    obtain ⟨fresh, htold⟩ := h.schedule hpreempted hschedule
    exact htold.telling h hattributing (schedule_silent hschedule).nextRef
  | updateFromOutput runner answers =>
    simp only [EngineState.next] at hnext
    split at hnext
    · cases hnext
    · rename_i step rest hflight
      obtain ⟨⟨outputs, s⟩, hupdate, hret⟩ := bind_eq_ok.mp hnext
      obtain rfl := Except.ok.inj hret
      have happended := Scheduler.updateFromOutput_appended h.registered hupdate
      refine h.ends hattributing happended.status happended.nextRef (fun r => ?_) fun step' hstep' => ?_
      · obtain ⟨tokens, hgot, heq⟩ := happended.tokens r
        rcases hgot with rfl | ⟨id, sampled, hid, hget, -⟩
        · exact Or.inl (heq.trans (List.append_nil _))
        · have hin : step ∈ σ.inFlight := hflight ▸ List.mem_cons_self
          exact Or.inr (h.flight step hin id hid r (h.known step hin id hid r hget).1)
      · simp only [inFlight, List.length_append, List.length_singleton] at hstep'
        rw [← List.tail_drop] at hstep'
        exact List.mem_of_mem_tail hstep'

/-- Where no preempted request waits for a load and no id on its way is given out again,
every call announces requests once, without output, and resumes the others. -/
theorem announces_of_keepsPreempted (σ : EngineState) (answers : ScheduleAnswers)
    (out : SchedulerOutput) (s : Scheduler)
    (h : ReachedBy (fun σ e => Admissible σ e ∧ KeepsIds σ e ∧ KeepsPreempted σ e) σ)
    (hpreempted : KeepsPreempted σ (.schedule answers))
    (hschedule : σ.sched.schedule answers = .ok (out, s)) : Announces σ out s := by
  have hσ : Telling σ := by
    refine Runs.Reached.invariant (fun σ hstart => ?_) (fun σ e σ' hσ hok hnext => ?_) h
    · exact Started.telling hstart
    · exact Telling.next hσ hok.1 hok.2.1 hok.2.2 hnext
  obtain ⟨fresh, htold⟩ := hσ.schedule hpreempted hschedule
  exact htold.announces hσ

/-- Four blocks for two requests, with a connector. -/
def connectorConfig : SchedulerConfig where
  kv :=
    { numBlocks := 5
      kvCacheGroups := [⟨2, .full, Nat.two_pos⟩]
      maxModelLen := 16
      enableCaching := false }
  blockSize := 2
  maxNumRunningReqs := 2
  maxNumScheduledTokens := 8
  hasConnector := true

/-- One token for each of two requests. -/
def sampledForBoth (token token' : Int) : ModelRunnerOutput where
  reqIdToIndex := (Dict.empty.set "a" 0).set "b" 1
  sampledTokenIds := [[token], [token']]

/-- Two requests fill the blocks; with the third token of its output the first one needs
another block, and the second one is preempted. -/
def preemptedEvents : List EngineEvent :=
  [.addRequest { requestId := "a", prompt := .tokenIds [1, 2, 3] },
    .addRequest { requestId := "b", prompt := .tokenIds [4, 5, 6] },
    .schedule {}, .updateFromOutput (sampledForBoth 7 8) fun _ => (false, false),
    .schedule {}, .updateFromOutput (sampledForBoth 9 10) fun _ => (false, false),
    .schedule {}, .updateFromOutput (sampledFor "a" [11]) fun _ => (false, false),
    .finishRequests (fun _ => (false, false)) ["a"] .finishedAborted]

/-- The second request is resumed, and announced as such. -/
theorem announces_preempted : ∃ σ out s,
    ReachedBy (fun σ e => Admissible σ e ∧ KeepsIds σ e ∧ KeepsPreempted σ e) σ ∧
      KeepsPreempted σ (.schedule {}) ∧ σ.sched.schedule {} = .ok (out, s) ∧
      out.scheduledCachedReqs.map (fun c => (c.reqId, c.resumedFromPreemption)) = [("b", true)] ∧
      Announces σ out s := by
  have hview : (runFrom (fun σ e => Admissible σ e ∧ KeepsIds σ e) connectorConfig
      preemptedEvents).bind (fun σ => (σ.sched.schedule {}).toOption.map fun p =>
        p.1.scheduledCachedReqs.map (fun c => (c.reqId, c.resumedFromPreemption))) =
      some [("b", true)] := by decide +kernel
  obtain ⟨σ, hrun, hrest⟩ := Option.bind_eq_some_iff.mp hview
  obtain ⟨⟨out, s⟩, hok, hcached⟩ := Option.map_eq_some_iff.mp hrest
  have hschedule := eq_ok_of_toOption hok
  have hsync : ∀ σ : EngineState, KeepsPreempted σ (.schedule {}) := fun σ =>
    clean_of_sync (fun _ _ _ => by simp) σ.sched
  have hreached : ReachedBy (fun σ e => Admissible σ e ∧ KeepsIds σ e ∧ KeepsPreempted σ e) σ := by
    refine .of_runFrom (fun e he σ hok => ⟨hok.1, hok.2, ?_⟩) hrun
    simp only [preemptedEvents, List.mem_cons, List.not_mem_nil, or_false] at he
    rcases he with rfl | rfl | rfl | rfl | rfl | rfl | rfl | rfl | rfl <;>
      first | exact hsync σ | trivial
  exact ⟨σ, out, s, hreached, hsync σ, hschedule, hcached,
    announces_of_keepsPreempted σ {} out s hreached (hsync σ) hschedule⟩

/-- The connector loads two tokens of the second request in the background. -/
def loadAnswers : ScheduleAnswers where
  getNumNewMatchedTokens r _ := if r = 1 then some (2, true) else some (0, false)

/-- Nothing was computed, and the load has ended. -/
def loadedOutput : ModelRunnerOutput where
  reqIdToIndex := Dict.empty
  sampledTokenIds := []
  kvConnectorOutput := some { finishedRecving := ["b"] }

def loadedEvents : List EngineEvent :=
  preemptedEvents ++ [.schedule loadAnswers,
    .updateFromOutput loadedOutput fun _ => (false, false)]

/-- The request that was running, was preempted and has loaded its tokens is announced as
new, with the tokens of its output. -/
theorem not_announces_loaded :
    ¬ ∀ σ answers out s, ReachedBy (fun σ e => Admissible σ e ∧ KeepsIds σ e) σ →
      σ.sched.schedule answers = .ok (out, s) → Announces σ out s := by
  intro hclaim
  have hview : (runFrom (fun σ e => Admissible σ e ∧ KeepsIds σ e) connectorConfig
      loadedEvents).bind (fun σ => (σ.sched.schedule {}).toOption.map fun p =>
        (p.1.scheduledNewReqs.map (·.reqId), p.2.requests.get? "b", (p.2.objs 1).outputTokenIds)) =
      some (["b"], some 1, [8, 10]) := by decide +kernel
  obtain ⟨σ, hrun, hrest⟩ := Option.bind_eq_some_iff.mp hview
  obtain ⟨⟨out, s⟩, hok, heq⟩ := Option.map_eq_some_iff.mp hrest
  obtain ⟨hnew, hrest⟩ := Prod.mk.inj heq
  obtain ⟨hknown, houtput⟩ := Prod.mk.inj hrest
  have hschedule := eq_ok_of_toOption hok
  have hann := hclaim σ {} out s (.of_runFrom (fun _ _ _ hok => hok) hrun) hschedule
  have hmem : "b" ∈ out.scheduledNewReqs.map (·.reqId) := by
    rw [hnew]
    exact List.mem_singleton_self _
  obtain ⟨d, hd, hid⟩ := List.mem_map.mp hmem
  obtain ⟨r, hget, hempty, -⟩ := hann.new d hd
  rw [hid, hknown] at hget
  obtain rfl := Option.some.inj hget
  rw [houtput] at hempty
  cases hempty

end EngineState

end VllmV1
