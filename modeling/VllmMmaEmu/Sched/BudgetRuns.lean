import VllmMmaEmu.Sched.CallLimits

/-!
# The token budget over a run

Between two calls the running requests are no more than the limit. So in a run whose calls all
start in range, every call stays within the limits.
-/

namespace VllmV1

open Python

/-- What `SchedulerConfig` verifies: a step has room for a token of each running request. -/
def SchedulerConfig.Verified (config : SchedulerConfig) : Prop :=
  (config.maxNumRunningReqs : Int) ≤ config.maxNumScheduledTokens

instance (config : SchedulerConfig) : Decidable config.Verified :=
  inferInstanceAs (Decidable ((config.maxNumRunningReqs : Int) ≤ config.maxNumScheduledTokens))

lemma SchedulerConfig.Verified.budget {config : SchedulerConfig} (h : config.Verified) :
    0 ≤ config.maxNumScheduledTokens :=
  (Int.natCast_nonneg config.maxNumRunningReqs).trans h

namespace Scheduler

variable {s s' : Scheduler}

lemma removeAll_sublist (l items : List Ref) : (removeAll l items).Sublist l := by
  unfold removeAll
  split
  · exact .refl l
  · exact List.erase_sublist
  · exact List.filter_sublist

lemma finishLoop_running {answers : FinishAnswers} {status : RequestStatus} {rs : List Ref}
    (h : finishLoop answers status s rs = .ok s') : s'.running = s.running := by
  induction rs generalizing s with
  | nil =>
    obtain rfl := Except.ok.inj h
    rfl
  | cons r rest ih =>
    obtain ⟨⟨params, s₁⟩, hfree, hrest⟩ := bind_eq_ok.mp h
    exact (ih hrest).trans (freeRequest_frees hfree).running

lemma removeFromQueues_running {rs : List Ref} (h : s.removeFromQueues rs = .ok s') :
    s'.running.Sublist s.running := by
  simp only [removeFromQueues] at h
  split_ifs at h
  · obtain rfl := Except.ok.inj h
    exact removeAll_sublist _ _
  · obtain ⟨waiting, -, hret⟩ := bind_eq_ok.mp h
    obtain rfl := Except.ok.inj hret
    exact removeAll_sublist _ _

lemma finishRequests_running {answers : FinishAnswers} {requestIds : List String}
    {status : RequestStatus} (h : s.finishRequests answers requestIds status = .ok s') :
    s'.running.Sublist s.running := by
  obtain ⟨_, -, hrest⟩ := bind_eq_ok.mp h
  obtain ⟨s₁, hremove, hloop⟩ := bind_eq_ok.mp hrest
  rw [finishLoop_running hloop]
  exact removeFromQueues_running hremove

lemma removeStopped_running {st : UpdateState} (h : st.removeStopped = .ok s') :
    s'.running.Sublist st.sched.running := by
  simp only [UpdateState.removeStopped] at h
  split_ifs at h
  · obtain rfl := Except.ok.inj h
    exact removeAll_sublist _ _
  · obtain ⟨waiting, -, hret⟩ := bind_eq_ok.mp h
    obtain rfl := Except.ok.inj hret
    exact removeAll_sublist _ _

lemma updateTransfers_running {runner : ModelRunnerOutput}
    (h : s.updateTransfers runner = .ok s') : s'.running = s.running := by
  unfold updateTransfers at h
  split at h
  · obtain rfl := Except.ok.inj h
    rfl
  · refine foldlM_invariant (P := fun s' => s'.running = s.running)
      (fun id _ s₁ s₂ h₁ hsend => ?_) ?_ h
    · obtain ⟨r, -, hfree⟩ := bind_eq_ok.mp hsend
      exact (freeBlocks_frees hfree).running.trans h₁
    · rfl

lemma updateFromOutput_running {out : SchedulerOutput} {runner : ModelRunnerOutput}
    {answers : FinishAnswers} {outputs : List EngineCoreOutput}
    (h : s.updateFromOutput out runner answers = .ok (outputs, s'))
    (hreg : Registry s s.running s.waiting.refs) : s'.running.Sublist s.running := by
  obtain ⟨st, hloop, hrest⟩ := bind_eq_ok.mp h
  obtain ⟨s₁, hremove, hrest⟩ := bind_eq_ok.mp hrest
  obtain ⟨s₂, htransfers, hret⟩ := bind_eq_ok.mp hrest
  obtain ⟨-, rfl⟩ := Prod.mk.inj (Except.ok.inj hret)
  have hretired : UpdateState.Retired s st := by
    refine foldlM_invariant (fun p _ st₁ st₂ hst hstep => ?_) (UpdateState.start_retired hreg) hloop
    exact UpdateState.updateEntry_retired hreg.nodup hst hstep
  rw [updateTransfers_running htransfers, ← hretired.running]
  exact removeStopped_running hremove

end Scheduler

namespace Scheduler

instance (s : Scheduler) : Decidable s.InRange :=
  decidable_of_iff ((∀ r ∈ s.running, (s.objs r).numComputedTokens ≤
      (s.req r).numTokensWithSpec + (s.objs r).numOutputPlaceholders) ∧
    (∀ r ∈ s.running, (s.objs r).numComputedTokens < s.maxModelLen) ∧
    (∀ r ∈ s.waiting.refs, (s.objs r).numComputedTokens < (s.objs r).numTokens) ∧
    (∀ maxLoras ∈ s.config.maxLoras, s.runningLoras.length ≤ maxLoras) ∧
    (s.config.encoder.isEncoderDecoder = true → ∀ r ∈ s.running ++ s.waiting.refs,
      ∀ feature ∈ (s.objs r).mmFeatures, feature.mmPosition.offset = 0))
    ⟨fun ⟨ahead, left, behind, loras, encoders⟩ => ⟨ahead, left, behind, loras, encoders⟩,
      fun h => ⟨h.ahead, h.left, h.behind, h.loras, h.encoders⟩⟩

lemma loadsPart_of_noConnector {answers : ScheduleAnswers} {s : Scheduler}
    (h : s.config.hasConnector = false) : s.LoadsPart answers := by
  refine ⟨fun hconnector => ?_, fun hconnector => ?_⟩
  · rw [h] at hconnector
    cases hconnector
  · rw [h] at hconnector
    cases hconnector

end Scheduler

namespace EngineState

open Scheduler ScheduleState

variable {σ σ' : EngineState}

/-- A call starts in range. -/
def CallsInRange (σ : EngineState) : EngineEvent → Prop
  | .schedule answers => σ.sched.InRange ∧ σ.sched.LoadsPart answers
  | _ => True

lemma next_room {e : EngineEvent} (hconfig : σ.sched.config.Verified)
    (h : σ.sched.BetweenCalls 0) (hcalls : CallsInRange σ e) (hnext : σ.next e = .ok σ') :
    σ'.sched.running.length ≤ σ.sched.config.maxNumRunningReqs := by
  cases e with
  | addRequest request =>
    obtain ⟨s, hadd, hret⟩ := bind_eq_ok.mp hnext
    obtain rfl := Except.ok.inj hret
    obtain ⟨request, hadds⟩ := addRequest_adds hadd
    exact hadds.running ▸ h.room
  | finishRequests answers requestIds status =>
    obtain ⟨s, hfinish, hret⟩ := bind_eq_ok.mp hnext
    obtain rfl := Except.ok.inj hret
    exact (finishRequests_running hfinish).length_le.trans h.room
  | updateDraftTokenIds answers drafts =>
    obtain rfl := Except.ok.inj hnext
    exact (updateDraftTokenIds_keeps σ.sched answers drafts).running ▸ h.room
  | schedule answers =>
    obtain ⟨⟨out, s⟩, hschedule, hret⟩ := bind_eq_ok.mp hnext
    obtain rfl := Except.ok.inj hret
    exact (h.withinBudget le_rfl hcalls.1 hconfig.budget hschedule).running
  | updateFromOutput runner answers =>
    simp only [EngineState.next] at hnext
    split at hnext
    · cases hnext
    · obtain ⟨⟨outputs, s⟩, hupdate, hret⟩ := bind_eq_ok.mp hnext
      obtain rfl := Except.ok.inj hret
      exact (updateFromOutput_running hupdate h.registry).length_le.trans h.room

lemma betweenCalls_next {e : EngineEvent} (hconfig : σ.sched.config.Verified)
    (h : σ.sched.BetweenCalls 0) (hadmissible : Admissible σ e) (hfits : PromptsFit 0 σ e)
    (hcalls : CallsInRange σ e) (hnext : σ.next e = .ok σ') : σ'.sched.BetweenCalls 0 where
  registry := Registered.next h.registry hadmissible hnext
  sized := sized_next zero_le_one h.registry h.sized hfits hnext
  room := by
    rw [next_config hnext]
    exact next_room hconfig h hcalls hnext

/-- What can be checked of `StaysInRange` without a connector. -/
def CheckedInRange (σ : EngineState) : EngineEvent → Prop
  | .schedule _ => σ.sched.InRange ∧ σ.sched.config.hasConnector = false
  | _ => True

instance (σ : EngineState) : (e : EngineEvent) → Decidable (CheckedInRange σ e)
  | .schedule _ => inferInstanceAs (Decidable (σ.sched.InRange ∧ σ.sched.config.hasConnector = false))
  | .addRequest _ | .finishRequests .. | .updateDraftTokenIds .. | .updateFromOutput .. =>
    isTrue trivial

lemma CheckedInRange.callsInRange {e : EngineEvent} (h : CheckedInRange σ e) :
    CallsInRange σ e := by
  cases e with
  | schedule answers => exact ⟨h.1, loadsPart_of_noConnector h.2⟩
  | _ => trivial

/-- The events of a run whose prompts fit and whose calls all start in range. -/
def StaysInRange (σ : EngineState) (e : EngineEvent) : Prop :=
  Admissible σ e ∧ PromptsFit 0 σ e ∧ CallsInRange σ e

lemma ReachedBy.betweenCalls (h : ReachedBy StaysInRange σ) (hconfig : σ.sched.config.Verified) :
    σ.sched.BetweenCalls 0 := by
  refine Runs.Reached.invariant (I := fun σ => σ.sched.config.Verified → σ.sched.BetweenCalls 0)
    (fun σ hstart hconfig => ?_) (fun σ e σ' hσ hok hnext hconfig => ?_) h hconfig
  · have hrunning := hstart.empty.running
    refine ⟨hstart.registered, hstart.sized, ?_⟩
    rw [hrunning]
    exact Nat.zero_le _
  · rw [next_config hnext] at hconfig
    exact betweenCalls_next hconfig (hσ hconfig) hok.1 hok.2.1 hok.2.2 hnext

/-- In a run whose calls all start in range no assertion fails, and every call stays within the
limits. -/
theorem withinBudget_of_inRange (σ : EngineState) (answers : ScheduleAnswers)
    (hconfig : σ.sched.config.Verified) (h : ReachedBy StaysInRange σ)
    (hcalls : CallsInRange σ (.schedule answers)) :
    ¬ AssertionFails answers σ.sched ∧ ∀ out s, σ.sched.schedule answers = .ok (out, s) →
      WithinBudget σ.sched s out := by
  have hσ := h.betweenCalls hconfig
  exact ⟨hσ.assertions le_rfl hcalls.1 hcalls.2 hconfig.budget,
    fun out s hschedule => hσ.withinBudget le_rfl hcalls.1 hconfig.budget hschedule⟩

/-- The steps of two requests overlap; the third call schedules both again. -/
theorem withinBudget_overlapping : ∃ σ out s, ReachedBy StaysInRange σ ∧
    σ.sched.schedule {} = .ok (out, s) ∧ out.numScheduledTokens.values = [1, 1] ∧
      ¬ AssertionFails {} σ.sched ∧ WithinBudget σ.sched s out := by
  have hview : (runFrom (fun σ e => Admissible σ e ∧ PromptsFit 0 σ e ∧ CheckedInRange σ e)
      pipelineConfig overlappingEvents).bind (fun σ =>
        (σ.sched.schedule {}).toOption.map fun p => (p.1.numScheduledTokens.values,
          decide (CheckedInRange σ (.schedule {})), decide (σ.sched.config.Verified))) =
      some ([1, 1], true, true) := by decide +kernel
  obtain ⟨σ, hrun, hrest⟩ := Option.bind_eq_some_iff.mp hview
  obtain ⟨⟨out, s⟩, hok, heq⟩ := Option.map_eq_some_iff.mp hrest
  obtain ⟨hcounts, hrest⟩ := Prod.mk.inj heq
  obtain ⟨hchecked, hverified⟩ := Prod.mk.inj hrest
  have hreached : ReachedBy StaysInRange σ :=
    .of_runFrom (fun _ _ _ hok => ⟨hok.1, hok.2.1, hok.2.2.callsInRange⟩) hrun
  have hlimits := withinBudget_of_inRange σ {} (of_decide_eq_true hverified) hreached
    (of_decide_eq_true hchecked).callsInRange
  have hschedule := eq_ok_of_toOption hok
  exact ⟨σ, out, s, hreached, hschedule, hcounts, hlimits.1, hlimits.2 out s hschedule⟩

/-- The prompt takes all positions of the model; its step is on its way. -/
def fullPromptEvents : List EngineEvent :=
  [.addRequest { requestId := "a", prompt := .tokenIds [1, 2, 3, 4] }, .schedule {}]

/-- The next call schedules minus one token. -/
theorem not_withinBudget_fullPrompt :
    ¬ ∀ σ answers, σ.sched.config.Verified →
      ReachedBy (fun σ e => Admissible σ e ∧ PromptsFit 0 σ e) σ → σ.sched.LoadsPart answers →
      ¬ AssertionFails answers σ.sched ∧ ∀ out s, σ.sched.schedule answers = .ok (out, s) →
        WithinBudget σ.sched s out := by
  intro hclaim
  have hview : (runFrom (fun σ e => Admissible σ e ∧ PromptsFit 0 σ e)
      { pipelineConfig with kv := { pipelineConfig.kv with maxModelLen := 4 } }
      fullPromptEvents).bind (fun σ => (σ.sched.schedule {}).toOption.map fun p =>
        (p.1.numScheduledTokens.values, σ.sched.config.hasConnector,
          decide (σ.sched.config.Verified))) = some ([-1], false, true) := by decide +kernel
  obtain ⟨σ, hrun, hrest⟩ := Option.bind_eq_some_iff.mp hview
  obtain ⟨⟨out, s⟩, hok, heq⟩ := Option.map_eq_some_iff.mp hrest
  obtain ⟨hcounts, hrest⟩ := Prod.mk.inj heq
  obtain ⟨hconnector, hverified⟩ := Prod.mk.inj hrest
  obtain ⟨-, hlimits⟩ := hclaim σ {} (of_decide_eq_true hverified)
    (.of_runFrom (fun _ _ _ hok => hok) hrun) (loadsPart_of_noConnector hconnector)
  have hpositive := (hlimits out s (eq_ok_of_toOption hok)).positive (-1) (by
    rw [hcounts]
    exact List.mem_singleton_self _)
  omega

end EngineState

end VllmV1
