import VllmMmaEmu.Sched.SchedulerRuns

/-!
# Whose tokens they are

The output tokens of a request are those that were sampled for it, step by step, as far as
they were taken. A returned output names requests by their ids only, so this holds as long as
no id is given out again while an issued step that names it is on its way.
-/

namespace VllmV1

open Python

namespace Scheduler

/-- No token is appended, and no id is given to another request. -/
structure Silent (s s' : Scheduler) : Prop where
  requestId : ∀ r, (s'.objs r).requestId = (s.objs r).requestId
  outputTokenIds : ∀ r, (s'.objs r).outputTokenIds = (s.objs r).outputTokenIds
  requests : ∀ id r, s'.requests.get? id = some r → s.requests.get? id = some r
  nextRef : s'.nextRef = s.nextRef

variable {s s' : Scheduler} {r : Ref}

namespace Silent

lemma refl (s : Scheduler) : Silent s s := ⟨fun _ => rfl, fun _ => rfl, fun _ _ => id, rfl⟩

lemma trans {s'' : Scheduler} (h : Silent s s') (h' : Silent s' s'') : Silent s s'' where
  requestId r := (h'.requestId r).trans (h.requestId r)
  outputTokenIds r := (h'.outputTokenIds r).trans (h.outputTokenIds r)
  requests id r hget := h.requests id r (h'.requests id r hget)
  nextRef := h'.nextRef.trans h.nextRef

lemma setStatus (s : Scheduler) (r : Ref) (status : RequestStatus) :
    Silent s (s.setStatus r status) := by
  refine ⟨fun r' => ?_, fun r' => ?_, fun _ _ => id, rfl⟩
  · simp only [Scheduler.setStatus, Scheduler.modify]
    split_ifs <;> rfl
  · simp only [Scheduler.setStatus, Scheduler.modify]
    split_ifs <;> rfl

end Silent

lemma Keeps.silent (h : Keeps s s') : Silent s s' where
  requestId := h.requestId
  outputTokenIds := h.outputTokenIds
  requests id r hget := by rwa [h.requests] at hget
  nextRef := h.nextRef

/-- The request objects stay as they are; ids may be forgotten. -/
structure Loses (s s' : Scheduler) : Prop where
  objs : s'.objs = s.objs
  requests : ∀ id r, s'.requests.get? id = some r → s.requests.get? id = some r
  nextRef : s'.nextRef = s.nextRef

namespace Loses

lemma refl (s : Scheduler) : Loses s s := ⟨rfl, fun _ _ => id, rfl⟩

lemma trans {s'' : Scheduler} (h : Loses s s') (h' : Loses s' s'') : Loses s s'' where
  objs := h'.objs.trans h.objs
  requests id r hget := h.requests id r (h'.requests id r hget)
  nextRef := h'.nextRef.trans h.nextRef

lemma silent (h : Loses s s') : Silent s s' :=
  ⟨fun r => by rw [h.objs], fun r => by rw [h.objs], h.requests, h.nextRef⟩

end Loses

lemma Frees.loses (h : Frees s s' r) : Loses s s' := by
  refine ⟨h.objs, fun id r' hget => ?_, h.nextRef⟩
  rcases h.requests with heq | heq
  · rwa [heq] at hget
  · rw [heq, Dict.get?_erase] at hget
    split_ifs at hget
    exact hget

end Scheduler

namespace ScheduleState

open Scheduler

variable {answers : ScheduleAnswers} {G : Guard} {st st' : ScheduleState} {r : Ref}

lemma Replaces.silent {s s' : Scheduler} {request : Request} (h : Replaces s s' r request)
    (hid : request.requestId = (s.objs r).requestId)
    (houtput : request.outputTokenIds = (s.objs r).outputTokenIds)
    (hrequests : s'.requests = s.requests) (hnext : s'.nextRef = s.nextRef) : Silent s s' := by
  refine ⟨fun r' => ?_, fun r' => ?_, fun id r' hget => by rwa [hrequests] at hget, hnext⟩
  · by_cases hne : r' = r
    · rw [hne, h.self, hid]
    · rw [h.others r' hne]
  · by_cases hne : r' = r
    · rw [hne, h.self, houtput]
    · rw [h.others r' hne]

lemma Move.silent (h : Move answers G st st') : Silent st.sched st'.sched := by
  obtain ⟨hsame, heffect⟩ := h.effect
  cases heffect with
  | quiet objs running waiting admitted =>
    exact ⟨fun r => by rw [objs], fun r => by rw [objs],
      fun id r hget => by rwa [hsame.requests] at hget, hsame.nextRef⟩
  | preempted v objs running waiting admitted =>
    exact objs.silent rfl rfl hsame.requests hsame.nextRef
  | woken r n hr status objs running waiting admitted =>
    exact objs.silent rfl rfl hsame.requests hsame.nextRef
  | loads r hr guard objs running waiting admitted =>
    exact objs.silent rfl rfl hsame.requests hsame.nextRef
  | starts r computed cached objs running waiting admitted =>
    exact objs.silent rfl rfl hsame.requests hsame.nextRef

lemma Moves.silent (h : Moves answers G st st') : Silent st.sched st'.sched := by
  induction h with
  | refl => exact .refl _
  | tail _ hmove ih => exact ih.trans hmove.silent

end ScheduleState

namespace Scheduler

variable {s s' : Scheduler} {r : Ref}

lemma schedule_silent {answers : ScheduleAnswers} {out : SchedulerOutput}
    (h : s.schedule answers = .ok (out, s')) : Silent s s' := by
  obtain ⟨st, st', s₁, hmoves, hrestore, hout, hupdate⟩ := schedule_spec (clean_none answers s) h
  obtain ⟨waiting, rfl, -⟩ := ScheduleState.restoreSkipped_spec hrestore
  have hrestored : Silent st.sched (st.setWaiting waiting).sched :=
    ⟨fun _ => rfl, fun _ => rfl, fun _ _ => id, rfl⟩
  have hkeeps := (ScheduleState.makeOutput_keeps hout).trans (updateAfterSchedule_keeps hupdate)
  exact (hmoves.silent.trans hrestored).trans hkeeps.silent

/-- A request keeps its status or is finished. -/
def KeepsOrEnds (s s' : Scheduler) : Prop :=
  ∀ r, (s'.objs r).status = (s.objs r).status ∨ (s'.objs r).isFinished = true

lemma finishLoop_silent {answers : FinishAnswers} {status : RequestStatus} {rs : List Ref}
    (h : finishLoop answers status s rs = .ok s') (hfinished : status.isFinished = true) :
    Silent s s' ∧ KeepsOrEnds s s' := by
  induction rs generalizing s with
  | nil =>
    obtain rfl := Except.ok.inj h
    exact ⟨.refl s, fun _ => Or.inl rfl⟩
  | cons r rest ih =>
    obtain ⟨⟨params, s₁⟩, hfree, hrest⟩ := bind_eq_ok.mp h
    have hloses := (freeRequest_frees hfree).loses
    obtain ⟨hsilent, hends⟩ := ih hrest
    refine ⟨((Silent.setStatus s r status).trans hloses.silent).trans hsilent, fun r' => ?_⟩
    refine (hends r').elim (fun hkept => ?_) Or.inr
    rw [Request.isFinished, hkept, hloses.objs]
    simp only [setStatus, modify]
    split_ifs
    · exact Or.inr hfinished
    · exact Or.inl rfl

lemma finishRequests_silent {answers : FinishAnswers} {requestIds : List String}
    {status : RequestStatus} (h : s.finishRequests answers requestIds status = .ok s')
    (hreg : Registry s s.running s.waiting.refs) : Silent s s' ∧ KeepsOrEnds s s' := by
  obtain ⟨_, hfinished, hrest⟩ := bind_eq_ok.mp h
  obtain ⟨s₁, hremove, hloop⟩ := bind_eq_ok.mp hrest
  obtain ⟨waiting, rfl, -⟩ := removeFromQueues_spec hremove hreg
  obtain ⟨hsilent, hends⟩ := finishLoop_silent hloop (pyAssert_eq_ok.mp hfinished)
  exact ⟨⟨hsilent.requestId, hsilent.outputTokenIds, hsilent.requests, hsilent.nextRef⟩, hends⟩

lemma updateTransfers_loses {runner : ModelRunnerOutput} (h : s.updateTransfers runner = .ok s') :
    Loses s s' := by
  unfold updateTransfers at h
  split at h
  · obtain rfl := Except.ok.inj h
    exact .refl s
  · refine foldlM_invariant (P := fun s' => Loses s s') (fun id _ s₁ s₂ h₁ hsend => ?_) ?_ h
    · obtain ⟨r, -, hfree⟩ := bind_eq_ok.mp hsend
      exact h₁.trans (freeBlocks_frees hfree).loses
    · exact ⟨rfl, fun _ _ => id, rfl⟩

lemma removeStopped_loses {st : UpdateState} (h : st.removeStopped = .ok s') :
    Loses st.sched s' := by
  simp only [UpdateState.removeStopped] at h
  split_ifs at h
  · obtain rfl := Except.ok.inj h
    exact ⟨rfl, fun _ _ => id, rfl⟩
  · obtain ⟨waiting, -, hret⟩ := bind_eq_ok.mp h
    obtain rfl := Except.ok.inj hret
    exact ⟨rfl, fun _ _ => id, rfl⟩

end Scheduler

namespace UpdateState

open Scheduler

variable {s : Scheduler} {st st' : UpdateState} {r : Ref} {out : SchedulerOutput}
  {runner : ModelRunnerOutput} {answers : FinishAnswers}

/-- The tokens that a request got from the output for `ids`: nothing, or the first tokens of
those sampled for its id. -/
def Got (s : Scheduler) (runner : ModelRunnerOutput) (ids : List String) (r : Ref)
    (tokens : List Int) : Prop :=
  tokens = [] ∨ ∃ id sampled, id ∈ ids ∧ s.requests.get? id = some r ∧
    Sampled runner id sampled ∧ tokens <+: sampled

/-- What the entries for `ids` of an output do to the requests. -/
structure Appended (s : Scheduler) (runner : ModelRunnerOutput) (ids : List String)
    (s' : Scheduler) : Prop where
  requestId : ∀ r, (s'.objs r).requestId = (s.objs r).requestId
  requests : ∀ id r, s'.requests.get? id = some r → s.requests.get? id = some r
  nextRef : s'.nextRef = s.nextRef
  status : KeepsOrEnds s s'
  tokens : ∀ r, ∃ tokens, Got s runner ids r tokens ∧
    (s'.objs r).outputTokenIds = (s.objs r).outputTokenIds ++ tokens

lemma Appended.loses {s' s'' : Scheduler} {ids : List String} (h : Appended s runner ids s')
    (hloses : Loses s' s'') : Appended s runner ids s'' where
  requestId r := by rw [hloses.objs, h.requestId]
  requests id r hget := h.requests id r (hloses.requests id r hget)
  nextRef := hloses.nextRef.trans h.nextRef
  status r := by
    rw [hloses.objs]
    exact h.status r
  tokens r := by
    rw [hloses.objs]
    exact h.tokens r

lemma Outcome.loses {s₁ : Scheduler} (h : Outcome st st' s₁ r) :
    Loses s₁ st'.sched ∧
      ((s₁.objs r).status = (st.sched.objs r).status ∨ (s₁.objs r).isFinished = true) := by
  cases h with
  | goesOn sched status running preempted =>
    rw [sched]
    exact ⟨.refl s₁, Or.inl status⟩
  | stops finished frees notes => exact ⟨frees.loses, Or.inr finished⟩

lemma updateEntry_appended (hreg : Registry s s.running s.waiting.refs) {ids : List String}
    {scheduled : String × Int} (hnew : scheduled.1 ∉ ids) (hst : Appended s runner ids st.sched)
    (h : st.updateEntry out runner answers scheduled = .ok st') :
    Appended s runner (ids ++ [scheduled.1]) st'.sched := by
  have hwider : ∀ {r tokens}, Got s runner ids r tokens →
      Got s runner (ids ++ [scheduled.1]) r tokens := by
    rintro r tokens (hnil | ⟨id, sampled, hid, hrest⟩)
    · exact Or.inl hnil
    · exact Or.inr ⟨id, sampled, List.mem_append_left _ hid, hrest⟩
  obtain ⟨_, -, hrest⟩ := bind_eq_ok.mp h
  split at hrest
  · obtain rfl := Except.ok.inj hrest
    refine ⟨hst.requestId, hst.requests, hst.nextRef, hst.status, fun r => ?_⟩
    obtain ⟨tokens, hgot, heq⟩ := hst.tokens r
    exact ⟨tokens, hwider hgot, heq⟩
  · rename_i r hget
    obtain ⟨sampled, appended, s₁, hsampled, htaken, happends, houtcome⟩ := updateRequest_spec hrest
    obtain ⟨hloses, hstatus⟩ := houtcome.loses
    have hget₀ := hst.requests _ r hget
    refine Appended.loses ⟨fun r' => ?_, fun id r' hget' => ?_, ?_, fun r' => ?_, fun r' => ?_⟩ hloses
    · rw [← hst.requestId r']
      by_cases hne : r' = r
      · rw [hne, happends.requestId]
      · rw [happends.others r' hne]
    · rw [happends.requests] at hget'
      exact hst.requests id r' hget'
    · rw [happends.nextRef, hst.nextRef]
    · by_cases hne : r' = r
      · rw [hne]
        rcases hstatus with hkept | hended
        · rw [Request.isFinished, hkept]
          exact hst.status r
        · exact Or.inr hended
      · rw [happends.others r' hne]
        exact hst.status r'
    · obtain ⟨tokens, hgot, heq⟩ := hst.tokens r'
      by_cases hne : r' = r
      · rw [hne] at hgot heq ⊢
        -- no earlier entry is about this request, whose id comes now
        have hnil : tokens = [] := by
          refine hgot.resolve_right ?_
          rintro ⟨id, -, hid, hget', -⟩
          have hname := (hreg.named id r hget').1
          rw [(hreg.named _ r hget₀).1] at hname
          exact hnew (hname ▸ hid)
        rw [hnil, List.append_nil] at heq
        refine ⟨appended, Or.inr ⟨scheduled.1, sampled, by simp, hget₀, hsampled, htaken⟩, ?_⟩
        rw [happends.outputTokenIds, heq]
      · rw [happends.others r' hne]
        exact ⟨tokens, hwider hgot, heq⟩

lemma updateEntries_appended (hreg : Registry s s.running s.waiting.refs)
    {entries : List (String × Int)} {ids : List String}
    (hnodup : (ids ++ entries.map Prod.fst).Nodup) (hst : Appended s runner ids st.sched)
    (h : entries.foldlM (updateEntry out runner answers) st = .ok st') :
    Appended s runner (ids ++ entries.map Prod.fst) st'.sched := by
  induction entries generalizing st ids with
  | nil =>
    obtain rfl := Except.ok.inj h
    simpa using hst
  | cons entry rest ih =>
    rw [List.foldlM_cons] at h
    obtain ⟨st₁, hentry, hrest⟩ := bind_eq_ok.mp h
    rw [List.map_cons, List.append_cons] at hnodup ⊢
    have hnew : entry.1 ∉ ids := fun hmem =>
      List.disjoint_of_nodup_append (List.nodup_append'.mp hnodup).1 hmem (List.mem_singleton_self _)
    exact ih hnodup (updateEntry_appended hreg hnew hst hentry) hrest

end UpdateState

namespace Scheduler

variable {s s' : Scheduler}

/-- What one output does to the requests. -/
theorem updateFromOutput_appended {out : SchedulerOutput} {runner : ModelRunnerOutput}
    {answers : FinishAnswers} {outputs : List EngineCoreOutput}
    (hreg : Registry s s.running s.waiting.refs)
    (h : s.updateFromOutput out runner answers = .ok (outputs, s')) :
    UpdateState.Appended s runner out.numScheduledTokens.keys s' := by
  obtain ⟨st, hloop, hrest⟩ := bind_eq_ok.mp h
  obtain ⟨s₁, hremove, hrest⟩ := bind_eq_ok.mp hrest
  obtain ⟨s₂, htransfers, hret⟩ := bind_eq_ok.mp hrest
  obtain ⟨-, rfl⟩ := Prod.mk.inj (Except.ok.inj hret)
  have hstart : UpdateState.Appended s runner [] s :=
    ⟨fun _ => rfl, fun _ _ => id, rfl, fun _ => Or.inl rfl,
      fun _ => ⟨[], Or.inl rfl, (List.append_nil _).symm⟩⟩
  have happended := UpdateState.updateEntries_appended hreg
    (by simpa using out.numScheduledTokens.nodup) hstart hloop
  exact happended.loses ((removeStopped_loses hremove).trans (updateTransfers_loses htransfers))

end Scheduler

namespace EngineState

open Scheduler

/-- What a request got from a processed step: nothing, or the first of the tokens sampled for
an id of the step under which this request was known when the step was issued. -/
def GotFrom (r : Ref) (step : IssuedStep × ModelRunnerOutput) (tokens : List Int) : Prop :=
  tokens = [] ∨ ∃ id sampled, id ∈ step.1.out.numScheduledTokens.keys ∧
    step.1.known.get? id = some r ∧ r < step.1.numAdded ∧
    UpdateState.Sampled step.2 id sampled ∧ tokens <+: sampled

/-- The output of a request is what it got from the processed steps, in their order. -/
def Attributed (σ : EngineState) : Prop :=
  ∀ r, ∃ parts, List.Forall₂ (GotFrom r) σ.processed parts ∧
    (σ.sched.objs r).outputTokenIds = parts.flatten

/-- An id of an issued step that is on its way is not given to a new request. -/
def KeepsIds (σ : EngineState) : EngineEvent → Prop
  | .addRequest request => ∀ step ∈ σ.inFlight,
      request.requestId ∉ step.out.numScheduledTokens.keys
  | _ => True

instance (σ : EngineState) : (e : EngineEvent) → Decidable (KeepsIds σ e)
  | .addRequest request => inferInstanceAs (Decidable (∀ step ∈ σ.inFlight,
      request.requestId ∉ step.out.numScheduledTokens.keys))
  | .finishRequests .. | .updateDraftTokenIds .. | .schedule _ | .updateFromOutput .. =>
    isTrue trivial

/-- The requests that are known now under the ids of a step on its way were known then. -/
structure Matches (σ : EngineState) : Prop where
  returned : σ.returned.length ≤ σ.issued.length
  known : ∀ step ∈ σ.inFlight, ∀ id ∈ step.out.numScheduledTokens.keys, ∀ r,
    σ.sched.requests.get? id = some r → step.known.get? id = some r ∧ r < step.numAdded

structure Attributing (σ : EngineState) : Prop extends Matches σ where
  registered : Registered σ
  attributed : Attributed σ

variable {σ σ' : EngineState}

lemma Matches.silent (h : Matches σ) {s : Scheduler} (hsilent : Silent σ.sched s) :
    Matches { σ with sched := s } :=
  ⟨h.returned, fun step hstep id hid r hget =>
    h.known step hstep id hid r (hsilent.requests id r hget)⟩

lemma Attributed.silent (h : Attributed σ) {s : Scheduler} (hsilent : Silent σ.sched s) :
    Attributed { σ with sched := s } := fun r => by
  obtain ⟨parts, hparts, heq⟩ := h r
  exact ⟨parts, hparts, (hsilent.outputTokenIds r).trans heq⟩

lemma Started.attributing (h : Started σ) : Attributing σ := by
  obtain ⟨-, -, hissued, hreturned⟩ := id h
  refine ⟨⟨by simp [hreturned], by simp [inFlight, hissued]⟩, h.registered, fun r => ⟨[], ?_, ?_⟩⟩
  · simp [processed, hissued]
  · rw [h.empty.objs]
    rfl

lemma Attributing.addRequest (h : Attributing σ) {e : EngineCoreRequest} {s : Scheduler}
    (hreg : Registered { σ with sched := s }) (hkeeps : KeepsIds σ (.addRequest e))
    (hadd : σ.sched.addRequest e = .ok s) : Attributing { σ with sched := s } := by
  obtain ⟨request, hadds⟩ := Scheduler.addRequest_adds hadd
  refine ⟨⟨h.returned, fun step hstep id hid r hget => ?_⟩, hreg, fun r => ?_⟩
  · have hne : e.requestId ≠ id := fun heq => hkeeps step hstep (heq ▸ hid)
    rw [hadds.requests, Dict.get?_set_of_ne hne] at hget
    exact h.known step hstep id hid r hget
  · by_cases hnew : r = σ.sched.nextRef
    · refine ⟨σ.processed.map fun _ => [], ?_, ?_⟩
      · exact List.forall₂_map_right_iff.mpr (List.forall₂_same.mpr fun step _ => Or.inl rfl)
      · rw [hnew, hadds.self, hadds.outputTokenIds]
        simp
    · obtain ⟨parts, hparts, heq⟩ := h.attributed r
      exact ⟨parts, hparts, by rw [hadds.others r hnew, heq]⟩

lemma Attributing.schedule (h : Attributing σ) {answers : ScheduleAnswers} {out : SchedulerOutput}
    {s : Scheduler} (hreg : Registered (σ.issue out s))
    (hschedule : σ.sched.schedule answers = .ok (out, s)) : Attributing (σ.issue out s) := by
  have hsilent := Scheduler.schedule_silent hschedule
  refine ⟨⟨?_, fun step hstep id hid r hget => ?_⟩, hreg, fun r => ?_⟩
  · simpa [issue] using Nat.le_succ_of_le h.returned
  · simp only [inFlight, issue, List.drop_append_of_le_length h.returned, List.mem_append,
      List.mem_singleton] at hstep
    rcases hstep with hstep | rfl
    · exact h.known step hstep id hid r (hsilent.requests id r hget)
    · exact ⟨hget, (hreg.named id r hget).2⟩
  · obtain ⟨parts, hparts, heq⟩ := h.attributed r
    refine ⟨parts, ?_, (hsilent.outputTokenIds r).trans heq⟩
    simpa only [processed, issue, List.take_append_of_le_length h.returned] using hparts

lemma Attributing.updateFromOutput (h : Attributing σ) {step : IssuedStep} {rest : List IssuedStep}
    {runner : ModelRunnerOutput} {answers : FinishAnswers} {outputs : List EngineCoreOutput}
    {s : Scheduler} (hflight : σ.inFlight = step :: rest)
    (hreg : Registered { σ with sched := s, returned := σ.returned ++ [runner] })
    (hupdate : σ.sched.updateFromOutput step.out runner answers = .ok (outputs, s)) :
    Attributing { σ with sched := s, returned := σ.returned ++ [runner] } := by
  have happended := Scheduler.updateFromOutput_appended h.registered hupdate
  have hget : σ.issued[σ.returned.length]? = some step := by
    rw [← List.head?_drop]
    exact congrArg List.head? hflight
  have hlt : σ.returned.length < σ.issued.length := (List.getElem?_eq_some_iff.mp hget).1
  have hrest : σ.issued.drop (σ.returned.length + 1) = rest := by
    rw [← List.tail_drop]
    exact congrArg List.tail hflight
  refine ⟨⟨?_, fun step' hstep' id hid r hknown => ?_⟩, hreg, fun r => ?_⟩
  · rw [List.length_append]
    exact hlt
  · simp only [inFlight, List.length_append, List.length_singleton, hrest] at hstep'
    refine h.known step' ?_ id hid r (happended.requests id r hknown)
    rw [hflight]
    exact List.mem_cons_of_mem step hstep'
  · obtain ⟨parts, hparts, heq⟩ := h.attributed r
    obtain ⟨tokens, hgot, houtput⟩ := happended.tokens r
    refine ⟨parts ++ [tokens], ?_, ?_⟩
    · have hprocessed : processed { σ with sched := s, returned := σ.returned ++ [runner] } =
          σ.processed ++ [(step, runner)] := by
        have hlen : (σ.issued.take σ.returned.length).length = σ.returned.length := by
          rw [List.length_take]
          exact Nat.min_eq_left h.returned
        simp only [processed, List.length_append, List.length_singleton]
        rw [List.take_add_one, hget, Option.toList_some, List.zip_append hlen]
        rfl
      rw [hprocessed]
      refine List.rel_append hparts (List.Forall₂.cons ?_ .nil)
      rcases hgot with hnil | ⟨id, sampled, hid, hknown, hsampled, htaken⟩
      · exact Or.inl hnil
      · obtain ⟨hthen, hadded⟩ := h.known step (hflight ▸ List.mem_cons_self) id hid r hknown
        exact Or.inr ⟨id, sampled, hid, hthen, hadded, hsampled, htaken⟩
    · rw [houtput, heq]
      simp

lemma Attributing.next (h : Attributing σ) {e : EngineEvent} (hok : Admissible σ e)
    (hkeeps : KeepsIds σ e) (hnext : σ.next e = .ok σ') : Attributing σ' := by
  have hreg := h.registered.next hok hnext
  cases e with
  | addRequest request =>
    obtain ⟨s, hadd, hret⟩ := bind_eq_ok.mp hnext
    obtain rfl := Except.ok.inj hret
    exact h.addRequest hreg hkeeps hadd
  | finishRequests answers requestIds status =>
    obtain ⟨s, hfinish, hret⟩ := bind_eq_ok.mp hnext
    obtain rfl := Except.ok.inj hret
    obtain ⟨hsilent, -⟩ := Scheduler.finishRequests_silent hfinish h.registered
    exact ⟨h.toMatches.silent hsilent, hreg, h.attributed.silent hsilent⟩
  | updateDraftTokenIds answers drafts =>
    obtain rfl := Except.ok.inj hnext
    have hsilent := (Scheduler.updateDraftTokenIds_keeps σ.sched answers drafts).silent
    exact ⟨h.toMatches.silent hsilent, hreg, h.attributed.silent hsilent⟩
  | schedule answers =>
    obtain ⟨⟨out, s⟩, hschedule, hret⟩ := bind_eq_ok.mp hnext
    obtain rfl := Except.ok.inj hret
    exact h.schedule hreg hschedule
  | updateFromOutput runner answers =>
    simp only [EngineState.next] at hnext
    split at hnext
    · cases hnext
    · rename_i step rest hflight
      obtain ⟨⟨outputs, s⟩, hupdate, hret⟩ := bind_eq_ok.mp hnext
      obtain rfl := Except.ok.inj hret
      exact h.updateFromOutput hflight hreg hupdate

/-- As long as ids on their way are not given out again, every token goes to the request it
was sampled for, once and in the order of the steps. -/
theorem attributed_of_keepsIds (σ : EngineState)
    (h : ReachedBy (fun σ e => Admissible σ e ∧ KeepsIds σ e) σ) : Attributed σ := by
  have hσ : Attributing σ := by
    refine Runs.Reached.invariant (fun σ hstart => ?_) (fun σ e σ' hσ hok hnext => ?_) h
    · exact Started.attributing hstart
    · exact Attributing.next hσ hok.1 hok.2 hnext
  exact hσ.attributed

/-- One group of full attention; two steps of the pipeline may be on their way. -/
def pipelineConfig : SchedulerConfig where
  kv :=
    { numBlocks := 6
      kvCacheGroups := [⟨2, .full, Nat.two_pos⟩]
      maxModelLen := 16
      enableCaching := false }
  blockSize := 2
  maxNumRunningReqs := 2
  maxNumScheduledTokens := 8
  usePp := true

/-- The output of the model for one request. -/
def sampledFor (requestId : String) (tokens : List Int) : ModelRunnerOutput where
  reqIdToIndex := Dict.empty.set requestId 0
  sampledTokenIds := [tokens]

/-- Two steps are issued before the output of the first comes back. -/
def overlappingEvents : List EngineEvent :=
  [.addRequest { requestId := "a", prompt := .tokenIds [1, 2, 3] }, .schedule {},
    .addRequest { requestId := "b", prompt := .tokenIds [7, 8] }, .schedule {},
    .updateFromOutput (sampledFor "a" [42]) fun _ => (false, false),
    .updateFromOutput (sampledFor "b" [9]) fun _ => (false, false)]

theorem attributed_overlapping : ∃ σ, ReachedBy (fun σ e => Admissible σ e ∧ KeepsIds σ e) σ ∧
    (σ.sched.objs 0).outputTokenIds = [42] ∧ (σ.sched.objs 1).outputTokenIds = [9] ∧
    Attributed σ := by
  have hview : (runFrom (fun σ e => Admissible σ e ∧ KeepsIds σ e) pipelineConfig
      overlappingEvents).map (fun σ =>
        ((σ.sched.objs 0).outputTokenIds, (σ.sched.objs 1).outputTokenIds)) =
      some ([42], [9]) := by decide +kernel
  obtain ⟨σ, hrun, hrest⟩ := Option.map_eq_some_iff.mp hview
  obtain ⟨hfirst, hsecond⟩ := Prod.mk.inj hrest
  have hreached := ReachedBy.of_runFrom (fun _ _ _ hok => hok) hrun
  exact ⟨σ, hreached, hfirst, hsecond, attributed_of_keepsIds σ hreached⟩

/-- A request is aborted while its first step is computed. -/
def abortedEvents : List EngineEvent :=
  [.addRequest { requestId := "a", prompt := .tokenIds [1, 2, 3] }, .schedule {},
    .finishRequests (fun _ => (false, false)) ["a"] .finishedAborted]

/-- Another request comes under its id before the output of the step. -/
def reusedIdEvents : List EngineEvent :=
  abortedEvents ++ [.addRequest { requestId := "a", prompt := .tokenIds [7, 8] },
    .updateFromOutput (sampledFor "a" [42]) fun _ => (false, false)]

/-- The token sampled for the aborted request is appended to the other one, which has not
been scheduled. -/
theorem not_attributed_reusedId :
    ¬ ∀ σ, ReachedBy Admissible σ → Attributed σ := by
  intro hclaim
  have hview : (runFrom Admissible pipelineConfig reusedIdEvents).map (fun σ =>
      ((σ.sched.objs 1).outputTokenIds,
        σ.processed.all fun step => step.1.known.values.all (· ≠ 1))) =
      some ([42], true) := by decide +kernel
  obtain ⟨σ, hrun, hrest⟩ := Option.map_eq_some_iff.mp hview
  obtain ⟨houtput, hknown⟩ := Prod.mk.inj hrest
  obtain ⟨parts, hparts, heq⟩ := hclaim σ (.of_runFrom (fun _ _ _ hok => hok) hrun) 1
  have hnone : ∀ tokens ∈ parts, tokens = [] := by
    intro tokens htokens
    obtain ⟨i, hi, rfl⟩ := List.getElem_of_mem htokens
    have hlen : i < σ.processed.length := hparts.length_eq ▸ hi
    refine (hparts.get hlen hi).resolve_right ?_
    rintro ⟨id, sampled, -, hget, -⟩
    -- no request of a processed step is the second one
    have hvalue : 1 ∈ (σ.processed.get ⟨i, hlen⟩).1.known.values :=
      List.mem_map.mpr ⟨_, Dict.get?_eq_some_iff.mp hget, rfl⟩
    have hall := List.all_eq_true.mp hknown _ (List.get_mem σ.processed ⟨i, hlen⟩)
    cases List.all_eq_true.mp hall 1 hvalue
  rw [List.flatten_eq_nil_iff.mpr hnone, houtput] at heq
  cases heq

end EngineState

end VllmV1
