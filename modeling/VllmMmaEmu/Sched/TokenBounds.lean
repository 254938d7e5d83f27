import VllmMmaEmu.Sched.Attribution
import VllmMmaEmu.Sched.Contents

/-!
# How many tokens a request has

A request that is not finished is shorter than the model allows, or as long as its prompt: the
check after each token ends it otherwise. Its draft tokens are a list of its own.
-/

namespace VllmV1

open Python

namespace ScheduleState

variable {answers : ScheduleAnswers} {G : Guard} {st st' : ScheduleState} {r : Ref}

lemma Move.isFinished (h : Move answers G st st')
    (hreg : Registry st.sched st.sched.running st.waitingRefs) (r : Ref) :
    (st'.sched.objs r).isFinished = (st.sched.objs r).isFinished := by
  have hreplaced : ∀ {r' : Ref} {request : Request}, Replaces st.sched st'.sched r' request →
      request.isFinished = false → (st.sched.objs r').isFinished = false →
      (st'.sched.objs r).isFinished = (st.sched.objs r).isFinished := by
    intro r' request hobjs hnew hold
    by_cases hne : r = r'
    · rw [hne, hobjs.self, hnew, hold]
    · rw [hobjs.others r hne]
  obtain ⟨-, heffect⟩ := h.effect
  cases heffect with
  | quiet objs running waiting admitted => rw [objs]
  | preempted v objs running waiting admitted =>
    have hv : v ∈ st.sched.running := running.mem_iff.mp List.mem_cons_self
    exact hreplaced objs rfl (hreg.unfinished (List.mem_append_left _ hv))
  | woken r' n hr status objs running waiting admitted =>
    exact hreplaced objs rfl (hreg.unfinished (List.mem_append_right _ hr))
  | loads r' hr guard objs running waiting admitted =>
    exact hreplaced objs rfl (hreg.unfinished (List.mem_append_right _ hr))
  | starts r' computed cached objs running waiting admitted =>
    have hr : r' ∈ st.waitingRefs := waiting.mem_iff.mp List.mem_cons_self
    exact hreplaced objs rfl (hreg.unfinished (List.mem_append_right _ hr))

lemma Moves.isFinished (h : Moves answers G st st')
    (hreg : Registry st.sched st.sched.running st.waitingRefs) (r : Ref) :
    (st'.sched.objs r).isFinished = (st.sched.objs r).isFinished := by
  induction h with
  | refl => rfl
  | tail hmoves hmove ih => exact (hmove.isFinished (Moves.registry hmoves hreg) r).trans ih

end ScheduleState

namespace Scheduler

variable {s s' s'' : Scheduler} {r : Ref}

lemma start_registry (hreg : Registry s s.running s.waiting.refs) :
    Registry (ScheduleState.start s).sched (ScheduleState.start s).sched.running
      (ScheduleState.start s).waitingRefs := by
  simpa [ScheduleState.start, ScheduleState.waitingRefs, RequestQueue.refs] using hreg

lemma schedule_isFinished {answers : ScheduleAnswers} {out : SchedulerOutput}
    (h : s.schedule answers = .ok (out, s')) (hreg : Registry s s.running s.waiting.refs)
    (r : Ref) : (s'.objs r).isFinished = (s.objs r).isFinished := by
  obtain ⟨st, st', s₁, hmoves, hrestore, hout, hupdate⟩ := schedule_spec (clean_none answers s) h
  have hfinished := hmoves.isFinished (start_registry hreg) r
  obtain ⟨waiting, rfl, -⟩ := ScheduleState.restoreSkipped_spec hrestore
  have hkeeps := (ScheduleState.makeOutput_keeps hout).trans (updateAfterSchedule_keeps hupdate)
  rw [Request.isFinished, hkeeps.status]
  exact hfinished

/-- A request that is not finished has its tokens as before, or got more and is still shorter
than the model allows. -/
structure Grows (s s' : Scheduler) : Prop where
  specRef : s'.specRef = s.specRef
  nextList : s'.nextList = s.nextList
  nextRef : s'.nextRef = s.nextRef
  config : s'.config = s.config
  unfinished : ∀ r, (s'.objs r).isFinished = false → (s.objs r).isFinished = false
  numTokens : ∀ r, (s.objs r).numTokens ≤ (s'.objs r).numTokens
  short : ∀ r, (s'.objs r).isFinished = false →
    (s'.objs r).numTokens = (s.objs r).numTokens ∨ ((s'.objs r).numTokens : Int) < s.maxModelLen

namespace Grows

lemma of_contents (h : SameContents s s')
    (hfinished : ∀ r, (s'.objs r).isFinished = false → (s.objs r).isFinished = false) :
    Grows s s' where
  specRef := h.specRef
  nextList := h.nextList
  nextRef := h.nextRef
  config := h.config
  unfinished := hfinished
  numTokens r := (h.numTokens r).ge
  short r _ := Or.inl (h.numTokens r)

lemma refl (s : Scheduler) : Grows s s := of_contents (.refl s) fun _ => id

lemma trans (h : Grows s s') (h' : Grows s' s'') : Grows s s'' where
  specRef := h'.specRef.trans h.specRef
  nextList := h'.nextList.trans h.nextList
  nextRef := h'.nextRef.trans h.nextRef
  config := h'.config.trans h.config
  unfinished r hr := h.unfinished r (h'.unfinished r hr)
  numTokens r := (h.numTokens r).trans (h'.numTokens r)
  short r hr := by
    have hlen : s'.maxModelLen = s.maxModelLen := maxModelLen_congr h.config
    rcases h'.short r hr with heq | hlt
    · rw [heq]
      exact h.short r (h'.unfinished r hr)
    · exact Or.inr (hlen ▸ hlt)

end Grows

lemma schedule_grows {answers : ScheduleAnswers} {out : SchedulerOutput}
    (h : s.schedule answers = .ok (out, s')) (hreg : Registry s s.running s.waiting.refs) :
    Grows s s' :=
  .of_contents (schedule_contents h) fun r hr => by rwa [← schedule_isFinished h hreg r]

lemma finishRequests_grows {answers : FinishAnswers} {requestIds : List String}
    {status : RequestStatus} (h : s.finishRequests answers requestIds status = .ok s')
    (hreg : Registry s s.running s.waiting.refs) : Grows s s' := by
  obtain ⟨-, hends⟩ := finishRequests_silent h hreg
  refine .of_contents (finishRequests_contents h) fun r hr => ?_
  rcases hends r with hkept | hfinished
  · rwa [Request.isFinished, hkept] at hr
  · rw [hfinished] at hr
    cases hr

lemma Loses.grows (h : Loses s s') (hcontents : SameContents s s') : Grows s s' :=
  .of_contents hcontents fun r hr => by rwa [h.objs] at hr

lemma checkStop_none {request : Request} {maxModelLen : Int} {poolerOutput : Bool}
    (h : checkStop request maxModelLen poolerOutput = .ok none) :
    (request.numTokens : Int) < maxModelLen := by
  unfold checkStop at h
  split_ifs at h with hlong
  · cases Except.ok.inj h
  · exact not_le.mp fun hle => hlong (Or.inl hle)
  · exact not_le.mp fun hle => hlong (Or.inl hle)
  · exact not_le.mp fun hle => hlong (Or.inl hle)

/-- Only the tokens of `r` grow, and the result of the check is known. -/
structure GrowsAt (s s' : Scheduler) (r : Ref) (stopped : Bool) : Prop where
  specRef : s'.specRef = s.specRef
  nextList : s'.nextList = s.nextList
  others : ∀ r' ≠ r, s'.objs r' = s.objs r'
  numTokens : (s.objs r).numTokens ≤ (s'.objs r).numTokens
  short : stopped = false → (s'.objs r).numTokens = (s.objs r).numTokens ∨
    ((s'.objs r).numTokens : Int) < s.maxModelLen

lemma appendToken_growsAt {token : Int} (h : s.appendToken r token = .ok s') :
    s'.specRef = s.specRef ∧ s'.nextList = s.nextList ∧ s'.config = s.config ∧
      (∀ r' ≠ r, s'.objs r' = s.objs r') ∧
      (s'.objs r).numTokens = (s.objs r).numTokens + 1 := by
  obtain ⟨request, happend, hret⟩ := bind_eq_ok.mp h
  obtain rfl := Except.ok.inj hret
  obtain ⟨hashes, rfl⟩ := appendOutputTokenIds_spec happend
  refine ⟨rfl, rfl, rfl, fun r' hne => if_neg hne, ?_⟩
  simp [modify, Request.numTokens, Request.addOutput]

lemma applyStop_contents {poolerOutput stopped : Bool}
    (h : s.applyStop r poolerOutput = .ok (stopped, s')) : SameContents s s' := by
  obtain ⟨-, hgoes, hstops⟩ := applyStop_spec h
  cases stopped with
  | false =>
    obtain ⟨rfl, -⟩ := hgoes rfl
    exact .refl s'
  | true =>
    obtain ⟨status, rfl, -⟩ := hstops rfl
    exact .setStatus s r status

lemma appendLoop_growsAt {tokens appended : List Int} {stopped : Bool}
    (h : appendLoop r s tokens = .ok (appended, stopped, s')) : GrowsAt s s' r stopped := by
  induction tokens generalizing s appended with
  | nil =>
    obtain ⟨-, hret⟩ := Prod.mk.inj (Except.ok.inj h)
    obtain ⟨rfl, rfl⟩ := Prod.mk.inj hret
    exact ⟨rfl, rfl, fun _ _ => rfl, le_refl _, fun _ => Or.inl rfl⟩
  | cons token rest ih =>
    obtain ⟨s₁, happend, hloop⟩ := bind_eq_ok.mp h
    obtain ⟨⟨stop, s₂⟩, hstop, hrest⟩ := bind_eq_ok.mp hloop
    obtain ⟨hspec, hlist, hconfig, hothers, hnum⟩ := appendToken_growsAt happend
    obtain ⟨-, hgoes, hstops⟩ := applyStop_spec hstop
    cases stop with
    | true =>
      obtain ⟨-, hret⟩ := Prod.mk.inj (Except.ok.inj hrest)
      obtain ⟨rfl, rfl⟩ := Prod.mk.inj hret
      obtain ⟨status, rfl, -⟩ := hstops rfl
      have hset := SameContents.setStatus s₁ r status
      refine ⟨hspec, hlist, fun r' hne => (if_neg hne).trans (hothers r' hne), ?_, nofun⟩
      rw [hset.numTokens, hnum]
      exact Nat.le_succ _
    | false =>
      obtain ⟨rfl, hcheck⟩ := hgoes rfl
      obtain ⟨⟨appended', stopped', s₃⟩, hloop', hret⟩ := bind_eq_ok.mp hrest
      obtain ⟨-, hpair⟩ := Prod.mk.inj (Except.ok.inj hret)
      obtain ⟨rfl, rfl⟩ := Prod.mk.inj hpair
      have hgrows := ih hloop'
      have hlen : s₂.maxModelLen = s.maxModelLen := maxModelLen_congr hconfig
      have hshort := checkStop_none hcheck
      refine ⟨hgrows.specRef.trans hspec, hgrows.nextList.trans hlist,
        fun r' hne => (hgrows.others r' hne).trans (hothers r' hne), ?_, fun hgo => Or.inr ?_⟩
      · have hle := hgrows.numTokens
        omega
      · rcases hgrows.short hgo with heq | hlt
        · rw [heq, ← hlen]
          exact hshort
        · rwa [← hlen]

lemma rollback_contents (s : Scheduler) (out : SchedulerOutput) (r : Ref) (requestId : String)
    (generated : List Int) : SameContents s (s.rollback out r requestId generated) := by
  unfold rollback
  split
  · exact .refl s
  · split_ifs
    · exact .refl s
    · exact .modify s r fun _ => rfl

lemma settlePlaceholders_contents {status : RequestStatus} {n : Nat}
    (h : s.settlePlaceholders r status n = .ok s') : SameContents s s' := by
  have hset : SameContents s (s.modify r fun request =>
      { request with numOutputPlaceholders := request.numOutputPlaceholders - n }) :=
    .modify s r fun _ => rfl
  obtain ⟨_, -, hrest⟩ := bind_eq_ok.mp h
  split_ifs at hrest
  · obtain ⟨kv, -, hret⟩ := bind_eq_ok.mp hrest
    obtain rfl := Except.ok.inj hret
    exact ⟨hset.content, rfl, rfl, rfl, rfl⟩
  · obtain rfl := Except.ok.inj hrest
    exact hset

/-- A request that goes on after its tokens were appended is shorter than the model allows, or
has got none. -/
lemma updateRequestWithOutput_short {tokens appended : List Int} {stopped : Bool}
    (h : s.updateRequestWithOutput r tokens = .ok (appended, stopped, s')) :
    s'.specRef = s.specRef ∧ s'.nextList = s.nextList ∧
      (s.objs r).numTokens ≤ (s'.objs r).numTokens ∧
      (stopped = false → (s'.objs r).numTokens = (s.objs r).numTokens ∨
        ((s'.objs r).numTokens : Int) < s.maxModelLen) := by
  unfold updateRequestWithOutput at h
  split_ifs at h
  · obtain ⟨-, hpair⟩ := Prod.mk.inj (Except.ok.inj h)
    obtain ⟨-, rfl⟩ := Prod.mk.inj hpair
    exact ⟨rfl, rfl, le_refl _, fun _ => Or.inl rfl⟩
  · obtain ⟨⟨appended', stopped', s₁⟩, hloop, hrest⟩ := bind_eq_ok.mp h
    have hgrows := appendLoop_growsAt hloop
    dsimp only at hrest
    split_ifs at hrest
    · obtain ⟨s₂, hsettle, hret⟩ := bind_eq_ok.mp hrest
      obtain ⟨-, hpair⟩ := Prod.mk.inj (Except.ok.inj hret)
      obtain ⟨rfl, rfl⟩ := Prod.mk.inj hpair
      have hcontents := settlePlaceholders_contents hsettle
      rw [hcontents.specRef, hcontents.nextList, hcontents.numTokens]
      exact ⟨hgrows.specRef, hgrows.nextList, hgrows.numTokens, hgrows.short⟩
    · obtain ⟨-, hpair⟩ := Prod.mk.inj (Except.ok.inj hrest)
      obtain ⟨rfl, rfl⟩ := Prod.mk.inj hpair
      exact ⟨hgrows.specRef, hgrows.nextList, hgrows.numTokens, hgrows.short⟩

lemma poolerStop_short {runner : ModelRunnerOutput} {index : Nat}
    {poolerOutput stopped stopped' : Bool}
    (h : s.poolerStop runner r index stopped = .ok (poolerOutput, stopped', s')) :
    SameContents s s' ∧
      (stopped' = false → stopped = false ∨ ((s.objs r).numTokens : Int) < s.maxModelLen) := by
  unfold poolerStop at h
  split_ifs at h
  · obtain ⟨-, hpair⟩ := Prod.mk.inj (Except.ok.inj h)
    obtain ⟨rfl, rfl⟩ := Prod.mk.inj hpair
    exact ⟨.refl s, Or.inl⟩
  · obtain ⟨output, -, hrest⟩ := bind_eq_ok.mp h
    obtain ⟨⟨stop, s₂⟩, hstop, hret⟩ := bind_eq_ok.mp hrest
    obtain ⟨-, hpair⟩ := Prod.mk.inj (Except.ok.inj hret)
    obtain ⟨rfl, rfl⟩ := Prod.mk.inj hpair
    obtain ⟨-, hgoes, -⟩ := applyStop_spec hstop
    exact ⟨applyStop_contents hstop, fun hgo => Or.inr (checkStop_none (hgoes hgo).2)⟩

end Scheduler

namespace UpdateState

open Scheduler

variable {out : SchedulerOutput} {runner : ModelRunnerOutput} {answers : FinishAnswers}
  {st st' : UpdateState} {r : Ref} {requestId : String}

lemma freeStopped_contents {status : RequestStatus} {stopped params : Bool}
    (h : st.freeStopped answers r status stopped = .ok (params, st')) :
    SameContents st.sched st'.sched ∧ st'.sched.objs = st.sched.objs := by
  unfold freeStopped at h
  split_ifs at h
  · obtain ⟨⟨params', s⟩, hfreed, hrest⟩ := bind_eq_ok.mp h
    obtain ⟨-, rfl⟩ := Prod.mk.inj (Except.ok.inj hrest)
    exact ⟨freeRequest_contents hfreed, (freeRequest_frees hfreed).objs⟩
  · obtain ⟨⟨params', s⟩, hfreed, hrest⟩ := bind_eq_ok.mp h
    obtain ⟨-, rfl⟩ := Prod.mk.inj (Except.ok.inj hrest)
    exact ⟨freeRequest_contents hfreed, (freeRequest_frees hfreed).objs⟩
  · obtain ⟨-, rfl⟩ := Prod.mk.inj (Except.ok.inj h)
    exact ⟨.refl _, rfl⟩

lemma updateRequest_grows (h : st.updateRequest out runner answers requestId r = .ok st') :
    Grows st.sched st'.sched := by
  obtain ⟨generated, appended, s₁, -, -, happends, houtcome⟩ := updateRequest_spec h
  have hothers : ∀ r' ≠ r, st'.sched.objs r' = st.sched.objs r' := fun r' hne => by
    cases houtcome with
    | goesOn sched status running preempted => rw [sched, happends.others r' hne]
    | stops finished frees notes => rw [frees.objs, happends.others r' hne]
  have hends : (st'.sched.objs r).isFinished = false → (st.sched.objs r).isFinished = false := by
    intro hr
    cases houtcome with
    | goesOn sched status running preempted =>
      rwa [sched, Request.isFinished, status] at hr
    | stops finished frees notes =>
      rw [frees.objs, finished] at hr
      cases hr
  have hkept : st'.sched.nextRef = st.sched.nextRef ∧ st'.sched.config = st.sched.config := by
    cases houtcome with
    | goesOn sched status running preempted =>
      rw [sched]
      exact ⟨happends.nextRef, happends.config⟩
    | stops finished frees notes =>
      exact ⟨frees.nextRef.trans happends.nextRef, frees.config.trans happends.config⟩
  obtain ⟨index, -, hrest⟩ := bind_eq_ok.mp h
  obtain ⟨generated, -, hrest⟩ := bind_eq_ok.mp hrest
  obtain ⟨⟨appended, stopped, s₂⟩, hupdate, hrest⟩ := bind_eq_ok.mp hrest
  obtain ⟨⟨poolerOutput, stopped', s₃⟩, hpooler, hrest⟩ := bind_eq_ok.mp hrest
  obtain ⟨⟨params, st₃⟩, hfree, hret⟩ := bind_eq_ok.mp hrest
  obtain rfl := Except.ok.inj hret
  obtain ⟨hsched, -, -⟩ := addOutput_fields st₃ r requestId appended poolerOutput params
  rw [hsched] at hothers hends hkept ⊢
  have hroll := rollback_contents st.sched out r requestId generated
  obtain ⟨hspec, hlist, hnum, hshort⟩ := updateRequestWithOutput_short hupdate
  obtain ⟨hcontents, hpool⟩ := poolerStop_short hpooler
  obtain ⟨hfreed, hobjs⟩ := freeStopped_contents hfree
  have hlater := hcontents.trans hfreed
  obtain ⟨-, happends₂, hstops⟩ := updateRequestWithOutput_spec hupdate
  obtain ⟨-, -, hend⟩ := poolerStop_spec hstops hpooler
  refine ⟨hlater.specRef.trans (hspec.trans hroll.specRef),
    hlater.nextList.trans (hlist.trans hroll.nextList), hkept.1, hkept.2, fun r' => ?_,
    fun r' => ?_, fun r' hr' => ?_⟩
  · by_cases hne : r' = r
    · exact hne ▸ hends
    · rw [hothers r' hne]
      exact id
  · by_cases hne : r' = r
    · rw [hne, hlater.numTokens, ← hroll.numTokens]
      exact hnum
    · rw [hothers r' hne]
  · by_cases hne : r' = r
    · subst hne
      have hlen : s₂.maxModelLen = st.sched.maxModelLen :=
        maxModelLen_congr (happends₂.config.trans hroll.config)
      have hgoes : stopped' = false := by
        by_contra hstop
        have hfinished := hend (by simpa using hstop)
        rw [hobjs] at hr'
        rw [show (s₃.objs r').isFinished = false from hr'] at hfinished
        cases hfinished
      -- the last check that was made let the request go on
      rw [hlater.numTokens, ← hroll.numTokens r', ← hlen]
      rcases hpool hgoes with hstopped | hlt
      · rcases hshort hstopped with heq | hlt
        · exact Or.inl heq
        · exact Or.inr (by rwa [hlen, ← maxModelLen_congr hroll.config])
      · exact Or.inr hlt
    · rw [hothers r' hne]
      exact Or.inl rfl

end UpdateState

namespace Scheduler

variable {s s' : Scheduler}

lemma updateFromOutput_grows {out : SchedulerOutput} {runner : ModelRunnerOutput}
    {answers : FinishAnswers} {outputs : List EngineCoreOutput}
    (h : s.updateFromOutput out runner answers = .ok (outputs, s')) : Grows s s' := by
  obtain ⟨st, hloop, hrest⟩ := bind_eq_ok.mp h
  obtain ⟨s₁, hremove, hrest⟩ := bind_eq_ok.mp hrest
  obtain ⟨s₂, htransfers, hret⟩ := bind_eq_ok.mp hrest
  obtain ⟨-, rfl⟩ := Prod.mk.inj (Except.ok.inj hret)
  have hentries : Grows s st.sched := by
    refine foldlM_invariant (P := fun st : UpdateState => Grows s st.sched)
      (fun p _ st₁ st₂ hst hstep => ?_) (.refl s) hloop
    obtain ⟨_, -, hrest⟩ := bind_eq_ok.mp hstep
    split at hrest
    · obtain rfl := Except.ok.inj hrest
      exact hst
    · exact hst.trans (UpdateState.updateRequest_grows hrest)
  have hleft := (removeStopped_loses hremove).grows (removeStopped_contents hremove)
  exact (hentries.trans hleft).trans
    ((updateTransfers_loses htransfers).grows (updateTransfers_contents htransfers))

/-- A request that is not finished has tokens, at most `slack` less than the model allows; its
draft tokens are a list of its own. -/
structure Sized (slack : Int) (s : Scheduler) : Prop where
  tokens : ∀ r < s.nextRef, (s.objs r).isFinished = false →
    1 ≤ (s.objs r).numTokens ∧ (s.objs r).numTokens + slack ≤ s.maxModelLen
  lists : ∀ r < s.nextRef, s.specRef r < s.nextList
  owned : ∀ r < s.nextRef, ∀ r' < s.nextRef, s.specRef r = s.specRef r' → r = r'

variable {slack : Int}

lemma Grows.sized (h : Grows s s') (hsized : Sized slack s) (hslack : slack ≤ 1) :
    Sized slack s' where
  tokens r hr hunfinished := by
    rw [h.nextRef] at hr
    obtain ⟨hpos, hle⟩ := hsized.tokens r hr (h.unfinished r hunfinished)
    have hnum := h.numTokens r
    rw [maxModelLen_congr h.config]
    refine ⟨by omega, ?_⟩
    rcases h.short r hunfinished with heq | hlt
    · rwa [heq]
    · omega
  lists := by
    rw [h.specRef, h.nextRef, h.nextList]
    exact hsized.lists
  owned := by
    rw [h.specRef, h.nextRef]
    exact hsized.owned

lemma Sized.assign (h : Sized slack s) (r : Ref) (tokens : List Int) :
    Sized slack (s.assignSpecTokenIds r tokens) where
  tokens := h.tokens
  lists r' hr' := by
    simp only [assignSpecTokenIds]
    split_ifs
    · exact Nat.lt_succ_self _
    · exact (h.lists r' hr').trans (Nat.lt_succ_self _)
  owned r₁ hr₁ r₂ hr₂ heq := by
    have hlt₁ := h.lists r₁ hr₁
    have hlt₂ := h.lists r₂ hr₂
    simp only [assignSpecTokenIds] at heq
    split_ifs at heq with h₁ h₂ h₂
    · rw [h₁, h₂]
    · exact absurd heq.symm hlt₂.ne
    · exact absurd heq hlt₁.ne
    · exact h.owned r₁ hr₁ r₂ hr₂ heq

lemma updateDraftTokenIds_sized (h : Sized slack s) (answers : GrammarAnswers)
    (drafts : List (String × List Int)) : Sized slack (s.updateDraftTokenIds answers drafts) := by
  refine List.foldlRecOn drafts _ h fun s₁ h₁ draft _ => ?_
  unfold updateDraft
  split
  · exact h₁
  · split_ifs
    · exact h₁
    · exact ⟨h₁.tokens, h₁.lists, h₁.owned⟩
    · split
      · exact h₁.assign _ _
      · exact h₁.assign _ _

lemma requestInit_allTokenIds {hasher : Option Request.BlockHasher} {e : EngineCoreRequest}
    {request : Request} (h : Request.init hasher e = .ok request) :
    request.allTokenIds = e.prompt.allTokenIds := by
  obtain ⟨⟨status, structured, maxTokens⟩, -, hrest⟩ := bind_eq_ok.mp h
  dsimp only at hrest
  unfold Request.extendBlockHashes at hrest
  split at hrest
  · obtain rfl := Except.ok.inj hrest
    rfl
  · obtain ⟨new, -, hret⟩ := bind_eq_ok.mp hrest
    obtain rfl := Except.ok.inj hret
    rfl

lemma addRequest_sized {e : EngineCoreRequest} (h : s.addRequest e = .ok s')
    (hpos : 1 ≤ e.prompt.allTokenIds.length)
    (hfits : e.prompt.allTokenIds.length + slack ≤ s.maxModelLen) (hsized : Sized slack s) :
    Sized slack s' := by
  obtain ⟨request, hinit, hrest⟩ := bind_eq_ok.mp h
  obtain ⟨waiting, hadd, hret⟩ := bind_eq_ok.mp hrest
  obtain rfl := Except.ok.inj hret
  have htokens := requestInit_allTokenIds hinit
  have hold : ∀ r, r < s.nextRef + 1 → r ≠ s.nextRef → r < s.nextRef :=
    fun r hr hne => Nat.lt_of_le_of_ne (Nat.le_of_lt_succ hr) hne
  refine ⟨fun r hr hunfinished => ?_, fun r hr => ?_, fun r₁ hr₁ r₂ hr₂ heq => ?_⟩
  · simp only [assignSpecTokenIds] at hr hunfinished ⊢
    by_cases hnew : r = s.nextRef
    · rw [if_pos hnew, Request.numTokens, htokens]
      exact ⟨hpos, hfits⟩
    · rw [if_neg hnew] at hunfinished ⊢
      exact hsized.tokens r (hold r hr hnew) hunfinished
  · simp only [assignSpecTokenIds] at hr ⊢
    split_ifs with hnew
    · exact Nat.lt_succ_self _
    · exact (hsized.lists r (hold r hr hnew)).trans (Nat.lt_succ_self _)
  · simp only [assignSpecTokenIds] at hr₁ hr₂ heq
    split_ifs at heq with h₁ h₂ h₂
    · rw [h₁, h₂]
    · exact absurd heq.symm (hsized.lists r₂ (hold r₂ hr₂ h₂)).ne
    · exact absurd heq (hsized.lists r₁ (hold r₁ hr₁ h₁)).ne
    · exact hsized.owned r₁ (hold r₁ hr₁ h₁) r₂ (hold r₂ hr₂ h₂) heq

end Scheduler

namespace EngineState

variable {σ σ' : EngineState} {slack : Int}

/-- A prompt has a token, and is at least `slack` shorter than the model allows. -/
def PromptsFit (slack : Int) (σ : EngineState) : EngineEvent → Prop
  | .addRequest e => 1 ≤ e.prompt.allTokenIds.length ∧
      e.prompt.allTokenIds.length + slack ≤ σ.sched.maxModelLen
  | _ => True

instance (slack : Int) (σ : EngineState) : (e : EngineEvent) → Decidable (PromptsFit slack σ e)
  | .addRequest e => inferInstanceAs (Decidable (1 ≤ e.prompt.allTokenIds.length ∧
      e.prompt.allTokenIds.length + slack ≤ σ.sched.maxModelLen))
  | .finishRequests .. | .updateDraftTokenIds .. | .schedule _ | .updateFromOutput .. =>
    isTrue trivial

lemma Started.sized (h : Started σ) : σ.sched.Sized slack := by
  obtain ⟨config, hinit, -, -⟩ := h
  have hnext : σ.sched.nextRef = 0 := by
    unfold Scheduler.init at hinit
    split_ifs at hinit
    · obtain ⟨_, -, hrest⟩ := bind_eq_ok.mp hinit
      obtain ⟨_, -, hrest⟩ := bind_eq_ok.mp hrest
      obtain ⟨_, -, hrest⟩ := bind_eq_ok.mp hrest
      obtain ⟨kv, -, hret⟩ := bind_eq_ok.mp hrest
      rw [← Except.ok.inj hret]
    · obtain ⟨_, -, hrest⟩ := bind_eq_ok.mp hinit
      obtain ⟨kv, -, hret⟩ := bind_eq_ok.mp hrest
      rw [← Except.ok.inj hret]
  refine ⟨fun r hr => ?_, fun r hr => ?_, fun r hr => ?_⟩
  all_goals
    rw [hnext] at hr
    exact absurd hr (Nat.not_lt_zero r)

lemma sized_next (hslack : slack ≤ 1) (hreg : Registered σ) (h : σ.sched.Sized slack)
    {e : EngineEvent} (hfits : PromptsFit slack σ e) (hnext : σ.next e = .ok σ') :
    σ'.sched.Sized slack := by
  cases e with
  | addRequest request =>
    obtain ⟨s, hadd, hret⟩ := bind_eq_ok.mp hnext
    obtain rfl := Except.ok.inj hret
    exact Scheduler.addRequest_sized hadd hfits.1 hfits.2 h
  | finishRequests answers requestIds status =>
    obtain ⟨s, hfinish, hret⟩ := bind_eq_ok.mp hnext
    obtain rfl := Except.ok.inj hret
    exact (Scheduler.finishRequests_grows hfinish hreg).sized h hslack
  | updateDraftTokenIds answers drafts =>
    obtain rfl := Except.ok.inj hnext
    exact Scheduler.updateDraftTokenIds_sized h answers drafts
  | schedule answers =>
    obtain ⟨⟨out, s⟩, hschedule, hret⟩ := bind_eq_ok.mp hnext
    obtain rfl := Except.ok.inj hret
    exact (Scheduler.schedule_grows hschedule hreg).sized h hslack
  | updateFromOutput runner answers =>
    simp only [EngineState.next] at hnext
    split at hnext
    · cases hnext
    · obtain ⟨⟨outputs, s⟩, hupdate, hret⟩ := bind_eq_ok.mp hnext
      obtain rfl := Except.ok.inj hret
      exact (Scheduler.updateFromOutput_grows hupdate).sized h hslack

/-- In every run of prompts that fit, the requests that are not finished fit as well. -/
theorem ReachedBy.sized {allowed : EngineState → EngineEvent → Prop} (hslack : slack ≤ 1)
    (hallowed : ∀ σ e, allowed σ e → Admissible σ e ∧ PromptsFit slack σ e)
    (h : ReachedBy allowed σ) : Registered σ ∧ σ.sched.Sized slack :=
  Runs.Reached.invariant (I := fun σ => Registered σ ∧ σ.sched.Sized slack)
    (fun _ hstart => ⟨hstart.registered, hstart.sized⟩)
    (fun σ e _ hσ hok hnext => ⟨hσ.1.next (hallowed σ e hok).1 hnext,
      sized_next hslack hσ.1 hσ.2 (hallowed σ e hok).2 hnext⟩) h

/-- In every run whose prompts leave room for a token, a request that has reached the maximal length
is finished. -/
theorem belowMaxModelLen_of_reached
    (h : ReachedBy (fun σ e => Admissible σ e ∧ PromptsFit 1 σ e) σ) {id : String} {r : Ref}
    (hget : σ.sched.requests.get? id = some r)
    (hunfinished : (σ.sched.objs r).isFinished = false) :
    1 ≤ (σ.sched.objs r).numTokens ∧ (σ.sched.objs r).numTokens < σ.sched.maxModelLen := by
  obtain ⟨hreg, hsized⟩ := h.sized le_rfl fun _ _ hok => hok
  obtain ⟨hpos, hle⟩ := hsized.tokens r (hreg.named id r hget).2 hunfinished
  exact ⟨hpos, by omega⟩

/-- The first of two requests has one token less than the model allows. -/
theorem belowMaxModelLen_overlapping : ∃ σ,
    ReachedBy (fun σ e => Admissible σ e ∧ PromptsFit 1 σ e) σ ∧ σ.sched.maxModelLen = 5 ∧
      (σ.sched.objs 0).numTokens = 4 ∧ (σ.sched.objs 0).numTokens < σ.sched.maxModelLen := by
  have hview : (runFrom (fun σ e => Admissible σ e ∧ PromptsFit 1 σ e)
      { pipelineConfig with kv := { pipelineConfig.kv with maxModelLen := 5 } }
      overlappingEvents).map (fun σ => (σ.sched.maxModelLen, (σ.sched.objs 0).numTokens,
        σ.sched.requests.get? "a", (σ.sched.objs 0).isFinished)) =
      some (5, 4, some 0, false) := by decide +kernel
  obtain ⟨σ, hrun, hrest⟩ := Option.map_eq_some_iff.mp hview
  simp only [Prod.mk.injEq] at hrest
  obtain ⟨hmax, htokens, hget, hunfinished⟩ := hrest
  have hreached := ReachedBy.of_runFrom (fun _ _ _ hok => hok) hrun
  exact ⟨σ, hreached, hmax, htokens, (belowMaxModelLen_of_reached hreached hget hunfinished).2⟩

/-- A registered request is in the queues once until it is finished, and in the queue of its
status; the queues have no other requests. -/
structure QueuesAgree (s : Scheduler) : Prop where
  once : ∀ id r, s.requests.get? id = some r →
    (s.running ++ s.waiting.refs).count r = if (s.objs r).isFinished then 0 else 1
  byStatus : ∀ id r, s.requests.get? id = some r →
    (r ∈ s.running ↔ (s.objs r).status = .running)
  known : ∀ r ∈ s.running ++ s.waiting.refs, s.requests.get? (s.objs r).requestId = some r
  named : ∀ id r, s.requests.get? id = some r → (s.objs r).requestId = id

lemma Registered.queuesAgree (h : Registered σ) : QueuesAgree σ.sched := by
  constructor
  · intro id r hget
    cases hfinished : (σ.sched.objs r).isFinished with
    | true =>
      rw [if_pos rfl, List.count_eq_zero]
      intro hr
      rw [h.unfinished hr] at hfinished
      cases hfinished
    | false =>
      rw [if_neg Bool.false_ne_true]
      exact List.count_eq_one_of_mem h.nodup (h.queued id r hget hfinished)
  · intro id r hget
    constructor
    · exact h.runs r
    · intro hstatus
      have hunfinished : (σ.sched.objs r).isFinished = false := by
        rw [Request.isFinished, hstatus]
        rfl
      rcases List.mem_append.mp (h.queued id r hget hunfinished) with hr | hr
      · exact hr
      · exact absurd hstatus (h.waits r hr).not_running
  · exact h.registered
  · exact fun id r hget => (h.named id r hget).1

/-- In every run the queues and the map of ids agree between two calls of the engine. -/
theorem queuesAgree_of_reached (h : ReachedBy Admissible σ) : QueuesAgree σ.sched :=
  (h.registered fun _ _ hok => hok).queuesAgree

/-- One request has finished and left, the other one runs. -/
def finishedEvents : List EngineEvent :=
  overlappingEvents ++ [.finishRequests (fun _ => (false, false)) ["a"] .finishedAborted]

theorem queuesAgree_finished : ∃ σ, ReachedBy Admissible σ ∧
    σ.sched.requests.keys = ["b"] ∧ σ.sched.running = [1] ∧ QueuesAgree σ.sched := by
  have hview : (runFrom Admissible pipelineConfig finishedEvents).map
      (fun σ => (σ.sched.requests.keys, σ.sched.running)) = some (["b"], [1]) := by decide +kernel
  obtain ⟨σ, hrun, hrest⟩ := Option.map_eq_some_iff.mp hview
  obtain ⟨hkeys, hrunning⟩ := Prod.mk.inj hrest
  have hreached := ReachedBy.of_runFrom (fun _ _ _ hok => hok) hrun
  exact ⟨σ, hreached, hkeys, hrunning, queuesAgree_of_reached hreached⟩

end EngineState

end VllmV1
