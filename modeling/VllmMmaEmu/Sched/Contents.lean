import VllmMmaEmu.Sched.SchedulerRuns

/-!
# What the scheduler leaves of a request

Scheduling assigns the status and the counters of a request and nothing else; its tokens grow
when an output comes back. No two requests share a list of draft tokens.
-/

namespace VllmV1

open Python

/-- A request without what scheduling assigns. -/
def Request.content (request : Request) : Request :=
  { request with
    status := .waiting
    numComputedTokens := 0
    numCachedTokens := 0
    numOutputPlaceholders := 0 }

namespace Scheduler

/-- Only what scheduling assigns may have changed. -/
structure SameContents (s s' : Scheduler) : Prop where
  content : ∀ r, (s'.objs r).content = (s.objs r).content
  specRef : s'.specRef = s.specRef
  nextList : s'.nextList = s.nextList
  nextRef : s'.nextRef = s.nextRef
  config : s'.config = s.config

variable {s s' s'' : Scheduler} {r : Ref}

namespace SameContents

lemma refl (s : Scheduler) : SameContents s s := ⟨fun _ => rfl, rfl, rfl, rfl, rfl⟩

lemma trans (h : SameContents s s') (h' : SameContents s' s'') : SameContents s s'' where
  content r := (h'.content r).trans (h.content r)
  specRef := h'.specRef.trans h.specRef
  nextList := h'.nextList.trans h.nextList
  nextRef := h'.nextRef.trans h.nextRef
  config := h'.config.trans h.config

lemma modify (s : Scheduler) (r : Ref) {f : Request → Request}
    (hf : ∀ request, (f request).content = request.content) : SameContents s (s.modify r f) := by
  refine ⟨fun r' => ?_, rfl, rfl, rfl, rfl⟩
  simp only [Scheduler.modify]
  split_ifs
  · exact hf _
  · rfl

lemma setStatus (s : Scheduler) (r : Ref) (status : RequestStatus) :
    SameContents s (s.setStatus r status) := modify s r fun _ => rfl

lemma replaces {request : Request} (h : ScheduleState.Replaces s s' r request)
    (hrequest : request.content = (s.objs r).content) (hspec : s'.specRef = s.specRef)
    (hlist : s'.nextList = s.nextList) (hnext : s'.nextRef = s.nextRef)
    (hconfig : s'.config = s.config) : SameContents s s' := by
  refine ⟨fun r' => ?_, hspec, hlist, hnext, hconfig⟩
  by_cases hne : r' = r
  · rw [hne, h.self, hrequest]
  · rw [h.others r' hne]

lemma allTokenIds (h : SameContents s s') (r : Ref) :
    (s'.objs r).allTokenIds = (s.objs r).allTokenIds := by
  have hcontent := congrArg Request.allTokenIds (h.content r)
  exact hcontent

lemma numTokens (h : SameContents s s') (r : Ref) :
    (s'.objs r).numTokens = (s.objs r).numTokens := congrArg List.length (h.allTokenIds r)

lemma requestId (h : SameContents s s') (r : Ref) :
    (s'.objs r).requestId = (s.objs r).requestId := by
  have hcontent := congrArg Request.requestId (h.content r)
  exact hcontent

lemma mmFeatures (h : SameContents s s') (r : Ref) :
    (s'.objs r).mmFeatures = (s.objs r).mmFeatures := by
  have hcontent := congrArg Request.mmFeatures (h.content r)
  exact hcontent

lemma foldlM {α : Type} {f : Scheduler → α → Except PyError Scheduler}
    (hf : ∀ s a s', f s a = .ok s' → SameContents s s') {l : List α} (h : l.foldlM f s = .ok s') :
    SameContents s s' :=
  foldlM_invariant (fun a _ s₁ s₂ hs₁ hstep => hs₁.trans (hf s₁ a s₂ hstep)) (refl s) h

end SameContents

end Scheduler

namespace ScheduleState

open Scheduler

variable {answers : ScheduleAnswers} {st st' : ScheduleState} {r : Ref}

lemma recordWaiting_contents {c : ComputedTokens} {n : Int}
    (h : st.recordWaiting r c n = .ok st') : SameContents st.sched st'.sched := by
  obtain ⟨st₁, hclassify, hret⟩ := bind_eq_ok.mp h
  obtain rfl := Except.ok.inj hret
  obtain ⟨hsched, -⟩ := classify_admits hclassify
  have hlora : (st₁.addLora r).sched = st₁.sched := by
    unfold addLora
    split <;> rfl
  simp only [startRunning, hlora, hsched]
  have hjoined : SameContents st.sched { st.sched with running := st.sched.running ++ [r] } :=
    ⟨fun _ => rfl, rfl, rfl, rfl, rfl⟩
  exact hjoined.trans (.modify _ r (by exact fun _ => rfl))

theorem Move.contents {G : Guard} (h : Move answers G st st') : SameContents st.sched st'.sched := by
  cases h with
  | encoder m => exact ⟨fun _ => rfl, rfl, rfl, rfl, rfl⟩
  | nextIndex => exact .refl _
  | loras loras => exact .refl _
  | noRoom r args kv h => exact ⟨fun _ => rfl, rfl, rfl, rfl, rfl⟩
  | preempt st₁ _ v hv hpreempt hg hindex =>
    obtain ⟨running, scheduled, waiting, rfl, -⟩ := preempt_spec hv hpreempt
    refine .replaces (r := v) ⟨afterPreempt_self st, fun r hr => ?_⟩ rfl rfl rfl rfl rfl
    exact afterPreempt_of_ne st hr
  | run r n newBlocks kv hr hindex hn hle hbudget halloc =>
    obtain ⟨lists, drafts, -, heq⟩ := (st.setKv kv).recordRunning_spec r newBlocks n
    rw [heq]
    exact ⟨fun _ => rfl, rfl, rfl, rfl, rfl⟩
  | inputs _ r inputs budget hr hrecord =>
    obtain ⟨m, encoderInputs, computeBudget, rfl⟩ := recordEncoderInputs_spec hrecord
    exact ⟨fun _ => rfl, rfl, rfl, rfl, rfl⟩
  | remoteKvs r ready s hr hcheck =>
    rcases Scheduler.checkRemoteKvs_spec hcheck with rfl | ⟨blockIds, kv, ids, -, -, -, rfl⟩
    · exact .refl _
    · refine .replaces (r := r) ⟨if_pos rfl, fun r' hne => if_neg hne⟩ rfl rfl rfl rfl rfl
  | grammar r hr =>
    rcases Scheduler.checkGrammar_spec answers st.sched r with heq | ⟨-, heq⟩
    · rw [heq]
      exact .refl _
    · rw [heq]
      exact .setStatus st.sched r .waiting
  | skip _ hskip =>
    obtain ⟨⟨item, waiting⟩, -, hrest⟩ := bind_eq_ok.mp hskip
    obtain ⟨skipped, -, hret⟩ := bind_eq_ok.mp hrest
    obtain rfl := Except.ok.inj hret
    exact ⟨fun _ => rfl, rfl, rfl, rfl, rfl⟩
  | load _ item waiting c kv hgot hasync hg hpop hload =>
    obtain ⟨skipped, -, hret⟩ := bind_eq_ok.mp hload
    obtain rfl := Except.ok.inj hret
    have hcontents := SameContents.modify { st.sched with kvCacheManager := kv, waiting := waiting }
      item.request (f := fun request => { request with status := .waitingForRemoteKvs }) fun _ => rfl
    exact ⟨hcontents.content, rfl, rfl, rfl, rfl⟩
  | start _ item waiting c n kv hgot hasync hpos hle hpop hrecord =>
    have hcontents := recordWaiting_contents hrecord
    exact ⟨hcontents.content, hcontents.specRef, hcontents.nextList, hcontents.nextRef,
      hcontents.config⟩

lemma Moves.contents {G : Guard} (h : Moves answers G st st') :
    SameContents st.sched st'.sched := by
  induction h with
  | refl => exact .refl _
  | tail _ hmove ih => exact ih.trans hmove.contents

lemma makeOutput_contents {out : SchedulerOutput} {s : Scheduler}
    (h : st.makeOutput = .ok (out, s)) : SameContents st.sched s := by
  obtain ⟨newReqs, -, hrest⟩ := bind_eq_ok.mp h
  obtain ⟨runningReqs, -, hrest⟩ := bind_eq_ok.mp hrest
  obtain ⟨resumedReqs, -, hrest⟩ := bind_eq_ok.mp hrest
  obtain ⟨-, rfl⟩ := Prod.mk.inj (Except.ok.inj hrest)
  exact ⟨fun _ => rfl, rfl, rfl, rfl, rfl⟩

end ScheduleState

namespace Scheduler

variable {s s' : Scheduler} {r : Ref}

lemma advance_contents {scheduled : String × Int} (h : s.advance scheduled = .ok s') :
    SameContents s s' := by
  obtain ⟨r, -, hret⟩ := bind_eq_ok.mp h
  obtain rfl := Except.ok.inj hret
  have hset := SameContents.modify s r
    (f := fun request => { request with numComputedTokens := (s.objs r).numComputedTokens + scheduled.2 }) fun _ => rfl
  exact ⟨hset.content, rfl, rfl, rfl, rfl⟩

lemma addPlaceholder_contents {requestId : String} (h : s.addPlaceholder requestId = .ok s') :
    SameContents s s' := by
  obtain ⟨r, -, hret⟩ := bind_eq_ok.mp h
  dsimp only at hret
  split_ifs at hret
  · obtain rfl := Except.ok.inj hret
    exact .modify s r fun _ => rfl
  · obtain rfl := Except.ok.inj hret
    exact .refl s

lemma updateAfterSchedule_contents {out : SchedulerOutput}
    (h : s.updateAfterSchedule out = .ok s') : SameContents s s' := by
  obtain ⟨s₁, hadvance, hrest⟩ := bind_eq_ok.mp h
  have hcontents : SameContents s s₁ := SameContents.foldlM (fun _ _ _ => advance_contents) hadvance
  have hcleared : SameContents s₁ { s₁ with finishedReqIds := [] } :=
    ⟨fun _ => rfl, rfl, rfl, rfl, rfl⟩
  refine (hcontents.trans hcleared).trans ?_
  simp only [addPlaceholders] at hrest
  split_ifs at hrest
  · exact SameContents.foldlM (fun _ _ _ => addPlaceholder_contents) hrest
  · obtain rfl := Except.ok.inj hrest
    exact .refl _

theorem schedule_contents {answers : ScheduleAnswers} {out : SchedulerOutput}
    (h : s.schedule answers = .ok (out, s')) : SameContents s s' := by
  obtain ⟨st, st', s₁, hmoves, hrestore, hout, hupdate⟩ := schedule_spec (clean_none answers s) h
  obtain ⟨waiting, rfl, -⟩ := ScheduleState.restoreSkipped_spec hrestore
  have hrestored : SameContents st.sched (st.setWaiting waiting).sched :=
    ⟨fun _ => rfl, rfl, rfl, rfl, rfl⟩
  exact (hmoves.contents.trans hrestored).trans
    ((ScheduleState.makeOutput_contents hout).trans (updateAfterSchedule_contents hupdate))

lemma freeBlocks_contents (h : s.freeBlocks r = .ok s') : SameContents s s' := by
  obtain ⟨_, -, hrest⟩ := bind_eq_ok.mp h
  obtain ⟨requests, -, hret⟩ := bind_eq_ok.mp hrest
  obtain rfl := Except.ok.inj hret
  exact ⟨fun _ => rfl, rfl, rfl, rfl, rfl⟩

lemma freeRequest_contents {answers : FinishAnswers} {params : Bool}
    (h : s.freeRequest answers r = .ok (params, s')) : SameContents s s' := by
  obtain ⟨_, -, hrest⟩ := bind_eq_ok.mp h
  obtain ⟨⟨delay, params'⟩, -, hrest⟩ := bind_eq_ok.mp hrest
  dsimp only at hrest
  split_ifs at hrest
  · obtain ⟨-, rfl⟩ := Prod.mk.inj (Except.ok.inj hrest)
    exact ⟨fun _ => rfl, rfl, rfl, rfl, rfl⟩
  · obtain ⟨s₁, hfree, hret⟩ := bind_eq_ok.mp hrest
    obtain ⟨-, rfl⟩ := Prod.mk.inj (Except.ok.inj hret)
    have hcontents := freeBlocks_contents hfree
    exact ⟨hcontents.content, hcontents.specRef, hcontents.nextList, hcontents.nextRef,
      hcontents.config⟩

lemma finishLoop_contents {answers : FinishAnswers} {status : RequestStatus} {rs : List Ref}
    (h : finishLoop answers status s rs = .ok s') : SameContents s s' := by
  induction rs generalizing s with
  | nil =>
    obtain rfl := Except.ok.inj h
    exact .refl s
  | cons r rest ih =>
    obtain ⟨⟨params, s₁⟩, hfree, hrest⟩ := bind_eq_ok.mp h
    exact ((SameContents.setStatus s r status).trans (freeRequest_contents hfree)).trans (ih hrest)

lemma finishRequests_contents {answers : FinishAnswers} {requestIds : List String}
    {status : RequestStatus} (h : s.finishRequests answers requestIds status = .ok s') :
    SameContents s s' := by
  obtain ⟨_, -, hrest⟩ := bind_eq_ok.mp h
  obtain ⟨s₁, hremove, hloop⟩ := bind_eq_ok.mp hrest
  have hqueues : SameContents s s₁ := by
    simp only [removeFromQueues] at hremove
    split_ifs at hremove
    · obtain rfl := Except.ok.inj hremove
      exact ⟨fun _ => rfl, rfl, rfl, rfl, rfl⟩
    · obtain ⟨waiting, -, hret⟩ := bind_eq_ok.mp hremove
      obtain rfl := Except.ok.inj hret
      exact ⟨fun _ => rfl, rfl, rfl, rfl, rfl⟩
  exact hqueues.trans (finishLoop_contents hloop)

lemma updateTransfers_contents {runner : ModelRunnerOutput}
    (h : s.updateTransfers runner = .ok s') : SameContents s s' := by
  unfold updateTransfers at h
  split at h
  · obtain rfl := Except.ok.inj h
    exact .refl s
  · refine foldlM_invariant (P := fun s' => SameContents s s') (fun id _ s₁ s₂ h₁ hsend => ?_) ?_ h
    · obtain ⟨r, -, hfree⟩ := bind_eq_ok.mp hsend
      exact h₁.trans (freeBlocks_contents hfree)
    · exact ⟨fun _ => rfl, rfl, rfl, rfl, rfl⟩

lemma removeStopped_contents {st : UpdateState} (h : st.removeStopped = .ok s') :
    SameContents st.sched s' := by
  simp only [UpdateState.removeStopped] at h
  split_ifs at h
  · obtain rfl := Except.ok.inj h
    exact ⟨fun _ => rfl, rfl, rfl, rfl, rfl⟩
  · obtain ⟨waiting, -, hret⟩ := bind_eq_ok.mp h
    obtain rfl := Except.ok.inj hret
    exact ⟨fun _ => rfl, rfl, rfl, rfl, rfl⟩

lemma updateFromOutput_config {out : SchedulerOutput} {runner : ModelRunnerOutput}
    {answers : FinishAnswers} {outputs : List EngineCoreOutput}
    (h : s.updateFromOutput out runner answers = .ok (outputs, s')) : s'.config = s.config := by
  obtain ⟨st, hloop, hrest⟩ := bind_eq_ok.mp h
  obtain ⟨s₁, hremove, hrest⟩ := bind_eq_ok.mp hrest
  obtain ⟨s₂, htransfers, hret⟩ := bind_eq_ok.mp hrest
  obtain ⟨-, rfl⟩ := Prod.mk.inj (Except.ok.inj hret)
  have hst : st.sched.config = s.config := by
    refine foldlM_invariant (P := fun st : UpdateState => st.sched.config = s.config)
      (fun p _ st₁ st₂ h₁ hstep => ?_) rfl hloop
    obtain ⟨_, -, hrest⟩ := bind_eq_ok.mp hstep
    split at hrest
    · obtain rfl := Except.ok.inj hrest
      exact h₁
    · obtain ⟨generated, appended, s₃, -, -, happends, houtcome⟩ :=
        UpdateState.updateRequest_spec hrest
      cases houtcome with
      | goesOn sched status running preempted => rw [sched, happends.config, h₁]
      | stops finished frees notes => rw [frees.config, happends.config, h₁]
  rw [(updateTransfers_contents htransfers).config, (removeStopped_contents hremove).config, hst]

end Scheduler

namespace EngineState

open Scheduler

variable {σ σ' : EngineState}

lemma next_config {e : EngineEvent} (h : σ.next e = .ok σ') :
    σ'.sched.config = σ.sched.config := by
  cases e with
  | addRequest request =>
    obtain ⟨s, hadd, hret⟩ := bind_eq_ok.mp h
    obtain rfl := Except.ok.inj hret
    obtain ⟨request, hadds⟩ := addRequest_adds hadd
    exact hadds.config
  | finishRequests answers requestIds status =>
    obtain ⟨s, hfinish, hret⟩ := bind_eq_ok.mp h
    obtain rfl := Except.ok.inj hret
    exact (finishRequests_contents hfinish).config
  | updateDraftTokenIds answers drafts =>
    obtain rfl := Except.ok.inj h
    exact (updateDraftTokenIds_keeps σ.sched answers drafts).config
  | schedule answers =>
    obtain ⟨⟨out, s⟩, hschedule, hret⟩ := bind_eq_ok.mp h
    obtain rfl := Except.ok.inj hret
    exact (schedule_contents hschedule).config
  | updateFromOutput runner answers =>
    simp only [EngineState.next] at h
    split at h
    · cases h
    · obtain ⟨⟨outputs, s⟩, hupdate, hret⟩ := bind_eq_ok.mp h
      obtain rfl := Except.ok.inj hret
      exact updateFromOutput_config hupdate

end EngineState

end VllmV1
