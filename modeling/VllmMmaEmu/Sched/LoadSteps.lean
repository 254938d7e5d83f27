import VllmMmaEmu.Sched.RemoteLoads

/-!
# Steps that leave the loads alone

Every move of `schedule` but the one that begins a load, and everything outside `schedule`:
tables are freed of requests that are finished or preempted, and blocks go to requests that
run from now on.
-/

namespace VllmV1

open Python

namespace ScheduleState

open Scheduler

/-- The guard under which no load is begun. -/
def noLoads : Guard := { load := fun _ _ => False }

variable {answers : ScheduleAnswers} {st st' : ScheduleState} {r : Ref}

lemma recordWaiting_kv {c : ComputedTokens} {n : Int} (h : st.recordWaiting r c n = .ok st') :
    st'.sched.kvCacheManager = st.sched.kvCacheManager ∧ st'.sched.config = st.sched.config := by
  obtain ⟨st₁, hclassify, hret⟩ := bind_eq_ok.mp h
  obtain rfl := Except.ok.inj hret
  obtain ⟨hsched, -⟩ := classify_admits hclassify
  have hlora : (st₁.addLora r).sched = st₁.sched := by
    unfold addLora
    split <;> rfl
  simp only [startRunning, Scheduler.modify, hlora, hsched, and_self]

/-- A request gets blocks or loses them that is registered and does not wait. -/
lemma leavesLoads_of_other {s s' : Scheduler} {v : Ref} {request : Request}
    (hv : s.requests.get? (s.objs v).requestId = some v) (hobjs : Replaces s s' v request)
    (hid : request.requestId = (s.objs v).requestId)
    (hstatus : request.status ≠ .waitingForRemoteKvs) (hconfig : s'.config = s.config)
    (hrequests : s'.requests = s.requests)
    (hkv : s.kvCacheManager.KeepsLengths {(s.objs v).requestId}ᶜ s'.kvCacheManager) :
    LeavesLoads s s' := by
  refine .replaces hobjs hconfig hrequests hid (fun h => absurd h hstatus) hkv fun r hr => ?_
  have hname : (s'.objs v).requestId = (s.objs v).requestId := by rw [hobjs.self, hid]
  rw [← hname]
  refine hr.id_ne ?_ ?_
  · rw [hname, hrequests, hv]
  · rwa [hobjs.self]

theorem Move.leavesLoads (h : Move answers noLoads st st')
    (hreg : Registry st.sched st.sched.running st.waitingRefs) :
    LeavesLoads st.sched st'.sched := by
  have hrunning : ∀ r ∈ st.sched.running,
      st.sched.requests.get? (st.sched.objs r).requestId = some r :=
    fun r hr => hreg.registered r (List.mem_append_left _ hr)
  cases h with
  | encoder m => exact .of_same rfl rfl rfl (.refl _ _)
  | nextIndex => exact .refl _
  | loras loras => exact .refl _
  | noRoom r args kv halloc =>
    exact .of_same rfl rfl rfl (KVCacheManager.allocateSlots_none_keepsLengths halloc)
  | preempt st₁ _ v hv hpreempt hg hindex =>
    obtain ⟨running, scheduled, waiting, rfl, hperm, -⟩ := preempt_spec hv hpreempt
    have hmem : v ∈ st.sched.running := hperm.mem_iff.mp List.mem_cons_self
    exact leavesLoads_of_other (hrunning v hmem)
      ⟨afterPreempt_self st, fun r hr => afterPreempt_of_ne st hr⟩ rfl (by simp) rfl rfl
      (KVCacheManager.free_keepsLengths _ _)
  | run r n newBlocks kv hr hindex hn hle hbudget halloc =>
    have hkv := KVCacheManager.allocateSlots_keepsLengths halloc
    have hself : Replaces st.sched { st.sched with kvCacheManager := kv } r (st.sched.objs r) :=
      ⟨rfl, fun _ _ => rfl⟩
    have hstatus : (st.sched.objs r).status ≠ .waitingForRemoteKvs := by
      rw [hreg.runs r hr]
      simp
    have hkept := leavesLoads_of_other (hrunning r hr) hself rfl hstatus rfl rfl hkv
    refine hkept.trans ?_
    obtain ⟨lists, drafts, -, heq⟩ := (st.setKv kv).recordRunning_spec r newBlocks n
    rw [heq]
    exact .of_same rfl rfl rfl (.refl _ _)
  | inputs _ r inputs budget hr hrecord =>
    obtain ⟨m, encoderInputs, computeBudget, rfl⟩ := recordEncoderInputs_spec hrecord
    exact .of_same rfl rfl rfl (.refl _ _)
  | remoteKvs r ready s hr hcheck =>
    rcases checkRemoteKvs_spec hcheck with rfl | ⟨blockIds, kv, ids, -, -, hkv, rfl⟩
    · exact .refl _
    · exact .replaces (r := r) ⟨if_pos rfl, fun _ hne => if_neg hne⟩ rfl rfl rfl (by simp)
        (KVCacheManager.cacheBlocks_keepsLengths hkv) fun _ _ => Set.mem_univ _
  | grammar r hr =>
    rcases checkGrammar_spec answers st.sched r with heq | ⟨-, heq⟩
    · rw [heq]
      exact .refl _
    · rw [heq]
      exact .modify (f := fun request => { request with status := .waiting }) st.sched r rfl
        (by simp)
  | skip _ hskip =>
    obtain ⟨⟨item, waiting⟩, -, hrest⟩ := bind_eq_ok.mp hskip
    obtain ⟨skipped, -, hret⟩ := bind_eq_ok.mp hrest
    obtain rfl := Except.ok.inj hret
    exact .of_same rfl rfl rfl (.refl _ _)
  | load _ item waiting c kv hgot hasync hg hpop hload => exact hg.elim
  | start _ item waiting c n kv hgot hasync hpos hle hpop hstart =>
    obtain ⟨newBlocks, halloc⟩ := hgot.blocks
    obtain ⟨hsame, -, -, -, cached, hobjs⟩ := recordWaiting_effect hstart
    obtain ⟨hkv, hconfig⟩ := recordWaiting_kv hstart
    refine leavesLoads_of_other (hreg.registered _ (List.mem_append_right _ hgot.first.mem))
      ⟨hobjs.self, hobjs.others⟩ rfl (by simp) hconfig hsame.requests ?_
    rw [hkv]
    exact KVCacheManager.allocateSlots_keepsLengths halloc

lemma Moves.leavesLoads (h : Moves answers noLoads st st')
    (hreg : Registry st.sched st.sched.running st.waitingRefs) :
    LeavesLoads st.sched st'.sched := by
  induction h with
  | refl => exact .refl _
  | tail hmoves hmove ih => exact ih.trans (hmove.leavesLoads (Moves.registry hmoves hreg))

lemma makeOutput_leavesLoads {out : SchedulerOutput} {s : Scheduler}
    (h : st.makeOutput = .ok (out, s)) : LeavesLoads st.sched s := by
  obtain ⟨newReqs, -, hrest⟩ := bind_eq_ok.mp h
  obtain ⟨runningReqs, -, hrest⟩ := bind_eq_ok.mp hrest
  obtain ⟨resumedReqs, -, hrest⟩ := bind_eq_ok.mp hrest
  obtain ⟨-, rfl⟩ := Prod.mk.inj (Except.ok.inj hrest)
  exact .of_same rfl rfl rfl (.refl _ _)

end ScheduleState

namespace Scheduler

variable {s s' : Scheduler} {r : Ref}

lemma updateAfterSchedule_leavesLoads {out : SchedulerOutput}
    (h : s.updateAfterSchedule out = .ok s') : LeavesLoads s s' := by
  obtain ⟨s₁, hadvance, hrest⟩ := bind_eq_ok.mp h
  have hkept : LeavesLoads s s₁ := by
    refine LeavesLoads.foldlM (fun s scheduled s' hstep => ?_) hadvance
    obtain ⟨r, -, hret⟩ := bind_eq_ok.mp hstep
    obtain rfl := Except.ok.inj hret
    have hset : LeavesLoads s (s.setComputed r ((s.objs r).numComputedTokens + scheduled.2)) :=
      .modify s r rfl fun hwaits => hwaits
    exact hset.trans (.of_same rfl rfl rfl (.refl _ _))
  have hcleared : LeavesLoads s₁ { s₁ with finishedReqIds := [] } :=
    .of_same rfl rfl rfl (.refl _ _)
  refine (hkept.trans hcleared).trans ?_
  simp only [addPlaceholders] at hrest
  split_ifs at hrest
  · refine LeavesLoads.foldlM (fun s requestId s' hstep => ?_) hrest
    obtain ⟨r, -, hret⟩ := bind_eq_ok.mp hstep
    dsimp only at hret
    split_ifs at hret
    · obtain rfl := Except.ok.inj hret
      exact .modify s r rfl fun hwaits => hwaits
    · obtain rfl := Except.ok.inj hret
      exact .refl s
  · obtain rfl := Except.ok.inj hrest
    exact .refl _

/-- A freed request is no longer registered, and no other has its id. -/
lemma freeBlocks_leavesLoads (h : s.freeBlocks r = .ok s') : LeavesLoads s s' := by
  obtain ⟨_, -, hrest⟩ := bind_eq_ok.mp h
  obtain ⟨requests, hdel, hret⟩ := bind_eq_ok.mp hrest
  obtain rfl := Except.ok.inj hret
  obtain ⟨-, rfl⟩ := Dict.delItem_eq_ok.mp hdel
  have hother : ∀ r', (s.requests.erase (s.objs r).requestId).get? (s.objs r').requestId =
      some r' → (s.objs r').requestId ≠ (s.objs r).requestId ∧
        s.requests.get? (s.objs r').requestId = some r' := by
    intro r' hget
    rw [Dict.get?_erase] at hget
    split_ifs at hget with hid
    exact ⟨Ne.symm hid, hget⟩
  refine ⟨rfl, fun r' hr' => ⟨⟨(hother r' hr'.registered).2, hr'.status⟩, rfl⟩, ?_⟩
  refine (KVCacheManager.free_keepsLengths s.kvCacheManager (s.objs r).requestId).mono ?_
  rintro id ⟨r', hr', rfl⟩
  exact (hother r' hr'.registered).1

lemma freeRequest_leavesLoads {answers : FinishAnswers} {params : Bool}
    (h : s.freeRequest answers r = .ok (params, s')) : LeavesLoads s s' := by
  obtain ⟨_, -, hrest⟩ := bind_eq_ok.mp h
  obtain ⟨⟨delay, params'⟩, -, hrest⟩ := bind_eq_ok.mp hrest
  dsimp only at hrest
  have hnoted : LeavesLoads s { s with
      encoderCacheManager := s.encoderCacheManager.free (s.req r)
      finishedReqIds := s.finishedReqIds.insert (s.objs r).requestId } :=
    .of_same rfl rfl rfl (.refl _ _)
  split_ifs at hrest
  · obtain ⟨-, rfl⟩ := Prod.mk.inj (Except.ok.inj hrest)
    exact hnoted
  · obtain ⟨s₁, hfree, hret⟩ := bind_eq_ok.mp hrest
    obtain ⟨-, rfl⟩ := Prod.mk.inj (Except.ok.inj hret)
    exact hnoted.trans (freeBlocks_leavesLoads hfree)

lemma setStatus_leavesLoads {status : RequestStatus} (h : status.isFinished = true) :
    LeavesLoads s (s.setStatus r status) := by
  refine .modify s r rfl fun hwaits => ?_
  have hwaits : status = .waitingForRemoteKvs := hwaits
  rw [hwaits] at h
  cases h

lemma finishRequests_leavesLoads {answers : FinishAnswers} {requestIds : List String}
    {status : RequestStatus} (h : s.finishRequests answers requestIds status = .ok s') :
    LeavesLoads s s' := by
  obtain ⟨_, hfinished, hrest⟩ := bind_eq_ok.mp h
  obtain ⟨s₁, hremove, hloop⟩ := bind_eq_ok.mp hrest
  have hqueues : LeavesLoads s s₁ := by
    simp only [removeFromQueues] at hremove
    split_ifs at hremove
    · obtain rfl := Except.ok.inj hremove
      exact .of_same rfl rfl rfl (.refl _ _)
    · obtain ⟨waiting, -, hret⟩ := bind_eq_ok.mp hremove
      obtain rfl := Except.ok.inj hret
      exact .of_same rfl rfl rfl (.refl _ _)
  refine hqueues.trans ?_
  generalize s.validRequests requestIds = rs at hloop
  clear hremove hqueues
  induction rs generalizing s₁ with
  | nil =>
    obtain rfl := Except.ok.inj hloop
    exact .refl _
  | cons r rest ih =>
    obtain ⟨⟨params, s₂⟩, hfree, hrest⟩ := bind_eq_ok.mp hloop
    exact ((setStatus_leavesLoads (pyAssert_eq_ok.mp hfinished)).trans
      (freeRequest_leavesLoads hfree)).trans (ih s₂ hrest)

lemma appendToken_leavesLoads {token : Int} (h : s.appendToken r token = .ok s') :
    LeavesLoads s s' := by
  obtain ⟨request, happend, hret⟩ := bind_eq_ok.mp h
  obtain rfl := Except.ok.inj hret
  obtain ⟨hashes, rfl⟩ := appendOutputTokenIds_spec happend
  exact .modify s r rfl fun hwaits => hwaits

lemma applyStop_leavesLoads {poolerOutput stopped : Bool}
    (h : s.applyStop r poolerOutput = .ok (stopped, s')) : LeavesLoads s s' := by
  obtain ⟨stop, hcheck, hret⟩ := bind_eq_ok.mp h
  cases stop with
  | none =>
    obtain ⟨-, rfl⟩ := Prod.mk.inj (Except.ok.inj hret)
    exact .refl _
  | some status =>
    obtain ⟨-, rfl⟩ := Prod.mk.inj (Except.ok.inj hret)
    exact setStatus_leavesLoads (checkStop_finished hcheck)

lemma appendLoop_leavesLoads {tokens appended : List Int} {stopped : Bool}
    (h : appendLoop r s tokens = .ok (appended, stopped, s')) : LeavesLoads s s' := by
  induction tokens generalizing s appended stopped with
  | nil =>
    obtain ⟨-, hret⟩ := Prod.mk.inj (Except.ok.inj h)
    obtain ⟨-, rfl⟩ := Prod.mk.inj hret
    exact .refl _
  | cons token rest ih =>
    obtain ⟨s₁, happend, hrest⟩ := bind_eq_ok.mp h
    obtain ⟨⟨stop, s₂⟩, hstop, hrest⟩ := bind_eq_ok.mp hrest
    have hkept := (appendToken_leavesLoads happend).trans (applyStop_leavesLoads hstop)
    cases stop with
    | true =>
      obtain ⟨-, hret⟩ := Prod.mk.inj (Except.ok.inj hrest)
      obtain ⟨-, rfl⟩ := Prod.mk.inj hret
      exact hkept
    | false =>
      obtain ⟨⟨appended', stopped', s₃⟩, hloop, hret⟩ := bind_eq_ok.mp hrest
      obtain ⟨-, hpair⟩ := Prod.mk.inj (Except.ok.inj hret)
      obtain ⟨-, rfl⟩ := Prod.mk.inj hpair
      exact hkept.trans (ih hloop)

lemma settlePlaceholders_leavesLoads {status : RequestStatus} {n : Nat}
    (h : s.settlePlaceholders r status n = .ok s') : LeavesLoads s s' := by
  obtain ⟨_, -, hrest⟩ := bind_eq_ok.mp h
  have hset : LeavesLoads s (s.modify r fun request =>
      { request with numOutputPlaceholders := request.numOutputPlaceholders - n }) :=
    .modify s r rfl fun hwaits => hwaits
  split_ifs at hrest
  · obtain ⟨kv, hkv, hret⟩ := bind_eq_ok.mp hrest
    obtain rfl := Except.ok.inj hret
    exact hset.trans (.of_same rfl rfl rfl (KVCacheManager.cacheBlocks_keepsLengths hkv))
  · obtain rfl := Except.ok.inj hrest
    exact hset

lemma updateRequestWithOutput_leavesLoads {tokens appended : List Int} {stopped : Bool}
    (h : s.updateRequestWithOutput r tokens = .ok (appended, stopped, s')) :
    LeavesLoads s s' := by
  unfold updateRequestWithOutput at h
  split_ifs at h
  · obtain ⟨-, hpair⟩ := Prod.mk.inj (Except.ok.inj h)
    obtain ⟨-, rfl⟩ := Prod.mk.inj hpair
    exact .refl _
  · obtain ⟨⟨appended', stopped', s₁⟩, hloop, hrest⟩ := bind_eq_ok.mp h
    have hkept := appendLoop_leavesLoads hloop
    dsimp only at hrest
    split_ifs at hrest
    · obtain ⟨s₂, hsettle, hret⟩ := bind_eq_ok.mp hrest
      obtain ⟨-, hpair⟩ := Prod.mk.inj (Except.ok.inj hret)
      obtain ⟨-, rfl⟩ := Prod.mk.inj hpair
      exact hkept.trans (settlePlaceholders_leavesLoads hsettle)
    · obtain ⟨-, hpair⟩ := Prod.mk.inj (Except.ok.inj hrest)
      obtain ⟨-, rfl⟩ := Prod.mk.inj hpair
      exact hkept

lemma rollback_leavesLoads (s : Scheduler) (out : SchedulerOutput) (r : Ref) (requestId : String)
    (generated : List Int) : LeavesLoads s (s.rollback out r requestId generated) := by
  unfold rollback
  split
  · exact .refl s
  · split_ifs
    · exact .refl s
    · exact .modify s r rfl fun hwaits => hwaits

lemma poolerStop_leavesLoads {runner : ModelRunnerOutput} {index : Nat}
    {poolerOutput stopped stopped' : Bool}
    (h : s.poolerStop runner r index stopped = .ok (poolerOutput, stopped', s')) :
    LeavesLoads s s' := by
  unfold poolerStop at h
  split_ifs at h
  · obtain ⟨-, hpair⟩ := Prod.mk.inj (Except.ok.inj h)
    obtain ⟨-, rfl⟩ := Prod.mk.inj hpair
    exact .refl _
  · obtain ⟨output, -, hrest⟩ := bind_eq_ok.mp h
    obtain ⟨⟨stop, s₁⟩, hstop, hret⟩ := bind_eq_ok.mp hrest
    obtain ⟨-, hpair⟩ := Prod.mk.inj (Except.ok.inj hret)
    obtain ⟨-, rfl⟩ := Prod.mk.inj hpair
    exact applyStop_leavesLoads hstop

end Scheduler

namespace UpdateState

open Scheduler

variable {out : SchedulerOutput} {runner : ModelRunnerOutput} {answers : FinishAnswers}
  {st st' : UpdateState}

lemma updateEntry_leavesLoads {scheduled : String × Int}
    (h : st.updateEntry out runner answers scheduled = .ok st') :
    LeavesLoads st.sched st'.sched := by
  obtain ⟨_, -, hrest⟩ := bind_eq_ok.mp h
  split at hrest
  · obtain rfl := Except.ok.inj hrest
    exact .refl _
  · rename_i r hget
    obtain ⟨index, -, hrest⟩ := bind_eq_ok.mp hrest
    obtain ⟨generated, -, hrest⟩ := bind_eq_ok.mp hrest
    obtain ⟨⟨appended, stopped, s₁⟩, hupdate, hrest⟩ := bind_eq_ok.mp hrest
    obtain ⟨⟨poolerOutput, stopped', s₂⟩, hpooler, hrest⟩ := bind_eq_ok.mp hrest
    obtain ⟨⟨params, st₃⟩, hfree, hret⟩ := bind_eq_ok.mp hrest
    obtain rfl := Except.ok.inj hret
    have hkept := ((rollback_leavesLoads st.sched out r scheduled.1 generated).trans
      (updateRequestWithOutput_leavesLoads hupdate)).trans (poolerStop_leavesLoads hpooler)
    rw [(addOutput_fields st₃ r scheduled.1 appended poolerOutput params).1]
    refine hkept.trans ?_
    unfold freeStopped at hfree
    split_ifs at hfree
    · obtain ⟨⟨params', s₄⟩, hfreed, hrest⟩ := bind_eq_ok.mp hfree
      obtain ⟨-, rfl⟩ := Prod.mk.inj (Except.ok.inj hrest)
      exact freeRequest_leavesLoads hfreed
    · obtain ⟨⟨params', s₄⟩, hfreed, hrest⟩ := bind_eq_ok.mp hfree
      obtain ⟨-, rfl⟩ := Prod.mk.inj (Except.ok.inj hrest)
      exact freeRequest_leavesLoads hfreed
    · obtain ⟨-, rfl⟩ := Prod.mk.inj (Except.ok.inj hfree)
      exact .refl _

end UpdateState

namespace Scheduler

variable {s s' : Scheduler}

lemma updateTransfers_leavesLoads {runner : ModelRunnerOutput}
    (h : s.updateTransfers runner = .ok s') : LeavesLoads s s' := by
  unfold updateTransfers at h
  split at h
  · obtain rfl := Except.ok.inj h
    exact .refl s
  · refine foldlM_invariant (P := fun s' => LeavesLoads s s') (fun id _ s₁ s₂ h₁ hsend => ?_) ?_ h
    · obtain ⟨r, -, hfree⟩ := bind_eq_ok.mp hsend
      exact h₁.trans (freeBlocks_leavesLoads hfree)
    · exact .of_same rfl rfl rfl (.refl _ _)

lemma updateFromOutput_leavesLoads {out : SchedulerOutput} {runner : ModelRunnerOutput}
    {answers : FinishAnswers} {outputs : List EngineCoreOutput}
    (h : s.updateFromOutput out runner answers = .ok (outputs, s')) : LeavesLoads s s' := by
  obtain ⟨st, hloop, hrest⟩ := bind_eq_ok.mp h
  obtain ⟨s₁, hremove, hrest⟩ := bind_eq_ok.mp hrest
  obtain ⟨s₂, htransfers, hret⟩ := bind_eq_ok.mp hrest
  obtain ⟨-, rfl⟩ := Prod.mk.inj (Except.ok.inj hret)
  have hentries : LeavesLoads s st.sched :=
    foldlM_invariant (P := fun st : UpdateState => LeavesLoads s st.sched)
      (fun p _ st₁ st₂ hst hstep => hst.trans (UpdateState.updateEntry_leavesLoads hstep))
      (.refl s) hloop
  have hremoved : LeavesLoads st.sched s₁ := by
    simp only [UpdateState.removeStopped] at hremove
    split_ifs at hremove
    · obtain rfl := Except.ok.inj hremove
      exact .of_same rfl rfl rfl (.refl _ _)
    · obtain ⟨waiting, -, hret⟩ := bind_eq_ok.mp hremove
      obtain rfl := Except.ok.inj hret
      exact .of_same rfl rfl rfl (.refl _ _)
  exact (hentries.trans hremoved).trans (updateTransfers_leavesLoads htransfers)

lemma addRequest_leavesLoads {e : EngineCoreRequest} (h : s.addRequest e = .ok s') :
    LeavesLoads s s' := by
  obtain ⟨request, hadds⟩ := addRequest_adds h
  have hkv : s'.kvCacheManager = s.kvCacheManager := by
    obtain ⟨request, -, hrest⟩ := bind_eq_ok.mp h
    obtain ⟨waiting, -, hret⟩ := bind_eq_ok.mp hrest
    obtain rfl := Except.ok.inj hret
    rfl
  refine ⟨hadds.config, fun r hr => ?_, by rw [hkv]; exact .refl _ _⟩
  have hne : r ≠ s.nextRef := by
    rintro rfl
    have hstatus := hr.status
    rw [hadds.self] at hstatus
    rcases hadds.status with hnew | hnew <;> rw [hnew] at hstatus <;> cases hstatus
  have hobj := hadds.others r hne
  obtain ⟨hget, hstatus⟩ := hr
  rw [hobj] at hget hstatus
  rw [hadds.requests, Dict.get?_set] at hget
  split_ifs at hget
  · exact absurd (Option.some.inj hget).symm hne
  · exact ⟨⟨hget, hstatus⟩, by rw [hobj]⟩

lemma updateDraftTokenIds_leavesLoads (s : Scheduler) (answers : GrammarAnswers)
    (drafts : List (String × List Int)) :
    LeavesLoads s (s.updateDraftTokenIds answers drafts) := by
  refine List.foldlRecOn drafts _ (LeavesLoads.refl s) fun s₁ h₁ draft _ => h₁.trans ?_
  unfold updateDraft
  split
  · exact .refl s₁
  · split_ifs
    · exact .refl s₁
    · exact .of_same rfl rfl rfl (.refl _ _)
    · split <;> exact .of_same rfl rfl rfl (.refl _ _)

end Scheduler

end VllmV1
