import Mathlib.Data.List.Dedup
import VllmMmaEmu.Sched.Registry
import VllmMmaEmu.Sched.UpdateFromOutput

/-!
# Requests that leave

`finish_requests`, `update_from_output` and the end of a transfer take requests out of the
queues and the map of ids. While a loop over several requests runs, the queues of the
scheduler still hold those that are already finished.
-/

namespace VllmV1

open Python

namespace Scheduler

variable {s s' : Scheduler} {answers : FinishAnswers} {r : Ref} {running waiting : List Ref}

/-- A request is freed: it leaves the map of ids, at once or after its transfer. -/
structure Frees (s s' : Scheduler) (r : Ref) : Prop where
  objs : s'.objs = s.objs
  requests : s'.requests = s.requests ∨ s'.requests = s.requests.erase (s.objs r).requestId
  nextRef : s'.nextRef = s.nextRef
  config : s'.config = s.config
  running : s'.running = s.running
  waiting : s'.waiting = s.waiting

lemma freeBlocks_frees (h : s.freeBlocks r = .ok s') : Frees s s' r := by
  obtain ⟨_, -, hrest⟩ := bind_eq_ok.mp h
  obtain ⟨requests, hdel, hret⟩ := bind_eq_ok.mp hrest
  obtain rfl := Except.ok.inj hret
  obtain ⟨-, rfl⟩ := Dict.delItem_eq_ok.mp hdel
  exact ⟨rfl, Or.inr rfl, rfl, rfl, rfl, rfl⟩

lemma freeRequest_frees {params : Bool} (h : s.freeRequest answers r = .ok (params, s')) :
    Frees s s' r := by
  obtain ⟨_, -, hrest⟩ := bind_eq_ok.mp h
  obtain ⟨⟨delay, params'⟩, -, hrest⟩ := bind_eq_ok.mp hrest
  dsimp only at hrest
  split_ifs at hrest
  · obtain ⟨-, rfl⟩ := Prod.mk.inj (Except.ok.inj hrest)
    exact ⟨rfl, Or.inl rfl, rfl, rfl, rfl, rfl⟩
  · obtain ⟨s₁, hfree, hret⟩ := bind_eq_ok.mp hrest
    obtain ⟨-, rfl⟩ := Prod.mk.inj (Except.ok.inj hret)
    obtain ⟨hobjs, hrequests, hnext, hconfig, hrunning, hwaiting⟩ := freeBlocks_frees hfree
    exact ⟨hobjs, hrequests, hnext, hconfig, hrunning, hwaiting⟩

lemma Frees.registry (h : Frees s s' r) (hreg : Registry s running waiting)
    (hr : s.requests.get? (s.objs r).requestId = some r) (hfinished : (s.objs r).isFinished = true) :
    Registry s' (running.filter (· ≠ r)) (waiting.filter (· ≠ r)) :=
  hreg.retire hr h.requests h.nextRef (fun r' => by rw [h.objs]) (by rw [h.objs]; exact hfinished)
    fun r' _ => by rw [h.objs]

lemma removeAll_eq_filter {l : List Ref} (h : l.Nodup) (items : List Ref) :
    removeAll l items = l.filter (· ∉ items) := by
  match items with
  | [] => simp [removeAll]
  | [item] =>
    rw [removeAll, h.erase_eq_filter]
    refine List.filter_congr fun r _ => ?_
    rw [Bool.eq_iff_iff]
    simp
  | _ :: _ :: _ => rfl

lemma finishLoop_registry {status : RequestStatus} {rs : List Ref}
    (h : finishLoop answers status s rs = .ok s') (hfinished : status.isFinished = true)
    (hnodup : rs.Nodup) (hrs : ∀ r ∈ rs, s.requests.get? (s.objs r).requestId = some r)
    (hreg : Registry s running waiting) :
    Registry s' (running.filter (· ∉ rs)) (waiting.filter (· ∉ rs)) ∧
      s'.running = s.running ∧ s'.waiting = s.waiting := by
  induction rs generalizing s running waiting with
  | nil =>
    obtain rfl := Except.ok.inj h
    simpa using hreg
  | cons r rest ih =>
    obtain ⟨⟨params, s₁⟩, hfree, hrest⟩ := bind_eq_ok.mp h
    obtain ⟨hout, hnodup⟩ := List.nodup_cons.mp hnodup
    have hfrees := freeRequest_frees hfree
    have hid : ∀ r', (s₁.objs r').requestId = (s.objs r').requestId := fun r' => by
      simp only [hfrees.objs, setStatus, modify]
      split_ifs <;> rfl
    have hself : (s₁.objs r).isFinished = true := by
      simpa only [hfrees.objs, setStatus, modify, if_true, Request.isFinished] using hfinished
    have hothers : ∀ r' ≠ r, (s₁.objs r').status = (s.objs r').status := fun r' hne => by
      simp only [hfrees.objs, setStatus, modify, if_neg hne]
    have hr := hrs r List.mem_cons_self
    have hrequests : s₁.requests = s.requests ∨
        s₁.requests = s.requests.erase (s.objs r).requestId := by
      simpa only [setStatus, modify, if_true] using hfrees.requests
    have hreg₁ := hreg.retire hr hrequests hfrees.nextRef hid hself hothers
    have hrest₁ : ∀ r' ∈ rest, s₁.requests.get? (s₁.objs r').requestId = some r' := by
      intro r' hr'
      have hget := hrs r' (List.mem_cons_of_mem r hr')
      rw [hid]
      rcases hrequests with heq | heq
      · rw [heq, hget]
      · rw [heq, Dict.get?_erase_of_ne, hget]
        intro hsame
        rw [← hsame, hr] at hget
        exact hout (Option.some.inj hget ▸ hr')
    obtain ⟨hreg₂, hrunning, hwaiting⟩ := ih hrest hnodup hrest₁ hreg₁
    refine ⟨?_, hrunning.trans hfrees.running, hwaiting.trans hfrees.waiting⟩
    simpa only [List.filter_filter, List.mem_cons, not_or, decide_not, ne_eq, Bool.decide_and,
      Bool.and_comm] using hreg₂

lemma validRequests_registered (hreg : Registry s running waiting) (requestIds : List String) :
    (s.validRequests requestIds).Nodup ∧
      ∀ r ∈ s.validRequests requestIds, s.requests.get? (s.objs r).requestId = some r := by
  refine ⟨(List.nodup_dedup requestIds).filterMap (fun id id' r hid hid' => ?_), fun r hr => ?_⟩
  · rw [← (hreg.named id r hid).1, ← (hreg.named id' r hid').1]
  · obtain ⟨id, -, hget⟩ := List.mem_filterMap.mp hr
    rwa [(hreg.named id r hget).1]

lemma removeFromQueues_spec {rs : List Ref} (h : s.removeFromQueues rs = .ok s')
    (hreg : Registry s s.running s.waiting.refs) :
    ∃ waiting', s' = { s with running := s.running.filter (· ∉ rs), waiting := waiting' } ∧
      waiting'.refs.Perm (s.waiting.refs.filter (· ∉ rs)) := by
  have hrunning : removeAll s.running (rs.filter fun r => (s.objs r).status = .running) =
      s.running.filter (· ∉ rs) := by
    rw [removeAll_eq_filter (List.nodup_append'.mp hreg.nodup).1]
    refine List.filter_congr fun r hr => ?_
    simp [hreg.runs r hr]
  have hqueue : s.waiting.refs.filter
        (fun r => decide (r ∉ rs.filter fun r => (s.objs r).status ≠ .running)) =
      s.waiting.refs.filter (· ∉ rs) := by
    refine List.filter_congr fun r hr => ?_
    simp [(hreg.waits r hr).not_running]
  simp only [removeFromQueues, hrunning] at h
  rw [← hqueue]
  split_ifs at h with hnone
  · obtain rfl := Except.ok.inj h
    refine ⟨s.waiting, rfl, ?_⟩
    rw [hnone]
    simp
  · obtain ⟨waiting', hwaiting, hret⟩ := bind_eq_ok.mp h
    obtain rfl := Except.ok.inj hret
    refine ⟨waiting', rfl, ?_⟩
    have hperm := (RequestQueue.removeRequests_items hwaiting).map HeapItem.request
    rw [RequestQueue.refs, RequestQueue.refs, List.filter_map]
    exact hperm

theorem finishRequests_registry {requestIds : List String} {status : RequestStatus}
    (h : s.finishRequests answers requestIds status = .ok s')
    (hreg : Registry s s.running s.waiting.refs) :
    Registry s' s'.running s'.waiting.refs := by
  obtain ⟨_, hfinished, hrest⟩ := bind_eq_ok.mp h
  obtain ⟨s₁, hremove, hloop⟩ := bind_eq_ok.mp hrest
  obtain ⟨hnodup, hregistered⟩ := validRequests_registered hreg requestIds
  obtain ⟨waiting', rfl, hwaiting⟩ := removeFromQueues_spec hremove hreg
  have hreg₁ : Registry { s with
      running := s.running.filter (· ∉ s.validRequests requestIds), waiting := waiting' }
      s.running s.waiting.refs :=
    hreg.congr rfl rfl (fun _ => rfl) (fun _ => rfl) (.refl _) (.refl _) (.refl _)
  obtain ⟨hreg₂, hrunning, hqueue⟩ :=
    finishLoop_registry hloop (pyAssert_eq_ok.mp hfinished) hnodup hregistered hreg₁
  rw [hrunning, hqueue]
  exact hreg₂.congr rfl rfl (fun _ => rfl) (fun _ => rfl) (hwaiting.append_left _) (.refl _) hwaiting

lemma appendOutputTokenIds_spec {hasher : Option Request.BlockHasher} {request request' : Request}
    {tokens : List Int} (h : request.appendOutputTokenIds hasher tokens = .ok request') :
    ∃ hashes, request' = { request.addOutput tokens with blockHashes := hashes } := by
  unfold Request.appendOutputTokenIds Request.extendBlockHashes at h
  split at h
  · obtain rfl := Except.ok.inj h
    exact ⟨request.blockHashes, rfl⟩
  · obtain ⟨new, -, hret⟩ := bind_eq_ok.mp h
    obtain rfl := Except.ok.inj hret
    exact ⟨_, rfl⟩

/-- One request object gets output tokens; the queues and the map stay as they are. -/
structure Appends (s s' : Scheduler) (r : Ref) (tokens : List Int) : Prop where
  requestId : (s'.objs r).requestId = (s.objs r).requestId
  outputTokenIds : (s'.objs r).outputTokenIds = (s.objs r).outputTokenIds ++ tokens
  others : ∀ r' ≠ r, s'.objs r' = s.objs r'
  requests : s'.requests = s.requests
  nextRef : s'.nextRef = s.nextRef
  config : s'.config = s.config
  running : s'.running = s.running
  waiting : s'.waiting = s.waiting

namespace Appends

lemma none (s : Scheduler) (r : Ref) : Appends s s r [] :=
  ⟨rfl, (List.append_nil _).symm, fun _ _ => rfl, rfl, rfl, rfl, rfl, rfl⟩

lemma trans {s'' : Scheduler} {tokens more : List Int} (h : Appends s s' r tokens)
    (h' : Appends s' s'' r more) : Appends s s'' r (tokens ++ more) where
  requestId := h'.requestId.trans h.requestId
  outputTokenIds := by rw [h'.outputTokenIds, h.outputTokenIds, List.append_assoc]
  others r' hne := (h'.others r' hne).trans (h.others r' hne)
  requests := h'.requests.trans h.requests
  nextRef := h'.nextRef.trans h.nextRef
  config := h'.config.trans h.config
  running := h'.running.trans h.running
  waiting := h'.waiting.trans h.waiting

/-- An attribute of the request is assigned that is neither the id nor the output. -/
lemma modify (s : Scheduler) (r : Ref) {f : Request → Request}
    (hid : (f (s.objs r)).requestId = (s.objs r).requestId)
    (houtput : (f (s.objs r)).outputTokenIds = (s.objs r).outputTokenIds) :
    Appends s (s.modify r f) r [] := by
  refine ⟨?_, ?_, fun r' hne => if_neg hne, rfl, rfl, rfl, rfl, rfl⟩
  · simpa only [Scheduler.modify, if_true] using hid
  · simpa only [Scheduler.modify, if_true, List.append_nil] using houtput

end Appends

lemma appendToken_spec {token : Int} (h : s.appendToken r token = .ok s') :
    Appends s s' r [token] ∧ (s'.objs r).status = (s.objs r).status := by
  obtain ⟨request, happend, hret⟩ := bind_eq_ok.mp h
  obtain rfl := Except.ok.inj hret
  obtain ⟨hashes, rfl⟩ := appendOutputTokenIds_spec happend
  refine ⟨⟨?_, ?_, fun r' hne => if_neg hne, rfl, rfl, rfl, rfl, rfl⟩, ?_⟩
  · simp only [Scheduler.modify, if_true, Request.addOutput]
  · simp only [Scheduler.modify, if_true, Request.addOutput]
  · simp only [Scheduler.modify, if_true, Request.addOutput]

lemma checkStop_finished {request : Request} {maxModelLen : Int} {poolerOutput : Bool}
    {status : RequestStatus} (h : checkStop request maxModelLen poolerOutput = .ok (some status)) :
    status.isFinished = true := by
  unfold checkStop at h
  split_ifs at h
  · obtain rfl := Option.some.inj (Except.ok.inj h)
    rfl
  · obtain rfl := Option.some.inj (Except.ok.inj h)
    rfl
  · cases h
  · split at h
    · cases h
    · cases h
    · split_ifs at h
      · obtain rfl := Option.some.inj (Except.ok.inj h)
        rfl
      · cases h

lemma checkStop_pooler {request : Request} {maxModelLen : Int} {status : RequestStatus}
    (h : checkStop request maxModelLen false = .ok (some status)) (poolerOutput : Bool) :
    checkStop request maxModelLen poolerOutput = .ok (some status) := by
  unfold checkStop at h ⊢
  by_cases hlength : (request.numTokens : Int) ≥ maxModelLen ∨
      request.numOutputTokens ≥ request.maxTokens
  · rwa [if_pos hlength] at h ⊢
  · rw [if_neg hlength] at h ⊢
    by_cases hpooling : request.poolingParams = true
    · rw [if_pos hpooling] at h
      cases h
    · rwa [if_neg hpooling] at h ⊢

lemma setStatus_objs_self (s : Scheduler) (r : Ref) (status : RequestStatus) :
    (s.setStatus r status).objs r = { s.objs r with status := status } := if_pos rfl

/-- Whether the request stops, with the status that says so. -/
structure Stops (s s' : Scheduler) (r : Ref) (stopped : Bool) : Prop where
  goes : stopped = false → (s'.objs r).status = (s.objs r).status
  stops : stopped = true → ∃ status,
    checkStop (s'.objs r) s'.maxModelLen false = .ok (some status) ∧ (s'.objs r).status = status

lemma applyStop_spec {poolerOutput stopped : Bool}
    (h : s.applyStop r poolerOutput = .ok (stopped, s')) :
    Appends s s' r [] ∧
      (stopped = false → s' = s ∧ checkStop (s.objs r) s.maxModelLen poolerOutput = .ok none) ∧
      (stopped = true → ∃ status, s' = s.setStatus r status ∧
        checkStop (s.objs r) s.maxModelLen poolerOutput = .ok (some status)) := by
  obtain ⟨stop, hcheck, hret⟩ := bind_eq_ok.mp h
  cases stop with
  | none =>
    obtain ⟨rfl, rfl⟩ := Prod.mk.inj (Except.ok.inj hret)
    exact ⟨.none s r, fun _ => ⟨rfl, hcheck⟩, nofun⟩
  | some status =>
    obtain ⟨rfl, rfl⟩ := Prod.mk.inj (Except.ok.inj hret)
    exact ⟨.modify s r rfl rfl, nofun, fun _ => ⟨status, rfl, hcheck⟩⟩

lemma appendLoop_spec {tokens appended : List Int} {stopped : Bool}
    (h : appendLoop r s tokens = .ok (appended, stopped, s')) :
    appended <+: tokens ∧ Appends s s' r appended ∧ Stops s s' r stopped := by
  induction tokens generalizing s appended with
  | nil =>
    obtain ⟨rfl, hret⟩ := Prod.mk.inj (Except.ok.inj h)
    obtain ⟨rfl, rfl⟩ := Prod.mk.inj hret
    exact ⟨List.prefix_rfl, .none s r, ⟨fun _ => rfl, nofun⟩⟩
  | cons token rest ih =>
    obtain ⟨s₁, happend, hrest⟩ := bind_eq_ok.mp h
    obtain ⟨⟨stop, s₂⟩, hstop, hrest⟩ := bind_eq_ok.mp hrest
    obtain ⟨happends, hstatus⟩ := appendToken_spec happend
    obtain ⟨hnone, hgoes, hstops⟩ := applyStop_spec hstop
    have happends₂ := happends.trans hnone
    cases stop with
    | true =>
      obtain ⟨rfl, hret⟩ := Prod.mk.inj (Except.ok.inj hrest)
      obtain ⟨rfl, rfl⟩ := Prod.mk.inj hret
      obtain ⟨status, rfl, hcheck⟩ := hstops rfl
      refine ⟨⟨rest, rfl⟩, happends₂, nofun, fun _ => ⟨status, ?_, ?_⟩⟩
      · rw [setStatus_objs_self]
        exact hcheck
      · rw [setStatus_objs_self]
    | false =>
      obtain ⟨⟨appended', stopped', s₃⟩, hloop, hret⟩ := bind_eq_ok.mp hrest
      obtain ⟨rfl, hpair⟩ := Prod.mk.inj (Except.ok.inj hret)
      obtain ⟨rfl, rfl⟩ := Prod.mk.inj hpair
      obtain ⟨htaken, happends₃, hstop₃⟩ := ih hloop
      obtain ⟨rfl, -⟩ := hgoes rfl
      refine ⟨(List.prefix_cons_inj token).mpr htaken, happends₂.trans happends₃,
        fun hgo => (hstop₃.goes hgo).trans hstatus, hstop₃.stops⟩

lemma settlePlaceholders_spec {status : RequestStatus} {n : Nat}
    (h : s.settlePlaceholders r status n = .ok s') :
    Appends s s' r [] ∧
      ∃ k, s'.objs r = { s.objs r with numOutputPlaceholders := k } := by
  have hset : ∀ k, Appends s (s.modify r fun request =>
      { request with numOutputPlaceholders := k }) r [] := fun _ => .modify s r rfl rfl
  obtain ⟨_, -, hrest⟩ := bind_eq_ok.mp h
  split_ifs at hrest
  · obtain ⟨kv, -, hret⟩ := bind_eq_ok.mp hrest
    obtain rfl := Except.ok.inj hret
    obtain ⟨hid, houtput, hothers, -⟩ := hset ((s.objs r).numOutputPlaceholders - n)
    refine ⟨⟨?_, ?_, fun r' hne => if_neg hne, rfl, rfl, rfl, rfl, rfl⟩,
      (s.objs r).numOutputPlaceholders - n, if_pos rfl⟩
    · simp only [Scheduler.modify, if_true]
    · simp only [Scheduler.modify, if_true, List.append_nil]
  · obtain rfl := Except.ok.inj hrest
    exact ⟨.modify s r rfl rfl, (s.objs r).numOutputPlaceholders - n, if_pos rfl⟩

lemma maxModelLen_congr (h : s'.config = s.config) : s'.maxModelLen = s.maxModelLen := by
  rw [maxModelLen, maxModelLen, h]

lemma updateRequestWithOutput_spec {tokens appended : List Int} {stopped : Bool}
    (h : s.updateRequestWithOutput r tokens = .ok (appended, stopped, s')) :
    appended <+: tokens ∧ Appends s s' r appended ∧ Stops s s' r stopped := by
  unfold updateRequestWithOutput at h
  split_ifs at h with hnil
  · obtain ⟨rfl, hpair⟩ := Prod.mk.inj (Except.ok.inj h)
    obtain ⟨rfl, rfl⟩ := Prod.mk.inj hpair
    exact ⟨⟨_, rfl⟩, .none s r, fun _ => rfl, nofun⟩
  · obtain ⟨⟨appended', stopped', s₁⟩, hloop, hrest⟩ := bind_eq_ok.mp h
    obtain ⟨htaken, happends, hstops⟩ := appendLoop_spec hloop
    dsimp only at hrest
    split_ifs at hrest
    · obtain ⟨s₂, hsettle, hret⟩ := bind_eq_ok.mp hrest
      obtain ⟨rfl, hpair⟩ := Prod.mk.inj (Except.ok.inj hret)
      obtain ⟨rfl, rfl⟩ := Prod.mk.inj hpair
      obtain ⟨hnone, k, hobj⟩ := settlePlaceholders_spec hsettle
      have happends₂ := happends.trans hnone
      rw [List.append_nil] at happends₂
      refine ⟨htaken, happends₂, fun hgo => ?_, fun hstop => ?_⟩
      · rw [hobj]
        exact hstops.goes hgo
      · obtain ⟨status, hcheck, hstatus⟩ := hstops.stops hstop
        rw [hobj, maxModelLen_congr hnone.config]
        exact ⟨status, hcheck, hstatus⟩
    · obtain ⟨rfl, hpair⟩ := Prod.mk.inj (Except.ok.inj hrest)
      obtain ⟨rfl, rfl⟩ := Prod.mk.inj hpair
      exact ⟨htaken, happends, hstops⟩

lemma poolerStop_spec {s₁ : Scheduler} {runner : ModelRunnerOutput} {index : Nat}
    {poolerOutput stopped stopped' : Bool} (hstops : Stops s s₁ r stopped)
    (h : s₁.poolerStop runner r index stopped = .ok (poolerOutput, stopped', s')) :
    Appends s₁ s' r [] ∧
      (stopped' = false → (s'.objs r).status = (s.objs r).status) ∧
      (stopped' = true → (s'.objs r).isFinished = true) := by
  unfold poolerStop at h
  split_ifs at h
  · obtain ⟨-, hpair⟩ := Prod.mk.inj (Except.ok.inj h)
    obtain ⟨rfl, rfl⟩ := Prod.mk.inj hpair
    refine ⟨.none s₁ r, hstops.goes, fun hstop => ?_⟩
    obtain ⟨status, hcheck, hstatus⟩ := hstops.stops hstop
    rw [Request.isFinished, hstatus]
    exact checkStop_finished hcheck
  · obtain ⟨output, -, hrest⟩ := bind_eq_ok.mp h
    obtain ⟨⟨stop, s₂⟩, hstop, hret⟩ := bind_eq_ok.mp hrest
    obtain ⟨-, hpair⟩ := Prod.mk.inj (Except.ok.inj hret)
    obtain ⟨rfl, rfl⟩ := Prod.mk.inj hpair
    obtain ⟨hnone, hgo, hend⟩ := applyStop_spec hstop
    refine ⟨hnone, fun hfalse => ?_, fun htrue => ?_⟩
    · obtain ⟨rfl, hcheck⟩ := hgo hfalse
      cases stopped with
      | false => exact hstops.goes rfl
      | true =>
        obtain ⟨status, hcheck', -⟩ := hstops.stops rfl
        rw [checkStop_pooler hcheck' output] at hcheck
        cases hcheck
    · obtain ⟨status, rfl, hcheck⟩ := hend htrue
      rw [setStatus_objs_self]
      exact checkStop_finished hcheck

lemma rollback_spec (s : Scheduler) (out : SchedulerOutput) (r : Ref) (requestId : String)
    (generated : List Int) :
    Appends s (s.rollback out r requestId generated) r [] ∧
      ((s.rollback out r requestId generated).objs r).status = (s.objs r).status := by
  unfold rollback
  split
  · exact ⟨.none s r, rfl⟩
  · split_ifs
    · exact ⟨.none s r, rfl⟩
    · refine ⟨.modify s r rfl rfl, ?_⟩
      simp only [setComputed, Scheduler.modify, if_true]

end Scheduler

namespace UpdateState

open Scheduler

variable {out : SchedulerOutput} {runner : ModelRunnerOutput} {answers : FinishAnswers}
  {st st' : UpdateState} {r : Ref} {requestId : String}

/-- A stopped request is noted under its earlier status. -/
structure Notes (st st' : UpdateState) (r : Ref) : Prop where
  running : st'.stoppedRunningReqs = if (st.sched.objs r).status = .running then
    st.stoppedRunningReqs.insert r else st.stoppedRunningReqs
  preempted : st'.stoppedPreemptedReqs = if (st.sched.objs r).status = .running then
    st.stoppedPreemptedReqs else st.stoppedPreemptedReqs.insert r

/-- What happens to a request after its tokens have been appended. -/
inductive Outcome (st st' : UpdateState) (s₁ : Scheduler) (r : Ref) : Prop where
  | goesOn (sched : st'.sched = s₁) (status : (s₁.objs r).status = (st.sched.objs r).status)
      (running : st'.stoppedRunningReqs = st.stoppedRunningReqs)
      (preempted : st'.stoppedPreemptedReqs = st.stoppedPreemptedReqs)
  | stops (finished : (s₁.objs r).isFinished = true) (frees : Frees s₁ st'.sched r)
      (notes : Notes st st' r)

/-- The tokens sampled for an id. -/
def Sampled (runner : ModelRunnerOutput) (requestId : String) (tokens : List Int) : Prop :=
  ∃ index, runner.reqIdToIndex.get? requestId = some index ∧
    generatedTokenIds runner index = .ok tokens

lemma addOutput_fields (st : UpdateState) (r : Ref) (requestId : String) (tokens : List Int)
    (poolerOutput params : Bool) :
    (st.addOutput r requestId tokens poolerOutput params).sched = st.sched ∧
      (st.addOutput r requestId tokens poolerOutput params).stoppedRunningReqs =
        st.stoppedRunningReqs ∧
      (st.addOutput r requestId tokens poolerOutput params).stoppedPreemptedReqs =
        st.stoppedPreemptedReqs := by
  unfold addOutput
  split_ifs <;> exact ⟨rfl, rfl, rfl⟩

lemma updateRequest_spec (h : st.updateRequest out runner answers requestId r = .ok st') :
    ∃ generated appended s₁, Sampled runner requestId generated ∧ appended <+: generated ∧
      Appends st.sched s₁ r appended ∧ Outcome st st' s₁ r := by
  obtain ⟨index, hindex, hrest⟩ := bind_eq_ok.mp h
  obtain ⟨generated, hgenerated, hrest⟩ := bind_eq_ok.mp hrest
  obtain ⟨⟨appended, stopped, s₁⟩, hupdate, hrest⟩ := bind_eq_ok.mp hrest
  obtain ⟨⟨poolerOutput, stopped', s₂⟩, hpooler, hrest⟩ := bind_eq_ok.mp hrest
  obtain ⟨⟨params, st₃⟩, hfree, hret⟩ := bind_eq_ok.mp hrest
  obtain rfl := Except.ok.inj hret
  obtain ⟨hrollback, hstatus⟩ := rollback_spec st.sched out r requestId generated
  obtain ⟨htaken, happends, hstops⟩ := updateRequestWithOutput_spec hupdate
  obtain ⟨hnone, hgo, hend⟩ := poolerStop_spec hstops hpooler
  have hall := (hrollback.trans happends).trans hnone
  rw [List.nil_append, List.append_nil] at hall
  refine ⟨generated, appended, s₂, ⟨index, Dict.getItem_eq_ok.mp hindex, hgenerated⟩, htaken,
    hall, ?_⟩
  obtain ⟨hsched, hrunning, hpreempted⟩ :=
    addOutput_fields st₃ r requestId appended poolerOutput params
  unfold freeStopped at hfree
  split_ifs at hfree with hstop hwas
  · obtain ⟨⟨params', s₄⟩, hfreed, hrest⟩ := bind_eq_ok.mp hfree
    obtain ⟨-, rfl⟩ := Prod.mk.inj (Except.ok.inj hrest)
    rw [hstatus] at hwas
    refine .stops (hend hstop) (by rw [hsched]; exact freeRequest_frees hfreed) ⟨?_, ?_⟩
    · rw [hrunning, if_pos hwas]
    · rw [hpreempted, if_pos hwas]
  · obtain ⟨⟨params', s₄⟩, hfreed, hrest⟩ := bind_eq_ok.mp hfree
    obtain ⟨-, rfl⟩ := Prod.mk.inj (Except.ok.inj hrest)
    rw [hstatus] at hwas
    refine .stops (hend hstop) (by rw [hsched]; exact freeRequest_frees hfreed) ⟨?_, ?_⟩
    · rw [hrunning, if_neg hwas]
    · rw [hpreempted, if_neg hwas]
  · obtain ⟨-, rfl⟩ := Prod.mk.inj (Except.ok.inj hfree)
    exact .goesOn hsched ((hgo (by simpa using hstop)).trans hstatus) hrunning hpreempted

/-- The requests that have stopped so far. -/
def stopped (st : UpdateState) : List Ref := st.stoppedRunningReqs ++ st.stoppedPreemptedReqs

/-- The queues of `s` without the requests that have stopped since; each of these leaves the
queue it was in. -/
structure Retired (s : Scheduler) (st : UpdateState) : Prop where
  running : st.sched.running = s.running
  waiting : st.sched.waiting = s.waiting
  registry : Registry st.sched (s.running.filter (· ∉ st.stopped))
    (s.waiting.refs.filter (· ∉ st.stopped))
  fromRunning : ∀ r ∈ st.stoppedRunningReqs, r ∉ s.waiting.refs
  fromWaiting : ∀ r ∈ st.stoppedPreemptedReqs, r ∈ s.running → r ∈ st.stoppedRunningReqs

lemma Notes.mem_stopped (h : Notes st st' r) (r' : Ref) :
    r' ∈ st'.stopped ↔ r' = r ∨ r' ∈ st.stopped := by
  simp only [stopped, h.running, h.preempted]
  split_ifs
  · simp [List.mem_insert_iff, or_assoc]
  · simp only [List.mem_append, List.mem_insert_iff]
    tauto

lemma filter_stopped (h : Notes st st' r) (l : List Ref) :
    (l.filter (· ∉ st.stopped)).filter (· ≠ r) = l.filter (· ∉ st'.stopped) := by
  rw [List.filter_filter]
  refine List.filter_congr fun r' _ => ?_
  rw [Bool.eq_iff_iff]
  simp [h.mem_stopped]

variable {s : Scheduler}

lemma start_retired (hreg : Registry s s.running s.waiting.refs) : Retired s (start s) := by
  refine ⟨rfl, rfl, ?_, by simp [start], by simp [start]⟩
  simpa [stopped, start] using hreg

/-- A registered request whose status says so is in the running queue. -/
lemma mem_of_running {running waiting : List Ref} (hreg : Registry s running waiting)
    (hget : s.requests.get? requestId = some r) (hstatus : (s.objs r).status = .running) :
    r ∈ running := by
  have hin : r ∈ running ++ waiting :=
    hreg.queued requestId r hget (by rw [Request.isFinished, hstatus]; rfl)
  exact (List.mem_append.mp hin).resolve_right fun hmem => (hreg.waits r hmem).not_running hstatus

lemma updateEntry_retired {scheduled : String × Int} (hnodup : (s.running ++ s.waiting.refs).Nodup)
    (hst : Retired s st) (h : st.updateEntry out runner answers scheduled = .ok st') :
    Retired s st' := by
  obtain ⟨_, -, hrest⟩ := bind_eq_ok.mp h
  split at hrest
  · obtain rfl := Except.ok.inj hrest
    exact hst
  · rename_i r hget
    obtain ⟨generated, appended, s₁, -, -, happends, houtcome⟩ := updateRequest_spec hrest
    have hname := (hst.registry.named _ r hget).1
    have hid : ∀ r', (s₁.objs r').requestId = (st.sched.objs r').requestId := fun r' => by
      by_cases hne : r' = r
      · rw [hne, happends.requestId]
      · rw [happends.others r' hne]
    cases houtcome with
    | goesOn sched status running preempted =>
      have hstopped : st'.stopped = st.stopped := by rw [stopped, running, preempted]; rfl
      refine ⟨?_, ?_, ?_, ?_, ?_⟩
      · rw [sched, happends.running, hst.running]
      · rw [sched, happends.waiting, hst.waiting]
      · rw [hstopped, sched]
        refine hst.registry.congr happends.requests happends.nextRef hid (fun r' => ?_) (.refl _)
          (.refl _) (.refl _)
        by_cases hne : r' = r
        · rw [hne, status]
        · rw [happends.others r' hne]
      · rw [running]
        exact hst.fromRunning
      · rw [running, preempted]
        exact hst.fromWaiting
    | stops finished frees notes =>
      refine ⟨?_, ?_, ?_, ?_, ?_⟩
      · rw [frees.running, happends.running, hst.running]
      · rw [frees.waiting, happends.waiting, hst.waiting]
      · rw [← filter_stopped notes, ← filter_stopped notes]
        refine hst.registry.retire (hname.symm ▸ hget) ?_ ?_ ?_ ?_ ?_
        · rw [← hid r, ← happends.requests]
          exact frees.requests
        · rw [frees.nextRef, happends.nextRef]
        · intro r'
          rw [frees.objs, hid]
        · rw [frees.objs, finished]
        · intro r' hne
          rw [frees.objs, happends.others r' hne]
      · intro r' hr'
        rw [notes.running] at hr'
        split_ifs at hr' with hwas
        · rcases List.mem_insert_iff.mp hr' with rfl | hr'
          · have hin := mem_of_running hst.registry hget hwas
            exact fun hwaiting =>
              List.disjoint_of_nodup_append hnodup (List.mem_filter.mp hin).1 hwaiting
          · exact hst.fromRunning r' hr'
        · exact hst.fromRunning r' hr'
      · intro r' hr' hrunning
        rw [notes.preempted] at hr'
        rw [notes.running]
        split_ifs at hr' ⊢ with hwas
        · exact List.mem_insert_of_mem (hst.fromWaiting r' hr' hrunning)
        · rcases List.mem_insert_iff.mp hr' with rfl | hr'
          · -- a request of the running queue is of another status only if it has stopped
            by_contra hout
            have hfresh : r' ∉ st.stopped := fun hmem =>
              hout ((List.mem_append.mp hmem).elim id fun hmem => hst.fromWaiting r' hmem hrunning)
            refine hwas (hst.registry.runs r' (List.mem_filter.mpr ⟨hrunning, ?_⟩))
            exact decide_eq_true hfresh
          · exact hst.fromWaiting r' hr' hrunning

lemma removeStopped_registry {s' : Scheduler} (hnodup : (s.running ++ s.waiting.refs).Nodup)
    (hst : Retired s st) (h : st.removeStopped = .ok s') :
    Registry s' s'.running s'.waiting.refs := by
  have hrunning : removeAll st.sched.running st.stoppedRunningReqs =
      s.running.filter (· ∉ st.stopped) := by
    rw [hst.running, removeAll_eq_filter (List.nodup_append'.mp hnodup).1]
    refine List.filter_congr fun r hr => ?_
    rw [Bool.eq_iff_iff]
    have hiff : r ∈ st.stopped ↔ r ∈ st.stoppedRunningReqs := by
      rw [stopped, List.mem_append]
      exact ⟨fun hmem => hmem.elim id fun hmem => hst.fromWaiting r hmem hr, Or.inl⟩
    simp [hiff]
  have hqueue : s.waiting.refs.filter (· ∉ st.stoppedPreemptedReqs) =
      s.waiting.refs.filter (· ∉ st.stopped) := by
    refine List.filter_congr fun r hr => ?_
    rw [Bool.eq_iff_iff]
    have hiff : r ∈ st.stopped ↔ r ∈ st.stoppedPreemptedReqs := by
      rw [stopped, List.mem_append]
      exact ⟨fun hmem => hmem.elim (fun hmem => absurd hr (hst.fromRunning r hmem)) id, Or.inr⟩
    simp [hiff]
  have hleft : ∀ waiting : RequestQueue,
      waiting.refs.Perm (s.waiting.refs.filter (· ∉ st.stoppedPreemptedReqs)) →
      Registry { st.sched with
        running := s.running.filter (· ∉ st.stopped), waiting := waiting }
        (s.running.filter (· ∉ st.stopped)) waiting.refs := fun waiting hperm => by
    rw [hqueue] at hperm
    exact hst.registry.congr rfl rfl (fun _ => rfl) (fun _ => rfl) (hperm.append_left _) (.refl _)
      hperm
  simp only [removeStopped, hrunning] at h
  split_ifs at h with hnone
  · obtain rfl := Except.ok.inj h
    refine hleft st.sched.waiting ?_
    rw [hnone, hst.waiting]
    simp
  · obtain ⟨waiting, hwaiting, hret⟩ := bind_eq_ok.mp h
    obtain rfl := Except.ok.inj hret
    refine hleft waiting ?_
    have hperm := (RequestQueue.removeRequests_items hwaiting).map HeapItem.request
    rw [hst.waiting] at hperm
    rw [RequestQueue.refs, RequestQueue.refs, List.filter_map]
    exact hperm

end UpdateState

namespace Scheduler

variable {s s' : Scheduler} {running waiting : List Ref}

lemma finishSending_registry {requestId : String} (h : s.finishSending requestId = .ok s')
    (hreg : Registry s running waiting) :
    Registry s' running waiting ∧ s'.running = s.running ∧ s'.waiting = s.waiting := by
  obtain ⟨r, hget, hfree⟩ := bind_eq_ok.mp h
  rw [Dict.getItem_eq_ok] at hget
  have hname := (hreg.named _ r hget).1
  have hfrees := freeBlocks_frees hfree
  obtain ⟨_, hfinished, -⟩ := bind_eq_ok.mp hfree
  have hfinished := pyAssert_eq_ok.mp hfinished
  have hout : ∀ r' ∈ running ++ waiting, decide (r' ≠ r) = true := fun r' hr' => by
    refine decide_eq_true fun heq => ?_
    rw [heq] at hr'
    rw [hreg.unfinished hr'] at hfinished
    cases hfinished
  have hreg' := hfrees.registry hreg (hname.symm ▸ hget) hfinished
  rw [List.filter_eq_self.mpr fun r' hr' => hout r' (List.mem_append_left _ hr'),
    List.filter_eq_self.mpr fun r' hr' => hout r' (List.mem_append_right _ hr')] at hreg'
  exact ⟨hreg', hfrees.running, hfrees.waiting⟩

lemma updateTransfers_registry {runner : ModelRunnerOutput} (h : s.updateTransfers runner = .ok s')
    (hreg : Registry s s.running s.waiting.refs) : Registry s' s'.running s'.waiting.refs := by
  unfold updateTransfers at h
  split at h
  · obtain rfl := Except.ok.inj h
    exact hreg
  · rename_i kv hkv
    refine foldlM_invariant (P := fun s' => Registry s' s'.running s'.waiting.refs)
      (fun id _ s₁ s₂ hreg₁ hsend => ?_) ?_ h
    · obtain ⟨hreg₂, hrunning, hwaiting⟩ := finishSending_registry hsend hreg₁
      rwa [← hrunning, ← hwaiting] at hreg₂
    · exact hreg.congr rfl rfl (fun _ => rfl) (fun _ => rfl) (.refl _) (.refl _) (.refl _)

theorem updateFromOutput_registry {out : SchedulerOutput} {runner : ModelRunnerOutput}
    {answers : FinishAnswers} {outputs : List EngineCoreOutput}
    (h : s.updateFromOutput out runner answers = .ok (outputs, s'))
    (hreg : Registry s s.running s.waiting.refs) : Registry s' s'.running s'.waiting.refs := by
  obtain ⟨st, hloop, hrest⟩ := bind_eq_ok.mp h
  obtain ⟨s₁, hremove, hrest⟩ := bind_eq_ok.mp hrest
  obtain ⟨s₂, htransfers, hret⟩ := bind_eq_ok.mp hrest
  obtain ⟨-, rfl⟩ := Prod.mk.inj (Except.ok.inj hret)
  have hretired : UpdateState.Retired s st := by
    refine foldlM_invariant (fun p _ st₁ st₂ hst hstep => ?_) (UpdateState.start_retired hreg) hloop
    exact UpdateState.updateEntry_retired hreg.nodup hst hstep
  exact updateTransfers_registry htransfers
    (UpdateState.removeStopped_registry hreg.nodup hretired hremove)

lemma requestInit_spec {hasher : Option Request.BlockHasher} {e : EngineCoreRequest}
    {request : Request} (h : Request.init hasher e = .ok request) :
    request.requestId = e.requestId ∧ request.outputTokenIds = [] ∧
      (request.status = .waiting ∨ request.status = .waitingForFsm) := by
  obtain ⟨⟨status, structured, maxTokens⟩, hparams, hrest⟩ := bind_eq_ok.mp h
  have hstatus : status = .waiting ∨ status = .waitingForFsm := by
    unfold Request.initParams at hparams
    split_ifs at hparams
    · exact Or.inl (Prod.mk.inj (Except.ok.inj hparams)).1.symm
    · split at hparams
      · cases hparams
      · split at hparams
        · cases hparams
        · split_ifs at hparams
          · exact Or.inr (Prod.mk.inj (Except.ok.inj hparams)).1.symm
          · exact Or.inl (Prod.mk.inj (Except.ok.inj hparams)).1.symm
  dsimp only at hrest
  unfold Request.extendBlockHashes at hrest
  split at hrest
  · obtain rfl := Except.ok.inj hrest
    exact ⟨rfl, rfl, hstatus⟩
  · obtain ⟨new, -, hret⟩ := bind_eq_ok.mp hrest
    obtain rfl := Except.ok.inj hret
    exact ⟨rfl, rfl, hstatus⟩

/-- A new request object, the last one in the waiting queue. -/
structure Adds (s s' : Scheduler) (e : EngineCoreRequest) (request : Request) : Prop where
  requestId : request.requestId = e.requestId
  outputTokenIds : request.outputTokenIds = []
  status : request.status = .waiting ∨ request.status = .waitingForFsm
  self : s'.objs s.nextRef = request
  others : ∀ r ≠ s.nextRef, s'.objs r = s.objs r
  requests : s'.requests = s.requests.set e.requestId s.nextRef
  nextRef : s'.nextRef = s.nextRef + 1
  config : s'.config = s.config
  running : s'.running = s.running
  waiting : s'.waiting.refs.Perm (s.nextRef :: s.waiting.refs)

lemma addRequest_adds {e : EngineCoreRequest} (h : s.addRequest e = .ok s') :
    ∃ request, Adds s s' e request := by
  obtain ⟨request, hinit, hrest⟩ := bind_eq_ok.mp h
  obtain ⟨waiting, hadd, hret⟩ := bind_eq_ok.mp hrest
  obtain rfl := Except.ok.inj hret
  obtain ⟨hid, houtput, hstatus⟩ := requestInit_spec hinit
  refine ⟨request, hid, houtput, hstatus, if_pos rfl, fun r hne => if_neg hne, ?_, rfl, rfl, rfl,
    (RequestQueue.addRequest_items hadd).map _⟩
  simp only [assignSpecTokenIds, hid]

/-- A new request waits; the earlier request with its id, if the map still has it, is over. -/
theorem addRequest_registry {e : EngineCoreRequest} (h : s.addRequest e = .ok s')
    (hfresh : ∀ r, s.requests.get? e.requestId = some r → (s.objs r).isFinished = true)
    (hreg : Registry s s.running s.waiting.refs) : Registry s' s'.running s'.waiting.refs := by
  obtain ⟨request, hadds⟩ := addRequest_adds h
  have hperm : (s'.running ++ s'.waiting.refs).Perm
      (s.nextRef :: (s.running ++ s.waiting.refs)) := by
    rw [hadds.running]
    exact (hadds.waiting.append_left _).trans List.perm_middle
  have hold : ∀ r < s.nextRef, s'.objs r = s.objs r := fun r hr => hadds.others r hr.ne
  have hlt : ∀ r ∈ s.running ++ s.waiting.refs, r < s.nextRef := fun r hr => hreg.lt_nextRef hr
  have hwaits : request.status.Waits := by
    rcases hadds.status with hstatus | hstatus <;> exact ⟨by rw [hstatus]; rfl, by rw [hstatus]; nofun⟩
  refine ⟨?_, fun r hr => ?_, fun r hr => ?_, fun r hr => ?_, fun id r hget => ?_,
    fun id r hget hunfinished => ?_⟩
  · rw [hperm.nodup_iff, List.nodup_cons]
    exact ⟨fun hmem => (hlt _ hmem).false, hreg.nodup⟩
  · rw [hadds.requests]
    rcases List.mem_cons.mp (hperm.mem_iff.mp hr) with rfl | hr
    · rw [hadds.self, hadds.requestId, Dict.get?_set_self]
    · have hget := hreg.registered r hr
      rw [hold r (hlt r hr), Dict.get?_set_of_ne, hget]
      intro hsame
      rw [← hsame] at hget
      have hover := hfresh r hget
      rw [hreg.unfinished hr] at hover
      cases hover
  · rw [hadds.running] at hr
    rw [hold r (hlt r (List.mem_append_left _ hr))]
    exact hreg.runs r hr
  · rcases List.mem_cons.mp (hadds.waiting.mem_iff.mp hr) with rfl | hr
    · rwa [hadds.self]
    · rw [hold r (hlt r (List.mem_append_right _ hr))]
      exact hreg.waits r hr
  · rw [hadds.requests, Dict.get?_set] at hget
    rw [hadds.nextRef]
    split_ifs at hget with hid
    · obtain rfl := Option.some.inj hget
      rw [hadds.self, hadds.requestId]
      exact ⟨hid, Nat.lt_succ_self _⟩
    · obtain ⟨hname, hr⟩ := hreg.named id r hget
      rw [hold r hr]
      exact ⟨hname, hr.trans (Nat.lt_succ_self _)⟩
  · rw [hperm.mem_iff]
    rw [hadds.requests, Dict.get?_set] at hget
    split_ifs at hget with hid
    · obtain rfl := Option.some.inj hget
      exact List.mem_cons_self
    · rw [hold r (hreg.named id r hget).2] at hunfinished
      exact List.mem_cons_of_mem _ (hreg.queued id r hget hunfinished)

end Scheduler

end VllmV1
