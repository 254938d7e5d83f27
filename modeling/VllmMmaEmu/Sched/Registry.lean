import VllmMmaEmu.Sched.Moves

/-!
# The queues and the map of ids

A request that is not finished is registered under its id and is in exactly one of the
two queues. The queues of the statements are lists of their own: inside a call they are
not yet, or no longer, the fields of the scheduler.
-/

namespace VllmV1

open Python

/-- The status of a request in the waiting queue. -/
structure RequestStatus.Waits (status : RequestStatus) : Prop where
  unfinished : status.isFinished = false
  not_running : status ≠ .running

structure Registry (s : Scheduler) (running waiting : List Ref) : Prop where
  nodup : (running ++ waiting).Nodup
  registered : ∀ r ∈ running ++ waiting, s.requests.get? (s.objs r).requestId = some r
  runs : ∀ r ∈ running, (s.objs r).status = .running
  waits : ∀ r ∈ waiting, (s.objs r).status.Waits
  named : ∀ id r, s.requests.get? id = some r → (s.objs r).requestId = id ∧ r < s.nextRef
  queued : ∀ id r, s.requests.get? id = some r → (s.objs r).isFinished = false →
    r ∈ running ++ waiting

namespace Registry

variable {s s' : Scheduler} {running waiting running' waiting' : List Ref} {r : Ref}

lemma lt_nextRef (h : Registry s running waiting) (hr : r ∈ running ++ waiting) :
    r < s.nextRef := (h.named _ r (h.registered r hr)).2

lemma unfinished (h : Registry s running waiting) (hr : r ∈ running ++ waiting) :
    (s.objs r).isFinished = false := by
  rcases List.mem_append.mp hr with hr | hr
  · rw [Request.isFinished, h.runs r hr]
    rfl
  · exact (h.waits r hr).unfinished

lemma transition (h : Registry s running waiting) (hrequests : s'.requests = s.requests)
    (hnext : s'.nextRef = s.nextRef)
    (hid : ∀ r, (s'.objs r).requestId = (s.objs r).requestId)
    (hperm : (running' ++ waiting').Perm (running ++ waiting))
    (hruns : ∀ r ∈ running', (s'.objs r).status = .running)
    (hwaits : ∀ r ∈ waiting', (s'.objs r).status.Waits)
    (hrest : ∀ r ∉ running ++ waiting, (s'.objs r).status = (s.objs r).status) :
    Registry s' running' waiting' where
  nodup := hperm.nodup_iff.mpr h.nodup
  registered r hr := by
    rw [hrequests, hid]
    exact h.registered r (hperm.mem_iff.mp hr)
  runs := hruns
  waits := hwaits
  named id r hr := by
    rw [hrequests] at hr
    rw [hid, hnext]
    exact h.named id r hr
  queued id r hr hunfinished := by
    rw [hrequests] at hr
    rw [hperm.mem_iff]
    by_contra hout
    rw [Request.isFinished, hrest r hout] at hunfinished
    exact hout (h.queued id r hr hunfinished)

lemma congr (h : Registry s running waiting) (hrequests : s'.requests = s.requests)
    (hnext : s'.nextRef = s.nextRef)
    (hid : ∀ r, (s'.objs r).requestId = (s.objs r).requestId)
    (hstatus : ∀ r, (s'.objs r).status = (s.objs r).status)
    (hperm : (running' ++ waiting').Perm (running ++ waiting))
    (hrunning : running'.Perm running) (hwaiting : waiting'.Perm waiting) :
    Registry s' running' waiting' :=
  h.transition hrequests hnext hid hperm
    (fun r hr => (hstatus r).trans (h.runs r (hrunning.mem_iff.mp hr)))
    (fun r hr => by
      rw [hstatus]
      exact h.waits r (hwaiting.mem_iff.mp hr))
    (fun r _ => hstatus r)

/-- A finished request leaves the queues and, unless its blocks are freed later, the map. -/
lemma retire (h : Registry s running waiting) (hr : s.requests.get? (s.objs r).requestId = some r)
    (hrequests : s'.requests = s.requests ∨
      s'.requests = s.requests.erase (s.objs r).requestId)
    (hnext : s'.nextRef = s.nextRef)
    (hid : ∀ r', (s'.objs r').requestId = (s.objs r').requestId)
    (hfinished : (s'.objs r).isFinished = true)
    (hrest : ∀ r' ≠ r, (s'.objs r').status = (s.objs r').status) :
    Registry s' (running.filter (· ≠ r)) (waiting.filter (· ≠ r)) := by
  have hkept : ∀ id r', s'.requests.get? id = some r' → s.requests.get? id = some r' := by
    intro id r' hget
    rcases hrequests with heq | heq
    · rwa [heq] at hget
    · rw [heq, Dict.get?_erase] at hget
      split_ifs at hget
      exact hget
  have hmem : ∀ r', r' ∈ running.filter (· ≠ r) ++ waiting.filter (· ≠ r) ↔
      r' ∈ running ++ waiting ∧ r' ≠ r := by
    intro r'
    simp only [List.mem_append, List.mem_filter, decide_eq_true_eq]
    tauto
  exact {
    nodup := by
      rw [← List.filter_append]
      exact h.nodup.filter _
    registered := fun r' hr' => by
      obtain ⟨hr', hne⟩ := (hmem r').mp hr'
      have hget := h.registered r' hr'
      rw [hid]
      rcases hrequests with heq | heq
      · rwa [heq]
      · rw [heq, Dict.get?_erase_of_ne _ s.requests]
        · exact hget
        · intro hsame
          rw [← hsame, hr] at hget
          exact hne (Option.some.inj hget).symm
    runs := fun r' hr' => by
      obtain ⟨hr', hne⟩ := List.mem_filter.mp hr'
      rw [hrest r' (of_decide_eq_true hne)]
      exact h.runs r' hr'
    waits := fun r' hr' => by
      obtain ⟨hr', hne⟩ := List.mem_filter.mp hr'
      rw [hrest r' (of_decide_eq_true hne)]
      exact h.waits r' hr'
    named := fun id r' hget => by
      rw [hid, hnext]
      exact h.named id r' (hkept id r' hget)
    queued := fun id r' hget hunfinished => by
      have hne : r' ≠ r := by
        rintro rfl
        rw [hfinished] at hunfinished
        cases hunfinished
      refine (hmem r').mpr ⟨?_, hne⟩
      rw [Request.isFinished, hrest r' hne] at hunfinished
      exact h.queued id r' (hkept id r' hget) hunfinished }

end Registry

namespace ScheduleState

/-- The requests in the waiting queue and those set aside. -/
def waitingRefs (st : ScheduleState) : List Ref :=
  st.sched.waiting.refs ++ st.skippedWaitingRequests.refs

/-- One request object is replaced. -/
structure Replaces (s s' : Scheduler) (r : Ref) (request : Request) : Prop where
  self : s'.objs r = request
  others : ∀ r' ≠ r, s'.objs r' = s.objs r'

/-- What no move touches; an id enters the output for a request that runs. -/
structure SameRegister (st st' : ScheduleState) : Prop where
  requests : st'.sched.requests = st.sched.requests
  nextRef : st'.sched.nextRef = st.sched.nextRef
  keys : ∀ id ∈ st'.numScheduledTokens.keys, id ∈ st.numScheduledTokens.keys ∨
    ∃ r ∈ st'.sched.running, (st.sched.objs r).requestId = id

/-- The requests that the call has admitted so far. -/
structure SameAdmitted (st st' : ScheduleState) : Prop where
  new : st'.scheduledNewReqs = st.scheduledNewReqs
  resumed : st'.scheduledResumedReqs = st.scheduledResumedReqs

/-- A request is admitted as new or as resumed, as its status says. -/
def Admits (st st' : ScheduleState) (r : Ref) : Prop :=
  ((st.sched.objs r).status = .waiting ∧ st'.scheduledNewReqs = st.scheduledNewReqs ++ [r] ∧
    st'.scheduledResumedReqs = st.scheduledResumedReqs) ∨
  ((st.sched.objs r).status = .preempted ∧ st'.scheduledNewReqs = st.scheduledNewReqs ∧
    st'.scheduledResumedReqs = st.scheduledResumedReqs ++ [r])

/-- The effect of a move on the queues, the requests and the admitted ones. -/
inductive Effect (G : Guard) (st st' : ScheduleState) : Prop where
  | quiet (objs : st'.sched.objs = st.sched.objs) (running : st'.sched.running = st.sched.running)
      (waiting : st'.waitingRefs.Perm st.waitingRefs) (admitted : SameAdmitted st st')
  | preempted (v : Ref)
      (objs : Replaces st.sched st'.sched v { st.sched.objs v with
        status := .preempted, numComputedTokens := 0 })
      (running : (v :: st'.sched.running).Perm st.sched.running)
      (waiting : st'.waitingRefs.Perm (v :: st.waitingRefs)) (admitted : SameAdmitted st st')
  | woken (r : Ref) (n : Int) (hr : r ∈ st.waitingRefs)
      (status : (st.sched.objs r).status = .waitingForRemoteKvs ∨
        (st.sched.objs r).status = .waitingForFsm)
      (objs : Replaces st.sched st'.sched r { st.sched.objs r with
        status := .waiting, numComputedTokens := n })
      (running : st'.sched.running = st.sched.running)
      (waiting : st'.waitingRefs = st.waitingRefs) (admitted : SameAdmitted st st')
  | loads (r : Ref) (hr : r ∈ st.waitingRefs) (guard : G.load st r)
      (objs : Replaces st.sched st'.sched r { st.sched.objs r with
        status := .waitingForRemoteKvs })
      (running : st'.sched.running = st.sched.running)
      (waiting : st'.waitingRefs.Perm st.waitingRefs) (admitted : SameAdmitted st st')
  | starts (r : Ref) (computed cached : Int)
      (objs : Replaces st.sched st'.sched r { st.sched.objs r with
        status := .running, numComputedTokens := computed, numCachedTokens := cached })
      (running : st'.sched.running = st.sched.running ++ [r])
      (waiting : (r :: st'.waitingRefs).Perm st.waitingRefs) (admitted : Admits st st' r)

variable {answers : ScheduleAnswers} {G : Guard} {st st' : ScheduleState} {r : Ref}

lemma IsFirst.mem (h : st.IsFirst r) : r ∈ st.waitingRefs := by
  obtain ⟨item, hpeek, rfl⟩ := h
  refine List.mem_append_left _ (List.mem_map_of_mem ?_)
  unfold RequestQueue.peekRequest at hpeek
  split at hpeek
  · cases hpeek
  · rename_i item' hhead
    obtain rfl := Except.ok.inj hpeek
    exact List.mem_of_mem_head? hhead

lemma refs_pop {q rest : RequestQueue} {item : HeapItem} (h : q.popRequest = .ok (item, rest)) :
    (item.request :: rest.refs).Perm q.refs := (RequestQueue.popRequest_items h).2.map _

lemma refs_prepend {q q' : RequestQueue} {item : HeapItem}
    (h : q.prependRequest item = .ok q') : q'.refs.Perm (item.request :: q.refs) :=
  (RequestQueue.prependRequest_items h).map _

lemma refs_setAside {q rest skipped skipped' : RequestQueue} {item : HeapItem}
    (hpop : q.popRequest = .ok (item, rest)) (hprepend : skipped.prependRequest item = .ok skipped') :
    (rest.refs ++ skipped'.refs).Perm (q.refs ++ skipped.refs) :=
  ((refs_prepend hprepend).append_left _).trans
    (List.perm_middle.trans ((refs_pop hpop).append_right _))

lemma classify_admits {st st' : ScheduleState} (h : st.classify r = .ok st') :
    st'.sched = st.sched ∧ st'.skippedWaitingRequests = st.skippedWaitingRequests ∧
      st'.numScheduledTokens = st.numScheduledTokens ∧ Admits st st' r := by
  unfold classify at h
  split at h
  · obtain rfl := Except.ok.inj h
    exact ⟨rfl, rfl, rfl, Or.inl ⟨‹_›, rfl, rfl⟩⟩
  · obtain rfl := Except.ok.inj h
    exact ⟨rfl, rfl, rfl, Or.inr ⟨‹_›, rfl, rfl⟩⟩
  · cases h

lemma recordWaiting_effect {st st' : ScheduleState} {c : ComputedTokens} {n : Int}
    (h : st.recordWaiting r c n = .ok st') :
    SameRegister st st' ∧ Admits st st' r ∧ st'.waitingRefs = st.waitingRefs ∧
      st'.sched.running = st.sched.running ++ [r] ∧
      ∃ cached, Replaces st.sched st'.sched r { st.sched.objs r with
        status := .running, numComputedTokens := c.numComputedTokens, numCachedTokens := cached } := by
  obtain ⟨st₁, hclassify, hret⟩ := bind_eq_ok.mp h
  obtain rfl := Except.ok.inj hret
  obtain ⟨hsched, hskipped, hkeys, hadmits⟩ := classify_admits hclassify
  have hlora : (st₁.addLora r).sched = st₁.sched ∧
      (st₁.addLora r).skippedWaitingRequests = st₁.skippedWaitingRequests ∧
      (st₁.addLora r).numScheduledTokens = st₁.numScheduledTokens ∧
      (st₁.addLora r).scheduledNewReqs = st₁.scheduledNewReqs ∧
      (st₁.addLora r).scheduledResumedReqs = st₁.scheduledResumedReqs := by
    unfold addLora
    split <;> exact ⟨rfl, rfl, rfl, rfl, rfl⟩
  obtain ⟨hlsched, hlskipped, hlkeys, hlnew, hlresumed⟩ := hlora
  refine ⟨⟨?_, ?_, fun id hid => ?_⟩, ?_, ?_, ?_, ?_⟩
  · simp only [startRunning, Scheduler.modify, hlsched, hsched]
  · simp only [startRunning, Scheduler.modify, hlsched, hsched]
  · simp only [startRunning, Scheduler.modify, hlsched, hsched, hlkeys, hkeys,
      Dict.mem_keys_set] at hid ⊢
    rcases hid with rfl | hid
    · exact Or.inr ⟨r, by simp, rfl⟩
    · exact Or.inl hid
  · simpa only [Admits, startRunning, hlnew, hlresumed] using hadmits
  · simp only [waitingRefs, startRunning, Scheduler.modify, hlsched, hsched, hlskipped, hskipped]
  · simp only [startRunning, Scheduler.modify, hlsched, hsched]
  · refine ⟨if (st.sched.objs r).numCachedTokens < 0 then c.numComputedTokens
      else (st.sched.objs r).numCachedTokens, ?_, fun r' hne => ?_⟩
    · simp only [startRunning, Scheduler.modify, hlsched, hsched, if_true]
    · simp only [startRunning, Scheduler.modify, hlsched, hsched, if_neg hne]

theorem Move.effect (h : Move answers G st st') : SameRegister st st' ∧ Effect G st st' := by
  cases h with
  | encoder m => exact ⟨⟨rfl, rfl, fun _ => Or.inl⟩, .quiet rfl rfl (.refl _) ⟨rfl, rfl⟩⟩
  | nextIndex => exact ⟨⟨rfl, rfl, fun _ => Or.inl⟩, .quiet rfl rfl (.refl _) ⟨rfl, rfl⟩⟩
  | loras loras => exact ⟨⟨rfl, rfl, fun _ => Or.inl⟩, .quiet rfl rfl (.refl _) ⟨rfl, rfl⟩⟩
  | noRoom r args kv h => exact ⟨⟨rfl, rfl, fun _ => Or.inl⟩, .quiet rfl rfl (.refl _) ⟨rfl, rfl⟩⟩
  | preempt st₁ _ v hv hpreempt hg hindex =>
    obtain ⟨running, scheduled, waiting, rfl, hperm, -, -, hqueued⟩ := preempt_spec hv hpreempt
    refine ⟨⟨rfl, rfl, fun _ => Or.inl⟩, .preempted v ⟨afterPreempt_self st, fun r hr => ?_⟩ hperm ?_ ⟨rfl, rfl⟩⟩
    · exact afterPreempt_of_ne st hr
    · exact (hqueued.map _).append_right _
  | run r n newBlocks kv hr hindex hn hle hbudget halloc =>
    have hkeys : ∀ id ∈ (st.numScheduledTokens.set (st.sched.objs r).requestId n).keys,
        id ∈ st.numScheduledTokens.keys ∨
          ∃ r' ∈ st.sched.running, (st.sched.objs r').requestId = id := by
      intro id hid
      rcases Dict.mem_keys_set.mp hid with rfl | hid
      · exact Or.inr ⟨r, hr, rfl⟩
      · exact Or.inl hid
    obtain ⟨lists, drafts, -, heq⟩ := (st.setKv kv).recordRunning_spec r newBlocks n
    rw [heq]
    exact ⟨⟨rfl, rfl, hkeys⟩, .quiet rfl rfl (.refl _) ⟨rfl, rfl⟩⟩
  | inputs _ r inputs budget hr hrecord =>
    obtain ⟨m, encoderInputs, computeBudget, rfl⟩ := recordEncoderInputs_spec hrecord
    exact ⟨⟨rfl, rfl, fun _ => Or.inl⟩, .quiet rfl rfl (.refl _) ⟨rfl, rfl⟩⟩
  | remoteKvs r ready s hr hcheck =>
    rcases Scheduler.checkRemoteKvs_spec hcheck with rfl | ⟨blockIds, kv, ids, hstatus, -, -, rfl⟩
    · exact ⟨⟨rfl, rfl, fun _ => Or.inl⟩, .quiet rfl rfl (.refl _) ⟨rfl, rfl⟩⟩
    · exact ⟨⟨rfl, rfl, fun _ => Or.inl⟩, .woken r _ hr.mem (Or.inl hstatus)
        ⟨if_pos rfl, fun r' hne => if_neg hne⟩ rfl rfl ⟨rfl, rfl⟩⟩
  | grammar r hr =>
    rcases Scheduler.checkGrammar_spec answers st.sched r with heq | ⟨hstatus, heq⟩
    · rw [heq]
      exact ⟨⟨rfl, rfl, fun _ => Or.inl⟩, .quiet rfl rfl (.refl _) ⟨rfl, rfl⟩⟩
    · rw [heq]
      exact ⟨⟨rfl, rfl, fun _ => Or.inl⟩, .woken r (st.sched.objs r).numComputedTokens hr.mem (Or.inr hstatus)
        ⟨if_pos rfl, fun r' hne => if_neg hne⟩ rfl rfl ⟨rfl, rfl⟩⟩
  | skip _ hskip =>
    obtain ⟨⟨item, waiting⟩, hpop, hrest⟩ := bind_eq_ok.mp hskip
    obtain ⟨skipped, hprepend, hret⟩ := bind_eq_ok.mp hrest
    obtain rfl := Except.ok.inj hret
    exact ⟨⟨rfl, rfl, fun _ => Or.inl⟩, .quiet rfl rfl (refs_setAside hpop hprepend) ⟨rfl, rfl⟩⟩
  | load _ item waiting c kv hgot hasync hg hpop hload =>
    obtain ⟨skipped, hprepend, hret⟩ := bind_eq_ok.mp hload
    obtain rfl := Except.ok.inj hret
    exact ⟨⟨rfl, rfl, fun _ => Or.inl⟩, .loads item.request hgot.first.mem hg
      ⟨if_pos rfl, fun r' hne => if_neg hne⟩ rfl (refs_setAside hpop hprepend) ⟨rfl, rfl⟩⟩
  | start _ item waiting c n kv hgot hasync hpos hle hpop hstart =>
    obtain ⟨hsame, hadmits, hwaiting, hrunning, cached, hobjs⟩ := recordWaiting_effect hstart
    refine ⟨⟨hsame.requests, hsame.nextRef, hsame.keys⟩,
      .starts item.request c.numComputedTokens cached ⟨hobjs.self, hobjs.others⟩ hrunning ?_ hadmits⟩
    rw [hwaiting]
    exact (refs_pop hpop).append_right _

/-- A request that changes its status may change its queue. -/
lemma Replaces.registry {s s' : Scheduler} {request : Request}
    {running waiting running' waiting' : List Ref} (h : Registry s running waiting)
    (hobjs : Replaces s s' r request) (hid : request.requestId = (s.objs r).requestId)
    (hrequests : s'.requests = s.requests) (hnext : s'.nextRef = s.nextRef)
    (hr : r ∈ running ++ waiting) (hperm : (running' ++ waiting').Perm (running ++ waiting))
    (hrunning : ∀ r' ∈ running', r' ≠ r → r' ∈ running)
    (hwaiting : ∀ r' ∈ waiting', r' ≠ r → r' ∈ waiting)
    (hruns : r ∈ running' → request.status = .running)
    (hwaits : r ∈ waiting' → request.status.Waits) : Registry s' running' waiting' := by
  refine h.transition hrequests hnext (fun r' => ?_) hperm (fun r' hr' => ?_) (fun r' hr' => ?_)
    (fun r' hr' => ?_)
  · by_cases hne : r' = r
    · rw [hne, hobjs.self, hid]
    · rw [hobjs.others r' hne]
  · by_cases hne : r' = r
    · rw [hne, hobjs.self]
      exact hruns (hne ▸ hr')
    · rw [hobjs.others r' hne]
      exact h.runs r' (hrunning r' hr' hne)
  · by_cases hne : r' = r
    · rw [hne, hobjs.self]
      exact hwaits (hne ▸ hr')
    · rw [hobjs.others r' hne]
      exact h.waits r' (hwaiting r' hr' hne)
  · have hne : r' ≠ r := fun heq => hr' (heq ▸ hr)
    rw [hobjs.others r' hne]

theorem Move.registry (h : Move answers G st st')
    (hreg : Registry st.sched st.sched.running st.waitingRefs) :
    Registry st'.sched st'.sched.running st'.waitingRefs := by
  obtain ⟨hsame, heffect⟩ := h.effect
  cases heffect with
  | quiet objs running waiting admitted =>
    refine hreg.congr hsame.requests hsame.nextRef (fun r => by rw [objs]) (fun r => by rw [objs])
      ?_ (.of_eq running) waiting
    rw [running]
    exact waiting.append_left _
  | preempted v objs running waiting admitted =>
    have hperm : (st'.sched.running ++ st'.waitingRefs).Perm (st.sched.running ++ st.waitingRefs) :=
      ((waiting.append_left _).trans List.perm_middle).trans (running.append_right st.waitingRefs)
    have hv : v ∈ st.sched.running := running.mem_iff.mp List.mem_cons_self
    have hout : v ∉ st'.sched.running :=
      (List.nodup_cons.mp (running.nodup_iff.mpr (List.nodup_append'.mp hreg.nodup).1)).1
    refine objs.registry hreg rfl hsame.requests hsame.nextRef (List.mem_append_left _ hv) hperm
      (fun r hr _ => running.mem_iff.mp (List.mem_cons_of_mem v hr)) (fun r hr hne => ?_)
      (fun hmem => absurd hmem hout) (fun _ => ⟨rfl, nofun⟩)
    exact (List.mem_cons.mp (waiting.mem_iff.mp hr)).resolve_left hne
  | woken r n hr status objs running waiting admitted =>
    have hin : r ∈ st.sched.running ++ st.waitingRefs := List.mem_append_right _ hr
    refine objs.registry hreg rfl hsame.requests hsame.nextRef hin ?_
      (fun r' hr' _ => running ▸ hr') (fun r' hr' _ => waiting ▸ hr') (fun hmem => ?_)
      (fun _ => ⟨rfl, nofun⟩)
    · rw [running, waiting]
    · rw [running] at hmem
      exact absurd hr (List.disjoint_of_nodup_append hreg.nodup hmem)
  | loads r hr guard objs running waiting admitted =>
    have hin : r ∈ st.sched.running ++ st.waitingRefs := List.mem_append_right _ hr
    refine objs.registry hreg rfl hsame.requests hsame.nextRef hin ?_
      (fun r' hr' _ => running ▸ hr') (fun r' hr' _ => waiting.mem_iff.mp hr') (fun hmem => ?_)
      (fun _ => ⟨rfl, nofun⟩)
    · rw [running]
      exact waiting.append_left _
    · rw [running] at hmem
      exact absurd hr (List.disjoint_of_nodup_append hreg.nodup hmem)
  | starts r computed cached objs running waiting admitted =>
    have hr : r ∈ st.waitingRefs := waiting.mem_iff.mp List.mem_cons_self
    have hperm : (st'.sched.running ++ st'.waitingRefs).Perm (st.sched.running ++ st.waitingRefs) := by
      rw [running, List.append_assoc]
      exact waiting.append_left _
    have hout : r ∉ st'.waitingRefs :=
      (List.nodup_cons.mp (waiting.nodup_iff.mpr (List.nodup_append'.mp hreg.nodup).2.1)).1
    refine objs.registry hreg rfl hsame.requests hsame.nextRef (List.mem_append_right _ hr) hperm
      (fun r' hr' hne => ?_) (fun r' hr' _ => waiting.mem_iff.mp (List.mem_cons_of_mem r hr'))
      (fun _ => rfl) (fun hmem => absurd hmem hout)
    rw [running] at hr'
    exact (List.mem_append.mp hr').resolve_right fun hmem => hne (List.mem_singleton.mp hmem)

theorem Moves.registry (h : Moves answers G st st')
    (hreg : Registry st.sched st.sched.running st.waitingRefs) :
    Registry st'.sched st'.sched.running st'.waitingRefs := by
  induction h with
  | refl => exact hreg
  | tail _ hmove ih => exact hmove.registry ih

lemma restoreSkipped_spec (h : st.restoreSkipped = .ok st') :
    ∃ waiting, st' = st.setWaiting waiting ∧ waiting.refs.Perm st.waitingRefs := by
  unfold restoreSkipped at h
  split_ifs at h with hempty
  · obtain rfl := Except.ok.inj h
    refine ⟨st.sched.waiting, rfl, ?_⟩
    have hnil : st.skippedWaitingRequests.refs = [] :=
      List.map_eq_nil_iff.mpr (List.isEmpty_iff.mp hempty)
    rw [waitingRefs, hnil, List.append_nil]
  · obtain ⟨waiting, hprepend, hret⟩ := bind_eq_ok.mp h
    obtain rfl := Except.ok.inj hret
    refine ⟨waiting, rfl, ?_⟩
    have hperm := (RequestQueue.prependRequests_items hprepend).map HeapItem.request
    rw [List.map_append] at hperm
    exact hperm.trans List.perm_append_comm

end ScheduleState

namespace Scheduler

/-- The queues, the map of ids and what the queues depend on stay as they are. -/
structure Keeps (s s' : Scheduler) : Prop where
  requestId : ∀ r, (s'.objs r).requestId = (s.objs r).requestId
  status : ∀ r, (s'.objs r).status = (s.objs r).status
  outputTokenIds : ∀ r, (s'.objs r).outputTokenIds = (s.objs r).outputTokenIds
  requests : s'.requests = s.requests
  nextRef : s'.nextRef = s.nextRef
  config : s'.config = s.config
  running : s'.running = s.running
  waiting : s'.waiting = s.waiting

namespace Keeps

variable {s s' s'' : Scheduler}

lemma refl (s : Scheduler) : Keeps s s :=
  ⟨fun _ => rfl, fun _ => rfl, fun _ => rfl, rfl, rfl, rfl, rfl, rfl⟩

lemma trans (h : Keeps s s') (h' : Keeps s' s'') : Keeps s s'' where
  requestId r := (h'.requestId r).trans (h.requestId r)
  status r := (h'.status r).trans (h.status r)
  outputTokenIds r := (h'.outputTokenIds r).trans (h.outputTokenIds r)
  requests := h'.requests.trans h.requests
  nextRef := h'.nextRef.trans h.nextRef
  config := h'.config.trans h.config
  running := h'.running.trans h.running
  waiting := h'.waiting.trans h.waiting

/-- An attribute is assigned that is neither the id nor the status nor the output. -/
lemma modify (s : Scheduler) (r : Ref) {f : Request → Request}
    (hid : ∀ request, (f request).requestId = request.requestId)
    (hstatus : ∀ request, (f request).status = request.status)
    (houtput : ∀ request, (f request).outputTokenIds = request.outputTokenIds) :
    Keeps s (s.modify r f) := by
  refine ⟨fun r' => ?_, fun r' => ?_, fun r' => ?_, rfl, rfl, rfl, rfl, rfl⟩
  · simp only [Scheduler.modify]
    split_ifs
    · exact hid _
    · rfl
  · simp only [Scheduler.modify]
    split_ifs
    · exact hstatus _
    · rfl
  · simp only [Scheduler.modify]
    split_ifs
    · exact houtput _
    · rfl

lemma setComputed (s : Scheduler) (r : Ref) (n : Int) : Keeps s (s.setComputed r n) :=
  modify s r (fun _ => rfl) (fun _ => rfl) fun _ => rfl

lemma foldlM {α : Type} {f : Scheduler → α → Except PyError Scheduler}
    (hf : ∀ s a s', f s a = .ok s' → Keeps s s') {l : List α} (h : l.foldlM f s = .ok s') :
    Keeps s s' :=
  foldlM_invariant (fun a _ s₁ s₂ hs₁ hstep => hs₁.trans (hf s₁ a s₂ hstep)) (refl s) h

lemma registry (h : Keeps s s') {running waiting : List Ref} (hreg : Registry s running waiting) :
    Registry s' running waiting :=
  hreg.congr h.requests h.nextRef h.requestId h.status (.refl _) (.refl _) (.refl _)

end Keeps

variable {s s' : Scheduler}

lemma advance_keeps {scheduled : String × Int} (h : s.advance scheduled = .ok s') :
    Keeps s s' := by
  obtain ⟨r, -, hret⟩ := bind_eq_ok.mp h
  obtain rfl := Except.ok.inj hret
  obtain ⟨hid, hstatus, houtput, -⟩ :=
    Keeps.setComputed s r ((s.objs r).numComputedTokens + scheduled.2)
  exact ⟨hid, hstatus, houtput, rfl, rfl, rfl, rfl, rfl⟩

lemma addPlaceholder_keeps {requestId : String} (h : s.addPlaceholder requestId = .ok s') :
    Keeps s s' := by
  obtain ⟨r, -, hret⟩ := bind_eq_ok.mp h
  dsimp only at hret
  split_ifs at hret
  · obtain rfl := Except.ok.inj hret
    exact .modify s r (fun _ => rfl) (fun _ => rfl) fun _ => rfl
  · obtain rfl := Except.ok.inj hret
    exact .refl s

lemma updateAfterSchedule_keeps {out : SchedulerOutput} (h : s.updateAfterSchedule out = .ok s') :
    Keeps s s' := by
  obtain ⟨s₁, hadvance, hrest⟩ := bind_eq_ok.mp h
  have hkeeps : Keeps s s₁ := Keeps.foldlM (fun _ _ _ => advance_keeps) hadvance
  have hcleared : Keeps s₁ { s₁ with finishedReqIds := [] } :=
    ⟨fun _ => rfl, fun _ => rfl, fun _ => rfl, rfl, rfl, rfl, rfl, rfl⟩
  refine (hkeeps.trans hcleared).trans ?_
  simp only [addPlaceholders] at hrest
  split_ifs at hrest
  · exact Keeps.foldlM (fun _ _ _ => addPlaceholder_keeps) hrest
  · obtain rfl := Except.ok.inj hrest
    exact .refl _

lemma updateDraftTokenIds_keeps (s : Scheduler) (answers : GrammarAnswers)
    (drafts : List (String × List Int)) : Keeps s (s.updateDraftTokenIds answers drafts) := by
  refine List.foldlRecOn drafts _ (Keeps.refl s) fun s₁ h₁ draft _ => h₁.trans ?_
  unfold updateDraft
  have hrefl : ∀ r tokens, Keeps s₁ (s₁.assignSpecTokenIds r tokens) := fun _ _ =>
    ⟨fun _ => rfl, fun _ => rfl, fun _ => rfl, rfl, rfl, rfl, rfl, rfl⟩
  split
  · exact .refl s₁
  · split_ifs
    · exact .refl s₁
    · exact ⟨fun _ => rfl, fun _ => rfl, fun _ => rfl, rfl, rfl, rfl, rfl, rfl⟩
    · split
      · exact hrefl _ _
      · exact hrefl _ _

end Scheduler

namespace ScheduleState

variable {st : ScheduleState}

lemma makeOutput_keeps {out : SchedulerOutput} {s : Scheduler}
    (h : st.makeOutput = .ok (out, s)) : Scheduler.Keeps st.sched s := by
  obtain ⟨newReqs, -, hrest⟩ := bind_eq_ok.mp h
  obtain ⟨runningReqs, -, hrest⟩ := bind_eq_ok.mp hrest
  obtain ⟨resumedReqs, -, hrest⟩ := bind_eq_ok.mp hrest
  obtain ⟨-, rfl⟩ := Prod.mk.inj (Except.ok.inj hrest)
  exact ⟨fun _ => rfl, fun _ => rfl, fun _ => rfl, rfl, rfl, rfl, rfl, rfl⟩

end ScheduleState

namespace Scheduler

variable {s s' : Scheduler}

theorem schedule_registry {answers : ScheduleAnswers} {out : SchedulerOutput}
    (h : s.schedule answers = .ok (out, s')) (hreg : Registry s s.running s.waiting.refs) :
    Registry s' s'.running s'.waiting.refs := by
  obtain ⟨st, st', s₁, hmoves, hrestore, hout, hupdate⟩ := schedule_spec (clean_none answers s) h
  have hstart : Registry (ScheduleState.start s).sched (ScheduleState.start s).sched.running
      (ScheduleState.start s).waitingRefs := by
    simpa [ScheduleState.start, ScheduleState.waitingRefs, RequestQueue.refs] using hreg
  have hend := hmoves.registry hstart
  obtain ⟨waiting, rfl, hwaiting⟩ := ScheduleState.restoreSkipped_spec hrestore
  have hrestored : Registry (st.setWaiting waiting).sched st.sched.running waiting.refs :=
    hend.congr rfl rfl (fun _ => rfl) (fun _ => rfl) (hwaiting.append_left _) (.refl _) hwaiting
  have hkeeps := (ScheduleState.makeOutput_keeps hout).trans (updateAfterSchedule_keeps hupdate)
  rw [hkeeps.running, hkeeps.waiting]
  exact hkeeps.registry hrestored

end Scheduler

end VllmV1
