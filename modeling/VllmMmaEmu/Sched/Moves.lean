import Mathlib.Logic.Relation
import VllmMmaEmu.Sched.Schedule

/-!
# The moves of schedule

Everything the loops of `schedule` do is one of a few moves of the local variables. An
invariant of the call is shown for the moves. A guard restricts the moves that can go wrong:
who is preempted, and who waits for a load.
-/

namespace VllmV1

open Python

namespace ScheduleState

/-- Restrictions on the moves of a call. -/
structure Guard where
  victim : ScheduleState → Ref → Prop := fun _ _ => True
  load : ScheduleState → Ref → Prop := fun _ _ => True

def Guard.none : Guard := {}

/-- The first waiting request. -/
def IsFirst (st : ScheduleState) (r : Ref) : Prop :=
  ∃ item, st.sched.waiting.peekRequest = .ok item ∧ item.request = r

/-- The first waiting request with its computed tokens and the blocks it got. -/
structure GotBlocks (answers : ScheduleAnswers) (st : ScheduleState) (r : Ref)
    (c : ComputedTokens) (numNewTokens : Int) (kv : KVCacheManager) : Prop where
  first : st.IsFirst r
  computed : st.findComputed answers r = .ok (some c)
  blocks : ∃ newBlocks, st.sched.kvCacheManager.allocateSlots (st.sched.req r)
    (st.waitingArgs r c numNewTokens) = .ok (some newBlocks, kv)

inductive Move (answers : ScheduleAnswers) (G : Guard) : ScheduleState → ScheduleState → Prop where
  | encoder (st : ScheduleState) (m : EncoderCacheManager) : Move answers G st (st.setEncoder m)
  | nextIndex (st : ScheduleState) : Move answers G st { st with reqIndex := st.reqIndex + 1 }
  | loras (st : ScheduleState) (loras : List Int) :
      Move answers G st { st with scheduledLoras := loras }
  | noRoom (st : ScheduleState) (r : Ref) (args : KVCacheManager.AllocArgs) (kv : KVCacheManager)
      (h : st.sched.kvCacheManager.allocateSlots (st.sched.req r) args = .ok (none, kv)) :
      Move answers G st (st.setKv kv)
  | preempt (st st₁ st₂ : ScheduleState) (v : Ref) (hv : st.chooseVictim = .ok (v, st₁))
      (h : st₁.preempt v = .ok st₂) (hg : G.victim st v)
      (hindex : st.config.policy = .fcfs → st.reqIndex < st.sched.running.length) :
      Move answers G st st₂
  | run (st : ScheduleState) (r : Ref) (n : Int) (newBlocks : List (List BlockId))
      (kv : KVCacheManager) (hr : r ∈ st.sched.running)
      (hindex : st.config.policy = .fcfs → st.sched.running[st.reqIndex]? = some r)
      (hn : n ≠ 0) (hle : Reduced (st.runningTokens r) n) (hbudget : 0 < st.tokenBudget)
      (h : st.sched.kvCacheManager.allocateSlots (st.sched.req r) (st.runningArgs n) =
        .ok (some newBlocks, kv)) :
      Move answers G st ((st.setKv kv).recordRunning r newBlocks n)
  | inputs (st st' : ScheduleState) (r : Ref) (inputs : List Nat) (budget : Int)
      (hr : (st.sched.objs r).requestId ∈ st.numScheduledTokens.keys)
      (h : st.recordEncoderInputs r inputs budget = .ok st') : Move answers G st st'
  | remoteKvs (st : ScheduleState) (r : Ref) (ready : Bool) (s : Scheduler) (hr : st.IsFirst r)
      (h : st.sched.checkRemoteKvs r = .ok (ready, s)) : Move answers G st { st with sched := s }
  | grammar (st : ScheduleState) (r : Ref) (hr : st.IsFirst r) :
      Move answers G st { st with sched := (st.sched.checkGrammar answers r).2 }
  | skip (st st' : ScheduleState) (h : st.skipFirst = .ok st') : Move answers G st st'
  | load (st st' : ScheduleState) (item : HeapItem) (waiting : RequestQueue) (c : ComputedTokens)
      (kv : KVCacheManager) (hgot : st.GotBlocks answers item.request c 0 kv)
      (hasync : c.loadKvAsync = true) (hg : G.load st item.request)
      (hpop : st.sched.waiting.popRequest = .ok (item, waiting))
      (h : ((st.setKv kv).setWaiting waiting).waitForLoad item = .ok st') : Move answers G st st'
  | start (st st' : ScheduleState) (item : HeapItem) (waiting : RequestQueue)
      (c : ComputedTokens) (n : Int) (kv : KVCacheManager)
      (hgot : st.GotBlocks answers item.request c n kv)
      (hasync : c.loadKvAsync = false) (hpos : 0 < n)
      (hle : n ≤ (st.sched.objs item.request).numTokens - c.numComputedTokens)
      (hpop : st.sched.waiting.popRequest = .ok (item, waiting))
      (h : ((st.setKv kv).setWaiting waiting).recordWaiting item.request c n = .ok st') :
      Move answers G st st'

abbrev Moves (answers : ScheduleAnswers) (G : Guard) :
    ScheduleState → ScheduleState → Prop := Relation.ReflTransGen (Move answers G)

/-- The variables after `v` was preempted: the running requests, the scheduled ones and the
waiting queue that are left. -/
def afterPreempt (st : ScheduleState) (v : Ref) (running scheduled : List Ref)
    (waiting : RequestQueue) : ScheduleState :=
  { st with
    sched := { st.sched with
      kvCacheManager := st.sched.kvCacheManager.free (st.sched.objs v).requestId
      encoderCacheManager := st.sched.encoderCacheManager.free (st.sched.req v)
      objs := fun r => if r = v then { st.sched.objs v with
          status := .preempted, numComputedTokens := 0 } else st.sched.objs r
      running := running
      waiting := waiting }
    scheduledRunningReqs := scheduled
    preemptedReqs := st.preemptedReqs ++ [v] }

section

variable (st : ScheduleState) {v r : Ref} {running scheduled : List Ref} {waiting : RequestQueue}

lemma afterPreempt_self :
    (st.afterPreempt v running scheduled waiting).sched.objs v =
      { st.sched.objs v with status := .preempted, numComputedTokens := 0 } := if_pos rfl

lemma afterPreempt_of_ne (h : r ≠ v) :
    (st.afterPreempt v running scheduled waiting).sched.objs r = st.sched.objs r := if_neg h

end

lemma maxRunning_mem {s : Scheduler} {l : List Ref} {v : Ref} (h : maxRunning s l = some v) :
    v ∈ l := by
  cases l with
  | nil => cases h
  | cons r rest =>
    obtain rfl := Option.some.inj h
    refine List.foldlRecOn rest _ List.mem_cons_self fun best hbest r' hr' => ?_
    split_ifs
    · exact List.mem_cons_of_mem r hr'
    · exact hbest

/-- What a preemption does, whoever is chosen. -/
structure PreemptStep (st st' : ScheduleState) (v : Ref) (running scheduled : List Ref)
    (waiting : RequestQueue) : Prop where
  eq : st' = st.afterPreempt v running scheduled waiting
  perm : (v :: running).Perm st.sched.running
  last : st.config.policy = .fcfs → st.sched.running = running ++ [v]
  same : v ∉ st.scheduledRunningReqs → scheduled = st.scheduledRunningReqs
  queued : waiting.items.Perm (st.sched.item v :: st.sched.waiting.items)

/-- Who is preempted, and what is left of the running requests. -/
lemma chooseVictim_spec {st st' : ScheduleState} {v : Ref}
    (h : st.chooseVictim = .ok (v, st')) :
    ∃ running scheduled, st' = { st with
        sched := { st.sched with running := running }
        scheduledRunningReqs := scheduled } ∧
      (v :: running).Perm st.sched.running ∧
      (st.config.policy = .fcfs → st.sched.running = running ++ [v]) ∧
      (v ∉ st.scheduledRunningReqs → scheduled = st.scheduledRunningReqs) := by
  unfold chooseVictim at h
  split at h
  · rename_i hpolicy
    split at h
    · cases h
    · rename_i w hmax
      obtain ⟨rfl, rfl⟩ := Prod.mk.inj (Except.ok.inj h)
      refine ⟨_, _, rfl, (List.perm_cons_erase (maxRunning_mem hmax)).symm, fun hf => ?_,
        List.erase_of_not_mem⟩
      rw [hpolicy] at hf
      cases hf
  · split at h
    · cases h
    · rename_i w hlast
      obtain ⟨rfl, rfl⟩ := Prod.mk.inj (Except.ok.inj h)
      have happ := List.dropLast_append_getLast? w hlast
      refine ⟨_, _, rfl, ?_, fun _ => happ.symm, fun _ => rfl⟩
      rw [← happ, List.dropLast_concat]
      exact (List.perm_append_singleton w _).symm

lemma preempt_spec {st st₁ st₂ : ScheduleState} {v : Ref} (hv : st.chooseVictim = .ok (v, st₁))
    (h : st₁.preempt v = .ok st₂) :
    ∃ running scheduled waiting, PreemptStep st st₂ v running scheduled waiting := by
  obtain ⟨running, scheduled, rfl, hperm, hfcfs, hscheduled⟩ := chooseVictim_spec hv
  obtain ⟨waiting, hprepend, hret⟩ := bind_eq_ok.mp h
  obtain rfl := Except.ok.inj hret
  refine ⟨running, scheduled, waiting, ?_, hperm, hfcfs, hscheduled, ?_⟩
  · simp only [Scheduler.setComputed, Scheduler.setStatus, Scheduler.modify, afterPreempt]
    congr 2
    funext r
    by_cases hr : r = v <;> simp [hr]
  · have hitems := RequestQueue.prependRequest_items hprepend
    simpa [Scheduler.item, Scheduler.setComputed, Scheduler.setStatus, Scheduler.modify] using hitems

variable {answers : ScheduleAnswers} {G : Guard}

/-- Every victim of the inner loop passes the guard. -/
def AllocateClean (G : Guard) (r : Ref) (numNewTokens : Int) : (fuel : Nat) → ScheduleState → Prop
  | 0, _ => True
  | fuel + 1, st => ∀ kv v st₁ st₂,
      st.sched.kvCacheManager.allocateSlots (st.sched.req r) (st.runningArgs numNewTokens) =
        .ok (none, kv) →
      (st.setKv kv).chooseVictim = .ok (v, st₁) → st₁.preempt v = .ok st₂ →
      G.victim (st.setKv kv) v ∧ (v ≠ r → AllocateClean G r numNewTokens fuel st₂)

/-- The guard holds in one turn of the loop over the running requests. -/
def StepClean (G : Guard) (st : ScheduleState) (r : Ref) : Prop :=
  ∀ e, st.encoderInputs r (st.sched.objs r).numComputedTokens (st.runningTokens r) = .ok e →
    e.numNewTokens ≠ 0 →
    AllocateClean G r e.numNewTokens (st.sched.running.length + 1) (st.setEncoder e.manager)

/-- The guard holds in every turn. -/
def RunningClean (G : Guard) : (fuel : Nat) → ScheduleState → Prop
  | 0, _ => True
  | fuel + 1, st => ∀ r, st.sched.running[st.reqIndex]? = some r → st.tokenBudget > 0 →
      StepClean G st r ∧
      ∀ st₁, st.runningStep r = .ok (true, st₁) → RunningClean G fuel st₁

/-- A guard for the loads only holds in the loop over the running requests. -/
lemma allocateClean_of_forall (hvictim : ∀ st v, G.victim st v) (r : Ref) (n : Int) (fuel : Nat)
    (st : ScheduleState) : AllocateClean G r n fuel st := by
  induction fuel generalizing st with
  | zero => trivial
  | succ fuel ih => exact fun kv v st₁ st₂ _ _ _ => ⟨hvictim _ v, fun _ => ih st₂⟩

lemma runningClean_of_forall (hvictim : ∀ st v, G.victim st v) (fuel : Nat)
    (st : ScheduleState) : RunningClean G fuel st := by
  induction fuel generalizing st with
  | zero => trivial
  | succ fuel ih =>
    exact fun r _ _ => ⟨fun e _ _ => allocateClean_of_forall hvictim _ _ _ _, fun st₁ _ => ih st₁⟩

/-- What is known of the request while others are preempted for it. -/
structure Asks (st : ScheduleState) (r : Ref) (n : Int) : Prop where
  running : r ∈ st.sched.running
  index : st.config.policy = .fcfs → st.sched.running[st.reqIndex]? = some r
  tokens : Reduced (st.runningTokens r) n
  budget : 0 < st.tokenBudget

lemma Asks.index_lt {st : ScheduleState} {r : Ref} {n : Int} (h : Asks st r n)
    (hf : st.config.policy = .fcfs) : st.reqIndex < st.sched.running.length :=
  (List.getElem?_eq_some_iff.mp (h.index hf)).1

lemma Asks.setKv {st : ScheduleState} {r : Ref} {n : Int} (h : Asks st r n)
    (kv : KVCacheManager) : Asks (st.setKv kv) r n := ⟨h.running, h.index, h.tokens, h.budget⟩

lemma runningTokens_congr {st st' : ScheduleState} {r : Ref}
    (hobj : st'.sched.objs r = st.sched.objs r)
    (hlist : st'.sched.lists (st'.sched.specRef r) = st.sched.lists (st.sched.specRef r))
    (hconfig : st'.sched.config = st.sched.config)
    (hbudget : st'.tokenBudget = st.tokenBudget) : st'.runningTokens r = st.runningTokens r := by
  unfold runningTokens capLongPrefill config Scheduler.maxModelLen Scheduler.req
  rw [hobj, hlist, hconfig, hbudget]

lemma Asks.preempt {st st₁ st₂ : ScheduleState} {r v : Ref} {n : Int} (h : Asks st r n)
    (hv : st.chooseVictim = .ok (v, st₁)) (hp : st₁.preempt v = .ok st₂) (hne : v ≠ r) :
    Asks st₂ r n := by
  obtain ⟨running, scheduled, waiting, rfl, hperm, hfcfs, -, -⟩ := preempt_spec hv hp
  refine ⟨?_, fun hf => ?_, ?_, h.budget⟩
  · have hmem := hperm.mem_iff.mpr h.running
    rcases List.mem_cons.mp hmem with rfl | hmem
    · exact absurd rfl hne
    · exact hmem
  · have hget := h.index hf
    rw [hfcfs hf] at hget
    -- the last request is the victim, so the index is before it
    rcases Nat.lt_or_ge st.reqIndex running.length with hlt | hge
    · rwa [List.getElem?_append_left hlt] at hget
    · rw [List.getElem?_append_right hge] at hget
      have hmem := List.mem_of_getElem? hget
      exact absurd (List.mem_singleton.mp hmem).symm hne
  · rw [runningTokens_congr (afterPreempt_of_ne st hne.symm) rfl rfl rfl]
    exact h.tokens

lemma allocateOrPreempt_moves {fuel : Nat} {st st' : ScheduleState} {r : Ref} {n : Int}
    {result : Option (List (List BlockId))} (hclean : AllocateClean G r n fuel st)
    (hasks : Asks st r n) (h : st.allocateOrPreempt r n fuel = .ok (result, st')) :
    (result = none ∧ Moves answers G st st') ∨
    ∃ newBlocks st₁ kv, result = some newBlocks ∧ Moves answers G st st₁ ∧ Asks st₁ r n ∧
      st₁.sched.kvCacheManager.allocateSlots (st₁.sched.req r) (st₁.runningArgs n) =
        .ok (some newBlocks, kv) ∧ st' = st₁.setKv kv := by
  induction fuel generalizing st with
  | zero => cases h
  | succ fuel ih =>
    obtain ⟨⟨newBlocks, kv⟩, halloc, hrest⟩ := bind_eq_ok.mp h
    cases newBlocks with
    | some newBlocks =>
      obtain ⟨rfl, rfl⟩ := Prod.mk.inj (Except.ok.inj hrest)
      exact Or.inr ⟨newBlocks, st, kv, rfl, .refl, hasks, halloc, rfl⟩
    | none =>
      obtain ⟨⟨v, st₁⟩, hv, hrest⟩ := bind_eq_ok.mp hrest
      obtain ⟨st₂, hp, hrest⟩ := bind_eq_ok.mp hrest
      obtain ⟨hg, hnext⟩ := hclean kv v st₁ st₂ halloc hv hp
      have hroom : Move answers G st (st.setKv kv) := .noRoom st r _ kv halloc
      have hmove : Move answers G (st.setKv kv) st₂ :=
        .preempt _ st₁ st₂ v hv hp hg (hasks.setKv kv).index_lt
      have hmoves : Moves answers G st st₂ := (Relation.ReflTransGen.single hroom).tail hmove
      split_ifs at hrest with heq
      · obtain ⟨rfl, rfl⟩ := Prod.mk.inj (Except.ok.inj hrest)
        exact Or.inl ⟨rfl, hmoves⟩
      · have hasks₂ := (hasks.setKv kv).preempt hv hp heq
        rcases ih (hnext heq) hasks₂ hrest with ⟨hnone, htail⟩ | ⟨b, st₃, kv', hb, htail, hrest⟩
        · exact Or.inl ⟨hnone, hmoves.trans htail⟩
        · exact Or.inr ⟨b, st₃, kv', hb, hmoves.trans htail, hrest⟩

/-- What a running request leaves that got its blocks. Only its list of draft tokens may be cut. -/
lemma recordRunning_spec (st : ScheduleState) (r : Ref) (newBlocks : List (List BlockId)) (n : Int) :
    ∃ lists drafts, (∀ l ≠ st.sched.specRef r, lists l = st.sched.lists l) ∧
      st.recordRunning r newBlocks n = { st with
        sched := { st.sched with lists := lists }
        scheduledSpecDecodeTokens := drafts
        scheduledRunningReqs := st.scheduledRunningReqs ++ [r]
        reqToNewBlocks := st.reqToNewBlocks.set (st.sched.objs r).requestId newBlocks
        numScheduledTokens := st.numScheduledTokens.set (st.sched.objs r).requestId n
        tokenBudget := st.tokenBudget - n
        reqIndex := st.reqIndex + 1 } := by
  simp only [recordRunning, recordSpecTokens]
  split_ifs
  · exact ⟨_, _, fun l hne => if_neg hne, rfl⟩
  · exact ⟨_, _, fun l _ => rfl, rfl⟩

lemma recordEncoderInputs_spec {st st' : ScheduleState} {r : Ref} {inputs : List Nat} {budget : Int}
    (h : st.recordEncoderInputs r inputs budget = .ok st') :
    ∃ m encoderInputs computeBudget, st' = { st.setEncoder m with
      scheduledEncoderInputs := encoderInputs, encoderComputeBudget := computeBudget } := by
  unfold recordEncoderInputs at h
  split_ifs at h
  · obtain rfl := Except.ok.inj h
    exact ⟨_, _, _, rfl⟩
  · obtain ⟨m, -, hret⟩ := bind_eq_ok.mp h
    obtain rfl := Except.ok.inj hret
    exact ⟨_, _, _, rfl⟩

lemma recordRunning_keys (st : ScheduleState) (r : Ref) (newBlocks : List (List BlockId)) (n : Int) :
    ((st.recordRunning r newBlocks n).sched.objs r).requestId ∈
      (st.recordRunning r newBlocks n).numScheduledTokens.keys := by
  obtain ⟨lists, drafts, -, heq⟩ := st.recordRunning_spec r newBlocks n
  simp [heq]

lemma runningStep_moves {st st' : ScheduleState} {r : Ref} {goOn : Bool}
    (hclean : StepClean G st r) (hindex : st.sched.running[st.reqIndex]? = some r)
    (hbudget : 0 < st.tokenBudget) (h : st.runningStep r = .ok (goOn, st')) :
    Moves answers G st st' := by
  obtain ⟨e, he, hrest⟩ := bind_eq_ok.mp h
  have hencoder : Move answers G st (st.setEncoder e.manager) := .encoder st e.manager
  simp only at hrest
  split_ifs at hrest with hzero
  · obtain ⟨-, rfl⟩ := Prod.mk.inj (Except.ok.inj hrest)
    exact (Relation.ReflTransGen.single hencoder).tail (.nextIndex _)
  · have hvictims := hclean e he hzero
    obtain ⟨⟨result, st₁⟩, halloc, hrest⟩ := bind_eq_ok.mp hrest
    have hasks : Asks (st.setEncoder e.manager) r e.numNewTokens :=
      ⟨List.mem_of_getElem? hindex, fun _ => hindex, tryScheduleEncoderInputs_reduced he, hbudget⟩
    rcases allocateOrPreempt_moves hvictims hasks halloc with
      ⟨rfl, hmoves⟩ | ⟨newBlocks, st₂, kv, rfl, hmoves, hasks₂, hgot, rfl⟩
    · obtain ⟨-, rfl⟩ := Prod.mk.inj (Except.ok.inj hrest)
      exact hmoves.head hencoder
    · obtain ⟨st₃, hrecord, hret⟩ := bind_eq_ok.mp hrest
      obtain ⟨-, rfl⟩ := Prod.mk.inj (Except.ok.inj hret)
      have hrun : Move answers G st₂ ((st₂.setKv kv).recordRunning r newBlocks e.numNewTokens) :=
        .run st₂ r _ newBlocks kv hasks₂.running hasks₂.index hzero hasks₂.tokens hasks₂.budget hgot
      have hinputs : Move answers G ((st₂.setKv kv).recordRunning r newBlocks e.numNewTokens) st₃ :=
        .inputs _ _ r _ _ (recordRunning_keys _ r newBlocks _) hrecord
      exact ((hmoves.head hencoder).tail hrun).tail hinputs

lemma runningLoop_moves {fuel : Nat} {st st' : ScheduleState} (hclean : RunningClean G fuel st)
    (h : st.runningLoop fuel = .ok st') : Moves answers G st st' := by
  induction fuel generalizing st with
  | zero =>
    obtain rfl := Except.ok.inj h
    exact .refl
  | succ fuel ih =>
    simp only [runningLoop] at h
    split at h
    · obtain rfl := Except.ok.inj h
      exact .refl
    · rename_i r hindex
      split_ifs at h with hbudget
      · obtain ⟨⟨goOn, st₁⟩, hstep, hrest⟩ := bind_eq_ok.mp h
        obtain ⟨hstepClean, hnext⟩ := hclean r hindex hbudget
        have hmoves : Moves answers G st st₁ := runningStep_moves hstepClean hindex hbudget hstep
        cases goOn with
        | true => exact hmoves.trans (ih (hnext st₁ hstep) hrest)
        | false =>
          obtain rfl := Except.ok.inj hrest
          exact hmoves
      · obtain rfl := Except.ok.inj h
        exact .refl

end ScheduleState

namespace Scheduler

/-- A request whose remote KVs have arrived waits to be scheduled. -/
def received (s : Scheduler) (r : Ref) (kv : KVCacheManager) (n : Int) (ids : List String) :
    Scheduler :=
  { s with
    kvCacheManager := kv
    objs := fun r' => if r' = r then { s.objs r with
        status := .waiting, numComputedTokens := n } else s.objs r'
    finishedRecvingKvReqIds := ids }

lemma checkRemoteKvs_spec {s s' : Scheduler} {r : Ref} {ready : Bool}
    (h : s.checkRemoteKvs r = .ok (ready, s')) :
    s' = s ∨ ∃ blockIds kv ids, (s.objs r).status = .waitingForRemoteKvs ∧
      s.onlyBlockIds (s.objs r).requestId = .ok blockIds ∧
      s.kvCacheManager.cacheBlocks (s.req r) (s.receivedTokens r blockIds) = .ok kv ∧
      s' = s.received r kv (s.receivedTokens r blockIds) ids := by
  unfold checkRemoteKvs at h
  split_ifs at h with hstatus
  · obtain ⟨⟨isReady, s₁⟩, hupdate, hret⟩ := bind_eq_ok.mp h
    obtain ⟨rfl, rfl⟩ := Prod.mk.inj (Except.ok.inj hret)
    simp only [updateWaitingForRemoteKv] at hupdate
    split_ifs at hupdate
    · obtain ⟨blockIds, hids, hrest⟩ := bind_eq_ok.mp hupdate
      obtain ⟨kv, hkv, hret⟩ := bind_eq_ok.mp hrest
      obtain ⟨rfl, rfl⟩ := Prod.mk.inj (Except.ok.inj hret)
      refine Or.inr ⟨blockIds, kv, s.finishedRecvingKvReqIds.erase (s.objs r).requestId, hstatus,
        hids, hkv, ?_⟩
      simp only [setComputed, setStatus, modify, received, if_true]
      congr 1
      funext r'
      by_cases hr : r' = r <;> simp [hr]
    · obtain ⟨rfl, rfl⟩ := Prod.mk.inj (Except.ok.inj hupdate)
      exact Or.inl rfl
  · obtain ⟨-, rfl⟩ := Prod.mk.inj (Except.ok.inj h)
    exact Or.inl rfl

lemma checkGrammar_spec (answers : ScheduleAnswers) (s : Scheduler) (r : Ref) :
    (s.checkGrammar answers r).2 = s ∨ (s.objs r).status = .waitingForFsm ∧
      (s.checkGrammar answers r).2 = s.setStatus r .waiting := by
  unfold checkGrammar
  split_ifs with hstatus
  · exact Or.inr ⟨hstatus, rfl⟩
  · exact Or.inl rfl
  · exact Or.inl rfl

end Scheduler

namespace ScheduleState

variable {answers : ScheduleAnswers} {G : Guard} {st st' : ScheduleState} {r : Ref}

lemma IsFirst.eq_of_pop {item : HeapItem} {waiting : RequestQueue} (h : st.IsFirst r)
    (hpop : st.sched.waiting.popRequest = .ok (item, waiting)) : item.request = r := by
  obtain ⟨item', hpeek, rfl⟩ := h
  obtain ⟨hpeek', -⟩ := RequestQueue.popRequest_items hpop
  obtain rfl := Except.ok.inj (hpeek.symm.trans hpeek')
  rfl

/-- The flag of asynchronous loading fixes the number of new tokens. -/
def TokensFor (st : ScheduleState) (r : Ref) (c : ComputedTokens) (n : Int) : Prop :=
  (c.loadKvAsync = true ∧ n = 0) ∨
    (c.loadKvAsync = false ∧ 0 < n ∧ n ≤ (st.sched.objs r).numTokens - c.numComputedTokens)

lemma recordWaiting_keys {c : ComputedTokens} {n : Int}
    (h : st.recordWaiting r c n = .ok st') :
    (st'.sched.objs r).requestId ∈ st'.numScheduledTokens.keys := by
  obtain ⟨st₁, hclass, hret⟩ := bind_eq_ok.mp h
  obtain rfl := Except.ok.inj hret
  have hid : (((st₁.addLora r).startRunning r c n).sched.objs r).requestId =
      ((st₁.addLora r).sched.objs r).requestId := by
    simp only [startRunning, Scheduler.modify, if_true]
  rw [hid]
  simp [startRunning]

lemma allocateWaiting_moves {c : ComputedTokens} {n budget : Int} {inputs : List Nat} {goOn : Bool}
    (hfirst : st.IsFirst r) (hcomputed : st.findComputed answers r = .ok (some c))
    (hn : st.TokensFor r c n)
    (hg : ∀ kv, st.GotBlocks answers r c 0 kv → c.loadKvAsync = true → G.load st r)
    (h : st.allocateWaiting r c n inputs budget = .ok (goOn, st')) : Moves answers G st st' := by
  obtain ⟨⟨newBlocks, kv⟩, halloc, hrest⟩ := bind_eq_ok.mp h
  cases newBlocks with
  | none =>
    obtain ⟨-, rfl⟩ := Prod.mk.inj (Except.ok.inj hrest)
    exact .single (.noRoom st r _ kv halloc)
  | some newBlocks =>
    obtain ⟨st₁, htake, hret⟩ := bind_eq_ok.mp hrest
    obtain ⟨-, rfl⟩ := Prod.mk.inj (Except.ok.inj hret)
    obtain ⟨⟨item, waiting⟩, hpop, hrest⟩ := bind_eq_ok.mp htake
    obtain rfl := hfirst.eq_of_pop hpop
    have hgot : st.GotBlocks answers item.request c n kv := ⟨hfirst, hcomputed, newBlocks, halloc⟩
    dsimp only at hrest
    rcases hn with ⟨hload, rfl⟩ | ⟨hload, hpos, hle⟩
    · rw [if_pos hload] at hrest
      exact .single (.load st st₁ item waiting c kv hgot hload (hg kv hgot hload) hpop hrest)
    · rw [if_neg (by simp [hload])] at hrest
      obtain ⟨st₂, hrecord, hinputs⟩ := bind_eq_ok.mp hrest
      have hstart : Move answers G st st₂ :=
        .start st st₂ item waiting c n kv hgot hload hpos hle hpop hrecord
      exact (Relation.ReflTransGen.single hstart).tail
        (.inputs _ _ item.request _ _ (recordWaiting_keys hrecord) hinputs)

lemma capLongPrefill_le (st : ScheduleState) (n : Int) : st.capLongPrefill n ≤ n := by
  unfold capLongPrefill
  split_ifs with hcap
  · exact hcap.2.le
  · exact le_refl n

lemma scheduleWaiting_moves {c : ComputedTokens} {goOn : Bool}
    (hfirst : st.IsFirst r) (hcomputed : st.findComputed answers r = .ok (some c))
    (hg : ∀ kv, st.GotBlocks answers r c 0 kv → c.loadKvAsync = true → G.load st r)
    (h : st.scheduleWaiting r c = .ok (goOn, st')) : Moves answers G st st' := by
  unfold scheduleWaiting at h
  split_ifs at h with hload
  · obtain ⟨_, -, halloc⟩ := bind_eq_ok.mp h
    exact allocateWaiting_moves hfirst hcomputed (Or.inl ⟨hload, rfl⟩) hg halloc
  · dsimp only at h
    split_ifs at h
    · obtain ⟨st₁, hskip, hret⟩ := bind_eq_ok.mp h
      obtain ⟨-, rfl⟩ := Prod.mk.inj (Except.ok.inj hret)
      exact .single (.skip st st₁ hskip)
    · obtain ⟨_, hpos, hrest⟩ := bind_eq_ok.mp h
      obtain ⟨e, he, hrest⟩ := bind_eq_ok.mp hrest
      rw [pyAssert_eq_ok] at hpos
      have hencoder : Move answers G st (st.setEncoder e.manager) := .encoder st e.manager
      split_ifs at hrest with hzero
      · obtain ⟨-, rfl⟩ := Prod.mk.inj (Except.ok.inj hrest)
        exact .single hencoder
      · have hreduced := tryScheduleEncoderInputs_reduced he
        have hcap := st.capLongPrefill_le ((st.sched.objs r).numTokens - c.numComputedTokens)
        have hn : (st.setEncoder e.manager).TokensFor r c e.numNewTokens := by
          refine Or.inr ⟨by simpa using hload, ?_⟩
          unfold Reduced at hreduced
          show 0 < e.numNewTokens ∧
            e.numNewTokens ≤ (st.sched.objs r).numTokens - c.numComputedTokens
          omega
        have hmoves : Moves answers G (st.setEncoder e.manager) st' :=
          allocateWaiting_moves hfirst hcomputed hn (fun _ _ hasync => absurd hasync hload) hrest
        exact hmoves.head hencoder

/-- The guard holds if the first waiting request is to wait for a load: it is not skipped for
its adapter, the connector loads in the background, and the blocks have been allocated. -/
def LoadClean (answers : ScheduleAnswers) (G : Guard) (st : ScheduleState) (r : Ref) : Prop :=
  st.exceedsLoras r = false →
    ∀ c kv, st.GotBlocks answers r c 0 kv → c.loadKvAsync = true → G.load st r

lemma considerWaiting_moves {ready goOn : Bool} (hfirst : st.IsFirst r)
    (hclean : ready = true → LoadClean answers G st r)
    (h : st.considerWaiting answers r ready = .ok (goOn, st')) : Moves answers G st st' := by
  unfold considerWaiting at h
  split_ifs at h with hskipped
  · obtain ⟨st₁, hskip, hret⟩ := bind_eq_ok.mp h
    obtain ⟨-, rfl⟩ := Prod.mk.inj (Except.ok.inj hret)
    exact .single (.skip st st₁ hskip)
  · obtain ⟨computed, hcomputed, hrest⟩ := bind_eq_ok.mp h
    cases computed with
    | none =>
      obtain ⟨st₁, hskip, hret⟩ := bind_eq_ok.mp hrest
      obtain ⟨-, rfl⟩ := Prod.mk.inj (Except.ok.inj hret)
      exact .single (.skip st st₁ hskip)
    | some c =>
      obtain ⟨hready, hloras⟩ : ready = true ∧ st.exceedsLoras r = false := by
        simpa using hskipped
      exact scheduleWaiting_moves hfirst hcomputed (hclean hready hloras c) hrest

/-- The guard holds in one turn of the loop over the waiting requests, after the checks. -/
def WaitingStepClean (answers : ScheduleAnswers) (G : Guard) (st : ScheduleState) : Prop :=
  ∀ item s, st.sched.waiting.peekRequest = .ok item →
    st.sched.checkRemoteKvs item.request = .ok (true, s) →
    (s.checkGrammar answers item.request).1 = true →
    LoadClean answers G { st with sched := (s.checkGrammar answers item.request).2 } item.request

/-- The guard holds in every turn. -/
def WaitingClean (answers : ScheduleAnswers) (G : Guard) : (fuel : Nat) → ScheduleState → Prop
  | 0, _ => True
  | fuel + 1, st => WaitingStepClean answers G st ∧
      ∀ st₁, st.waitingStep answers = .ok (true, st₁) → WaitingClean answers G fuel st₁

lemma waitingClean_of_forall (hall : ∀ st r, LoadClean answers G st r) (fuel : Nat)
    (st : ScheduleState) : WaitingClean answers G fuel st := by
  induction fuel generalizing st with
  | zero => trivial
  | succ fuel ih => exact ⟨fun _ _ _ _ _ => hall _ _, fun st₁ _ => ih st₁⟩

lemma waitingStep_moves {goOn : Bool} (hclean : WaitingStepClean answers G st)
    (h : st.waitingStep answers = .ok (goOn, st')) : Moves answers G st st' := by
  obtain ⟨item, hpeek, hrest⟩ := bind_eq_ok.mp h
  obtain ⟨⟨ready, s⟩, hremote, hrest⟩ := bind_eq_ok.mp hrest
  have hfirst : st.IsFirst item.request := ⟨item, hpeek, rfl⟩
  have hmove : Move answers G st { st with sched := s } := .remoteKvs st _ ready s hfirst hremote
  have hfirst₁ : IsFirst { st with sched := s } item.request := by
    rcases Scheduler.checkRemoteKvs_spec hremote with rfl | ⟨_, _, _, -, -, -, rfl⟩
    · exact hfirst
    · exact hfirst
  cases ready with
  | false =>
    have hconsider : considerWaiting answers { st with sched := s } item.request false =
        .ok (goOn, st') := hrest
    have htail : Moves answers G { st with sched := s } st' :=
      considerWaiting_moves hfirst₁ (fun (hready : false = true) => by cases hready) hconsider
    exact htail.head hmove
  | true =>
    have hgrammar : Move answers G { st with sched := s }
        { st with sched := (s.checkGrammar answers item.request).2 } :=
      .grammar { st with sched := s } item.request hfirst₁
    have hfirst₂ : IsFirst { st with sched := (s.checkGrammar answers item.request).2 }
        item.request := by
      rcases Scheduler.checkGrammar_spec answers s item.request with heq | ⟨-, heq⟩
      · rw [heq]
        exact hfirst₁
      · rw [heq]
        exact hfirst₁
    have htail : Moves answers G { st with sched := (s.checkGrammar answers item.request).2 } st' :=
      considerWaiting_moves hfirst₂ (hclean item s hpeek hremote) hrest
    exact (htail.head hgrammar).head hmove

lemma waitingLoop_moves {fuel : Nat} (hclean : WaitingClean answers G fuel st)
    (h : st.waitingLoop answers fuel = .ok st') : Moves answers G st st' := by
  induction fuel generalizing st with
  | zero =>
    obtain rfl := Except.ok.inj h
    exact .refl
  | succ fuel ih =>
    simp only [waitingLoop] at h
    split_ifs at h
    · obtain rfl := Except.ok.inj h
      exact .refl
    · obtain ⟨⟨goOn, st₁⟩, hstep, hrest⟩ := bind_eq_ok.mp h
      have hmoves : Moves answers G st st₁ := waitingStep_moves hclean.1 hstep
      cases goOn with
      | true => exact hmoves.trans (ih (hclean.2 st₁ hstep) hrest)
      | false =>
        obtain rfl := Except.ok.inj hrest
        exact hmoves

lemma recordLoras_move (h : st.recordLoras = .ok st') : Moves answers G st st' := by
  unfold recordLoras at h
  split at h
  · obtain rfl := Except.ok.inj h
    exact .refl
  · obtain ⟨_, -, hret⟩ := bind_eq_ok.mp h
    obtain rfl := Except.ok.inj hret
    exact .single (.loras st _)

lemma scheduleWaitingReqs_moves
    (hclean : WaitingClean answers G st.sched.waiting.items.length st)
    (h : st.scheduleWaitingReqs answers = .ok st') : Moves answers G st st' := by
  unfold scheduleWaitingReqs at h
  split_ifs at h
  · exact waitingLoop_moves hclean h
  · obtain rfl := Except.ok.inj h
    exact .refl

end ScheduleState

namespace Scheduler

open ScheduleState

/-- The victims and the loads of a call pass the guard. -/
structure Clean (answers : ScheduleAnswers) (G : Guard) (s : Scheduler) : Prop where
  running : RunningClean G s.running.length (ScheduleState.start s)
  waiting : ∀ st₁ st₂, (ScheduleState.start s).runningLoop s.running.length = .ok st₁ →
    st₁.recordLoras = .ok st₂ → WaitingClean answers G st₂.sched.waiting.items.length st₂

lemma clean_none (answers : ScheduleAnswers) (s : Scheduler) : s.Clean answers Guard.none :=
  ⟨runningClean_of_forall (fun _ _ => trivial) _ _,
    fun _ _ _ _ => waitingClean_of_forall (fun _ _ _ _ _ _ _ => trivial) _ _⟩

/-- A call of `schedule` is a sequence of moves, the return of the skipped requests, the
output and the update after it. -/
lemma schedule_spec {answers : ScheduleAnswers} {G : Guard} {s s' : Scheduler}
    {out : SchedulerOutput} (hclean : s.Clean answers G) (h : s.schedule answers = .ok (out, s')) :
    ∃ st st' s₁, Moves answers G (ScheduleState.start s) st ∧ st.restoreSkipped = .ok st' ∧
      st'.makeOutput = .ok (out, s₁) ∧ s₁.updateAfterSchedule out = .ok s' := by
  obtain ⟨st₁, hrun, hrest⟩ := bind_eq_ok.mp h
  obtain ⟨st₂, hloras, hrest⟩ := bind_eq_ok.mp hrest
  obtain ⟨st₃, hwait, hrest⟩ := bind_eq_ok.mp hrest
  obtain ⟨st₄, hrestore, hrest⟩ := bind_eq_ok.mp hrest
  obtain ⟨_, -, hrest⟩ := bind_eq_ok.mp hrest
  obtain ⟨⟨out', s₁⟩, hout, hrest⟩ := bind_eq_ok.mp hrest
  obtain ⟨s₂, hupdate, hret⟩ := bind_eq_ok.mp hrest
  obtain ⟨rfl, rfl⟩ := Prod.mk.inj (Except.ok.inj hret)
  exact ⟨st₃, st₄, s₁, ((runningLoop_moves hclean.running hrun).trans (recordLoras_move hloras)).trans
    (scheduleWaitingReqs_moves (hclean.waiting st₁ st₂ hrun hloras) hwait), hrestore, hout, hupdate⟩

end Scheduler

end VllmV1
