import VllmMmaEmu.Sched.Registry

/-!
# The two loops of schedule

The moves of `schedule` told apart by the loop that makes them. The first loop never admits a
waiting request, and takes each running request once: those it has scheduled stand in the queue
before the one it looks at. The second loop preempts nobody, and what it admits fits into the
budget and the queue of running requests.
-/

namespace VllmV1

open Python

namespace ScheduleState

/-- A move of the loop over the running requests. -/
inductive RunningMove : ScheduleState → ScheduleState → Prop where
  | encoder (st : ScheduleState) (m : EncoderCacheManager) : RunningMove st (st.setEncoder m)
  | nextIndex (st : ScheduleState) : RunningMove st { st with reqIndex := st.reqIndex + 1 }
  | noRoom (st : ScheduleState) (r : Ref) (args : KVCacheManager.AllocArgs) (kv : KVCacheManager)
      (h : st.sched.kvCacheManager.allocateSlots (st.sched.req r) args = .ok (none, kv)) :
      RunningMove st (st.setKv kv)
  | preempt (st st₁ st₂ : ScheduleState) (v : Ref) (hv : st.chooseVictim = .ok (v, st₁))
      (h : st₁.preempt v = .ok st₂)
      (hindex : st.config.policy = .fcfs → st.reqIndex < st.sched.running.length)
      (hfresh : st.config.policy = .fcfs → v ∉ st.scheduledRunningReqs) : RunningMove st st₂
  | run (st : ScheduleState) (r : Ref) (n : Int) (newBlocks : List (List BlockId))
      (kv : KVCacheManager) (hr : r ∈ st.sched.running)
      (hindex : st.config.policy = .fcfs → st.sched.running[st.reqIndex]? = some r)
      (hfresh : r ∉ st.scheduledRunningReqs) (hn : n ≠ 0) (hle : Reduced (st.runningTokens r) n)
      (hbudget : 0 < st.tokenBudget)
      (h : st.sched.kvCacheManager.allocateSlots (st.sched.req r) (st.runningArgs n) =
        .ok (some newBlocks, kv)) :
      RunningMove st ((st.setKv kv).recordRunning r newBlocks n)
  | inputs (st st' : ScheduleState) (r : Ref) (inputs : List Nat) (budget : Int)
      (hr : (st.sched.objs r).requestId ∈ st.numScheduledTokens.keys)
      (h : st.recordEncoderInputs r inputs budget = .ok st') : RunningMove st st'

/-- A move of the loop over the waiting requests. -/
inductive WaitingMove (answers : ScheduleAnswers) : ScheduleState → ScheduleState → Prop where
  | encoder (st : ScheduleState) (m : EncoderCacheManager) :
      WaitingMove answers st (st.setEncoder m)
  | noRoom (st : ScheduleState) (r : Ref) (args : KVCacheManager.AllocArgs) (kv : KVCacheManager)
      (h : st.sched.kvCacheManager.allocateSlots (st.sched.req r) args = .ok (none, kv)) :
      WaitingMove answers st (st.setKv kv)
  | inputs (st st' : ScheduleState) (r : Ref) (inputs : List Nat) (budget : Int)
      (hr : (st.sched.objs r).requestId ∈ st.numScheduledTokens.keys)
      (h : st.recordEncoderInputs r inputs budget = .ok st') : WaitingMove answers st st'
  | remoteKvs (st : ScheduleState) (r : Ref) (ready : Bool) (s : Scheduler) (hr : st.IsFirst r)
      (h : st.sched.checkRemoteKvs r = .ok (ready, s)) :
      WaitingMove answers st { st with sched := s }
  | grammar (st : ScheduleState) (r : Ref) (hr : st.IsFirst r) :
      WaitingMove answers st { st with sched := (st.sched.checkGrammar answers r).2 }
  | skip (st st' : ScheduleState) (h : st.skipFirst = .ok st') : WaitingMove answers st st'
  | load (st st' : ScheduleState) (item : HeapItem) (waiting : RequestQueue) (c : ComputedTokens)
      (kv : KVCacheManager) (hgot : st.GotBlocks answers item.request c 0 kv)
      (hasync : c.loadKvAsync = true) (hpop : st.sched.waiting.popRequest = .ok (item, waiting))
      (h : ((st.setKv kv).setWaiting waiting).waitForLoad item = .ok st') :
      WaitingMove answers st st'
  | start (st st' : ScheduleState) (item : HeapItem) (waiting : RequestQueue)
      (c : ComputedTokens) (n : Int) (kv : KVCacheManager)
      (hgot : st.GotBlocks answers item.request c n kv)
      (hasync : c.loadKvAsync = false) (hpos : 0 < n)
      (hle : n ≤ (st.sched.objs item.request).numTokens - c.numComputedTokens)
      (hbudget : n ≤ st.tokenBudget)
      (hroom : st.sched.running.length ≠ st.config.maxNumRunningReqs)
      (hpop : st.sched.waiting.popRequest = .ok (item, waiting))
      (h : ((st.setKv kv).setWaiting waiting).recordWaiting item.request c n = .ok st') :
      WaitingMove answers st st'

abbrev RunningMoves : ScheduleState → ScheduleState → Prop := Relation.ReflTransGen RunningMove

abbrev WaitingMoves (answers : ScheduleAnswers) : ScheduleState → ScheduleState → Prop :=
  Relation.ReflTransGen (WaitingMove answers)

variable {answers : ScheduleAnswers} {st st' : ScheduleState} {r : Ref}

lemma RunningMove.move (h : RunningMove st st') (answers : ScheduleAnswers) :
    Move answers Guard.none st st' := by
  cases h with
  | encoder m => exact .encoder st m
  | nextIndex => exact .nextIndex st
  | noRoom r args kv h => exact .noRoom st r args kv h
  | preempt st₁ _ v hv hpreempt hindex hfresh => exact .preempt st st₁ st' v hv hpreempt trivial hindex
  | run r n newBlocks kv hr hindex hfresh hn hle hbudget h =>
    exact .run st r n newBlocks kv hr hindex hn hle hbudget h
  | inputs _ r inputs budget hr h => exact .inputs st st' r inputs budget hr h

lemma WaitingMove.move (h : WaitingMove answers st st') : Move answers Guard.none st st' := by
  cases h with
  | encoder m => exact .encoder st m
  | noRoom r args kv h => exact .noRoom st r args kv h
  | inputs _ r inputs budget hr h => exact .inputs st st' r inputs budget hr h
  | remoteKvs r ready s hr h => exact .remoteKvs st r ready s hr h
  | grammar r hr => exact .grammar st r hr
  | skip _ h => exact .skip st st' h
  | load _ item waiting c kv hgot hasync hpop h =>
    exact .load st st' item waiting c kv hgot hasync trivial hpop h
  | start _ item waiting c n kv hgot hasync hpos hle hbudget hroom hpop h =>
    exact .start st st' item waiting c n kv hgot hasync hpos hle hpop h

lemma RunningMoves.moves (h : RunningMoves st st') (answers : ScheduleAnswers) :
    Moves answers Guard.none st st' := by
  induction h with
  | refl => exact .refl
  | tail _ hmove ih => exact ih.tail (hmove.move answers)

/-- The scheduled requests stand in the queue before the index. -/
structure InOrder (st : ScheduleState) : Prop where
  nodup : st.sched.running.Nodup
  before : ∃ before rest, st.sched.running = before ++ rest ∧ before.length ≤ st.reqIndex ∧
    st.scheduledRunningReqs.Sublist before

/-- The scheduled requests stand in the queue before `r`. -/
structure InOrderTo (st : ScheduleState) (r : Ref) : Prop where
  nodup : st.sched.running.Nodup
  before : ∃ before rest, st.sched.running = before ++ r :: rest ∧
    before.length ≤ st.reqIndex ∧ st.scheduledRunningReqs.Sublist before

lemma InOrder.at_index (h : InOrder st) (hindex : st.sched.running[st.reqIndex]? = some r) :
    InOrderTo st r := by
  obtain ⟨before, rest, hrunning, hlen, hsub⟩ := h.before
  obtain ⟨hlt, rfl⟩ := List.getElem?_eq_some_iff.mp hindex
  refine ⟨h.nodup, st.sched.running.take st.reqIndex, st.sched.running.drop (st.reqIndex + 1),
    ?_, List.length_take_le _ _, ?_⟩
  · rw [List.getElem_cons_drop, List.take_append_drop]
  · have hprefix : before <+: st.sched.running.take st.reqIndex := by
      rw [hrunning, List.prefix_take_iff]
      exact ⟨List.prefix_append before rest, hlen⟩
    exact hsub.trans hprefix.sublist

lemma InOrderTo.fresh (h : InOrderTo st r) : r ∉ st.scheduledRunningReqs := by
  obtain ⟨before, rest, hrunning, -, hsub⟩ := h.before
  have hnodup := h.nodup
  rw [hrunning] at hnodup
  exact fun hmem => List.disjoint_of_nodup_append hnodup (hsub.subset hmem) List.mem_cons_self

lemma InOrder.congr (h : InOrder st) (hrunning : st'.sched.running = st.sched.running)
    (hscheduled : st'.scheduledRunningReqs = st.scheduledRunningReqs)
    (hindex : st.reqIndex ≤ st'.reqIndex) : InOrder st' := by
  obtain ⟨before, rest, heq, hlen, hsub⟩ := h.before
  refine ⟨hrunning ▸ h.nodup, before, rest, hrunning.trans heq, hlen.trans hindex, ?_⟩
  rwa [hscheduled]

/-- What a preemption leaves of the running requests and of the scheduled ones. -/
inductive Leaves (st st' : ScheduleState) (v : Ref) : Prop where
  | priority (policy : st.config.policy = .priority) (running : st'.sched.running = st.sched.running.erase v)
      (scheduled : st'.scheduledRunningReqs = st.scheduledRunningReqs.erase v)
  | fcfs (policy : st.config.policy = .fcfs) (running : st.sched.running = st'.sched.running ++ [v])
      (scheduled : st'.scheduledRunningReqs = st.scheduledRunningReqs)

lemma preempt_leaves {st₁ : ScheduleState} {v : Ref} (hv : st.chooseVictim = .ok (v, st₁))
    (h : st₁.preempt v = .ok st') : Leaves st st' v ∧ st'.reqIndex = st.reqIndex := by
  obtain ⟨waiting, -, hret⟩ := bind_eq_ok.mp h
  obtain rfl := Except.ok.inj hret
  unfold chooseVictim at hv
  split at hv
  · rename_i hpolicy
    split at hv
    · cases hv
    · obtain ⟨rfl, rfl⟩ := Prod.mk.inj (Except.ok.inj hv)
      exact ⟨.priority hpolicy rfl rfl, rfl⟩
  · rename_i hpolicy
    split at hv
    · cases hv
    · rename_i w hlast
      obtain ⟨rfl, rfl⟩ := Prod.mk.inj (Except.ok.inj hv)
      exact ⟨.fcfs hpolicy (List.dropLast_append_getLast? w hlast).symm rfl, rfl⟩

lemma InOrderTo.preempt {st₁ : ScheduleState} {v : Ref} (h : InOrderTo st r)
    (hv : st.chooseVictim = .ok (v, st₁)) (hp : st₁.preempt v = .ok st') (hne : v ≠ r) :
    InOrderTo st' r := by
  obtain ⟨hleaves, hindex⟩ := preempt_leaves hv hp
  obtain ⟨before, rest, hrunning, hlen, hsub⟩ := h.before
  cases hleaves with
  | priority policy running scheduled =>
    refine ⟨running ▸ h.nodup.erase v, ?_⟩
    rw [running, scheduled, hrunning, hindex]
    by_cases hmem : v ∈ before
    · rw [List.erase_append_left _ hmem]
      exact ⟨before.erase v, rest, rfl, (List.length_erase_le).trans hlen, hsub.erase v⟩
    · rw [List.erase_append_right _ hmem, List.erase_cons_tail (by simpa using hne.symm)]
      have hout : v ∉ st.scheduledRunningReqs := fun hin => hmem (hsub.subset hin)
      rw [List.erase_of_not_mem hout]
      exact ⟨before, rest.erase v, rfl, hlen, hsub⟩
  | fcfs policy running scheduled =>
    rw [running] at hrunning
    rcases List.eq_nil_or_concat rest with rfl | ⟨rest, w, rfl⟩
    · have hlast := (List.append_inj' hrunning rfl).2
      exact absurd (List.head_eq_of_cons_eq hlast) hne
    · rw [List.concat_eq_append, ← List.cons_append, ← List.append_assoc] at hrunning
      refine ⟨?_, before, rest, (List.append_inj' hrunning rfl).1, hindex ▸ hlen, scheduled ▸ hsub⟩
      have hnodup := h.nodup
      rw [running] at hnodup
      exact (List.nodup_append'.mp hnodup).1

lemma InOrderTo.preempt_self {st₁ : ScheduleState} (h : InOrderTo st r)
    (hv : st.chooseVictim = .ok (r, st₁)) (hp : st₁.preempt r = .ok st') : InOrder st' := by
  obtain ⟨hleaves, hindex⟩ := preempt_leaves hv hp
  obtain ⟨before, rest, hrunning, hlen, hsub⟩ := h.before
  have hnodup := h.nodup
  cases hleaves with
  | priority policy running scheduled =>
    refine ⟨running ▸ h.nodup.erase r, before, rest, ?_, hindex ▸ hlen, ?_⟩
    · rw [hrunning] at hnodup
      have hout : r ∉ before := fun hin =>
        List.disjoint_of_nodup_append hnodup hin List.mem_cons_self
      rw [running, hrunning, List.erase_append_right _ hout, List.erase_cons_head]
    · rwa [scheduled, List.erase_of_not_mem h.fresh]
  | fcfs policy running scheduled =>
    rw [running] at hrunning hnodup
    have hout : r ∉ st'.sched.running := fun hin =>
      List.disjoint_of_nodup_append hnodup hin (List.mem_singleton_self r)
    rcases List.eq_nil_or_concat rest with rfl | ⟨rest, w, rfl⟩
    · refine ⟨(List.nodup_append'.mp hnodup).1, before, [], ?_, hindex ▸ hlen, scheduled ▸ hsub⟩
      rw [List.append_nil]
      exact (List.append_inj' hrunning rfl).1
    · rw [List.concat_eq_append, ← List.cons_append, ← List.append_assoc] at hrunning
      rw [(List.append_inj' hrunning rfl).1] at hout
      exact absurd (List.mem_append_right before List.mem_cons_self) hout

/-- A victim of the first-come-first-served policy is not scheduled yet. -/
lemma InOrderTo.victim_fresh {st₁ : ScheduleState} {v : Ref} (h : InOrderTo st r)
    (hv : st.chooseVictim = .ok (v, st₁)) (hp : st₁.preempt v = .ok st')
    (hf : st.config.policy = .fcfs) : v ∉ st.scheduledRunningReqs := by
  by_cases hne : v = r
  · exact hne ▸ h.fresh
  · obtain ⟨hleaves, -⟩ := preempt_leaves hv hp
    cases hleaves with
    | priority policy running scheduled =>
      rw [policy] at hf
      cases hf
    | fcfs policy running scheduled =>
      obtain ⟨before, rest, hrunning, -, hsub⟩ := (h.preempt hv hp hne).before
      have hnodup := h.nodup
      rw [running] at hnodup
      intro hmem
      have hin : v ∈ st'.sched.running := by
        rw [hrunning]
        exact List.mem_append_left _ (hsub.subset (scheduled ▸ hmem))
      exact List.disjoint_of_nodup_append hnodup hin (List.mem_singleton_self v)

lemma allocateOrPreempt_running {fuel : Nat} {n : Int}
    {result : Option (List (List BlockId))} (horder : InOrderTo st r) (hasks : Asks st r n)
    (h : st.allocateOrPreempt r n fuel = .ok (result, st')) :
    (result = none ∧ RunningMoves st st' ∧ InOrder st') ∨
    ∃ newBlocks st₁ kv, result = some newBlocks ∧ RunningMoves st st₁ ∧ InOrderTo st₁ r ∧
      Asks st₁ r n ∧ st₁.sched.kvCacheManager.allocateSlots (st₁.sched.req r) (st₁.runningArgs n) =
        .ok (some newBlocks, kv) ∧ st' = st₁.setKv kv := by
  induction fuel generalizing st with
  | zero => cases h
  | succ fuel ih =>
    obtain ⟨⟨newBlocks, kv⟩, halloc, hrest⟩ := bind_eq_ok.mp h
    cases newBlocks with
    | some newBlocks =>
      obtain ⟨rfl, rfl⟩ := Prod.mk.inj (Except.ok.inj hrest)
      exact Or.inr ⟨newBlocks, st, kv, rfl, .refl, horder, hasks, halloc, rfl⟩
    | none =>
      obtain ⟨⟨v, st₁⟩, hv, hrest⟩ := bind_eq_ok.mp hrest
      obtain ⟨st₂, hp, hrest⟩ := bind_eq_ok.mp hrest
      have horder₁ : InOrderTo (st.setKv kv) r := ⟨horder.nodup, horder.before⟩
      have hasks₁ := hasks.setKv kv
      have hroom : RunningMove st (st.setKv kv) := .noRoom st r _ kv halloc
      have hmove : RunningMove (st.setKv kv) st₂ :=
        .preempt _ st₁ st₂ v hv hp hasks₁.index_lt fun hf => horder₁.victim_fresh hv hp hf
      have hmoves : RunningMoves st st₂ := (Relation.ReflTransGen.single hroom).tail hmove
      split_ifs at hrest with heq
      · obtain ⟨rfl, rfl⟩ := Prod.mk.inj (Except.ok.inj hrest)
        subst heq
        exact Or.inl ⟨rfl, hmoves, horder₁.preempt_self hv hp⟩
      · have hasks₂ := hasks₁.preempt hv hp heq
        rcases ih (horder₁.preempt hv hp heq) hasks₂ hrest with
          ⟨hnone, htail, horder₂⟩ | ⟨b, st₃, kv', hb, htail, hrest⟩
        · exact Or.inl ⟨hnone, hmoves.trans htail, horder₂⟩
        · exact Or.inr ⟨b, st₃, kv', hb, hmoves.trans htail, hrest⟩

lemma recordRunning_sched (st : ScheduleState) (r : Ref) (newBlocks : List (List BlockId)) (n : Int) :
    (st.recordRunning r newBlocks n).sched.running = st.sched.running ∧
      (st.recordRunning r newBlocks n).scheduledRunningReqs = st.scheduledRunningReqs ++ [r] ∧
      (st.recordRunning r newBlocks n).reqIndex = st.reqIndex + 1 := by
  obtain ⟨lists, drafts, -, heq⟩ := st.recordRunning_spec r newBlocks n
  rw [heq]
  exact ⟨rfl, rfl, rfl⟩

lemma InOrderTo.record (h : InOrderTo st r) (kv : KVCacheManager)
    (newBlocks : List (List BlockId)) (n : Int) :
    InOrder ((st.setKv kv).recordRunning r newBlocks n) := by
  obtain ⟨hrunning, hscheduled, hindex⟩ := recordRunning_sched (st.setKv kv) r newBlocks n
  obtain ⟨before, rest, heq, hlen, hsub⟩ := h.before
  refine ⟨hrunning ▸ h.nodup, before ++ [r], rest, ?_, ?_, ?_⟩
  · rw [hrunning, List.append_assoc]
    exact heq
  · rw [hindex, List.length_append]
    exact Nat.add_le_add_right hlen 1
  · rw [hscheduled]
    exact hsub.append (.refl [r])

lemma runningStep_running {goOn : Bool} (horder : InOrder st)
    (hindex : st.sched.running[st.reqIndex]? = some r) (hbudget : 0 < st.tokenBudget)
    (h : st.runningStep r = .ok (goOn, st')) : RunningMoves st st' ∧ InOrder st' := by
  obtain ⟨e, he, hrest⟩ := bind_eq_ok.mp h
  have hencoder : RunningMove st (st.setEncoder e.manager) := .encoder st e.manager
  simp only at hrest
  split_ifs at hrest with hzero
  · obtain ⟨-, rfl⟩ := Prod.mk.inj (Except.ok.inj hrest)
    exact ⟨(Relation.ReflTransGen.single hencoder).tail (.nextIndex _),
      horder.congr rfl rfl (Nat.le_succ _)⟩
  · obtain ⟨⟨result, st₁⟩, halloc, hrest⟩ := bind_eq_ok.mp hrest
    have hasks : Asks (st.setEncoder e.manager) r e.numNewTokens :=
      ⟨List.mem_of_getElem? hindex, fun _ => hindex, tryScheduleEncoderInputs_reduced he, hbudget⟩
    have horder₁ : InOrderTo (st.setEncoder e.manager) r :=
      InOrder.at_index ⟨horder.nodup, horder.before⟩ hindex
    rcases allocateOrPreempt_running horder₁ hasks halloc with
      ⟨rfl, hmoves, horder₂⟩ | ⟨newBlocks, st₂, kv, rfl, hmoves, horder₂, hasks₂, hgot, rfl⟩
    · obtain ⟨-, rfl⟩ := Prod.mk.inj (Except.ok.inj hrest)
      exact ⟨hmoves.head hencoder, horder₂⟩
    · obtain ⟨st₃, hrecord, hret⟩ := bind_eq_ok.mp hrest
      obtain ⟨-, rfl⟩ := Prod.mk.inj (Except.ok.inj hret)
      have hrun : RunningMove st₂ ((st₂.setKv kv).recordRunning r newBlocks e.numNewTokens) :=
        .run st₂ r _ newBlocks kv hasks₂.running hasks₂.index horder₂.fresh hzero hasks₂.tokens
          hasks₂.budget hgot
      have hinputs : RunningMove ((st₂.setKv kv).recordRunning r newBlocks e.numNewTokens) st₃ :=
        .inputs _ _ r _ _ (recordRunning_keys _ r newBlocks _) hrecord
      obtain ⟨m, encoderInputs, computeBudget, heq⟩ := recordEncoderInputs_spec hrecord
      refine ⟨((hmoves.head hencoder).tail hrun).tail hinputs, ?_⟩
      rw [heq]
      exact (horder₂.record kv newBlocks _).congr rfl rfl le_rfl

lemma runningLoop_running {fuel : Nat} (horder : InOrder st)
    (h : st.runningLoop fuel = .ok st') : RunningMoves st st' ∧ InOrder st' := by
  induction fuel generalizing st with
  | zero =>
    obtain rfl := Except.ok.inj h
    exact ⟨.refl, horder⟩
  | succ fuel ih =>
    simp only [runningLoop] at h
    split at h
    · obtain rfl := Except.ok.inj h
      exact ⟨.refl, horder⟩
    · rename_i r hindex
      split_ifs at h with hbudget
      · obtain ⟨⟨goOn, st₁⟩, hstep, hrest⟩ := bind_eq_ok.mp h
        obtain ⟨hmoves, horder₁⟩ := runningStep_running horder hindex hbudget hstep
        cases goOn with
        | true =>
          obtain ⟨htail, horder₂⟩ := ih horder₁ hrest
          exact ⟨hmoves.trans htail, horder₂⟩
        | false =>
          obtain rfl := Except.ok.inj hrest
          exact ⟨hmoves, horder₁⟩
      · obtain rfl := Except.ok.inj h
        exact ⟨.refl, horder⟩

/-- The turns of the loop over the running requests that go on. -/
inductive RunningTurns : ScheduleState → ScheduleState → Prop where
  | none (st : ScheduleState) : RunningTurns st st
  | turn (st st₁ st' : ScheduleState) (r : Ref) (h : RunningTurns st st₁)
      (hindex : st₁.sched.running[st₁.reqIndex]? = some r) (hbudget : 0 < st₁.tokenBudget)
      (hstep : st₁.runningStep r = .ok (true, st')) : RunningTurns st st'

lemma RunningTurns.running (h : RunningTurns st st') (horder : InOrder st) :
    RunningMoves st st' ∧ InOrder st' := by
  induction h with
  | none => exact ⟨.refl, horder⟩
  | turn st₁ st₂ r _ hindex hbudget hstep ih =>
    obtain ⟨hmoves, horder₁⟩ := ih
    obtain ⟨htail, horder₂⟩ := runningStep_running horder₁ hindex hbudget hstep
    exact ⟨hmoves.trans htail, horder₂⟩

lemma start_inOrder {s : Scheduler} (h : s.running.Nodup) : InOrder (start s) :=
  ⟨h, [], s.running, rfl, Nat.zero_le _, .refl _⟩

/-- The number of new tokens fits the flag of asynchronous loading and the budget. -/
def TokensWithin (st : ScheduleState) (r : Ref) (c : ComputedTokens) (n : Int) : Prop :=
  (c.loadKvAsync = true ∧ n = 0) ∨ (c.loadKvAsync = false ∧ 0 < n ∧
    n ≤ (st.sched.objs r).numTokens - c.numComputedTokens ∧ n ≤ st.tokenBudget)

/-- There is room for one more running request. -/
def HasRoom (st : ScheduleState) : Prop :=
  st.sched.running.length ≠ st.config.maxNumRunningReqs

lemma allocateWaiting_waiting {c : ComputedTokens} {n budget : Int} {inputs : List Nat}
    {goOn : Bool} (hroom : st.HasRoom) (hfirst : st.IsFirst r)
    (hcomputed : st.findComputed answers r = .ok (some c)) (hn : st.TokensWithin r c n)
    (h : st.allocateWaiting r c n inputs budget = .ok (goOn, st')) :
    WaitingMoves answers st st' := by
  obtain ⟨⟨newBlocks, kv⟩, halloc, hrest⟩ := bind_eq_ok.mp h
  cases newBlocks with
  | none =>
    obtain ⟨-, rfl⟩ := Prod.mk.inj (Except.ok.inj hrest)
    exact .single (.noRoom st r _ kv halloc)
  | some newBlocks =>
    obtain ⟨st₁, htake, hret⟩ := bind_eq_ok.mp hrest
    obtain ⟨-, rfl⟩ := Prod.mk.inj (Except.ok.inj hret)
    obtain ⟨⟨item, waiting⟩, hpop, hrest⟩ := bind_eq_ok.mp htake
    obtain rfl := hfirst.eq_of_pop hpop
    have hgot : st.GotBlocks answers item.request c n kv := ⟨hfirst, hcomputed, newBlocks, halloc⟩
    dsimp only at hrest
    rcases hn with ⟨hload, rfl⟩ | ⟨hload, hpos, hle, hbudget⟩
    · rw [if_pos hload] at hrest
      exact .single (.load st st₁ item waiting c kv hgot hload hpop hrest)
    · rw [if_neg (by simp [hload])] at hrest
      obtain ⟨st₂, hrecord, hinputs⟩ := bind_eq_ok.mp hrest
      have hstart : WaitingMove answers st st₂ :=
        .start st st₂ item waiting c n kv hgot hload hpos hle hbudget hroom hpop hrecord
      exact (Relation.ReflTransGen.single hstart).tail
        (.inputs _ _ item.request _ _ (recordWaiting_keys hrecord) hinputs)

lemma scheduleWaiting_waiting {c : ComputedTokens} {goOn : Bool} (hroom : st.HasRoom)
    (hfirst : st.IsFirst r) (hcomputed : st.findComputed answers r = .ok (some c))
    (h : st.scheduleWaiting r c = .ok (goOn, st')) : WaitingMoves answers st st' := by
  unfold scheduleWaiting at h
  split_ifs at h with hload
  · obtain ⟨_, -, halloc⟩ := bind_eq_ok.mp h
    exact allocateWaiting_waiting hroom hfirst hcomputed (Or.inl ⟨hload, rfl⟩) halloc
  · dsimp only at h
    split_ifs at h
    · obtain ⟨st₁, hskip, hret⟩ := bind_eq_ok.mp h
      obtain ⟨-, rfl⟩ := Prod.mk.inj (Except.ok.inj hret)
      exact .single (.skip st st₁ hskip)
    · obtain ⟨_, hpos, hrest⟩ := bind_eq_ok.mp h
      obtain ⟨e, he, hrest⟩ := bind_eq_ok.mp hrest
      rw [pyAssert_eq_ok] at hpos
      have hencoder : WaitingMove answers st (st.setEncoder e.manager) := .encoder st e.manager
      split_ifs at hrest with hzero
      · obtain ⟨-, rfl⟩ := Prod.mk.inj (Except.ok.inj hrest)
        exact .single hencoder
      · have hreduced := tryScheduleEncoderInputs_reduced he
        have hcap := st.capLongPrefill_le ((st.sched.objs r).numTokens - c.numComputedTokens)
        have hn : (st.setEncoder e.manager).TokensWithin r c e.numNewTokens := by
          refine Or.inr ⟨by simpa using hload, ?_⟩
          unfold Reduced at hreduced
          show 0 < e.numNewTokens ∧
            e.numNewTokens ≤ (st.sched.objs r).numTokens - c.numComputedTokens ∧
              e.numNewTokens ≤ st.tokenBudget
          omega
        have hmoves : WaitingMoves answers (st.setEncoder e.manager) st' :=
          allocateWaiting_waiting hroom hfirst hcomputed hn hrest
        exact hmoves.head hencoder

lemma considerWaiting_waiting {ready goOn : Bool} (hroom : st.HasRoom) (hfirst : st.IsFirst r)
    (h : st.considerWaiting answers r ready = .ok (goOn, st')) : WaitingMoves answers st st' := by
  unfold considerWaiting at h
  split_ifs at h
  · obtain ⟨st₁, hskip, hret⟩ := bind_eq_ok.mp h
    obtain ⟨-, rfl⟩ := Prod.mk.inj (Except.ok.inj hret)
    exact .single (.skip st st₁ hskip)
  · obtain ⟨computed, hcomputed, hrest⟩ := bind_eq_ok.mp h
    cases computed with
    | none =>
      obtain ⟨st₁, hskip, hret⟩ := bind_eq_ok.mp hrest
      obtain ⟨-, rfl⟩ := Prod.mk.inj (Except.ok.inj hret)
      exact .single (.skip st st₁ hskip)
    | some c => exact scheduleWaiting_waiting hroom hfirst hcomputed hrest

/-- What the checks of the first waiting request leave as it was. -/
structure Checked (st st' : ScheduleState) : Prop where
  eq : st' = { st with sched := st'.sched }
  config : st'.sched.config = st.sched.config
  running : st'.sched.running = st.sched.running
  waiting : st'.sched.waiting = st.sched.waiting

lemma Checked.hasRoom (h : Checked st st') (hroom : st.HasRoom) : st'.HasRoom := by
  unfold HasRoom ScheduleState.config at hroom ⊢
  rwa [h.running, h.config]

lemma Checked.isFirst (h : Checked st st') (hfirst : st.IsFirst r) : st'.IsFirst r := by
  unfold IsFirst at hfirst ⊢
  rwa [h.waiting]

lemma checkRemoteKvs_checked {ready : Bool} {s : Scheduler}
    (h : st.sched.checkRemoteKvs r = .ok (ready, s)) : Checked st { st with sched := s } := by
  rcases Scheduler.checkRemoteKvs_spec h with rfl | ⟨_, _, _, -, -, -, rfl⟩
  · exact ⟨rfl, rfl, rfl, rfl⟩
  · exact ⟨rfl, rfl, rfl, rfl⟩

lemma checkGrammar_checked (answers : ScheduleAnswers) (st : ScheduleState) (r : Ref) :
    Checked st { st with sched := (st.sched.checkGrammar answers r).2 } := by
  rcases Scheduler.checkGrammar_spec answers st.sched r with heq | ⟨-, heq⟩
  · rw [heq]
    exact ⟨rfl, rfl, rfl, rfl⟩
  · rw [heq]
    exact ⟨rfl, rfl, rfl, rfl⟩

lemma waitingStep_waiting {goOn : Bool} (hroom : st.HasRoom)
    (h : st.waitingStep answers = .ok (goOn, st')) : WaitingMoves answers st st' := by
  obtain ⟨item, hpeek, hrest⟩ := bind_eq_ok.mp h
  obtain ⟨⟨ready, s⟩, hremote, hrest⟩ := bind_eq_ok.mp hrest
  have hfirst : st.IsFirst item.request := ⟨item, hpeek, rfl⟩
  have hmove : WaitingMove answers st { st with sched := s } :=
    .remoteKvs st _ ready s hfirst hremote
  have hchecked := checkRemoteKvs_checked hremote
  cases ready with
  | false =>
    have hconsider : considerWaiting answers { st with sched := s } item.request false =
        .ok (goOn, st') := hrest
    have htail := considerWaiting_waiting (hchecked.hasRoom hroom) (hchecked.isFirst hfirst) hconsider
    exact htail.head hmove
  | true =>
    have hgrammar : WaitingMove answers { st with sched := s }
        { st with sched := (s.checkGrammar answers item.request).2 } :=
      .grammar { st with sched := s } item.request (hchecked.isFirst hfirst)
    have hchecked₁ := checkGrammar_checked answers { st with sched := s } item.request
    have htail : WaitingMoves answers
        { st with sched := (s.checkGrammar answers item.request).2 } st' :=
      considerWaiting_waiting (hchecked₁.hasRoom (hchecked.hasRoom hroom))
        (hchecked₁.isFirst (hchecked.isFirst hfirst)) hrest
    exact (htail.head hgrammar).head hmove

/-- The loop over the waiting requests goes on. -/
structure GoesOn (st : ScheduleState) : Prop where
  waiting : st.sched.waiting.isEmpty = false
  budget : 0 < st.tokenBudget
  room : st.HasRoom

/-- The turns of the loop over the waiting requests that go on. -/
inductive Turns (answers : ScheduleAnswers) : ScheduleState → ScheduleState → Prop where
  | none (st : ScheduleState) : Turns answers st st
  | turn (st st₁ st' : ScheduleState) (h : Turns answers st st₁) (hgo : st₁.GoesOn)
      (hstep : st₁.waitingStep answers = .ok (true, st')) : Turns answers st st'

lemma Turns.waiting (h : Turns answers st st') : WaitingMoves answers st st' := by
  induction h with
  | none => exact .refl
  | turn st₁ st₂ _ hgo hstep ih => exact ih.trans (waitingStep_waiting hgo.room hstep)

lemma waitingLoop_waiting {fuel : Nat} (h : st.waitingLoop answers fuel = .ok st') :
    WaitingMoves answers st st' := by
  induction fuel generalizing st with
  | zero =>
    obtain rfl := Except.ok.inj h
    exact .refl
  | succ fuel ih =>
    simp only [waitingLoop] at h
    split_ifs at h with hexit
    · obtain rfl := Except.ok.inj h
      exact .refl
    · obtain ⟨⟨goOn, st₁⟩, hstep, hrest⟩ := bind_eq_ok.mp h
      have hroom : st.HasRoom := fun hfull => hexit (Or.inr (Or.inr hfull))
      have hmoves : WaitingMoves answers st st₁ := waitingStep_waiting hroom hstep
      cases goOn with
      | true => exact hmoves.trans (ih hrest)
      | false =>
        obtain rfl := Except.ok.inj hrest
        exact hmoves

lemma scheduleWaitingReqs_waiting (h : st.scheduleWaitingReqs answers = .ok st') :
    st' = st ∨ st.preemptedReqs = [] ∧ WaitingMoves answers st st' := by
  unfold scheduleWaitingReqs at h
  split_ifs at h with hnone
  · exact Or.inr ⟨hnone, waitingLoop_waiting h⟩
  · exact Or.inl (Except.ok.inj h).symm

end ScheduleState

end VllmV1
