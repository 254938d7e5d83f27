import VllmMmaEmu.Sched.Registry

/-!
# The order of skipped requests

A waiting request that cannot be scheduled yet is put in front of a second queue, which goes
back in front of the waiting queue as it is. Each front insertion reverses, the bulk insertion
does not: two requests that were set aside come back in the opposite order.
-/

namespace VllmV1

open Python

namespace ScheduleState

/-- The tokens of the first waiting request are loaded in the background, or are too many for
what is left of the budget. -/
def asideForTokens (st : ScheduleState) (r : Ref) (c : ComputedTokens) : Bool :=
  c.loadKvAsync || (!st.config.chunkedPrefillEnabled &&
    decide (st.capLongPrefill ((st.sched.objs r).numTokens - c.numComputedTokens) > st.tokenBudget))

/-- The first waiting request is not ready, has an adapter too many, or its tokens are not
known yet or not to be computed now. -/
def asideWhenConsidered (answers : ScheduleAnswers) (st : ScheduleState) (r : Ref)
    (ready : Bool) : Except PyError Bool :=
  if ready = false ∨ st.exceedsLoras r = true then .ok true
  else do
    match ← st.findComputed answers r with
    | none => return true
    | some c => return st.asideForTokens r c

/-- Whether a turn of the loop that goes on sets the first waiting request aside. -/
def setsAside (answers : ScheduleAnswers) (st : ScheduleState) : Except PyError Bool := do
  let item ← st.sched.waiting.peekRequest
  let (ready, s) ← st.sched.checkRemoteKvs item.request
  if ready then
    let (ready, s) := s.checkGrammar answers item.request
    asideWhenConsidered answers { st with sched := s } item.request ready
  else asideWhenConsidered answers { st with sched := s } item.request false

/-- The number of turns of the loop that set a request aside. -/
def turnsAside (answers : ScheduleAnswers) : (fuel : Nat) → ScheduleState → Nat
  | 0, _ => 0
  | fuel + 1, st =>
    if st.sched.waiting.isEmpty = true ∨ st.tokenBudget ≤ 0 ∨
        st.sched.running.length = st.config.maxNumRunningReqs then 0
    else match st.setsAside answers, st.waitingStep answers with
      | .ok aside, .ok (true, st) => (if aside then 1 else 0) + turnsAside answers fuel st
      | _, _ => 0

variable {answers : ScheduleAnswers} {st st' : ScheduleState} {r : Ref} {item : HeapItem}
  {rest skipped : List HeapItem}

/-- What a turn does to the two queues of a first-come-first-served scheduler. -/
structure Turn (st' : ScheduleState) (rest skipped : List HeapItem) (item : HeapItem)
    (aside : Bool) : Prop where
  waiting : st'.sched.waiting = .fcfs rest
  skipped : st'.skippedWaitingRequests = .fcfs (if aside then item :: skipped else skipped)

/-- The queues stay as they are, as in the last turn. -/
structure SameQueues (st st' : ScheduleState) : Prop where
  waiting : st'.sched.waiting = st.sched.waiting
  skipped : st'.skippedWaitingRequests = st.skippedWaitingRequests

/-- The outcome of a turn that tells whether the loop goes on. -/
def Outcome (st st' : ScheduleState) (rest skipped : List HeapItem) (item : HeapItem)
    (aside goOn : Bool) : Prop :=
  if goOn then Turn st' rest skipped item aside else SameQueues st st'

lemma Outcome.congr {st₁ : ScheduleState} {aside goOn : Bool}
    (h : Outcome st₁ st' rest skipped item aside goOn)
    (hw : st₁.sched.waiting = st.sched.waiting)
    (hs : st₁.skippedWaitingRequests = st.skippedWaitingRequests) :
    Outcome st st' rest skipped item aside goOn := by
  unfold Outcome at h ⊢
  split_ifs at h ⊢
  · exact h
  · exact ⟨h.waiting.trans hw, h.skipped.trans hs⟩

lemma skipFirst_turn (hw : st.sched.waiting = .fcfs (item :: rest))
    (hs : st.skippedWaitingRequests = .fcfs skipped) (h : st.skipFirst = .ok st') :
    Turn st' rest skipped item true := by
  unfold skipFirst at h
  rw [hw, hs] at h
  obtain rfl := Except.ok.inj h
  exact ⟨rfl, rfl⟩

lemma recordEncoderInputs_same {inputs : List Nat} {budget : Int}
    (h : st.recordEncoderInputs r inputs budget = .ok st') : SameQueues st st' := by
  obtain ⟨m, encoderInputs, computeBudget, rfl⟩ := recordEncoderInputs_spec h
  exact ⟨rfl, rfl⟩

lemma recordWaiting_same {c : ComputedTokens} {n : Int} (h : st.recordWaiting r c n = .ok st') :
    SameQueues st st' := by
  obtain ⟨st₁, hclassify, hret⟩ := bind_eq_ok.mp h
  obtain rfl := Except.ok.inj hret
  obtain ⟨hsched, hskipped, -, -⟩ := classify_admits hclassify
  have hlora : (st₁.addLora r).sched = st₁.sched ∧
      (st₁.addLora r).skippedWaitingRequests = st₁.skippedWaitingRequests := by
    unfold addLora
    split <;> exact ⟨rfl, rfl⟩
  constructor
  · simp only [startRunning, Scheduler.modify, hlora.1, hsched]
  · simp only [startRunning, hlora.2, hskipped]

lemma allocateWaiting_outcome {c : ComputedTokens} {n budget : Int} {inputs : List Nat}
    {goOn : Bool} (hw : st.sched.waiting = .fcfs (item :: rest))
    (hs : st.skippedWaitingRequests = .fcfs skipped)
    (h : st.allocateWaiting r c n inputs budget = .ok (goOn, st')) :
    Outcome st st' rest skipped item c.loadKvAsync goOn := by
  obtain ⟨⟨newBlocks, kv⟩, -, hrest⟩ := bind_eq_ok.mp h
  cases newBlocks with
  | none =>
    obtain ⟨rfl, rfl⟩ := Prod.mk.inj (Except.ok.inj hrest)
    exact ⟨rfl, rfl⟩
  | some newBlocks =>
    obtain ⟨st₁, htake, hret⟩ := bind_eq_ok.mp hrest
    obtain ⟨rfl, rfl⟩ := Prod.mk.inj (Except.ok.inj hret)
    obtain ⟨⟨first, waiting⟩, hpop, hrest⟩ := bind_eq_ok.mp htake
    have hpop' : RequestQueue.popRequest (.fcfs (item :: rest)) = .ok (first, waiting) := hw ▸ hpop
    obtain ⟨rfl, rfl⟩ := Prod.mk.inj (Except.ok.inj hpop')
    dsimp only at hrest
    split_ifs at hrest with hload
    · obtain ⟨skipped', hprepend, hret⟩ := bind_eq_ok.mp hrest
      obtain rfl := Except.ok.inj hret
      have hprepend' : RequestQueue.prependRequest (.fcfs skipped) item = .ok skipped' :=
        hs ▸ hprepend
      obtain rfl := Except.ok.inj hprepend'
      exact ⟨rfl, by rw [if_pos hload]⟩
    · obtain ⟨st₂, hrecord, hinputs⟩ := bind_eq_ok.mp hrest
      have hsame := recordWaiting_same hrecord
      have hsame' := recordEncoderInputs_same hinputs
      refine ⟨?_, ?_⟩
      · rw [hsame'.waiting, hsame.waiting]
        rfl
      · rw [hsame'.skipped, hsame.skipped, if_neg hload]
        exact hs

lemma scheduleWaiting_outcome {c : ComputedTokens} {goOn : Bool}
    (hw : st.sched.waiting = .fcfs (item :: rest))
    (hs : st.skippedWaitingRequests = .fcfs skipped)
    (h : st.scheduleWaiting r c = .ok (goOn, st')) :
    Outcome st st' rest skipped item (st.asideForTokens r c) goOn := by
  unfold scheduleWaiting at h
  unfold asideForTokens
  split_ifs at h with hload
  · obtain ⟨_, -, halloc⟩ := bind_eq_ok.mp h
    have houtcome := allocateWaiting_outcome hw hs halloc
    rw [hload] at houtcome ⊢
    exact houtcome
  · dsimp only at h
    split_ifs at h with hmany
    · obtain ⟨st₁, hskip, hret⟩ := bind_eq_ok.mp h
      obtain ⟨rfl, rfl⟩ := Prod.mk.inj (Except.ok.inj hret)
      have haside : (c.loadKvAsync || (!st.config.chunkedPrefillEnabled && decide
          (st.capLongPrefill ((st.sched.objs r).numTokens - c.numComputedTokens) >
            st.tokenBudget))) = true := by
        simp [hmany.1, hmany.2]
      rw [haside]
      exact skipFirst_turn hw hs hskip
    · have haside : (c.loadKvAsync || (!st.config.chunkedPrefillEnabled && decide
          (st.capLongPrefill ((st.sched.objs r).numTokens - c.numComputedTokens) >
            st.tokenBudget))) = c.loadKvAsync := by
        have hfew : ¬ (st.config.chunkedPrefillEnabled = false ∧
          st.capLongPrefill ((st.sched.objs r).numTokens - c.numComputedTokens) >
            st.tokenBudget) := hmany
        cases hchunk : st.config.chunkedPrefillEnabled <;> simp_all
      rw [haside]
      obtain ⟨_, -, hrest⟩ := bind_eq_ok.mp h
      obtain ⟨e, -, hrest⟩ := bind_eq_ok.mp hrest
      split_ifs at hrest
      · obtain ⟨rfl, rfl⟩ := Prod.mk.inj (Except.ok.inj hrest)
        exact ⟨rfl, rfl⟩
      · have houtcome : Outcome (st.setEncoder e.manager) st' rest skipped item c.loadKvAsync goOn :=
          allocateWaiting_outcome hw hs hrest
        exact houtcome.congr rfl rfl

lemma considerWaiting_outcome {ready goOn : Bool} (hw : st.sched.waiting = .fcfs (item :: rest))
    (hs : st.skippedWaitingRequests = .fcfs skipped)
    (h : st.considerWaiting answers r ready = .ok (goOn, st')) :
    ∃ aside, st.asideWhenConsidered answers r ready = .ok aside ∧
      Outcome st st' rest skipped item aside goOn := by
  unfold considerWaiting at h
  unfold asideWhenConsidered
  split_ifs at h ⊢ with hout
  · obtain ⟨st₁, hskip, hret⟩ := bind_eq_ok.mp h
    obtain ⟨rfl, rfl⟩ := Prod.mk.inj (Except.ok.inj hret)
    exact ⟨true, rfl, skipFirst_turn hw hs hskip⟩
  · obtain ⟨computed, hcomputed, hrest⟩ := bind_eq_ok.mp h
    rw [hcomputed, ok_bind]
    cases computed with
    | none =>
      obtain ⟨st₁, hskip, hret⟩ := bind_eq_ok.mp hrest
      obtain ⟨rfl, rfl⟩ := Prod.mk.inj (Except.ok.inj hret)
      exact ⟨true, rfl, skipFirst_turn hw hs hskip⟩
    | some c => exact ⟨_, rfl, scheduleWaiting_outcome hw hs hrest⟩

lemma waitingStep_outcome {goOn : Bool} (hw : st.sched.waiting = .fcfs (item :: rest))
    (hs : st.skippedWaitingRequests = .fcfs skipped)
    (h : st.waitingStep answers = .ok (goOn, st')) :
    ∃ aside, st.setsAside answers = .ok aside ∧ Outcome st st' rest skipped item aside goOn := by
  obtain ⟨first, hpeek, hrest⟩ := bind_eq_ok.mp h
  obtain ⟨⟨ready, s⟩, hremote, hrest⟩ := bind_eq_ok.mp hrest
  have hs₁ : s.waiting = st.sched.waiting := by
    rcases Scheduler.checkRemoteKvs_spec hremote with rfl | ⟨_, _, _, -, -, -, rfl⟩ <;> rfl
  have hsets : st.setsAside answers = if ready then
      asideWhenConsidered answers { st with sched := (s.checkGrammar answers first.request).2 }
        first.request (s.checkGrammar answers first.request).1
      else asideWhenConsidered answers { st with sched := s } first.request false := by
    rw [setsAside, hpeek, ok_bind, hremote]
    rfl
  cases ready with
  | false =>
    have hconsider : considerWaiting answers { st with sched := s } first.request false =
        .ok (goOn, st') := hrest
    have hskipped : ({ st with sched := s } : ScheduleState).skippedWaitingRequests =
        .fcfs skipped := hs
    obtain ⟨aside, haside, houtcome⟩ := considerWaiting_outcome (hs₁.trans hw) hskipped hconsider
    exact ⟨aside, hsets.trans haside, houtcome.congr hs₁ rfl⟩
  | true =>
    have hs₂ : (s.checkGrammar answers first.request).2.waiting = st.sched.waiting := by
      rw [← hs₁]
      rcases Scheduler.checkGrammar_spec answers s first.request with heq | ⟨-, heq⟩
      · exact congrArg Scheduler.waiting heq
      · exact (congrArg Scheduler.waiting heq).trans rfl
    have hconsider : considerWaiting answers
        { st with sched := (s.checkGrammar answers first.request).2 } first.request
          (s.checkGrammar answers first.request).1 = .ok (goOn, st') := hrest
    have hskipped : ({ st with sched := (s.checkGrammar answers first.request).2 } :
        ScheduleState).skippedWaitingRequests = .fcfs skipped := hs
    obtain ⟨aside, haside, houtcome⟩ := considerWaiting_outcome (hs₂.trans hw) hskipped hconsider
    exact ⟨aside, hsets.trans haside, houtcome.congr hs₂ rfl⟩

lemma waitingLoop_aside {fuel : Nat} {items : List HeapItem} (hw : st.sched.waiting = .fcfs items)
    (hs : st.skippedWaitingRequests = .fcfs skipped)
    (h : st.waitingLoop answers fuel = .ok st') :
    ∃ taken rest aside : List HeapItem, items = taken ++ rest ∧ aside.Sublist taken ∧
      aside.length = st.turnsAside answers fuel ∧ st'.sched.waiting = .fcfs rest ∧
      st'.skippedWaitingRequests = .fcfs (aside.reverse ++ skipped) := by
  induction fuel generalizing st skipped items with
  | zero =>
    obtain rfl := Except.ok.inj h
    exact ⟨[], items, [], rfl, .refl _, rfl, hw, hs⟩
  | succ fuel ih =>
    simp only [waitingLoop] at h
    split_ifs at h with hexit
    · obtain rfl := Except.ok.inj h
      exact ⟨[], items, [], rfl, .refl _, by rw [turnsAside, if_pos hexit]; rfl, hw, hs⟩
    · obtain ⟨⟨goOn, st₁⟩, hstep, hrest⟩ := bind_eq_ok.mp h
      cases items with
      | nil => exact absurd (Or.inl (by rw [hw]; rfl)) hexit
      | cons item items =>
        obtain ⟨aside, haside, houtcome⟩ := waitingStep_outcome hw hs hstep
        have hturns : st.turnsAside answers (fuel + 1) =
            if goOn then (if aside then 1 else 0) + turnsAside answers fuel st₁ else 0 := by
          rw [turnsAside, if_neg hexit, haside, hstep]
          cases goOn <;> rfl
        cases goOn with
        | false =>
          obtain rfl := Except.ok.inj hrest
          have hsame : SameQueues st st₁ := houtcome
          exact ⟨[], item :: items, [], rfl, .refl _, hturns.symm, hsame.waiting.trans hw,
            hsame.skipped.trans hs⟩
        | true =>
          have hturn : Turn st₁ items skipped item aside := houtcome
          obtain ⟨taken, rest, later, rfl, hsub, hlen, hwaiting, hskipped⟩ :=
            ih hturn.waiting hturn.skipped hrest
          cases aside with
          | true =>
            refine ⟨item :: taken, rest, item :: later, rfl, hsub.cons_cons item, ?_, hwaiting, ?_⟩
            · rw [hturns, List.length_cons, hlen, Nat.add_comm]
              rfl
            · rw [hskipped]
              simp
          | false =>
            refine ⟨item :: taken, rest, later, rfl, hsub.cons item, ?_, hwaiting, hskipped⟩
            rw [hturns, hlen]
            simp

/-- Requests that ran go to the front of the waiting queue, and nobody is set aside. -/
structure Preempting (ran : List Ref) (items : List HeapItem) (st : ScheduleState) :
    Prop where
  running : ∀ r ∈ st.sched.running, r ∈ ran
  skipped : st.skippedWaitingRequests = .fcfs []
  waiting : ∃ preempted : List HeapItem, st.sched.waiting = .fcfs (preempted ++ items) ∧
    (∀ p ∈ preempted, p.request ∈ ran) ∧ (st.preemptedReqs = [] → preempted = [])

variable {ran : List Ref} {items : List HeapItem}

lemma Preempting.congr (h : Preempting ran items st)
    (hrunning : st'.sched.running = st.sched.running) (hsame : SameQueues st st')
    (hpreempted : st'.preemptedReqs = st.preemptedReqs) : Preempting ran items st' where
  running := by
    rw [hrunning]
    exact h.running
  skipped := hsame.skipped.trans h.skipped
  waiting := by
    rw [hsame.waiting, hpreempted]
    exact h.waiting

lemma Preempting.preempt {st₁ : ScheduleState} {v : Ref} (h : Preempting ran items st)
    (hv : st.chooseVictim = .ok (v, st₁)) (hp : st₁.preempt v = .ok st') :
    Preempting ran items st' := by
  obtain ⟨left, scheduled, rfl, hperm, -, -⟩ := chooseVictim_spec hv
  obtain ⟨waiting, hprepend, hret⟩ := bind_eq_ok.mp hp
  obtain rfl := Except.ok.inj hret
  obtain ⟨preempted, hw, hfront, -⟩ := h.waiting
  have hmem : ∀ r ∈ v :: left, r ∈ ran := fun r hr => h.running r (hperm.mem_iff.mp hr)
  have hprepend' : RequestQueue.prependRequest (.fcfs (preempted ++ items)) (st.sched.item v)
      = .ok waiting := by
    rw [← hw, ← hprepend]
    simp [Scheduler.item, Scheduler.setComputed, Scheduler.setStatus, Scheduler.modify]
  obtain rfl := Except.ok.inj hprepend'
  refine ⟨fun r hr => hmem r (List.mem_cons_of_mem v hr), h.skipped,
    st.sched.item v :: preempted, rfl, ?_, fun hnil => absurd hnil (by simp)⟩
  intro p hp
  rcases List.mem_cons.mp hp with rfl | hp
  · exact hmem v List.mem_cons_self
  · exact hfront p hp

lemma Preempting.allocateOrPreempt {fuel : Nat} {n : Int}
    {result : Option (List (List BlockId))} (h : Preempting ran items st)
    (hrun : st.allocateOrPreempt r n fuel = .ok (result, st')) :
    Preempting ran items st' := by
  induction fuel generalizing st with
  | zero => cases hrun
  | succ fuel ih =>
    obtain ⟨⟨newBlocks, kv⟩, -, hrest⟩ := bind_eq_ok.mp hrun
    have hkv : Preempting ran items (st.setKv kv) := h.congr rfl ⟨rfl, rfl⟩ rfl
    cases newBlocks with
    | some newBlocks =>
      obtain ⟨-, rfl⟩ := Prod.mk.inj (Except.ok.inj hrest)
      exact hkv
    | none =>
      obtain ⟨⟨v, st₁⟩, hv, hrest⟩ := bind_eq_ok.mp hrest
      obtain ⟨st₂, hp, hrest⟩ := bind_eq_ok.mp hrest
      have hst₂ := hkv.preempt hv hp
      split_ifs at hrest
      · obtain ⟨-, rfl⟩ := Prod.mk.inj (Except.ok.inj hrest)
        exact hst₂
      · exact ih hst₂ hrest

lemma Preempting.runningStep {goOn : Bool} (h : Preempting ran items st)
    (hrun : st.runningStep r = .ok (goOn, st')) : Preempting ran items st' := by
  obtain ⟨e, -, hrest⟩ := bind_eq_ok.mp hrun
  have hencoder : Preempting ran items (st.setEncoder e.manager) :=
    h.congr rfl ⟨rfl, rfl⟩ rfl
  simp only at hrest
  split_ifs at hrest
  · obtain ⟨-, rfl⟩ := Prod.mk.inj (Except.ok.inj hrest)
    exact hencoder.congr rfl ⟨rfl, rfl⟩ rfl
  · obtain ⟨⟨result, st₁⟩, halloc, hrest⟩ := bind_eq_ok.mp hrest
    have hst₁ := hencoder.allocateOrPreempt halloc
    cases result with
    | none =>
      obtain ⟨-, rfl⟩ := Prod.mk.inj (Except.ok.inj hrest)
      exact hst₁
    | some newBlocks =>
      obtain ⟨st₂, hrecord, hret⟩ := bind_eq_ok.mp hrest
      obtain ⟨-, rfl⟩ := Prod.mk.inj (Except.ok.inj hret)
      have hrecorded : Preempting ran items (st₁.recordRunning r newBlocks e.numNewTokens) := by
        obtain ⟨lists, drafts, -, heq⟩ := st₁.recordRunning_spec r newBlocks e.numNewTokens
        rw [heq]
        exact hst₁.congr rfl ⟨rfl, rfl⟩ rfl
      obtain ⟨m, encoderInputs, computeBudget, rfl⟩ := recordEncoderInputs_spec hrecord
      exact hrecorded.congr rfl ⟨rfl, rfl⟩ rfl

lemma Preempting.runningLoop {fuel : Nat} (h : Preempting ran items st)
    (hrun : st.runningLoop fuel = .ok st') : Preempting ran items st' := by
  induction fuel generalizing st with
  | zero =>
    obtain rfl := Except.ok.inj hrun
    exact h
  | succ fuel ih =>
    simp only [ScheduleState.runningLoop] at hrun
    split at hrun
    · obtain rfl := Except.ok.inj hrun
      exact h
    · split_ifs at hrun
      · obtain ⟨⟨goOn, st₁⟩, hstep, hrest⟩ := bind_eq_ok.mp hrun
        have hst₁ := h.runningStep hstep
        cases goOn with
        | true => exact ih hst₁ hrest
        | false =>
          obtain rfl := Except.ok.inj hrest
          exact hst₁
      · obtain rfl := Except.ok.inj hrun
        exact h

lemma Preempting.recordLoras (h : Preempting ran items st)
    (hrun : st.recordLoras = .ok st') : Preempting ran items st' := by
  unfold ScheduleState.recordLoras at hrun
  split at hrun
  · obtain rfl := Except.ok.inj hrun
    exact h
  · obtain ⟨_, -, hret⟩ := bind_eq_ok.mp hrun
    obtain rfl := Except.ok.inj hret
    exact h.congr rfl ⟨rfl, rfl⟩ rfl

lemma restoreSkipped_fcfs (hw : st.sched.waiting = .fcfs rest)
    (hs : st.skippedWaitingRequests = .fcfs skipped) (h : st.restoreSkipped = .ok st') :
    st'.sched.waiting = .fcfs (skipped ++ rest) := by
  unfold restoreSkipped at h
  rw [hs, hw] at h
  split_ifs at h with hempty
  · obtain rfl := Except.ok.inj h
    obtain rfl : skipped = [] := List.isEmpty_iff.mp hempty
    exact hw
  · obtain rfl := Except.ok.inj h
    rfl

end ScheduleState

/-- Giving a list back in the opposite order keeps the order only when it has one element. -/
lemma reverse_append_sublist_iff {α : Type} {aside taken rest : List α}
    (hnodup : (taken ++ rest).Nodup) (hsub : aside.Sublist taken) :
    (aside.reverse ++ rest).Sublist (taken ++ rest) ↔ aside.length ≤ 1 := by
  constructor
  · intro h
    have haside : aside.Sublist (taken ++ rest) := hsub.trans (List.sublist_append_left _ _)
    have hrev : aside.reverse.Sublist (taken ++ rest) := (List.sublist_append_left _ _).trans h
    have heq : aside.reverse = aside :=
      (hnodup.perm_iff_eq_of_sublist hrev haside).mp (List.reverse_perm aside)
    have hdistinct : aside.Nodup := hnodup.sublist haside
    match aside, heq, hdistinct with
    | [], _, _ => simp
    | [a], _, _ => simp
    | a :: b :: more, heq, hdistinct =>
      -- the first element would also be the last one
      have hlast : (b :: more).getLast? = some a := by
        have hhead := congrArg List.head? heq
        rwa [List.head?_reverse, List.getLast?_cons_cons] at hhead
      exact absurd (List.mem_of_getLast? hlast) (List.nodup_cons.mp hdistinct).1
  · intro hlen
    refine List.Sublist.append_right ?_ rest
    match aside, hlen with
    | [], _ => exact List.nil_sublist taken
    | [a], _ => exact hsub

namespace Scheduler

/-- How many waiting requests a call of `schedule` sets aside. -/
def turnsAside (s : Scheduler) (answers : ScheduleAnswers) : Nat :=
  match (ScheduleState.start s).runningLoop s.running.length >>= ScheduleState.recordLoras with
  | .ok st =>
    if st.preemptedReqs = [] then st.turnsAside answers st.sched.waiting.items.length else 0
  | .error _ => 0

/-- The requests that were waiting and still are, are in the order they were in. -/
def KeepsOrder (s s' : Scheduler) : Prop :=
  (s'.waiting.refs.filter (· ∈ s.waiting.refs)).Sublist s.waiting.refs

instance (s s' : Scheduler) : Decidable (KeepsOrder s s') :=
  inferInstanceAs (Decidable (List.Sublist _ _))

variable {s s' : Scheduler} {answers : ScheduleAnswers} {out : SchedulerOutput}

/-- The waiting queue after a call: the preempted requests come first, or those set aside. -/
lemma schedule_waiting {items : List HeapItem} (hpolicy : s.config.policy = .fcfs)
    (hqueue : s.waiting = .fcfs items) (h : s.schedule answers = .ok (out, s')) :
    (s.turnsAside answers = 0 ∧ ∃ preempted : List HeapItem,
      s'.waiting = .fcfs (preempted ++ items) ∧ ∀ p ∈ preempted, p.request ∈ s.running) ∨
    ∃ taken rest aside : List HeapItem, items = taken ++ rest ∧ aside.Sublist taken ∧
      aside.length = s.turnsAside answers ∧ s'.waiting = .fcfs (aside.reverse ++ rest) := by
  obtain ⟨st₁, hrun, hrest⟩ := bind_eq_ok.mp h
  obtain ⟨st₂, hloras, hrest⟩ := bind_eq_ok.mp hrest
  obtain ⟨st₃, hwait, hrest⟩ := bind_eq_ok.mp hrest
  obtain ⟨st₄, hrestore, hrest⟩ := bind_eq_ok.mp hrest
  obtain ⟨_, -, hrest⟩ := bind_eq_ok.mp hrest
  obtain ⟨⟨out', s₁⟩, hout, hrest⟩ := bind_eq_ok.mp hrest
  obtain ⟨s₂, hupdate, hret⟩ := bind_eq_ok.mp hrest
  obtain ⟨rfl, rfl⟩ := Prod.mk.inj (Except.ok.inj hret)
  have hkeeps := (ScheduleState.makeOutput_keeps hout).trans (updateAfterSchedule_keeps hupdate)
  have hstart : ScheduleState.Preempting s.running items (ScheduleState.start s) :=
    ⟨fun _ hr => hr, by simp [ScheduleState.start, hpolicy, RequestQueue.create],
      [], hqueue, by simp, fun _ => rfl⟩
  have hst₂ := (hstart.runningLoop hrun).recordLoras hloras
  obtain ⟨preempted, hw, hran, hnone⟩ := hst₂.waiting
  have hturns : s.turnsAside answers = if st₂.preemptedReqs = [] then
      st₂.turnsAside answers st₂.sched.waiting.items.length else 0 := by
    rw [turnsAside, hrun, ok_bind, hloras]
  rw [hkeeps.waiting]
  unfold ScheduleState.scheduleWaitingReqs at hwait
  split_ifs at hwait with hcalm
  · rw [if_pos hcalm] at hturns
    rw [hnone hcalm, List.nil_append] at hw
    obtain ⟨taken, rest, aside, rfl, hsub, hlen, hwaiting, hskipped⟩ :=
      ScheduleState.waitingLoop_aside hw hst₂.skipped hwait
    rw [List.append_nil] at hskipped
    exact .inr ⟨taken, rest, aside, rfl, hsub, hlen.trans hturns.symm,
      ScheduleState.restoreSkipped_fcfs hwaiting hskipped hrestore⟩
  · rw [if_neg hcalm] at hturns
    obtain rfl := Except.ok.inj hwait
    have hwaiting := ScheduleState.restoreSkipped_fcfs hw hst₂.skipped hrestore
    exact .inl ⟨hturns, preempted, hwaiting, hran⟩

/-- The order is kept exactly when the call sets aside at most one waiting request. -/
theorem keepsOrder_iff {items : List HeapItem} (hpolicy : s.config.policy = .fcfs)
    (hqueue : s.waiting = .fcfs items) (hdistinct : (s.running ++ s.waiting.refs).Nodup)
    (h : s.schedule answers = .ok (out, s')) :
    KeepsOrder s s' ↔ s.turnsAside answers ≤ 1 := by
  have hrefs : s.waiting.refs = items.map HeapItem.request := by rw [hqueue]; rfl
  have hrefs' : ∀ l, s'.waiting = .fcfs l → s'.waiting.refs = l.map HeapItem.request := by
    intro l hl
    rw [hl]
    rfl
  rw [hrefs] at hdistinct
  unfold KeepsOrder
  rcases schedule_waiting hpolicy hqueue h with
    ⟨hzero, preempted, hwaiting, hran⟩ | ⟨taken, rest, aside, hitems, hsub, hlen, hwaiting⟩
  · -- somebody was preempted, and no waiting request was looked at
    have hfront : (preempted.map HeapItem.request).filter
        (· ∈ items.map HeapItem.request) = [] := by
      rw [List.filter_eq_nil_iff]
      intro r hr hmem
      obtain ⟨p, hp, rfl⟩ := List.mem_map.mp hr
      exact (List.nodup_append.mp hdistinct).2.2 _ (hran p hp) _ (of_decide_eq_true hmem) rfl
    have hback : (items.map HeapItem.request).filter (· ∈ items.map HeapItem.request) =
        items.map HeapItem.request := List.filter_eq_self.mpr (by simp)
    rw [hrefs' _ hwaiting, hrefs, List.map_append, List.filter_append, hfront, hback, hzero]
    simp
  · have hnodup := (List.nodup_append.mp hdistinct).2.1
    have hstays : ((aside.reverse ++ rest).map HeapItem.request).filter
        (· ∈ items.map HeapItem.request) = (aside.reverse ++ rest).map HeapItem.request := by
      rw [List.filter_eq_self]
      intro r hr
      obtain ⟨p, hp, rfl⟩ := List.mem_map.mp hr
      refine decide_eq_true (List.mem_map_of_mem ?_)
      rw [hitems]
      rcases List.mem_append.mp hp with hp | hp
      · exact List.mem_append_left _ (hsub.subset (List.mem_reverse.mp hp))
      · exact List.mem_append_right _ hp
    rw [hrefs' _ hwaiting, hrefs, hstays, ← hlen]
    rw [hitems, List.map_append] at hnodup ⊢
    rw [List.map_append, List.map_reverse, reverse_append_sublist_iff hnodup (hsub.map _),
      List.length_map]

/-- One request at a time runs. -/
def oneRunning : SchedulerConfig where
  kv :=
    { numBlocks := 6
      kvCacheGroups := [⟨2, .full, Nat.two_pos⟩]
      maxModelLen := 16
      enableCaching := false }
  blockSize := 2
  maxNumRunningReqs := 1
  maxNumScheduledTokens := 8

def samples (structured : Bool) : Option SamplingParams :=
  some { maxTokens := some 4, structuredOutputs := structured }

/-- Three waiting requests; the first two may need a grammar. -/
def threeWaiting (structured structured' : Bool) : Except PyError Scheduler := do
  let s ← Scheduler.init oneRunning
  let s ← s.addRequest
    { requestId := "a", prompt := .tokenIds [1, 2, 3], samplingParams := samples structured }
  let s ← s.addRequest
    { requestId := "b", prompt := .tokenIds [4, 5, 6], samplingParams := samples structured' }
  s.addRequest { requestId := "c", prompt := .tokenIds [7, 8], samplingParams := samples false }

/-- No grammar is ready yet. -/
def compiling : ScheduleAnswers where grammarReady _ := false

/-- One request is set aside; it and the one behind the scheduled one stay in order. -/
theorem keepsOrder_iff_one_aside : ∃ s out s', s.schedule compiling = .ok (out, s') ∧
    s'.waiting.refs = [0, 2] ∧ s.turnsAside compiling = 1 ∧
    (KeepsOrder s s' ↔ s.turnsAside compiling ≤ 1) := by
  have hview : (threeWaiting true false).toOption.bind (fun s =>
      (s.schedule compiling).toOption.map fun p => (p.2.waiting.refs, s.turnsAside compiling,
        decide (s.config.policy = .fcfs), s.waiting, decide (s.running ++ s.waiting.refs).Nodup)) =
      some ([0, 2], 1, true, .fcfs [⟨0, 0, 0⟩, ⟨0, 0, 1⟩, ⟨0, 0, 2⟩], true) := by decide +kernel
  obtain ⟨s, -, hrest⟩ := Option.bind_eq_some_iff.mp hview
  obtain ⟨⟨out, s'⟩, hok, heq⟩ := Option.map_eq_some_iff.mp hrest
  simp only [Prod.mk.injEq, decide_eq_true_eq] at heq
  obtain ⟨hrefs, hturns, hpolicy, hqueue, hdistinct⟩ := heq
  have hschedule := eq_ok_of_toOption hok
  exact ⟨s, out, s', hschedule, hrefs, hturns,
    keepsOrder_iff hpolicy hqueue hdistinct hschedule⟩

/-- Two requests whose grammars are not ready come back in the opposite order. -/
theorem not_keepsOrder_two_aside : ¬ ∀ s answers out s', s.config.policy = .fcfs →
    (s.running ++ s.waiting.refs).Nodup → s.schedule answers = .ok (out, s') →
      KeepsOrder s s' := by
  intro hclaim
  have hview : (threeWaiting true true).toOption.bind (fun s =>
      (s.schedule compiling).toOption.map fun p => (decide (KeepsOrder s p.2),
        decide (s.config.policy = .fcfs), decide (s.running ++ s.waiting.refs).Nodup)) =
      some (false, true, true) := by decide +kernel
  obtain ⟨s, -, hrest⟩ := Option.bind_eq_some_iff.mp hview
  obtain ⟨⟨out, s'⟩, hok, heq⟩ := Option.map_eq_some_iff.mp hrest
  simp only [Prod.mk.injEq, decide_eq_true_eq, decide_eq_false_iff_not] at heq
  obtain ⟨hout, hpolicy, hdistinct⟩ := heq
  exact hout (hclaim s compiling out s' hpolicy hdistinct (eq_ok_of_toOption hok))

end Scheduler

end VllmV1
