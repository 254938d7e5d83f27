import VllmMmaEmu.Sched.TokenBudget

/-!
# The limits of a call

What the two loops keep is what `schedule` asserts at its end, and what the output says.
-/

namespace VllmV1

open Python

namespace Scheduler

/-- What a call returns is within the limits. The tokens of a request that ran before are
counted from where it was, those of an admitted one from where the output says. -/
structure WithinBudget (s s' : Scheduler) (out : SchedulerOutput) : Prop where
  positive : ∀ n ∈ out.numScheduledTokens.values, 1 ≤ n
  total : out.numScheduledTokens.values.sum ≤ s.config.maxNumScheduledTokens
  running : s'.running.length ≤ s.config.maxNumRunningReqs
  fits : ∀ r ∈ s.running, ∀ n ∈ out.numScheduledTokens.get? (s.objs r).requestId,
    (s.objs r).numComputedTokens + n ≤ s.maxModelLen
  fitsNew : ∀ d ∈ out.scheduledNewReqs, ∀ n ∈ out.numScheduledTokens.get? d.reqId,
    d.numComputedTokens + n ≤ s.maxModelLen
  fitsCached : ∀ d ∈ out.scheduledCachedReqs, ∀ n ∈ out.numScheduledTokens.get? d.reqId,
    d.numComputedTokens + n ≤ s.maxModelLen

end Scheduler

namespace ScheduleState

open Scheduler

variable {answers : ScheduleAnswers} {s : Scheduler} {st st' : ScheduleState} {r : Ref}

/-- What holds when the loops are over. -/
structure CallEnd (s : Scheduler) (st : ScheduleState) : Prop extends Budgeted st where
  contents : SameContents s st.sched
  ran : ∀ r ∈ st.scheduledRunningReqs, r ∈ s.running ∧ st.sched.objs r = s.objs r
  fits : ∀ r ∈ s.running, ∀ n ∈ st.numScheduledTokens.get? (s.objs r).requestId,
    (s.objs r).numComputedTokens + n ≤ s.maxModelLen
  fitsAdmitted : ∀ r ∈ st.scheduledNewReqs ++ st.scheduledResumedReqs,
    ∀ n ∈ st.numScheduledTokens.get? (st.sched.objs r).requestId,
      (st.sched.objs r).numComputedTokens + n ≤ s.maxModelLen
  room : st.sched.running.length ≤ st.config.maxNumRunningReqs
  counted : st.scheduledNewReqs.length + st.scheduledResumedReqs.length +
    st.scheduledRunningReqs.length ≤ st.sched.running.length

lemma WaitingPhase.callEnd (h : WaitingPhase s st) : CallEnd s st :=
  ⟨h.toBudgeted, h.contents, fun r hr => (h.ran r hr).2, h.fits, h.fitsAdmitted, h.room, h.counted⟩

lemma RunningPhase.callEnd (h : RunningPhase s st) (horder : InOrder st)
    (hroom : s.running.length ≤ s.config.maxNumRunningReqs) : CallEnd s st := by
  obtain ⟨before, rest, hsplit, -, hsub⟩ := horder.before
  have hshorter : st.sched.running.length ≤ s.running.length :=
    (List.subperm_of_subset h.nodup fun r hr => (h.running r hr).1).length_le
  have hnew : st.scheduledNewReqs ++ st.scheduledResumedReqs = [] := by
    rw [h.new, h.resumed, List.append_nil]
  refine ⟨h.toBudgeted, h.contents, fun r hr => h.running r ?_, h.fits, ?_, ?_, ?_⟩
  · exact hsplit ▸ List.mem_append_left _ (hsub.subset hr)
  · rw [hnew]
    exact fun r hr => absurd hr List.not_mem_nil
  · rw [ScheduleState.config, h.contents.config]
    exact hshorter.trans hroom
  · rw [h.new, h.resumed, hsplit, List.length_append]
    simp only [List.length_nil, Nat.zero_add]
    exact hsub.length_le.trans (Nat.le_add_right _ _)

lemma CallEnd.setWaiting (h : CallEnd s st) (waiting : RequestQueue) :
    CallEnd s (st.setWaiting waiting) :=
  ⟨⟨h.positive, h.total, h.budget⟩,
    ⟨h.contents.content, h.contents.specRef, h.contents.nextList, h.contents.nextRef,
      h.contents.config⟩, h.ran, h.fits, h.fitsAdmitted, h.room, h.counted⟩

lemma CallEnd.constraints (h : CallEnd s st) : st.checkConstraints = .ok () := by
  have htotal := h.total
  have hbudget := h.budget
  have hcounts : st.numScheduledTokens.values.sum ≤ st.config.maxNumScheduledTokens := by omega
  unfold checkConstraints
  rw [(pyAssert_eq_ok (u := ())).mpr hcounts, ok_bind, (pyAssert_eq_ok (u := ())).mpr hbudget,
    ok_bind, (pyAssert_eq_ok (u := ())).mpr h.room, ok_bind, pyAssert_eq_ok.mpr h.counted]

lemma makeOutput_told {out : SchedulerOutput} {s₁ : Scheduler}
    (h : st.makeOutput = .ok (out, s₁)) :
    (∀ d ∈ out.scheduledNewReqs, ∃ r ∈ st.scheduledNewReqs,
      d.reqId = (st.sched.objs r).requestId ∧
        d.numComputedTokens = (st.sched.objs r).numComputedTokens) ∧
    ∀ d ∈ out.scheduledCachedReqs, ∃ r ∈ st.scheduledRunningReqs ++ st.scheduledResumedReqs,
      d.reqId = (st.sched.objs r).requestId ∧
        d.numComputedTokens = (st.sched.objs r).numComputedTokens := by
  obtain ⟨newReqs, hnew, hrest⟩ := bind_eq_ok.mp h
  obtain ⟨runningReqs, hran, hrest⟩ := bind_eq_ok.mp hrest
  obtain ⟨resumedReqs, hresumed, hrest⟩ := bind_eq_ok.mp hrest
  obtain ⟨rfl, -⟩ := Prod.mk.inj (Except.ok.inj hrest)
  have hcached : ∀ {resumed r d}, st.cachedRequestData resumed r = .ok d →
      d.reqId = (st.sched.objs r).requestId ∧
        d.numComputedTokens = (st.sched.objs r).numComputedTokens := by
    intro resumed r d hd
    obtain ⟨numScheduled, -, hrest⟩ := bind_eq_ok.mp hd
    obtain ⟨blocks, -, hret⟩ := bind_eq_ok.mp hrest
    obtain rfl := Except.ok.inj hret
    exact ⟨rfl, rfl⟩
  refine ⟨fun d hd => ?_, fun d hd => ?_⟩
  · obtain ⟨r, hr, hdata⟩ := forall₂_exists_left (forall₂_of_mapM hnew) hd
    obtain ⟨blockIds, -, hret⟩ := bind_eq_ok.mp hdata
    obtain rfl := Except.ok.inj hret
    exact ⟨r, hr, rfl, rfl⟩
  · rcases List.mem_append.mp hd with hd | hd
    · obtain ⟨r, hr, hdata⟩ := forall₂_exists_left (forall₂_of_mapM hran) hd
      exact ⟨r, List.mem_append_left _ hr, hcached hdata⟩
    · obtain ⟨r, hr, hdata⟩ := forall₂_exists_left (forall₂_of_mapM hresumed) hd
      exact ⟨r, List.mem_append_right _ hr, hcached hdata⟩

lemma CallEnd.withinBudget {out : SchedulerOutput} {s₁ s' : Scheduler} (h : CallEnd s st)
    (hout : st.makeOutput = .ok (out, s₁)) (hrunning : s'.running = st.sched.running) :
    WithinBudget s s' out := by
  have hcounts := makeOutput_keys hout
  obtain ⟨hnew, hcached⟩ := makeOutput_told hout
  have htotal := h.total
  have hbudget := h.budget
  have hroom := h.room
  rw [ScheduleState.config, h.contents.config] at htotal hroom
  refine ⟨?_, ?_, ?_, ?_, fun d hd n hn => ?_, fun d hd n hn => ?_⟩
  · rw [hcounts]
    exact h.positive
  · rw [hcounts]
    omega
  · rw [hrunning]
    exact hroom
  · rw [hcounts]
    exact h.fits
  · obtain ⟨r, hr, hid, hcomputed⟩ := hnew d hd
    rw [hcounts, hid] at hn
    rw [hcomputed]
    exact h.fitsAdmitted r (List.mem_append_left _ hr) n hn
  · obtain ⟨r, hr, hid, hcomputed⟩ := hcached d hd
    rw [hcounts, hid] at hn
    rw [hcomputed]
    rcases List.mem_append.mp hr with hr | hr
    · obtain ⟨hin, hobj⟩ := h.ran r hr
      rw [hobj] at hn ⊢
      exact h.fits r hin n hn
    · exact h.fitsAdmitted r (List.mem_append_right _ hr) n hn

lemma encoderInputs_asserts {numComputedTokens numNewTokens : Int} (hrange : s.InRange)
    (hcontents : SameContents s st.sched) (hr : r ∈ s.running ++ s.waiting.refs) :
    st.encoderInputs r numComputedTokens numNewTokens ≠ .error .assertionError := by
  refine tryScheduleEncoderInputs_asserts fun hdecoder feature hfeature => ?_
  rw [ScheduleState.config, hcontents.config] at hdecoder
  exact hrange.encoders hdecoder r hr feature (hcontents.mmFeatures r ▸ hfeature)

/-- The loop over the waiting requests looks at `r` and its computed tokens `c`; `st'` is `st`
after the checks of the status. -/
structure Considers (answers : ScheduleAnswers) (st st' : ScheduleState) (r : Ref)
    (c : ComputedTokens) : Prop where
  first : st.IsFirst r
  checked : ∃ s, st.sched.checkRemoteKvs r = .ok (true, s) ∧
    s.checkGrammar answers r = (true, st'.sched) ∧ st' = { st with sched := st'.sched }
  adapters : st'.exceedsLoras r = false
  computed : st'.findComputed answers r = .ok (some c)

/-- `assert num_external_computed_tokens > 0`, `assert num_new_tokens > 0` or the assertion on
the encoder inputs of a waiting request fails. -/
def TokensFail (st : ScheduleState) (r : Ref) (c : ComputedTokens) : Prop :=
  if c.loadKvAsync then ¬ c.numExternalComputedTokens > 0
  else
    let n := st.capLongPrefill ((st.sched.objs r).numTokens - c.numComputedTokens)
    ¬ (st.config.chunkedPrefillEnabled = false ∧ n > st.tokenBudget) ∧
      (¬ min n st.tokenBudget > 0 ∨
        st.encoderInputs r c.numComputedTokens (min n st.tokenBudget) = .error .assertionError)

/-- The call gets as far as the loop over the waiting requests, in the state `st`. -/
structure GetsToWaiting (s : Scheduler) (st : ScheduleState) : Prop where
  ran : ∃ st₁, (start s).runningLoop s.running.length = .ok st₁ ∧ st₁.recordLoras = .ok st
  none : st.preemptedReqs = []

/-- One of the assertions of `schedule` fails. -/
inductive AssertionFails (answers : ScheduleAnswers) (s : Scheduler) : Prop where
  | encoder (st : ScheduleState) (r : Ref) (hturns : RunningTurns (start s) st)
      (hindex : st.sched.running[st.reqIndex]? = some r) (hbudget : 0 < st.tokenBudget)
      (hfail : st.encoderInputs r (st.sched.objs r).numComputedTokens (st.runningTokens r) =
        .error .assertionError)
  | loras (st : ScheduleState) (hrun : (start s).runningLoop s.running.length = .ok st)
      (hfail : st.recordLoras = .error .assertionError)
  | tokens (st st₁ st₂ : ScheduleState) (r : Ref) (c : ComputedTokens) (hst : GetsToWaiting s st)
      (hturns : Turns answers st st₁) (hgo : st₁.GoesOn) (hr : Considers answers st₁ st₂ r c)
      (hfail : st₂.TokensFail r c)
  | constraints (st st₁ st₂ st₃ : ScheduleState)
      (hrun : (start s).runningLoop s.running.length = .ok st) (hloras : st.recordLoras = .ok st₁)
      (hwaiting : st₁.scheduleWaitingReqs answers = .ok st₂)
      (hrestore : st₂.restoreSkipped = .ok st₃)
      (hfail : st₃.checkConstraints = .error .assertionError)

lemma recordLoras_spec (h : st.recordLoras = .ok st') :
    ∃ loras, st' = { st with scheduledLoras := loras } := by
  unfold recordLoras at h
  split at h
  · obtain rfl := Except.ok.inj h
    exact ⟨_, rfl⟩
  · obtain ⟨_, -, hret⟩ := bind_eq_ok.mp h
    obtain rfl := Except.ok.inj hret
    exact ⟨_, rfl⟩

/-- The scheduled requests have no more adapters than the running ones. -/
lemma RunningPhase.recordLoras (h : RunningPhase s st) (horder : InOrder st)
    (hrange : s.InRange) : st.recordLoras ≠ .error .assertionError := by
  intro hfail
  unfold ScheduleState.recordLoras at hfail
  split at hfail
  · cases hfail
  · rename_i maxLoras hmax
    obtain ⟨before, rest, hsplit, -, hsub⟩ := horder.before
    have hadapters : ((st.scheduledRunningReqs.filterMap fun r =>
        (st.sched.objs r).loraRequest).filter (· > 0)).dedup ⊆ s.runningLoras := by
      intro lora hlora
      rw [List.mem_dedup, List.mem_filter, List.mem_filterMap] at hlora
      obtain ⟨⟨r, hr, hadapter⟩, hpos⟩ := hlora
      have hin : r ∈ st.sched.running := hsplit ▸ List.mem_append_left _ (hsub.subset hr)
      obtain ⟨hwas, hobj⟩ := h.running r hin
      rw [runningLoras, List.mem_dedup, List.mem_filter, List.mem_filterMap]
      exact ⟨⟨r, hwas, hobj ▸ hadapter⟩, hpos⟩
    have hlen := (List.subperm_of_subset (List.nodup_dedup _) hadapters).length_le
    rw [ScheduleState.config, h.contents.config] at hmax
    dsimp only at hfail
    rw [(pyAssert_eq_ok (u := ())).mpr (hlen.trans (hrange.loras maxLoras hmax))] at hfail
    cases hfail

lemma TokensFail.false {c : ComputedTokens} (hgo : 0 < st.tokenBudget)
    (hexternal : c.loadKvAsync = true → 0 < c.numExternalComputedTokens)
    (hleft : c.loadKvAsync = false → c.numComputedTokens < (st.sched.objs r).numTokens)
    (hencoder : ∀ c n, st.encoderInputs r c n ≠ .error .assertionError) :
    ¬ st.TokensFail r c := by
  unfold TokensFail
  cases hasync : c.loadKvAsync with
  | true => simpa using hexternal hasync
  | false =>
    have hpos : 0 < st.capLongPrefill ((st.sched.objs r).numTokens - c.numComputedTokens) :=
      capLongPrefill_pos (by have hlt := hleft hasync; omega)
    simp only [Bool.false_eq_true, if_false]
    rintro ⟨-, hfail | hfail⟩
    · exact hfail (lt_min hpos hgo)
    · exact hencoder _ _ hfail

end ScheduleState

namespace Scheduler

open ScheduleState

variable {answers : ScheduleAnswers} {s s' : Scheduler} {slack : Int}

/-- What is known of a scheduler between two calls. -/
structure BetweenCalls (slack : Int) (s : Scheduler) : Prop where
  registry : Registry s s.running s.waiting.refs
  sized : s.Sized slack
  room : s.running.length ≤ s.config.maxNumRunningReqs

lemma BetweenCalls.runningLoop {st : ScheduleState} (h : s.BetweenCalls slack) (hrange : s.InRange)
    (hbudget : 0 ≤ s.config.maxNumScheduledTokens)
    (hrun : (start s).runningLoop s.running.length = .ok st) :
    RunningPhase s st ∧ InOrder st ∧ Registry st.sched st.sched.running st.waitingRefs := by
  have hnodup := (List.nodup_append'.mp h.registry.nodup).1
  obtain ⟨hmoves, horder⟩ := runningLoop_running (start_inOrder hnodup) hrun
  refine ⟨hmoves.phase hrange h.sized h.registry (start_phase h.registry hbudget), horder, ?_⟩
  exact (RunningMoves.moves hmoves {}).registry (start_registry h.registry)

lemma BetweenCalls.toWaiting {st : ScheduleState} (h : s.BetweenCalls slack) (hrange : s.InRange)
    (hbudget : 0 ≤ s.config.maxNumScheduledTokens) (hst : GetsToWaiting s st) :
    WaitingPhase s st := by
  obtain ⟨st₁, hrun, hloras⟩ := hst.ran
  obtain ⟨hphase, horder, hreg⟩ := h.runningLoop hrange hbudget hrun
  obtain ⟨loras, rfl⟩ := recordLoras_spec hloras
  have hphase' : RunningPhase s { st₁ with scheduledLoras := loras } :=
    hphase.congr ⟨rfl, rfl, rfl, rfl, rfl, rfl, rfl, rfl, rfl, rfl⟩ (.refl _)
  exact hphase'.waitingPhase (horder.congr rfl rfl (le_refl _)) hst.none hrange hreg h.room

lemma BetweenCalls.callEnd {st st₁ st₂ : ScheduleState} (h : s.BetweenCalls slack)
    (hslack : 0 ≤ slack) (hrange : s.InRange) (hbudget : 0 ≤ s.config.maxNumScheduledTokens)
    (hrun : (start s).runningLoop s.running.length = .ok st) (hloras : st.recordLoras = .ok st₁)
    (hwaiting : st₁.scheduleWaitingReqs answers = .ok st₂) : CallEnd s st₂ := by
  rcases scheduleWaitingReqs_waiting hwaiting with rfl | ⟨hnone, hmoves⟩
  · obtain ⟨hphase, horder, -⟩ := h.runningLoop hrange hbudget hrun
    obtain ⟨loras, rfl⟩ := recordLoras_spec hloras
    have hphase' : RunningPhase s { st with scheduledLoras := loras } :=
      hphase.congr ⟨rfl, rfl, rfl, rfl, rfl, rfl, rfl, rfl, rfl, rfl⟩ (.refl _)
    exact hphase'.callEnd (horder.congr rfl rfl (le_refl _)) h.room
  · have hphase := h.toWaiting hrange hbudget ⟨⟨st, hrun, hloras⟩, hnone⟩
    exact (hmoves.phase h.sized hslack h.registry hphase).callEnd

/-- In a scheduler that is in range no assertion of a call fails. -/
theorem BetweenCalls.assertions (h : s.BetweenCalls slack) (hslack : 0 ≤ slack)
    (hrange : s.InRange) (hloads : s.LoadsPart answers)
    (hbudget : 0 ≤ s.config.maxNumScheduledTokens) : ¬ AssertionFails answers s := by
  intro hfails
  cases hfails with
  | encoder st r hturns hindex hbudget' hfail =>
    have hnodup := (List.nodup_append'.mp h.registry.nodup).1
    obtain ⟨hmoves, -⟩ := hturns.running (start_inOrder hnodup)
    have hphase := hmoves.phase hrange h.sized h.registry (start_phase h.registry hbudget)
    have hin := (hphase.running r (List.mem_of_getElem? hindex)).1
    exact encoderInputs_asserts hrange hphase.contents (List.mem_append_left _ hin) hfail
  | loras st hrun hfail =>
    obtain ⟨hphase, horder, -⟩ := h.runningLoop hrange hbudget hrun
    exact hphase.recordLoras horder hrange hfail
  | tokens st st₁ st₂ r c hst hturns hgo hr hfail =>
    have hphase := hturns.waiting.phase h.sized hslack h.registry (h.toWaiting hrange hbudget hst)
    obtain ⟨s₁, hcheck, hready, hst₂⟩ := hr.checked
    have hsched : (s₁.checkGrammar answers r).2 = st₂.sched := by rw [hready]
    have hremote : WaitingMove answers st₁ { st₁ with sched := s₁ } :=
      .remoteKvs st₁ r true s₁ hr.first hcheck
    have hfirst := (checkRemoteKvs_checked hcheck).isFirst hr.first
    have hgrammar : WaitingMove answers { st₁ with sched := s₁ } st₂ := by
      rw [hst₂, ← hsched]
      exact .grammar _ r hfirst
    have hphase₂ := hgrammar.phase h.sized hslack h.registry
      (hremote.phase h.sized hslack h.registry hphase)
    have hfirst₂ : st₂.IsFirst r := by
      rw [hst₂, ← hsched]
      exact (checkGrammar_checked answers { st₁ with sched := s₁ } r).isFirst hfirst
    obtain ⟨hold, hbehind⟩ := hphase₂.behind r hfirst₂.mem
    have hmem : r ∈ s.running ++ s.waiting.refs := List.mem_append_right _ hold
    have hnum := hphase₂.contents.numTokens
    have hpos : 1 ≤ (s.objs r).numTokens :=
      (h.sized.tokens r (h.registry.lt_nextRef hmem) (h.registry.unfinished hmem)).1
    have hloads₂ : LoadsPart answers st₂.sched := by
      refine ⟨fun hconnector => ?_, fun hconnector r' n k hanswer => ?_⟩
      · rw [hphase₂.contents.config] at hconnector
        exact hloads.async hconnector
      · rw [hphase₂.contents.config] at hconnector
        rw [hnum]
        exact hloads.sync hconnector r' n k hanswer
    obtain ⟨hexternal, hleft⟩ := findComputed_lt hloads₂ (by rwa [hnum]) hbehind hr.computed
    refine TokensFail.false ?_ hexternal hleft
      (fun _ _ => encoderInputs_asserts hrange hphase₂.contents hmem) hfail
    rw [hst₂]
    exact hgo.budget
  | constraints st st₁ st₂ st₃ hrun hloras hwaiting hrestore hfail =>
    obtain ⟨waiting, rfl, -⟩ := restoreSkipped_spec hrestore
    have hend := (h.callEnd hslack hrange hbudget hrun hloras hwaiting).setWaiting waiting
    rw [hend.constraints] at hfail
    cases hfail

/-- In a scheduler that is in range a call stays within the limits. -/
theorem BetweenCalls.withinBudget {out : SchedulerOutput} (h : s.BetweenCalls slack)
    (hslack : 0 ≤ slack) (hrange : s.InRange) (hbudget : 0 ≤ s.config.maxNumScheduledTokens)
    (hschedule : s.schedule answers = .ok (out, s')) : WithinBudget s s' out := by
  obtain ⟨st₁, hrun, hrest⟩ := bind_eq_ok.mp hschedule
  obtain ⟨st₂, hloras, hrest⟩ := bind_eq_ok.mp hrest
  obtain ⟨st₃, hwaiting, hrest⟩ := bind_eq_ok.mp hrest
  obtain ⟨st₄, hrestore, hrest⟩ := bind_eq_ok.mp hrest
  obtain ⟨_, -, hrest⟩ := bind_eq_ok.mp hrest
  obtain ⟨⟨out', s₁⟩, hout, hrest⟩ := bind_eq_ok.mp hrest
  obtain ⟨s₂, hupdate, hret⟩ := bind_eq_ok.mp hrest
  obtain ⟨rfl, rfl⟩ := Prod.mk.inj (Except.ok.inj hret)
  obtain ⟨waiting, rfl, -⟩ := restoreSkipped_spec hrestore
  have hend := (h.callEnd hslack hrange hbudget hrun hloras hwaiting).setWaiting waiting
  have hkeeps := (makeOutput_keeps hout).trans (updateAfterSchedule_keeps hupdate)
  exact hend.withinBudget hout hkeeps.running

end Scheduler

end VllmV1
