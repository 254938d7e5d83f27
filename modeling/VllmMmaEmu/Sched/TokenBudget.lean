import VllmMmaEmu.KvCache.HitLength
import VllmMmaEmu.KvCache.Hits
import VllmMmaEmu.Sched.Announcements
import VllmMmaEmu.Sched.LoopMoves
import VllmMmaEmu.Sched.TokenBounds

/-!
# The token budget of a step

The count of a running request is clamped to the threshold, the budget and the length the model
allows, and only a count of zero is taken as nothing to do. It is positive as long as the request
is not ahead of its tokens and has not computed all positions; a prompt as long as the model
allows whose step is still on its way has.
-/

namespace VllmV1

open Python

namespace Scheduler

/-- The adapters of the running requests. -/
def runningLoras (s : Scheduler) : List Int :=
  ((s.running.filterMap fun r => (s.objs r).loraRequest).filter (· > 0)).dedup

/-- What the connector answers during a call: an asynchronous load brings something, and a
synchronous one leaves a token to compute. -/
structure LoadsPart (answers : ScheduleAnswers) (s : Scheduler) : Prop where
  async : s.config.hasConnector = true → ∀ r n k,
    answers.getNumNewMatchedTokens r n = some (k, true) → 0 < k
  sync : s.config.hasConnector = true → ∀ r n k,
    answers.getNumNewMatchedTokens r n = some (k, false) → n < (s.objs r).numTokens →
      n + k < (s.objs r).numTokens

/-- No running request has computed more than its tokens, drafts and placeholders, or all the
positions of the model; no waiting request has computed all its tokens; the adapters of the
running requests are not too many; the input of an encoder comes before the decoder's tokens. -/
structure InRange (s : Scheduler) : Prop where
  ahead : ∀ r ∈ s.running, (s.objs r).numComputedTokens ≤
    (s.req r).numTokensWithSpec + (s.objs r).numOutputPlaceholders
  left : ∀ r ∈ s.running, (s.objs r).numComputedTokens < s.maxModelLen
  behind : ∀ r ∈ s.waiting.refs, (s.objs r).numComputedTokens < (s.objs r).numTokens
  loras : ∀ maxLoras ∈ s.config.maxLoras, s.runningLoras.length ≤ maxLoras
  encoders : s.config.encoder.isEncoderDecoder = true → ∀ r ∈ s.running ++ s.waiting.refs,
    ∀ feature ∈ (s.objs r).mmFeatures, feature.mmPosition.offset = 0

end Scheduler

namespace ScheduleState

open Scheduler

variable {answers : ScheduleAnswers} {s : Scheduler} {st st' : ScheduleState} {r : Ref}

/-- Every count is positive, and together with the rest of the budget they are within it. -/
structure Budgeted (st : ScheduleState) : Prop where
  positive : ∀ n ∈ st.numScheduledTokens.values, 1 ≤ n
  total : st.numScheduledTokens.values.sum + st.tokenBudget ≤ st.config.maxNumScheduledTokens
  budget : 0 ≤ st.tokenBudget

lemma Budgeted.congr (h : Budgeted st) (hcounts : st'.numScheduledTokens = st.numScheduledTokens)
    (hbudget : st'.tokenBudget = st.tokenBudget) (hconfig : st'.sched.config = st.sched.config) :
    Budgeted st' := by
  refine ⟨?_, ?_, ?_⟩
  · rw [hcounts]
    exact h.positive
  · rw [hcounts, hbudget, ScheduleState.config, hconfig]
    exact h.total
  · rw [hbudget]
    exact h.budget

lemma mem_values_of_get? {V : Type} {d : Dict String V} {id : String} {v : V}
    (h : d.get? id = some v) : v ∈ d.values :=
  List.mem_map.mpr ⟨(id, v), Dict.get?_eq_some_iff.mp h, rfl⟩

lemma Budgeted.spend (h : Budgeted st) {requestId : String} {n : Int} (hpos : 1 ≤ n)
    (hle : n ≤ st.tokenBudget)
    (hcounts : st'.numScheduledTokens = st.numScheduledTokens.set requestId n)
    (hbudget : st'.tokenBudget = st.tokenBudget - n) (hconfig : st'.sched.config = st.sched.config) :
    Budgeted st' := by
  refine ⟨fun v hv => ?_, ?_, by omega⟩
  · rw [hcounts] at hv
    obtain ⟨⟨requestId', v'⟩, hmem, rfl⟩ := List.mem_map.mp hv
    have hget := Dict.get?_eq_some_iff.mpr hmem
    rw [Dict.get?_set] at hget
    split_ifs at hget
    · rwa [← Option.some.inj hget]
    · exact h.positive v' (mem_values_of_get? hget)
  · have hsum := Dict.sumBy_set id st.numScheduledTokens requestId n
    have hpart : 0 ≤ st.numScheduledTokens.part id requestId := by
      unfold Dict.part
      cases hget : st.numScheduledTokens.get? requestId with
      | none => exact le_refl _
      | some v => exact (h.positive v (mem_values_of_get? hget)).trans' zero_le_one
    have htotal := h.total
    rw [hcounts, hbudget, ScheduleState.config, hconfig]
    rw [Dict.values_sum] at htotal ⊢
    simp only [id_eq, ScheduleState.config] at hsum htotal
    omega

/-- What the loop over the running requests keeps, with the scheduler it started from. -/
structure RunningPhase (s : Scheduler) (st : ScheduleState) : Prop extends Budgeted st where
  contents : SameContents s st.sched
  nodup : st.sched.running.Nodup
  running : ∀ r ∈ st.sched.running, r ∈ s.running ∧ st.sched.objs r = s.objs r
  lists : ∀ r ∈ st.sched.running, r ∉ st.scheduledRunningReqs →
    st.sched.lists (st.sched.specRef r) = s.lists (s.specRef r)
  waiting : ∀ r ∈ st.waitingRefs, r ∈ st.preemptedReqs ∨
    r ∈ s.waiting.refs ∧ st.sched.objs r = s.objs r
  new : st.scheduledNewReqs = []
  resumed : st.scheduledResumedReqs = []
  fits : ∀ r ∈ s.running, ∀ n ∈ st.numScheduledTokens.get? (s.objs r).requestId,
    (s.objs r).numComputedTokens + n ≤ s.maxModelLen

lemma capLongPrefill_pos {n : Int} (hn : 0 < n) : 0 < st.capLongPrefill n := by
  unfold capLongPrefill
  split_ifs with hcap
  · exact hcap.1
  · exact hn

/-- A request that is not ahead and has positions left asks for some tokens or for none. -/
lemma runningTokens_spec (hahead : (st.sched.objs r).numComputedTokens ≤
      (st.sched.req r).numTokensWithSpec + (st.sched.objs r).numOutputPlaceholders)
    (hleft : (st.sched.objs r).numComputedTokens < st.sched.maxModelLen)
    (hbudget : 0 < st.tokenBudget) :
    0 ≤ st.runningTokens r ∧ st.runningTokens r ≤ st.tokenBudget ∧
      (st.sched.objs r).numComputedTokens + st.runningTokens r < st.sched.maxModelLen := by
  have hcap : ∀ n, 0 ≤ n → 0 ≤ st.capLongPrefill n := fun n hn => by
    rcases hn.eq_or_lt with rfl | hpos
    · unfold capLongPrefill
      split_ifs with hcap
      · exact hcap.1.le
      · exact le_refl _
    · exact (capLongPrefill_pos hpos).le
  have hasked := hcap ((st.sched.req r).numTokensWithSpec + (st.sched.req r).numOutputPlaceholders
    - (st.sched.req r).numComputedTokens) (by simp only [Scheduler.req] at hahead ⊢; omega)
  simp only [runningTokens, Scheduler.req] at hasked ⊢
  omega

lemma recordRunning_counts (st : ScheduleState) (r : Ref) (newBlocks : List (List BlockId)) (n : Int) :
    (st.recordRunning r newBlocks n).numScheduledTokens =
        st.numScheduledTokens.set (st.sched.objs r).requestId n ∧
      (st.recordRunning r newBlocks n).tokenBudget = st.tokenBudget - n ∧
      (st.recordRunning r newBlocks n).scheduledNewReqs = st.scheduledNewReqs ∧
      (st.recordRunning r newBlocks n).scheduledResumedReqs = st.scheduledResumedReqs ∧
      (st.recordRunning r newBlocks n).preemptedReqs = st.preemptedReqs ∧
      (st.recordRunning r newBlocks n).waitingRefs = st.waitingRefs ∧
      (st.recordRunning r newBlocks n).sched.objs = st.sched.objs ∧
      ∀ l ≠ st.sched.specRef r, (st.recordRunning r newBlocks n).sched.lists l = st.sched.lists l := by
  obtain ⟨lists, drafts, hlists, heq⟩ := st.recordRunning_spec r newBlocks n
  rw [heq]
  exact ⟨rfl, rfl, rfl, rfl, rfl, rfl, rfl, hlists⟩

/-- Nothing that the counts depend on has changed. -/
structure SameCounts (st st' : ScheduleState) : Prop where
  counts : st'.numScheduledTokens = st.numScheduledTokens
  budget : st'.tokenBudget = st.tokenBudget
  objs : st'.sched.objs = st.sched.objs
  lists : st'.sched.lists = st.sched.lists
  running : st'.sched.running = st.sched.running
  scheduled : st'.scheduledRunningReqs = st.scheduledRunningReqs
  new : st'.scheduledNewReqs = st.scheduledNewReqs
  resumed : st'.scheduledResumedReqs = st.scheduledResumedReqs
  preempted : st'.preemptedReqs = st.preemptedReqs
  waiting : st'.waitingRefs = st.waitingRefs

lemma RunningPhase.congr (h : RunningPhase s st) (hsame : SameCounts st st')
    (hcontents : SameContents st.sched st'.sched) : RunningPhase s st' where
  toBudgeted := h.toBudgeted.congr hsame.counts hsame.budget hcontents.config
  contents := h.contents.trans hcontents
  nodup := hsame.running ▸ h.nodup
  running := by
    rw [hsame.running, hsame.objs]
    exact h.running
  lists := by
    rw [hsame.running, hsame.scheduled, hsame.lists, hcontents.specRef]
    exact h.lists
  waiting := by
    rw [hsame.waiting, hsame.preempted, hsame.objs]
    exact h.waiting
  new := hsame.new.trans h.new
  resumed := hsame.resumed.trans h.resumed
  fits := by
    rw [hsame.counts]
    exact h.fits

lemma recordEncoderInputs_counts {inputs : List Nat} {budget : Int}
    (h : st.recordEncoderInputs r inputs budget = .ok st') : SameCounts st st' := by
  obtain ⟨m, encoderInputs, computeBudget, rfl⟩ := recordEncoderInputs_spec h
  exact ⟨rfl, rfl, rfl, rfl, rfl, rfl, rfl, rfl, rfl, rfl⟩

/-- A victim leaves the running requests; the others are as they were. -/
lemma RunningPhase.preempt {st₁ : ScheduleState} {v : Ref} (h : RunningPhase s st)
    (hcontents : SameContents st.sched st'.sched) (hv : st.chooseVictim = .ok (v, st₁))
    (hp : st₁.preempt v = .ok st') : RunningPhase s st' := by
  obtain ⟨hleaves, -⟩ := preempt_leaves hv hp
  obtain ⟨running, scheduled, waiting, rfl, hperm, -, -, hqueued⟩ := preempt_spec hv hp
  have hnodup : (v :: running).Nodup := hperm.nodup_iff.mpr h.nodup
  have hne : ∀ r ∈ running, r ≠ v := fun r hr heq => (List.nodup_cons.mp hnodup).1 (heq ▸ hr)
  have hin : ∀ r ∈ running, r ∈ st.sched.running :=
    fun r hr => hperm.mem_iff.mp (List.mem_cons_of_mem v hr)
  refine ⟨h.toBudgeted.congr rfl rfl rfl, h.contents.trans hcontents,
    (List.nodup_cons.mp hnodup).2, fun r hr => ?_, fun r hr hfresh => ?_, fun r hr => ?_, h.new,
    h.resumed, h.fits⟩
  · obtain ⟨hmem, hobj⟩ := h.running r (hin r hr)
    exact ⟨hmem, (afterPreempt_of_ne st (hne r hr)).trans hobj⟩
  · refine h.lists r (hin r hr) fun hscheduled => hfresh ?_
    cases hleaves with
    | priority policy running' scheduled' =>
      rw [scheduled']
      exact (List.mem_erase_of_ne (hne r hr)).mpr hscheduled
    | fcfs policy running' scheduled' =>
      rw [scheduled']
      exact hscheduled
  · have hmem : r ∈ v :: st.waitingRefs := ((hqueued.map _).append_right _).mem_iff.mp hr
    by_cases heq : r = v
    · exact Or.inl (List.mem_append_right _ (List.mem_singleton.mpr heq))
    · rcases h.waiting r ((List.mem_cons.mp hmem).resolve_left heq) with hpre | ⟨hold, hobj⟩
      · exact Or.inl (List.mem_append_left _ hpre)
      · exact Or.inr ⟨hold, (afterPreempt_of_ne st heq).trans hobj⟩

lemma eq_of_requestId {running waiting : List Ref} {r r' : Ref} (hreg : Registry s running waiting)
    (hr : r ∈ running ++ waiting) (hr' : r' ∈ running ++ waiting)
    (hid : (s.objs r').requestId = (s.objs r).requestId) : r' = r := by
  have hget := hreg.registered r hr
  rw [← hid, hreg.registered r' hr'] at hget
  exact Option.some.inj hget

lemma RunningPhase.run {slack n : Int} {newBlocks : List (List BlockId)} {kv : KVCacheManager}
    (h : RunningPhase s st) (hrange : s.InRange) (hsized : s.Sized slack)
    (hreg : Registry s s.running s.waiting.refs)
    (hcontents : SameContents st.sched ((st.setKv kv).recordRunning r newBlocks n).sched)
    (hr : r ∈ st.sched.running) (hfresh : r ∉ st.scheduledRunningReqs) (hn : n ≠ 0)
    (hle : Reduced (st.runningTokens r) n) (hbudget : 0 < st.tokenBudget) :
    RunningPhase s ((st.setKv kv).recordRunning r newBlocks n) := by
  obtain ⟨hin, hobj⟩ := h.running r hr
  have hlist := h.lists r hr hfresh
  have hlen : st.sched.maxModelLen = s.maxModelLen := maxModelLen_congr h.contents.config
  have hahead := hrange.ahead r hin
  have hleft := hrange.left r hin
  simp only [Scheduler.req] at hahead
  rw [← hobj, ← hlist] at hahead
  rw [← hobj, ← hlen] at hleft
  obtain ⟨hpos, hwithin, hfits⟩ := runningTokens_spec hahead hleft hbudget
  unfold Reduced at hle
  have hid : (st.sched.objs r).requestId = (s.objs r).requestId := by rw [hobj]
  obtain ⟨hcounts, hleftBudget, hnew, hresumed, hpreempted, hwaiting, hobjs, hlists⟩ :=
    recordRunning_counts (st.setKv kv) r newBlocks n
  obtain ⟨hrunning, hscheduled, -⟩ := recordRunning_sched (st.setKv kv) r newBlocks n
  refine ⟨h.toBudgeted.spend (by omega) (by omega) hcounts hleftBudget hcontents.config,
    h.contents.trans hcontents, hrunning ▸ h.nodup, ?_, fun r' hr' hfresh' => ?_, ?_,
    hnew.trans h.new, hresumed.trans h.resumed, fun r' hr' m hm => ?_⟩
  · rw [hrunning, hobjs]
    exact h.running
  · rw [hrunning] at hr'
    rw [hscheduled, List.mem_append, not_or, List.mem_singleton] at hfresh'
    have hother : st.sched.specRef r' ≠ st.sched.specRef r := by
      rw [h.contents.specRef]
      exact fun heq => hfresh'.2 (hsized.owned r' (hreg.lt_nextRef (List.mem_append_left _
        (h.running r' hr').1)) r (hreg.lt_nextRef (List.mem_append_left _ hin)) heq)
    rw [hcontents.specRef, hlists _ hother]
    exact h.lists r' hr' hfresh'.1
  · rw [hwaiting, hpreempted, hobjs]
    exact h.waiting
  · have hid' : ((st.setKv kv).sched.objs r).requestId = (s.objs r).requestId := hid
    rw [hcounts, hid', Dict.get?_set] at hm
    split_ifs at hm with heq
    · obtain rfl := Option.some.inj hm
      obtain rfl := eq_of_requestId hreg (List.mem_append_left _ hin) (List.mem_append_left _ hr')
        heq.symm
      rw [← hobj, ← hlen]
      omega
    · exact h.fits r' hr' m hm

lemma RunningMove.phase {slack : Int} (hmove : RunningMove st st') (hrange : s.InRange)
    (hsized : s.Sized slack) (hreg : Registry s s.running s.waiting.refs) (h : RunningPhase s st) :
    RunningPhase s st' := by
  have hcontents : SameContents st.sched st'.sched := (hmove.move {}).contents
  cases hmove with
  | encoder m => exact h.congr ⟨rfl, rfl, rfl, rfl, rfl, rfl, rfl, rfl, rfl, rfl⟩ hcontents
  | nextIndex => exact h.congr ⟨rfl, rfl, rfl, rfl, rfl, rfl, rfl, rfl, rfl, rfl⟩ hcontents
  | noRoom r args kv halloc =>
    exact h.congr ⟨rfl, rfl, rfl, rfl, rfl, rfl, rfl, rfl, rfl, rfl⟩ hcontents
  | preempt st₁ _ v hv hp hindex hfresh => exact h.preempt hcontents hv hp
  | run r n newBlocks kv hr hindex hfresh hn hle hbudget halloc =>
    exact h.run hrange hsized hreg hcontents hr hfresh hn hle hbudget
  | inputs _ r inputs budget hr hrecord =>
    exact h.congr (recordEncoderInputs_counts hrecord) hcontents

lemma RunningMoves.phase {slack : Int} (hmoves : RunningMoves st st') (hrange : s.InRange)
    (hsized : s.Sized slack) (hreg : Registry s s.running s.waiting.refs) (h : RunningPhase s st) :
    RunningPhase s st' := by
  induction hmoves with
  | refl => exact h
  | tail _ hmove ih => exact hmove.phase hrange hsized hreg ih

lemma start_phase (hreg : Registry s s.running s.waiting.refs)
    (hbudget : 0 ≤ s.config.maxNumScheduledTokens) : RunningPhase s (start s) where
  positive n hn := by simp [start, Dict.values, Dict.empty] at hn
  total := by simp [start, Dict.values, Dict.empty, ScheduleState.config]
  budget := hbudget
  contents := .refl s
  nodup := (List.nodup_append'.mp hreg.nodup).1
  running r hr := ⟨hr, rfl⟩
  lists _ _ _ := rfl
  waiting r hr := by
    right
    simpa [start, waitingRefs, RequestQueue.refs] using hr
  new := rfl
  resumed := rfl
  fits r hr n hn := by simp [start] at hn

/-- What the loop over the waiting requests keeps, with the scheduler the call started from. -/
structure WaitingPhase (s : Scheduler) (st : ScheduleState) : Prop extends Budgeted st where
  contents : SameContents s st.sched
  registry : Registry st.sched st.sched.running st.waitingRefs
  admitted : ∀ r ∈ st.scheduledNewReqs ++ st.scheduledResumedReqs,
    r ∈ st.sched.running ∧ r ∈ s.waiting.refs
  ran : ∀ r ∈ st.scheduledRunningReqs,
    r ∈ st.sched.running ∧ r ∈ s.running ∧ st.sched.objs r = s.objs r
  behind : ∀ r ∈ st.waitingRefs, r ∈ s.waiting.refs ∧
    (st.sched.objs r).numComputedTokens < (st.sched.objs r).numTokens
  fits : ∀ r ∈ s.running, ∀ n ∈ st.numScheduledTokens.get? (s.objs r).requestId,
    (s.objs r).numComputedTokens + n ≤ s.maxModelLen
  fitsAdmitted : ∀ r ∈ st.scheduledNewReqs ++ st.scheduledResumedReqs,
    ∀ n ∈ st.numScheduledTokens.get? (st.sched.objs r).requestId,
      (st.sched.objs r).numComputedTokens + n ≤ s.maxModelLen
  room : st.sched.running.length ≤ st.config.maxNumRunningReqs
  counted : st.scheduledNewReqs.length + st.scheduledResumedReqs.length +
    st.scheduledRunningReqs.length ≤ st.sched.running.length

/-- Nobody is admitted or scheduled, and the waiting requests still wait. -/
structure SameAdmission (st st' : ScheduleState) : Prop where
  counts : st'.numScheduledTokens = st.numScheduledTokens
  budget : st'.tokenBudget = st.tokenBudget
  running : st'.sched.running = st.sched.running
  scheduled : st'.scheduledRunningReqs = st.scheduledRunningReqs
  new : st'.scheduledNewReqs = st.scheduledNewReqs
  resumed : st'.scheduledResumedReqs = st.scheduledResumedReqs
  waiting : st'.waitingRefs.Perm st.waitingRefs

lemma SameCounts.admission (h : SameCounts st st') : SameAdmission st st' :=
  ⟨h.counts, h.budget, h.running, h.scheduled, h.new, h.resumed, .of_eq h.waiting⟩

/-- Only waiting requests have changed, and each has a token left to compute. -/
lemma WaitingPhase.congr (h : WaitingPhase s st) (hsame : SameAdmission st st')
    (hcontents : SameContents st.sched st'.sched)
    (hreg : Registry st'.sched st'.sched.running st'.waitingRefs)
    (hkept : ∀ r ∉ st.waitingRefs, st'.sched.objs r = st.sched.objs r)
    (hbehind : ∀ r ∈ st.waitingRefs,
      (st'.sched.objs r).numComputedTokens < (st'.sched.objs r).numTokens) : WaitingPhase s st' := by
  have hran : ∀ r ∈ st.sched.running, st'.sched.objs r = st.sched.objs r := fun r hr =>
    hkept r fun hwaits => List.disjoint_of_nodup_append h.registry.nodup hr hwaits
  refine ⟨h.toBudgeted.congr hsame.counts hsame.budget hcontents.config,
    h.contents.trans hcontents, hreg, ?_, fun r hr => ?_, fun r hr => ?_, ?_, fun r hr n hn => ?_,
    ?_, ?_⟩
  · rw [hsame.new, hsame.resumed, hsame.running]
    exact h.admitted
  · rw [hsame.scheduled] at hr
    obtain ⟨hrunning, hin, hobj⟩ := h.ran r hr
    exact ⟨hsame.running ▸ hrunning, hin, (hran r hrunning).trans hobj⟩
  · have hwaits := hsame.waiting.mem_iff.mp hr
    exact ⟨(h.behind r hwaits).1, hbehind r hwaits⟩
  · rw [hsame.counts]
    exact h.fits
  · rw [hsame.new, hsame.resumed] at hr
    have hobj := hran r (h.admitted r hr).1
    rw [hsame.counts, hobj] at hn
    rw [hobj]
    exact h.fitsAdmitted r hr n hn
  · rw [hsame.running, ScheduleState.config, hcontents.config]
    exact h.room
  · rw [hsame.new, hsame.resumed, hsame.scheduled, hsame.running]
    exact h.counted

lemma receivedTokens_lt (s : Scheduler) (r : Ref) (blockIds : List BlockId) :
    s.receivedTokens r blockIds < (s.objs r).numTokens := by
  simp only [Scheduler.receivedTokens]
  split_ifs with hall
  · omega
  · have hle := min_le_right (blockIds.length * s.config.blockSize : Int) (s.objs r).numTokens
    omega

lemma findComputed_lt {c : ComputedTokens} (hloads : LoadsPart answers st.sched)
    (htokens : 1 ≤ (st.sched.objs r).numTokens)
    (hbehind : (st.sched.objs r).numComputedTokens < (st.sched.objs r).numTokens)
    (h : st.findComputed answers r = .ok (some c)) :
    (c.loadKvAsync = true → 0 < c.numExternalComputedTokens) ∧
      (c.loadKvAsync = false → c.numComputedTokens < (st.sched.objs r).numTokens) := by
  unfold findComputed at h
  split_ifs at h
  · obtain ⟨⟨hits, numLocal⟩, hhits, hret⟩ := bind_eq_ok.mp h
    have hlocal : numLocal < (st.sched.objs r).numTokens :=
      (KVCacheManager.getComputedBlocks_within htokens hhits).2
    have hexternal := Except.ok.inj hret
    simp only [externalTokens] at hexternal
    split_ifs at hexternal with hconnector
    · split at hexternal
      · cases hexternal
      · rename_i k async hanswer
        obtain rfl := Option.some.inj hexternal
        refine ⟨fun hasync => ?_, fun hasync => ?_⟩
        · obtain rfl : async = true := hasync
          exact hloads.async hconnector r numLocal k hanswer
        · obtain rfl : async = false := hasync
          exact hloads.sync hconnector r numLocal k hanswer hlocal
    · obtain rfl := Option.some.inj hexternal
      exact ⟨by simp, fun _ => hlocal⟩
  · obtain rfl := Option.some.inj (Except.ok.inj h)
    exact ⟨by simp, fun _ => hbehind⟩

lemma classify_spec (h : st.classify r = .ok st') :
    st'.sched = st.sched ∧ st'.numScheduledTokens = st.numScheduledTokens ∧
      st'.tokenBudget = st.tokenBudget ∧ st'.scheduledRunningReqs = st.scheduledRunningReqs := by
  unfold classify at h
  split at h
  · obtain rfl := Except.ok.inj h
    exact ⟨rfl, rfl, rfl, rfl⟩
  · obtain rfl := Except.ok.inj h
    exact ⟨rfl, rfl, rfl, rfl⟩
  · cases h

lemma addLora_spec (st : ScheduleState) (r : Ref) :
    ∃ loras, st.addLora r = { st with scheduledLoras := loras } := by
  unfold addLora
  split
  · exact ⟨_, rfl⟩
  · exact ⟨_, rfl⟩

lemma recordWaiting_counts {c : ComputedTokens} {n : Int} (h : st.recordWaiting r c n = .ok st') :
    st'.numScheduledTokens = st.numScheduledTokens.set (st.sched.objs r).requestId n ∧
      st'.tokenBudget = st.tokenBudget - n ∧
      st'.scheduledRunningReqs = st.scheduledRunningReqs := by
  obtain ⟨st₁, hclassify, hret⟩ := bind_eq_ok.mp h
  obtain rfl := Except.ok.inj hret
  obtain ⟨hsched, hcounts, hbudget, hscheduled⟩ := classify_spec hclassify
  obtain ⟨loras, hlora⟩ := addLora_spec st₁ r
  rw [hlora]
  exact ⟨by simp only [startRunning, hsched, hcounts], by simp only [startRunning, hbudget],
    hscheduled⟩

lemma Admits.perm (h : Admits st st' r) :
    (st'.scheduledNewReqs ++ st'.scheduledResumedReqs).Perm
      (r :: (st.scheduledNewReqs ++ st.scheduledResumedReqs)) := by
  rcases h with ⟨-, hnew, hresumed⟩ | ⟨-, hnew, hresumed⟩
  · rw [hnew, hresumed, List.append_assoc]
    exact List.perm_middle
  · rw [hnew, hresumed, ← List.append_assoc]
    exact List.perm_append_singleton r _

lemma WaitingPhase.start {slack n : Int} {item : HeapItem} {waiting : RequestQueue}
    {c : ComputedTokens} {kv : KVCacheManager} (h : WaitingPhase s st)
    (hsized : s.Sized slack) (hslack : 0 ≤ slack) (hreg : Registry s s.running s.waiting.refs)
    (hcontents : SameContents st.sched st'.sched)
    (hreg' : Registry st'.sched st'.sched.running st'.waitingRefs)
    (hpos : 0 < n) (hle : n ≤ (st.sched.objs item.request).numTokens - c.numComputedTokens)
    (hbudget : n ≤ st.tokenBudget) (hroom : st.HasRoom)
    (hpop : st.sched.waiting.popRequest = .ok (item, waiting))
    (hrecord : ((st.setKv kv).setWaiting waiting).recordWaiting item.request c n = .ok st') :
    WaitingPhase s st' := by
  obtain ⟨-, hadmits, hwaiting, hrunning, cached, hobjs⟩ := recordWaiting_effect hrecord
  obtain ⟨hcounts, hspent, hscheduled⟩ := recordWaiting_counts hrecord
  have hqueue : (item.request :: st'.waitingRefs).Perm st.waitingRefs := by
    rw [hwaiting]
    exact (refs_pop hpop).append_right st.skippedWaitingRequests.refs
  have hin : item.request ∈ st.waitingRefs := hqueue.mem_iff.mp List.mem_cons_self
  have hold := (h.behind _ hin).1
  have hout : item.request ∉ st.sched.running := fun hr =>
    List.disjoint_of_nodup_append h.registry.nodup hr hin
  have hothers : ∀ r ∈ st.sched.running, st'.sched.objs r = st.sched.objs r := fun r hr =>
    hobjs.others r fun heq => hout (heq ▸ hr)
  have hsame : ∀ r ∈ st.sched.running, (st.sched.objs item.request).requestId ≠
      (st.sched.objs r).requestId := fun r hr heq => by
    have heq' := eq_of_requestId h.registry (List.mem_append_left _ hr)
      (List.mem_append_right _ hin) heq
    exact hout (heq' ▸ hr)
  have hcounts' : st'.numScheduledTokens =
      st.numScheduledTokens.set (st.sched.objs item.request).requestId n := hcounts
  have hunfinished : (s.objs item.request).isFinished = false :=
    hreg.unfinished (List.mem_append_right _ hold)
  have hsize := (hsized.tokens item.request (hreg.lt_nextRef (List.mem_append_right _ hold))
    hunfinished).2
  have htokens := h.contents.numTokens item.request
  have hrunning' : st'.sched.running = st.sched.running ++ [item.request] := hrunning
  refine ⟨h.toBudgeted.spend hpos hbudget hcounts' hspent hcontents.config,
    h.contents.trans hcontents, hreg', fun r hr => ?_, fun r hr => ?_, fun r hr => ?_,
    fun r hr m hm => ?_, fun r hr m hm => ?_, ?_, ?_⟩
  · rw [hrunning']
    rcases List.mem_cons.mp (hadmits.perm.mem_iff.mp hr) with rfl | hr
    · exact ⟨by simp, hold⟩
    · obtain ⟨hmem, hwas⟩ := h.admitted r hr
      exact ⟨List.mem_append_left _ hmem, hwas⟩
  · rw [hscheduled] at hr
    obtain ⟨hmem, hwas, hobj⟩ := h.ran r hr
    rw [hrunning']
    exact ⟨List.mem_append_left _ hmem, hwas, (hothers r hmem).trans hobj⟩
  · have hmem : r ∈ st.waitingRefs := hqueue.mem_iff.mp (List.mem_cons_of_mem _ hr)
    have hne : r ≠ item.request := fun heq => by
      have hnodup := hqueue.nodup_iff.mpr (List.nodup_append'.mp h.registry.nodup).2.1
      exact (List.nodup_cons.mp hnodup).1 (heq ▸ hr)
    rw [hobjs.others r hne]
    exact h.behind r hmem
  · rw [hcounts', Dict.get?_set] at hm
    split_ifs at hm with hid
    · rw [h.contents.requestId] at hid
      have heq := eq_of_requestId hreg (List.mem_append_left _ hr) (List.mem_append_right _ hold) hid
      exact absurd (heq ▸ hold : r ∈ s.waiting.refs)
        (List.disjoint_of_nodup_append hreg.nodup hr)
    · exact h.fits r hr m hm
  · rcases List.mem_cons.mp (hadmits.perm.mem_iff.mp hr) with rfl | hr
    · rw [hobjs.self] at hm ⊢
      have hm' : (st.numScheduledTokens.set (st.sched.objs item.request).requestId n).get?
          (st.sched.objs item.request).requestId = some m := hcounts' ▸ hm
      rw [Dict.get?_set_self] at hm'
      obtain rfl := Option.some.inj hm'
      simp only
      omega
    · have hmem := (h.admitted r hr).1
      rw [hothers r hmem] at hm ⊢
      rw [hcounts', Option.mem_def, Dict.get?_set_of_ne (hsame r hmem)] at hm
      exact h.fitsAdmitted r hr m hm
  · rw [hrunning', ScheduleState.config, hcontents.config, List.length_append]
    exact Nat.lt_of_le_of_ne h.room hroom
  · have hlen := hadmits.perm.length_eq
    have hcounted := h.counted
    rw [List.length_append, List.length_cons, List.length_append] at hlen
    rw [hrunning', List.length_append, hscheduled]
    simp only [List.length_singleton]
    have hsched : ((st.setKv kv).setWaiting waiting).scheduledRunningReqs =
      st.scheduledRunningReqs := rfl
    rw [hsched]
    have hlen' : st'.scheduledNewReqs.length + st'.scheduledResumedReqs.length =
      st.scheduledNewReqs.length + st.scheduledResumedReqs.length + 1 := hlen
    omega

lemma WaitingMove.phase {slack : Int} (hmove : WaitingMove answers st st')
    (hsized : s.Sized slack) (hslack : 0 ≤ slack) (hreg : Registry s s.running s.waiting.refs)
    (h : WaitingPhase s st) : WaitingPhase s st' := by
  have hcontents : SameContents st.sched st'.sched := hmove.move.contents
  have hreg' := hmove.move.registry h.registry
  have hbehind : ∀ r ∈ st.waitingRefs,
      (st.sched.objs r).numComputedTokens < (st.sched.objs r).numTokens :=
    fun r hr => (h.behind r hr).2
  cases hmove with
  | encoder m =>
    exact h.congr ⟨rfl, rfl, rfl, rfl, rfl, rfl, .refl _⟩ hcontents hreg' (fun _ _ => rfl) hbehind
  | noRoom r args kv halloc =>
    exact h.congr ⟨rfl, rfl, rfl, rfl, rfl, rfl, .refl _⟩ hcontents hreg' (fun _ _ => rfl) hbehind
  | inputs _ r inputs budget hr hrecord =>
    have hsame := recordEncoderInputs_counts hrecord
    exact h.congr hsame.admission hcontents hreg' (fun r _ => by rw [hsame.objs])
      fun r hr => by
        rw [hsame.objs]
        exact hbehind r hr
  | remoteKvs r ready s₁ hfirst hcheck =>
    rcases Scheduler.checkRemoteKvs_spec hcheck with rfl | ⟨blockIds, kv, ids, -, -, -, rfl⟩
    · exact h
    · refine h.congr ⟨rfl, rfl, rfl, rfl, rfl, rfl, .refl _⟩ hcontents hreg'
        (fun r' hr' => if_neg (show r' ≠ r from fun heq => hr' (heq ▸ hfirst.mem))) fun r' hr' => ?_
      simp only [Scheduler.received]
      split_ifs with heq
      · exact receivedTokens_lt st.sched r blockIds
      · exact hbehind r' hr'
  | grammar r hfirst =>
    rcases Scheduler.checkGrammar_spec answers st.sched r with heq | ⟨-, heq⟩
    · rw [heq] at hcontents hreg' ⊢
      exact h
    · rw [heq] at hcontents hreg' ⊢
      refine h.congr ⟨rfl, rfl, rfl, rfl, rfl, rfl, .refl _⟩ hcontents hreg'
        (fun r' hr' => if_neg (show r' ≠ r from fun heq => hr' (heq ▸ hfirst.mem))) fun r' hr' => ?_
      simp only [Scheduler.setStatus, Scheduler.modify]
      split_ifs
      · exact hbehind r' hr'
      · exact hbehind r' hr'
  | skip _ hskip =>
    obtain ⟨⟨item, waiting⟩, hpop, hrest⟩ := bind_eq_ok.mp hskip
    obtain ⟨skipped, hprepend, hret⟩ := bind_eq_ok.mp hrest
    obtain rfl := Except.ok.inj hret
    exact h.congr ⟨rfl, rfl, rfl, rfl, rfl, rfl, refs_setAside hpop hprepend⟩ hcontents hreg'
      (fun _ _ => rfl) hbehind
  | load _ item waiting c kv hgot hasync hpop hload =>
    obtain ⟨skipped, hprepend, hret⟩ := bind_eq_ok.mp hload
    obtain rfl := Except.ok.inj hret
    refine h.congr ⟨rfl, rfl, rfl, rfl, rfl, rfl, refs_setAside hpop hprepend⟩ hcontents hreg'
      (fun r' hr' => if_neg (show r' ≠ item.request from fun heq => hr' (heq ▸ hgot.first.mem))) fun r' hr' => ?_
    simp only [Scheduler.setStatus, Scheduler.modify]
    split_ifs
    · exact hbehind r' hr'
    · exact hbehind r' hr'
  | start _ item waiting c n kv hgot hasync hpos hle hbudget hroom hpop hrecord =>
    exact h.start hsized hslack hreg hcontents hreg' hpos hle hbudget hroom hpop hrecord

lemma WaitingMoves.phase {slack : Int} (hmoves : WaitingMoves answers st st')
    (hsized : s.Sized slack) (hslack : 0 ≤ slack) (hreg : Registry s s.running s.waiting.refs)
    (h : WaitingPhase s st) : WaitingPhase s st' := by
  induction hmoves with
  | refl => exact h
  | tail _ hmove ih => exact hmove.phase hsized hslack hreg ih

/-- When nobody was preempted, the second loop starts from where the first one ended. -/
lemma RunningPhase.waitingPhase (h : RunningPhase s st) (horder : InOrder st)
    (hnone : st.preemptedReqs = []) (hrange : s.InRange)
    (hreg : Registry st.sched st.sched.running st.waitingRefs)
    (hroom : s.running.length ≤ s.config.maxNumRunningReqs) : WaitingPhase s st := by
  have hwaiting : ∀ r ∈ st.waitingRefs, r ∈ s.waiting.refs ∧ st.sched.objs r = s.objs r :=
    fun r hr => (h.waiting r hr).resolve_left (by rw [hnone]; exact List.not_mem_nil)
  obtain ⟨before, rest, hsplit, -, hsub⟩ := horder.before
  have hran : ∀ r ∈ st.scheduledRunningReqs, r ∈ st.sched.running := fun r hr =>
    hsplit ▸ List.mem_append_left _ (hsub.subset hr)
  have hnew : st.scheduledNewReqs ++ st.scheduledResumedReqs = [] := by
    rw [h.new, h.resumed, List.append_nil]
  have hsubperm : st.sched.running.length ≤ s.running.length :=
    (List.subperm_of_subset h.nodup fun r hr => (h.running r hr).1).length_le
  refine ⟨h.toBudgeted, h.contents, hreg, ?_, fun r hr => ?_, fun r hr => ?_, h.fits, ?_, ?_, ?_⟩
  · rw [hnew]
    exact fun r hr => absurd hr List.not_mem_nil
  · exact ⟨hran r hr, h.running r (hran r hr)⟩
  · obtain ⟨hold, hobj⟩ := hwaiting r hr
    rw [hobj]
    exact ⟨hold, hrange.behind r hold⟩
  · rw [hnew]
    exact fun r hr => absurd hr List.not_mem_nil
  · rw [ScheduleState.config, h.contents.config]
    exact hsubperm.trans hroom
  · rw [h.new, h.resumed, hsplit, List.length_append]
    simp only [List.length_nil, Nat.zero_add]
    exact hsub.length_le.trans (Nat.le_add_right _ _)

end ScheduleState

end VllmV1
