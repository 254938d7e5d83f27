import VllmMmaEmu.Sched.Contents
import VllmMmaEmu.Sched.LoadSteps

/-!
# Loads over whole runs

In every state that is reached, between two calls and between two turns of the loop over the
waiting requests, the table of a request that waits for its load has the blocks that the load
was begun with.
-/

namespace VllmV1

open Python

/-- The blocks in the table of a request since a load was begun for it: those it had before,
its hits and new ones, up to the required number for the tokens. -/
def RemoteLoad.Holds (load : RemoteLoad) (kv : KVCacheManager) (requestId : String) : Prop :=
  ∀ m ∈ kv.singleTypeManagers, ∃ numHits : Nat, load.numLocal = numHits * m.blockSize ∧
    (load.numHeld = 0 ∨ numHits = 0) ∧ (m.blocksOf requestId).length =
      max (load.numHeld + numHits)
        (m.numRequiredBlocks (min load.numTokens kv.config.maxModelLen)).toNat

lemma RemoteLoad.Holds.keeps {load : RemoteLoad} {kv kv' : KVCacheManager} {requestId : String}
    {ids : Set String} (h : load.Holds kv requestId) (hkeeps : kv.KeepsLengths ids kv')
    (hid : requestId ∈ ids) : load.Holds kv' requestId := by
  intro m' hm'
  obtain ⟨m, hm, hsame⟩ := forall₂_exists_left hkeeps.managers hm'
  obtain ⟨numHits, hlocal, hempty, hlen⟩ := h m hm
  refine ⟨numHits, ?_, hempty, ?_⟩
  · rw [(Prod.mk.inj (Prod.mk.inj hsame.spec).2).1, hlocal]
  · rw [hsame.lengths requestId hid, hlen, hkeeps.config,
      SingleTypeManager.numRequiredBlocks_sameSpec hsame.spec]

/-- What `__init__` asserts of a scheduler with a connector: one group, and no encoder. -/
structure DecoderGroup (spec : KVCacheSpec) (config : SchedulerConfig) : Prop where
  groups : config.kv.kvCacheGroups = [spec]
  kind : spec.kind ≠ .cross

/-- The load of each request that waits for one. -/
structure LoadsHeld (spec : KVCacheSpec) (s : Scheduler) (loads : RemoteLoads) : Prop where
  decoder : DecoderGroup spec s.config
  config : s.kvCacheManager.config = s.config.kv
  group : s.kvCacheManager.OneGroup spec
  held : ∀ r, s.Awaits r → ∃ load, loads r = some load ∧
    load.Holds s.kvCacheManager (s.objs r).requestId

variable {spec : KVCacheSpec} {loads loads' : RemoteLoads}

lemma LoadsHeld.leaves {s s' : Scheduler} (h : LoadsHeld spec s loads)
    (hleaves : Scheduler.LeavesLoads s s') : LoadsHeld spec s' loads where
  decoder := hleaves.config ▸ h.decoder
  config := by rw [hleaves.tables.config, hleaves.config, h.config]
  group := h.group.keeps hleaves.tables
  held r hr := by
    obtain ⟨hr', hid⟩ := hleaves.awaits r hr
    obtain ⟨load, hload, hholds⟩ := h.held r hr'
    refine ⟨load, hload, ?_⟩
    rw [hid]
    exact hholds.keeps hleaves.tables ⟨r, hr, hid⟩

lemma LoadsHeld.congr {s : Scheduler} (h : LoadsHeld spec s loads)
    (hsame : ∀ r, s.Awaits r → loads' r = loads r) : LoadsHeld spec s loads' where
  decoder := h.decoder
  config := h.config
  group := h.group
  held r hr := by
    rw [hsame r hr]
    exact h.held r hr

lemma Scheduler.checkRemoteKvs_status {s s' : Scheduler} {r : Ref}
    (h : s.checkRemoteKvs r = .ok (true, s')) :
    (s'.objs r).status ≠ .waitingForRemoteKvs := by
  unfold checkRemoteKvs at h
  split_ifs at h with hstatus
  · obtain ⟨⟨isReady, s₁⟩, -, hret⟩ := bind_eq_ok.mp h
    obtain ⟨rfl, rfl⟩ := Prod.mk.inj (Except.ok.inj hret)
    rw [if_pos rfl, setStatus_objs_self]
    exact nofun
  · obtain ⟨-, rfl⟩ := Prod.mk.inj (Except.ok.inj h)
    exact hstatus

namespace ScheduleState

open Scheduler

variable {answers : ScheduleAnswers} {st st' : ScheduleState} {r : Ref}

/-- A turn begins a load for the first request, from the state after its checks. -/
structure BeginsLoad (answers : ScheduleAnswers) (st st' : ScheduleState) (r : Ref)
    (c : ComputedTokens) (kv : KVCacheManager) : Prop where
  got : st.GotBlocks answers r c 0 kv
  async : c.loadKvAsync = true
  positive : 0 < c.numExternalComputedTokens
  waits : ∃ item waiting, item.request = r ∧
    ((st.setKv kv).setWaiting waiting).waitForLoad item = .ok st'

lemma scheduleWaiting_load {c : ComputedTokens} {goOn : Bool} (hfirst : st.IsFirst r)
    (hcomputed : st.findComputed answers r = .ok (some c)) (hload : c.loadKvAsync = true)
    (h : st.scheduleWaiting r c = .ok (goOn, st')) :
    Moves answers noLoads st st' ∨ ∃ kv, BeginsLoad answers st st' r c kv := by
  simp only [scheduleWaiting, if_pos hload] at h
  obtain ⟨_, hpos, hrest⟩ := bind_eq_ok.mp h
  obtain ⟨⟨newBlocks, kv⟩, halloc, hrest⟩ := bind_eq_ok.mp hrest
  cases newBlocks with
  | none =>
    obtain ⟨-, rfl⟩ := Prod.mk.inj (Except.ok.inj hrest)
    exact .inl (.single (.noRoom st r _ kv halloc))
  | some newBlocks =>
    obtain ⟨st₁, htake, hret⟩ := bind_eq_ok.mp hrest
    obtain ⟨-, rfl⟩ := Prod.mk.inj (Except.ok.inj hret)
    obtain ⟨⟨item, waiting⟩, hpop, hwaits⟩ := bind_eq_ok.mp htake
    simp only [if_pos hload] at hwaits
    exact .inr ⟨kv, ⟨hfirst, hcomputed, newBlocks, halloc⟩, hload, pyAssert_eq_ok.mp hpos,
      item, waiting, hfirst.eq_of_pop hpop, hwaits⟩

lemma considerWaiting_cases {ready goOn : Bool} (hfirst : st.IsFirst r)
    (h : st.considerWaiting answers r ready = .ok (goOn, st')) :
    Moves answers noLoads st st' ∨ ∃ c kv, BeginsLoad answers st st' r c kv := by
  rw [considerWaiting] at h
  by_cases hskipped : ready = false ∨ st.exceedsLoras r = true
  · rw [if_pos hskipped] at h
    obtain ⟨st₁, hskip, hret⟩ := bind_eq_ok.mp h
    obtain ⟨-, rfl⟩ := Prod.mk.inj (Except.ok.inj hret)
    exact .inl (.single (.skip st st₁ hskip))
  · rw [if_neg hskipped] at h
    obtain ⟨computed, hcomputed, hrest⟩ := bind_eq_ok.mp h
    cases computed with
    | none =>
      obtain ⟨st₁, hskip, hret⟩ := bind_eq_ok.mp hrest
      obtain ⟨-, rfl⟩ := Prod.mk.inj (Except.ok.inj hret)
      exact .inl (.single (.skip st st₁ hskip))
    | some c =>
      by_cases hload : c.loadKvAsync = true
      · exact (scheduleWaiting_load hfirst hcomputed hload hrest).imp_right fun hbegins => ⟨c, hbegins⟩
      · exact .inl (scheduleWaiting_moves hfirst hcomputed (fun _ _ hasync => absurd hasync hload) hrest)

/-- A request that passed the check does not wait for its load. -/
lemma checked_status {s : Scheduler} (h : st.sched.checkRemoteKvs r = .ok (true, s)) :
    ((st.checked answers r s).sched.objs r).status ≠ .waitingForRemoteKvs := by
  have hs := checkRemoteKvs_status h
  unfold checked
  rcases checkGrammar_spec answers s r with heq | ⟨-, heq⟩
  · rwa [heq]
  · rw [heq, setStatus_objs_self]
    exact nofun

lemma checked_moves {G : Guard} {s : Scheduler} (hfirst : st.IsFirst r)
    (h : st.sched.checkRemoteKvs r = .ok (true, s)) :
    Moves answers G st (st.checked answers r s) ∧ (st.checked answers r s).IsFirst r := by
  have hmove : Move answers G st { st with sched := s } := .remoteKvs st r true s hfirst h
  have hfirst₁ : IsFirst { st with sched := s } r := by
    rcases checkRemoteKvs_spec h with rfl | ⟨_, _, _, -, -, -, rfl⟩
    · exact hfirst
    · exact hfirst
  have hgrammar : Move answers G { st with sched := s } (st.checked answers r s) :=
    .grammar { st with sched := s } r hfirst₁
  refine ⟨(Relation.ReflTransGen.single hmove).tail hgrammar, ?_⟩
  unfold checked
  rcases checkGrammar_spec answers s r with heq | ⟨-, heq⟩
  · rw [heq]
    exact hfirst₁
  · rw [heq]
    exact hfirst₁

lemma recordLoad_of_ne {item : HeapItem} (hpeek : st.sched.waiting.peekRequest = .ok item)
    (hne : r ≠ item.request) : st.recordLoad answers st' loads r = loads r := by
  unfold recordLoad
  cases hload : st.firstLoad answers with
  | none => rfl
  | some found =>
    obtain ⟨first, load⟩ := found
    have hfirst : first = item.request := by
      unfold firstLoad at hload
      rw [hpeek] at hload
      dsimp only at hload
      split at hload
      · obtain ⟨load', -, heq⟩ := Option.map_eq_some_iff.mp hload
        exact (Prod.mk.inj heq).1.symm
      · cases hload
    dsimp only
    split_ifs with hwaits
    · exact if_neg (hfirst ▸ hne)
    · rfl

lemma BeginsLoad.recorded {item : HeapItem} {s : Scheduler} {c : ComputedTokens}
    {kv : KVCacheManager}
    (h : BeginsLoad answers (st.checked answers item.request s) st' item.request c kv)
    (hpeek : st.sched.waiting.peekRequest = .ok item)
    (hcheck : st.sched.checkRemoteKvs item.request = .ok (true, s)) :
    st.recordLoad answers st' loads item.request =
      some ⟨c.numNewLocalComputedTokens, c.numExternalComputedTokens,
        (st.checked answers item.request s).sched.numBlocksOf item.request, h.positive⟩ := by
  have hstatus : (st'.sched.objs item.request).status = .waitingForRemoteKvs := by
    obtain ⟨item', waiting, hitem, hwaits⟩ := h.waits
    obtain ⟨skipped, -, hret⟩ := bind_eq_ok.mp hwaits
    obtain rfl := Except.ok.inj hret
    rw [hitem, setStatus_objs_self]
  have hload : st.firstLoad answers = some (item.request,
      ⟨c.numNewLocalComputedTokens, c.numExternalComputedTokens,
        (st.checked answers item.request s).sched.numBlocksOf item.request, h.positive⟩) := by
    simp only [firstLoad, hpeek, hcheck, announcedLoad, h.got.computed, h.positive, dite_true,
      Option.map_some]
  unfold recordLoad
  rw [hload]
  dsimp only
  rw [if_pos hstatus, if_pos rfl]

lemma findComputed_async {c : ComputedTokens} (hasync : c.loadKvAsync = true)
    (h : st.findComputed answers r = .ok (some c)) :
    (st.sched.objs r).numComputedTokens = 0 ∧
      st.sched.kvCacheManager.getComputedBlocks (st.sched.req r) =
        .ok (c.newComputedBlocks, c.numNewLocalComputedTokens) := by
  unfold findComputed at h
  split_ifs at h with hzero
  · refine ⟨hzero, ?_⟩
    obtain ⟨⟨hits, numLocal⟩, hhits, hret⟩ := bind_eq_ok.mp h
    have hexternal : st.externalTokens answers r hits numLocal = some c := Except.ok.inj hret
    unfold externalTokens at hexternal
    split_ifs at hexternal
    · split at hexternal
      · cases hexternal
      · rw [hhits, ← Option.some.inj hexternal]
    · rw [← Option.some.inj hexternal] at hasync
      cases hasync
  · rw [← Option.some.inj (Except.ok.inj h)] at hasync
    cases hasync

/-- The table of the first request after its load was begun. -/
lemma BeginsLoad.holds {c : ComputedTokens} {kv : KVCacheManager}
    (h : BeginsLoad answers st st' r c kv) (hst : LoadsHeld spec st.sched loads) :
    RemoteLoad.Holds ⟨c.numNewLocalComputedTokens, c.numExternalComputedTokens,
      st.sched.numBlocksOf r, h.positive⟩ kv (st.sched.objs r).requestId := by
  obtain ⟨hzero, hhits⟩ := findComputed_async h.async h.got.computed
  have hlocal := hst.group.getComputedBlocks hhits
  obtain ⟨newBlocks, halloc⟩ := h.got.blocks
  have hkeeps := KVCacheManager.allocateSlots_keepsLengths halloc
  obtain ⟨-, -, m, hm, hshape⟩ := hst.group
  have hkind : m.kvCacheSpec.kind ≠ .cross := by
    rw [(Prod.mk.inj hshape).1]
    exact hst.decoder.kind
  obtain ⟨hits, rest, m', hfound, hm', hspec, hempty, hlen⟩ :=
    KVCacheManager.allocateSlots_length (a := st.waitingArgs r c 0) hm hkind rfl halloc
  have htokens : st.sched.kvCacheManager.numTokensNeedSlot (st.sched.req r)
      (st.waitingArgs r c 0) = min (c.numNewLocalComputedTokens +
        c.numExternalComputedTokens) kv.config.maxModelLen := by
    show min ((st.sched.objs r).numComputedTokens + c.numNewLocalComputedTokens +
      (0 + c.numExternalComputedTokens) +
        if (st.sched.objs r).numComputedTokens = 0 then (0 : Int)
        else st.config.numLookaheadTokens) _ = _
    rw [hzero, if_pos rfl, zero_add, zero_add, add_zero, hkeeps.config]
  have hheld : st.sched.numBlocksOf r =
      (m.blocksOf (st.sched.objs r).requestId).length := by
    simp [numBlocksOf, hm]
  intro m₁ hm₁
  rw [hm', List.mem_singleton] at hm₁
  subst hm₁
  refine ⟨hits.length, ?_, ?_, ?_⟩
  · rw [hlocal, hfound, (Prod.mk.inj (Prod.mk.inj hspec).2).1,
      (Prod.mk.inj (Prod.mk.inj hshape).2).1]
    rfl
  · rcases hempty with hnil | hnil
    · refine .inl ?_
      rw [hheld]
      exact List.length_eq_zero_iff.mpr hnil
    · exact .inr (List.length_eq_zero_iff.mpr hnil)
  · rw [htokens] at hlen
    rw [hheld, SingleTypeManager.numRequiredBlocks_sameSpec hspec]
    exact hlen

lemma BeginsLoad.held {c : ComputedTokens} {kv : KVCacheManager}
    (h : BeginsLoad answers st st' r c kv)
    (hst : LoadsHeld spec st.sched loads)
    (hreg : Registry st.sched st.sched.running st.waitingRefs)
    (hstatus : (st.sched.objs r).status ≠ .waitingForRemoteKvs)
    (hself : loads' r = some ⟨c.numNewLocalComputedTokens,
      c.numExternalComputedTokens, st.sched.numBlocksOf r, h.positive⟩)
    (hothers : ∀ r' ≠ r, loads' r' = loads r') : LoadsHeld spec st'.sched loads' := by
  have hholds := h.holds hst
  obtain ⟨newBlocks, halloc⟩ := h.got.blocks
  have hkeeps := KVCacheManager.allocateSlots_keepsLengths halloc
  obtain ⟨item, waiting, rfl, hwaits⟩ := h.waits
  obtain ⟨skipped, -, hret⟩ := bind_eq_ok.mp hwaits
  obtain rfl := Except.ok.inj hret
  refine ⟨hst.decoder, ?_, hst.group.keeps hkeeps, fun r' hr' => ?_⟩
  · show kv.config = st.sched.config.kv
    rw [hkeeps.config, hst.config]
  · by_cases hne : r' = item.request
    · rw [hne, setStatus_objs_self]
      exact ⟨_, hself, hholds⟩
    · obtain ⟨hget, hwaits'⟩ := hr'
      have hobj : (((st.setKv kv).setWaiting waiting).sched.setStatus item.request
          .waitingForRemoteKvs).objs r' = st.sched.objs r' := if_neg hne
      rw [hobj] at hget hwaits' ⊢
      have hr : st.sched.Awaits r' := ⟨hget, hwaits'⟩
      obtain ⟨load, hload, hkept⟩ := hst.held r' hr
      refine ⟨load, by rw [hothers r' hne, hload], hkept.keeps hkeeps ?_⟩
      exact hr.id_ne (hreg.registered _ (List.mem_append_right _ h.got.first.mem)) hstatus

lemma waitingStep_registry {goOn : Bool} (hreg : Registry st.sched st.sched.running st.waitingRefs)
    (h : st.waitingStep answers = .ok (goOn, st')) :
    Registry st'.sched st'.sched.running st'.waitingRefs := by
  have hmoves : Moves answers Guard.none st st' :=
    waitingStep_moves (fun _ _ _ _ _ _ _ _ _ _ => trivial) h
  exact Moves.registry hmoves hreg

end ScheduleState

namespace LoadsHeld

open Scheduler ScheduleState

variable {answers : ScheduleAnswers} {st st' : ScheduleState} {s s' : Scheduler}

/-- In every turn of the loop the requests that wait have the loads that are recorded. -/
theorem turn {goOn : Bool} (hst : LoadsHeld spec st.sched loads)
    (hreg : Registry st.sched st.sched.running st.waitingRefs)
    (h : st.waitingStep answers = .ok (goOn, st')) :
    LoadsHeld spec st'.sched (st.recordLoad answers st' loads) := by
  obtain ⟨item, hpeek, hrest⟩ := bind_eq_ok.mp h
  obtain ⟨⟨ready, s⟩, hcheck, hrest⟩ := bind_eq_ok.mp hrest
  have hfirst : st.IsFirst item.request := ⟨item, hpeek, rfl⟩
  cases ready with
  | false =>
    -- the request still waits, and no load is begun
    have hmoves : Moves answers noLoads st st' := by
      refine waitingStep_moves (fun item' s' hpeek' hcheck' => ?_) h
      obtain rfl := Except.ok.inj (hpeek'.symm.trans hpeek)
      cases hcheck'.symm.trans hcheck
    have hnone : st.firstLoad answers = none := by
      simp only [firstLoad, hpeek, hcheck]
    rw [recordLoad, hnone]
    exact hst.leaves (hmoves.leavesLoads hreg)
  | true =>
    have hchecked : Moves answers noLoads st (st.checked answers item.request s) ∧
        (st.checked answers item.request s).IsFirst item.request := checked_moves hfirst hcheck
    obtain ⟨hmoves, hfirst₁⟩ := hchecked
    have hreg₁ := Moves.registry hmoves hreg
    have hst₁ := hst.leaves (Moves.leavesLoads hmoves hreg)
    have hstatus : ((st.checked answers item.request s).sched.objs item.request).status ≠
        .waitingForRemoteKvs := checked_status hcheck
    have hconsider : (st.checked answers item.request s).considerWaiting answers item.request
        (s.checkGrammar answers item.request).1 = .ok (goOn, st') := hrest
    rcases considerWaiting_cases hfirst₁ hconsider with hlater | ⟨c, kv, hbegins⟩
    · have hleaves := Moves.leavesLoads hlater hreg₁
      refine (hst₁.leaves hleaves).congr fun r hr => recordLoad_of_ne hpeek ?_
      rintro rfl
      exact hstatus (hleaves.awaits _ hr).1.status
    · -- the request whose turn it is is the only one that comes to wait
      exact hbegins.held hst₁ hreg₁ hstatus (hbegins.recorded hpeek hcheck)
        fun r hne => recordLoad_of_ne hpeek hne

lemma loop {fuel : Nat} (hst : LoadsHeld spec st.sched loads)
    (hreg : Registry st.sched st.sched.running st.waitingRefs)
    (h : st.waitingLoop answers fuel = .ok st') :
    LoadsHeld spec st'.sched (st.loopLoads answers fuel loads) ∧
      Registry st'.sched st'.sched.running st'.waitingRefs := by
  induction fuel generalizing st loads with
  | zero =>
    obtain rfl := Except.ok.inj h
    exact ⟨hst, hreg⟩
  | succ fuel ih =>
    simp only [waitingLoop] at h
    simp only [loopLoads]
    split_ifs at h ⊢
    · obtain rfl := Except.ok.inj h
      exact ⟨hst, hreg⟩
    · obtain ⟨⟨goOn, st₁⟩, hstep, hrest⟩ := bind_eq_ok.mp h
      have hst₁ := hst.turn hreg hstep
      have hreg₁ := waitingStep_registry hreg hstep
      rw [hstep]
      cases goOn with
      | true => exact ih hst₁ hreg₁ hrest
      | false =>
        obtain rfl := Except.ok.inj hrest
        exact ⟨hst₁, hreg₁⟩

lemma turnFrom {st₀ : ScheduleState} {loads₀ : RemoteLoads} (hst : LoadsHeld spec st₀.sched loads₀)
    (h : TurnFrom answers st₀ loads₀ st loads)
    (hreg : Registry st₀.sched st₀.sched.running st₀.waitingRefs) :
    LoadsHeld spec st.sched loads ∧ Registry st.sched st.sched.running st.waitingRefs := by
  induction h with
  | first => exact ⟨hst, hreg⟩
  | next h hstep ih => exact ⟨ih.1.turn ih.2 hstep, waitingStep_registry ih.2 hstep⟩

end LoadsHeld

namespace Scheduler

open ScheduleState

variable {s : Scheduler} {st : ScheduleState}

lemma startWaiting_spec (h : s.startWaiting = .ok st)
    (hreg : Registry s s.running s.waiting.refs) :
    LeavesLoads s st.sched ∧ Registry st.sched st.sched.running st.waitingRefs := by
  obtain ⟨st₁, hrun, hloras⟩ := bind_eq_ok.mp h
  have hmoves : Moves {} noLoads (ScheduleState.start s) st :=
    (runningLoop_moves (runningClean_of_forall (fun _ _ => trivial) _ _) hrun).trans
      (recordLoras_move hloras)
  have hstart : Registry (ScheduleState.start s).sched (ScheduleState.start s).sched.running
      (ScheduleState.start s).waitingRefs := by
    simpa [ScheduleState.start, ScheduleState.waitingRefs, RequestQueue.refs] using hreg
  exact ⟨Moves.leavesLoads hmoves hstart, Moves.registry hmoves hstart⟩

end Scheduler

namespace LoadsHeld

open Scheduler ScheduleState

variable {answers : ScheduleAnswers} {s s' : Scheduler}

lemma schedule {out : SchedulerOutput} (hs : LoadsHeld spec s loads)
    (hreg : Registry s s.running s.waiting.refs) (h : s.schedule answers = .ok (out, s')) :
    LoadsHeld spec s' (s.callLoads answers loads) := by
  obtain ⟨st₁, hrun, hrest⟩ := bind_eq_ok.mp h
  obtain ⟨st₂, hloras, hrest⟩ := bind_eq_ok.mp hrest
  obtain ⟨st₃, hwait, hrest⟩ := bind_eq_ok.mp hrest
  obtain ⟨st₄, hrestore, hrest⟩ := bind_eq_ok.mp hrest
  obtain ⟨_, -, hrest⟩ := bind_eq_ok.mp hrest
  obtain ⟨⟨out', s₁⟩, hout, hrest⟩ := bind_eq_ok.mp hrest
  obtain ⟨s₂, hupdate, hret⟩ := bind_eq_ok.mp hrest
  obtain ⟨-, rfl⟩ := Prod.mk.inj (Except.ok.inj hret)
  have hbegin : s.startWaiting = .ok st₂ := bind_eq_ok.mpr ⟨st₁, hrun, hloras⟩
  obtain ⟨hleaves, hreg₂⟩ := startWaiting_spec hbegin hreg
  have hst₂ := hs.leaves hleaves
  have hst₃ : LoadsHeld spec st₃.sched (s.callLoads answers loads) := by
    unfold callLoads
    rw [hbegin]
    unfold scheduleWaitingReqs at hwait
    dsimp only
    split_ifs at hwait ⊢
    · exact (hst₂.loop hreg₂ hwait).1
    · obtain rfl := Except.ok.inj hwait
      exact hst₂
  obtain ⟨waiting, rfl, -⟩ := restoreSkipped_spec hrestore
  have hrestored : LeavesLoads st₃.sched (st₃.setWaiting waiting).sched :=
    .of_same rfl rfl rfl (.refl _ _)
  exact hst₃.leaves ((hrestored.trans (makeOutput_leavesLoads hout)).trans
    (updateAfterSchedule_leavesLoads hupdate))

end LoadsHeld

/-- An engine with the loads that were begun. -/
structure LoadingEngine where
  engine : EngineState
  loads : RemoteLoads

namespace LoadingEngine

open EngineState

def next (σ : LoadingEngine) (e : EngineEvent) : Except PyError LoadingEngine := do
  let engine ← σ.engine.next e
  return ⟨engine, match e with
    | .schedule answers => σ.engine.sched.callLoads answers σ.loads
    | _ => σ.loads⟩

def Started (σ : LoadingEngine) : Prop := σ.engine.Started

abbrev ReachedBy (allowed : EngineState → EngineEvent → Prop) : LoadingEngine → Prop :=
  Runs.Reached Started (fun σ e => allowed σ.engine e) fun σ e σ' => σ.next e = .ok σ'

/-- A call of `schedule` comes to a turn of the loop over the waiting requests. -/
def ComesToTurn (σ : LoadingEngine) (answers : ScheduleAnswers) (st : ScheduleState)
    (loads : RemoteLoads) : Prop :=
  ∃ st₀, σ.engine.sched.startWaiting = .ok st₀ ∧ st₀.preemptedReqs = [] ∧
    ScheduleState.TurnFrom answers st₀ σ.loads st loads

variable {σ σ' : LoadingEngine} {allowed : EngineState → EngineEvent → Prop}

/-- A run from the start, as long as each event is allowed and none raises. -/
def runFrom (allowed : EngineState → EngineEvent → Prop) [∀ σ e, Decidable (allowed σ e)]
    (config : SchedulerConfig) (events : List EngineEvent) : Option LoadingEngine :=
  (Scheduler.init config).toOption.bind fun s =>
    Runs.runAllowed (fun σ e => allowed σ.engine e) next ⟨⟨s, [], []⟩, fun _ => none⟩ events

lemma ReachedBy.of_runFrom [∀ σ e, Decidable (allowed σ e)] {config : SchedulerConfig}
    {events : List EngineEvent} (h : runFrom allowed config events = some σ) :
    ReachedBy allowed σ := by
  obtain ⟨s, hinit, hrun⟩ := Option.bind_eq_some_iff.mp h
  exact .of_runAllowed (.start ⟨config, eq_ok_of_toOption hinit, rfl, rfl⟩) hrun

lemma ReachedBy.engine (h : ReachedBy allowed σ) : EngineState.ReachedBy allowed σ.engine := by
  induction h with
  | start h => exact .start h
  | step _ ok hnext ih =>
    obtain ⟨engine, hengine, hret⟩ := bind_eq_ok.mp hnext
    obtain rfl := Except.ok.inj hret
    exact .step ih ok hengine

lemma Started.held (h : Started σ) (hgroup : DecoderGroup spec σ.engine.sched.config) :
    LoadsHeld spec σ.engine.sched σ.loads := by
  have hobjs := h.empty.objs
  obtain ⟨config, hinit, -, -⟩ := h
  have hmade : σ.engine.sched.config = config ∧
      KVCacheManager.init config.kv = .ok σ.engine.sched.kvCacheManager := by
    unfold Scheduler.init at hinit
    split_ifs at hinit
    · obtain ⟨_, -, hrest⟩ := bind_eq_ok.mp hinit
      obtain ⟨_, -, hrest⟩ := bind_eq_ok.mp hrest
      obtain ⟨_, -, hrest⟩ := bind_eq_ok.mp hrest
      obtain ⟨kv, hkv, hret⟩ := bind_eq_ok.mp hrest
      rw [← Except.ok.inj hret]
      exact ⟨rfl, hkv⟩
    · obtain ⟨_, -, hrest⟩ := bind_eq_ok.mp hinit
      obtain ⟨kv, hkv, hret⟩ := bind_eq_ok.mp hrest
      rw [← Except.ok.inj hret]
      exact ⟨rfl, hkv⟩
  obtain ⟨rfl, hkv⟩ := hmade
  obtain ⟨pool, coordinator, -, -, hkv'⟩ := KVCacheManager.init_eq hkv
  refine ⟨hgroup, by rw [hkv'], KVCacheManager.init_oneGroup hgroup.groups hkv,
    fun r hr => ?_⟩
  have hstatus := hr.status
  rw [hobjs] at hstatus
  cases hstatus

lemma next_held (h : LoadsHeld spec σ.engine.sched σ.loads) (hreg : Registered σ.engine)
    {e : EngineEvent} (hnext : σ.next e = .ok σ') :
    LoadsHeld spec σ'.engine.sched σ'.loads := by
  obtain ⟨engine, hengine, hret⟩ := bind_eq_ok.mp hnext
  obtain rfl := Except.ok.inj hret
  cases e with
  | addRequest request =>
    obtain ⟨s, hadd, hret⟩ := bind_eq_ok.mp hengine
    obtain rfl := Except.ok.inj hret
    exact h.leaves (Scheduler.addRequest_leavesLoads hadd)
  | finishRequests answers requestIds status =>
    obtain ⟨s, hfinish, hret⟩ := bind_eq_ok.mp hengine
    obtain rfl := Except.ok.inj hret
    exact h.leaves (Scheduler.finishRequests_leavesLoads hfinish)
  | updateDraftTokenIds answers drafts =>
    obtain rfl := Except.ok.inj hengine
    exact h.leaves (Scheduler.updateDraftTokenIds_leavesLoads _ answers drafts)
  | schedule answers =>
    obtain ⟨⟨out, s⟩, hschedule, hret⟩ := bind_eq_ok.mp hengine
    obtain rfl := Except.ok.inj hret
    exact h.schedule hreg hschedule
  | updateFromOutput runner answers =>
    simp only [EngineState.next] at hengine
    split at hengine
    · cases hengine
    · obtain ⟨⟨outputs, s⟩, hupdate, hret⟩ := bind_eq_ok.mp hengine
      obtain rfl := Except.ok.inj hret
      exact h.leaves (Scheduler.updateFromOutput_leavesLoads hupdate)

/-- In every run the requests that wait have the loads that are recorded. -/
theorem ReachedBy.held (hallowed : ∀ σ e, allowed σ e → Admissible σ e)
    (h : ReachedBy allowed σ) (hgroup : DecoderGroup spec σ.engine.sched.config) :
    LoadsHeld spec σ.engine.sched σ.loads := by
  induction h with
  | start h => exact Started.held h hgroup
  | step before ok hnext ih =>
    have hreg := (ReachedBy.engine before).registered hallowed
    obtain ⟨engine, hengine, hret⟩ := bind_eq_ok.mp hnext
    have hconfig := EngineState.next_config hengine
    rw [← Except.ok.inj hret, hconfig] at hgroup
    exact next_held (ih hgroup) hreg hnext

/-- The same in front of each turn of the loop over the waiting requests. -/
theorem ComesToTurn.held {answers : ScheduleAnswers} {st : ScheduleState} {loads : RemoteLoads}
    (hturn : σ.ComesToTurn answers st loads) (hreg : Registered σ.engine)
    (h : LoadsHeld spec σ.engine.sched σ.loads) :
    LoadsHeld spec st.sched loads ∧ Registry st.sched st.sched.running st.waitingRefs := by
  obtain ⟨st₀, hstart, -, hfrom⟩ := hturn
  obtain ⟨hleaves, hreg₀⟩ := Scheduler.startWaiting_spec hstart hreg
  exact (h.leaves hleaves).turnFrom hfrom hreg₀

end LoadingEngine

end VllmV1
