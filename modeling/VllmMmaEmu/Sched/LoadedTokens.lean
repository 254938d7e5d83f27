import VllmMmaEmu.Sched.LoadRuns

/-!
# Tokens of a load that has ended

When a load has ended, the number of its tokens is taken from the length of the table, in
whole blocks. It is the number of tokens that were loaded if these fill their blocks, or if
the request has at most one token more.
-/

namespace VllmV1

open Python

namespace SingleTypeManager

variable {m : SingleTypeManager}

lemma init_blockSize_pos (spec : KVCacheSpec) (groupId dcpWorldSize : Nat) :
    0 < (init spec groupId dcpWorldSize).blockSize := by
  have hspec : (0 : Int) < spec.blockSize := Int.natCast_pos.mpr spec.blockSize_pos
  show 0 < if dcpWorldSize > 1 then (spec.blockSize : Int) * dcpWorldSize else spec.blockSize
  split_ifs with hranks
  · exact mul_pos hspec (by omega)
  · exact hspec

lemma numRequiredBlocks_mul_le_iff (hsize : 0 < m.blockSize) (n : Int) :
    m.numRequiredBlocks n * m.blockSize ≤ n ↔
      m.blockSize ∣ n ∧ ∀ k, m.kvCacheSpec.kind = .mamba k → k = 0 := by
  have hspec := m.kvCacheSpec.blockSize_pos
  have hup := le_cdiv_mul (a := m.tokensNeedingSlots n) hsize
  unfold numRequiredBlocks
  unfold tokensNeedingSlots at hup ⊢
  split
  · rename_i k hkind
    simp only [hkind] at hup
    split_ifs with hk
    · rw [if_pos hk] at hup
      have hmore : (0 : Int) < m.kvCacheSpec.blockSize * k :=
        mul_pos (Int.natCast_pos.mpr hspec) (Int.natCast_pos.mpr hk)
      refine ⟨fun hle => by omega, fun h => ?_⟩
      have hzero := h.2 k hkind
      omega
    · rw [cdiv_mul_le_iff hsize]
      refine ⟨fun hdvd => ⟨hdvd, fun k' hk' => ?_⟩, fun h => h.1⟩
      rw [hkind] at hk'
      obtain rfl := AttentionKind.mamba.inj hk'
      omega
  · rename_i hkind
    rw [cdiv_mul_le_iff hsize]
    exact ⟨fun hdvd => ⟨hdvd, fun k hk => absurd hk (hkind k)⟩, fun h => h.1⟩

end SingleTypeManager

/-- The blocks that the loaded tokens need, and those that the table had before, have no room
behind the loaded tokens, when they are counted with the block size of the scheduler. -/
structure RemoteLoad.FillsBlocks (load : RemoteLoad) (m : SingleTypeManager) (blockSize : Int) :
    Prop where
  needed : m.numRequiredBlocks load.numTokens * blockSize ≤ load.numTokens
  held : load.numHeld * blockSize ≤ load.numTokens

/-- With one block size the last loaded token ends a block, and no speculative block follows. -/
theorem RemoteLoad.fillsBlocks_iff {load : RemoteLoad} {m : SingleTypeManager}
    (hsize : 0 < m.blockSize) : load.FillsBlocks m m.blockSize ↔ m.blockSize ∣ load.numTokens ∧
      (∀ k, m.kvCacheSpec.kind = .mamba k → k = 0) ∧
      load.numHeld * m.blockSize ≤ load.numTokens := by
  have hneeded := m.numRequiredBlocks_mul_le_iff hsize load.numTokens
  refine ⟨fun h => ?_, fun h => ⟨hneeded.mpr ⟨h.1, h.2.1⟩, h.2.2⟩⟩
  obtain ⟨haligned, hspeculative⟩ := hneeded.mp h.needed
  exact ⟨haligned, hspeculative, h.held⟩

namespace RemoteLoad.Holds

variable {load : RemoteLoad} {kv : KVCacheManager} {requestId : String} {m : SingleTypeManager}

lemma numTokens_pos (h : load.Holds kv requestId) (hm : kv.singleTypeManagers = [m])
    (hsize : 0 < m.blockSize) : 0 < load.numTokens := by
  obtain ⟨numHits, hlocal, -, -⟩ := h m (by rw [hm]; exact List.mem_singleton_self m)
  have hnonneg : 0 ≤ (numHits : Int) * m.blockSize := mul_nonneg (Int.natCast_nonneg _) hsize.le
  have hpos := load.numExternal_pos
  unfold RemoteLoad.numTokens
  omega

/-- The hits are among the blocks that the loaded tokens need. -/
lemma length_eq (h : load.Holds kv requestId) (hm : kv.singleTypeManagers = [m])
    (hsize : 0 < m.blockSize) (hfits : load.numTokens ≤ kv.config.maxModelLen) :
    ((m.blocksOf requestId).length : Int) =
      max (load.numHeld : Int) (m.numRequiredBlocks load.numTokens) := by
  obtain ⟨numHits, hlocal, hempty, hlen⟩ := h m (by rw [hm]; exact List.mem_singleton_self m)
  rw [min_eq_left hfits] at hlen
  have hneed := m.le_numRequiredBlocks_mul hsize load.numTokens
  have hpos := load.numExternal_pos
  have hhits : (numHits : Int) ≤ m.numRequiredBlocks load.numTokens := by
    refine le_of_mul_le_mul_right ?_ hsize
    rw [← hlocal]
    unfold RemoteLoad.numTokens at hneed ⊢
    omega
  rw [hlen]
  omega

/-- The table has no room behind the loaded tokens exactly if these fill its blocks. -/
lemma length_mul_le_iff (h : load.Holds kv requestId) (hm : kv.singleTypeManagers = [m])
    (hsize : 0 < m.blockSize) (hfits : load.numTokens ≤ kv.config.maxModelLen)
    (blockSize : Nat) : ((m.blocksOf requestId).length * blockSize : Int) ≤ load.numTokens ↔
      load.FillsBlocks m blockSize := by
  rw [h.length_eq hm hsize hfits, max_mul_of_nonneg _ _ (Int.natCast_nonneg blockSize), max_le_iff]
  exact ⟨fun hle => ⟨hle.2, hle.1⟩, fun hfills => ⟨hfills.held, hfills.needed⟩⟩

end RemoteLoad.Holds

namespace Scheduler

variable {s s' : Scheduler} {r : Ref}

/-- At most the first `tokens` tokens are reported as computed, and the blocks that enter the
prefix cache have no others. -/
structure ReportsWithin (tokens : Int) (s s' : Scheduler) (r : Ref) : Prop where
  computed : (s'.objs r).numComputedTokens ≤ tokens
  cached : ∀ b, s'.kvCacheManager.blockPool.blockHash b ≠ s.kvCacheManager.blockPool.blockHash b →
    ∃ m ∈ s.kvCacheManager.singleTypeManagers, ∃ j : Nat,
      (m.blocksOf (s.objs r).requestId)[j]? = some b ∧ ((j : Int) + 1) * m.blockSize ≤ tokens

lemma receivedTokens_le_iff (s : Scheduler) (r : Ref) (blockIds : List BlockId) (tokens : Int) :
    s.receivedTokens r blockIds ≤ tokens ↔
      (blockIds.length * s.config.blockSize : Int) ≤ tokens ∨ (s.objs r).numTokens ≤ tokens + 1 := by
  unfold receivedTokens
  dsimp only
  split_ifs with hall <;> omega

/-- A load that has ended: its tokens are counted, and blocks are cached up to that count. -/
lemma reportsWithin_iff_received {m : SingleTypeManager} {tokens : Int}
    (hm : s.kvCacheManager.singleTypeManagers = [m]) (hsize : 0 < m.blockSize)
    (hpos : 0 < (s.objs r).numTokens) (hwaits : (s.objs r).status = .waitingForRemoteKvs)
    (hready : s.checkRemoteKvs r = .ok (true, s')) :
    ReportsWithin tokens s s' r ↔
      ((m.blocksOf (s.objs r).requestId).length * s.config.blockSize : Int) ≤ tokens ∨
        (s.objs r).numTokens ≤ tokens + 1 := by
  rw [← receivedTokens_le_iff]
  rcases checkRemoteKvs_spec hready with rfl | ⟨blockIds, kv, ids, -, hids, hcache, rfl⟩
  · exact absurd hwaits (checkRemoteKvs_status hready)
  obtain rfl : m.blocksOf (s.objs r).requestId = blockIds := by
    rw [onlyBlockIds, hm] at hids
    exact Except.ok.inj hids
  have hself : ((s.received r kv (s.receivedTokens r (m.blocksOf (s.objs r).requestId))
      ids).objs r).numComputedTokens = s.receivedTokens r (m.blocksOf (s.objs r).requestId) := by
    simp only [received, if_true]
  refine ⟨fun h => hself ▸ h.computed, fun hle => ⟨hself.symm ▸ hle, fun b hb => ?_⟩⟩
  have hnonneg : 0 ≤ s.receivedTokens r (m.blocksOf (s.objs r).requestId) := by
    have hmul : 0 ≤ ((m.blocksOf (s.objs r).requestId).length * s.config.blockSize : Int) :=
      mul_nonneg (Int.natCast_nonneg _) (Int.natCast_nonneg _)
    unfold receivedTokens
    dsimp only
    split_ifs <;> omega
  obtain ⟨j, hj, hfull⟩ := KVCacheManager.cacheBlocks_changed hm hsize hnonneg hcache hb
  exact ⟨m, by rw [hm]; exact List.mem_singleton_self m, j, hj, hfull.trans hle⟩

end Scheduler

namespace LoadingEngine

open EngineState (Admissible)
open Scheduler

variable {σ : LoadingEngine} {answers : ScheduleAnswers} {st : ScheduleState}
  {loads : RemoteLoads} {item : HeapItem} {s : Scheduler} {spec : KVCacheSpec}

/-- A load that has ended is reported within its tokens exactly if these fill their blocks or
the request has at most one token more. -/
theorem reportsWithin_iff (h : ReachedBy Admissible σ) (hturn : σ.ComesToTurn answers st loads)
    (hgroup : DecoderGroup spec σ.engine.sched.config)
    (hpeek : st.sched.waiting.peekRequest = .ok item)
    (hwaits : (st.sched.objs item.request).status = .waitingForRemoteKvs)
    (hready : st.sched.checkRemoteKvs item.request = .ok (true, s)) :
    ∃ load, loads item.request = some load ∧
      (load.numTokens ≤ (st.sched.objs item.request).numTokens →
        load.numTokens ≤ st.sched.maxModelLen →
        (ReportsWithin load.numTokens st.sched s item.request ↔
          load.FillsBlocks (.init spec 0 st.sched.config.kv.dcpWorldSize)
              st.sched.config.blockSize ∨
            (st.sched.objs item.request).numTokens ≤ load.numTokens + 1)) := by
  obtain ⟨hheld, hreg⟩ :=
    hturn.held (h.engine.registered fun _ _ hok => hok) (h.held (fun _ _ hok => hok) hgroup)
  have hfirst : st.IsFirst item.request := ⟨item, hpeek, rfl⟩
  have hregistered := hreg.registered _ (List.mem_append_right _ hfirst.mem)
  obtain ⟨load, hload, hholds⟩ := hheld.held item.request ⟨hregistered, hwaits⟩
  refine ⟨load, hload, fun htokens hlen => ?_⟩
  obtain ⟨m, hm, hshape⟩ := hheld.group.manager
  rw [hheld.config] at hshape
  have hsize : 0 < m.blockSize := by
    rw [(Prod.mk.inj (Prod.mk.inj hshape).2).1]
    exact SingleTypeManager.init_blockSize_pos spec 0 _
  have hfits : load.numTokens ≤ st.sched.kvCacheManager.config.maxModelLen := by
    rw [hheld.config]
    exact hlen
  have hpos : 0 < (st.sched.objs item.request).numTokens := by
    have hsome := hholds.numTokens_pos hm hsize
    omega
  have hfills : load.FillsBlocks m st.sched.config.blockSize ↔
      load.FillsBlocks (.init spec 0 st.sched.config.kv.dcpWorldSize)
        st.sched.config.blockSize := by
    have hneeded : m.numRequiredBlocks load.numTokens =
        SingleTypeManager.numRequiredBlocks (.init spec 0 st.sched.config.kv.dcpWorldSize)
          load.numTokens := SingleTypeManager.numRequiredBlocks_sameSpec hshape load.numTokens
    exact ⟨fun h => ⟨hneeded ▸ h.needed, h.held⟩, fun h => ⟨hneeded.symm ▸ h.needed, h.held⟩⟩
  rw [reportsWithin_iff_received hm hsize hpos hwaits hready,
    hholds.length_mul_le_iff hm hsize hfits, hfills]

/-- A connector, and a prefix cache with blocks of four tokens. -/
def loadConfig : SchedulerConfig where
  kv :=
    { numBlocks := 8
      kvCacheGroups := [⟨4, .full, Nat.le_add_left 1 3⟩]
      maxModelLen := 16 }
  blockSize := 4
  maxNumRunningReqs := 2
  maxNumScheduledTokens := 16
  hasConnector := true
  blockHasher := some (requestBlockHasher (plainHashing 4))

/-- A request of ten tokens, of which the connector loads some in the background. -/
def loadEvents (numExternal : Int) : List EngineEvent :=
  [.addRequest { requestId := "a", prompt := .tokenIds [1, 2, 3, 4, 5, 6, 7, 8, 9, 10] },
    .schedule { getNumNewMatchedTokens := fun _ _ => some (numExternal, true) },
    .updateFromOutput
      { reqIdToIndex := Dict.empty
        sampledTokenIds := []
        kvConnectorOutput := some { finishedRecving := ["a"] } } fun _ => (false, false)]

/-- The first turn of the next call, and the check of its request. -/
def firstTurn (σ : LoadingEngine) : Option (ScheduleState × HeapItem × Bool × Scheduler) :=
  σ.engine.sched.startWaiting.toOption.bind fun st =>
    st.sched.waiting.peekRequest.toOption.bind fun item =>
      (st.sched.checkRemoteKvs item.request).toOption.map fun p => (st, item, p)

lemma firstTurn_spec {t : ScheduleState × HeapItem × Bool × Scheduler} (h : t ∈ σ.firstTurn)
    (hpreempted : t.1.preemptedReqs = []) : σ.ComesToTurn {} t.1 σ.loads ∧
      t.1.sched.waiting.peekRequest = .ok t.2.1 ∧
      t.1.sched.checkRemoteKvs t.2.1.request = .ok t.2.2 := by
  obtain ⟨st, hst, hrest⟩ := Option.bind_eq_some_iff.mp h
  obtain ⟨item, hitem, hrest⟩ := Option.bind_eq_some_iff.mp hrest
  obtain ⟨p, hp, rfl⟩ := Option.map_eq_some_iff.mp hrest
  exact ⟨⟨st, eq_ok_of_toOption hst, hpreempted, .first⟩, eq_ok_of_toOption hitem,
    eq_ok_of_toOption hp⟩

/-- Two blocks are loaded, and so many tokens are reported. -/
theorem reportsWithin_aligned : ∃ (σ : LoadingEngine) (st : ScheduleState) (item : HeapItem)
    (s : Scheduler), ReachedBy Admissible σ ∧ σ.ComesToTurn {} st σ.loads ∧
    st.sched.checkRemoteKvs item.request = .ok (true, s) ∧
    ReportsWithin 8 st.sched s item.request := by
  have hrun : ∃ σ ∈ runFrom Admissible loadConfig (loadEvents 8), ∃ t ∈ σ.firstTurn,
      t.1.preemptedReqs = [] ∧ t.2.2.1 = true ∧
      (t.1.sched.objs t.2.1.request).status = .waitingForRemoteKvs ∧
      σ.engine.sched.config.kv.kvCacheGroups = [{ blockSize := 4, kind := .full }] ∧
      t.1.sched.config.blockSize = 4 ∧ t.1.sched.config.kv.dcpWorldSize = 1 ∧
      t.1.sched.maxModelLen = 16 ∧
      (t.1.sched.objs t.2.1.request).numTokens = 10 ∧
      (σ.loads t.2.1.request).map (fun load => (load.numTokens, load.numHeld)) =
        some (8, 0) := by decide +kernel
  obtain ⟨σ, hσ, ⟨st, item, ready, s⟩, ht, hpreempted, rfl, hwaits, hgroups, hblock, hranks,
    hlen, htokens, hloads⟩ := hrun
  obtain ⟨hturn, hpeek, hready⟩ := firstTurn_spec ht hpreempted
  have hreached : ReachedBy Admissible σ := .of_runFrom hσ
  have hgroup : DecoderGroup { blockSize := 4, kind := .full } σ.engine.sched.config :=
    ⟨hgroups, by decide⟩
  obtain ⟨load, hload, hiff⟩ := reportsWithin_iff hreached hturn hgroup hpeek hwaits hready
  dsimp only at hblock hranks hlen htokens hloads hready
  rw [hload] at hloads
  obtain ⟨hnum, hheld⟩ := Prod.mk.inj (Option.some.inj hloads)
  dsimp only at hiff
  rw [hnum, htokens, hlen, hblock, hranks] at hiff
  refine ⟨σ, st, item, s, hreached, hturn, hready, (hiff (by decide) (by decide)).mpr (.inl ?_)⟩
  refine (RemoteLoad.fillsBlocks_iff (by decide)).mpr ⟨?_, nofun, ?_⟩
  · rw [hnum]
    decide
  · rw [hheld, hnum]
    decide

/-- Of ten tokens five were loaded, and eight are reported. -/
theorem not_reportsWithin_unaligned :
    ¬ ∀ (σ : LoadingEngine) (answers : ScheduleAnswers) (st : ScheduleState)
        (loads : RemoteLoads) (item : HeapItem) (s : Scheduler) (load : RemoteLoad),
      ReachedBy Admissible σ → σ.ComesToTurn answers st loads → st.sched.waiting.peekRequest = .ok item →
      (st.sched.objs item.request).status = .waitingForRemoteKvs →
      st.sched.checkRemoteKvs item.request = .ok (true, s) →
      loads item.request = some load →
      load.numTokens ≤ (st.sched.objs item.request).numTokens →
      ReportsWithin load.numTokens st.sched s item.request := by
  intro hclaim
  have hrun : ∃ σ ∈ runFrom Admissible loadConfig (loadEvents 5), ∃ t ∈ σ.firstTurn,
      t.1.preemptedReqs = [] ∧ t.2.2.1 = true ∧
      (t.1.sched.objs t.2.1.request).status = .waitingForRemoteKvs ∧
      (t.1.sched.objs t.2.1.request).numTokens = 10 ∧
      (t.2.2.2.objs t.2.1.request).numComputedTokens = 8 ∧
      (σ.loads t.2.1.request).map (fun load => load.numTokens) = some 5 := by decide +kernel
  obtain ⟨σ, hσ, ⟨st, item, ready, s⟩, ht, hpreempted, rfl, hwaits, htokens, hcomputed,
    hloads⟩ := hrun
  obtain ⟨hturn, hpeek, hready⟩ := firstTurn_spec ht hpreempted
  obtain ⟨load, hload, hnum⟩ := Option.map_eq_some_iff.mp hloads
  have hreports := hclaim σ {} st σ.loads item s load (.of_runFrom hσ) hturn hpeek hwaits hready
    hload (by rw [hnum, htokens]; decide)
  have hle := hreports.computed
  rw [hcomputed, hnum] at hle
  exact absurd hle (by decide)

end LoadingEngine

end VllmV1
