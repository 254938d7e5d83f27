import VllmMmaEmu.KvCache.EventRuns

/-!
# Replaying the events

Runs of a manager whose events are taken from time to time. As long as no step hashes blocks
behind a null block or of a LoRA request, the events replay to the cache and name the right
parents. A sliding window that is not larger than a block removes the parent as soon as the token
after it is computed; the assertion on its hash then fails.
-/

namespace VllmV1

open Python EventLog

namespace BlockPool

/-- The number of blocks that the map holds under a hash. -/
def numCached (p : BlockPool) (key : BlockHashWithGroupId) : Nat :=
  match p.cachedBlockHashToBlock key with
  | none => 0
  | some c => c.toList.length

variable {p : BlockPool} {g : Nat}

lemma cachedBlocks_nodup (c : CachedBlocks) : c.toList.Nodup := by
  cases c with
  | one b => exact List.nodup_singleton b
  | many bs nodup => exact nodup

lemma count_cachedHashes (h : p.HashMapOk) (hmap : p.MapOk)
    (hgroup : ∀ b k, p.blockHash b = some k → k.2 = g) (hash : BlockHash) :
    p.cachedHashes.count hash = p.numCached (hash, g) := by
  rw [cachedHashes, count_contents]
  have hiff : ∀ b, (p.blockHash b).map Prod.fst = some hash ↔
      p.cachedBlockHashToBlock.Holds (hash, g) b := by
    intro b
    rw [← h b, Option.map_eq_some_iff]
    constructor
    · rintro ⟨k, hk, rfl⟩
      rw [hk, ← hgroup b k hk]
    · intro hk
      exact ⟨_, hk, rfl⟩
  cases hc : p.cachedBlockHashToBlock (hash, g) with
  | none =>
    rw [numCached, hc, List.length_eq_zero_iff, List.filter_eq_nil_iff]
    intro b _ hb
    obtain ⟨c, hsome, -⟩ := (hiff b).mp (of_decide_eq_true hb)
    rw [hc] at hsome
    cases hsome
  | some c =>
    rw [numCached, hc]
    refine List.Perm.length_eq ((List.perm_ext_iff_of_nodup (List.nodup_range.filter _)
      (cachedBlocks_nodup c)).mpr fun b => ?_)
    rw [List.mem_filter, List.mem_range, decide_eq_true_eq, hiff]
    constructor
    · rintro ⟨-, c', hc', hb⟩
      rw [hc] at hc'
      rwa [Option.some.inj hc']
    · intro hb
      have hholds : p.cachedBlockHashToBlock.Holds (hash, g) b := ⟨c, hc, hb⟩
      exact ⟨hmap.inPool _ b hholds, hholds⟩

end BlockPool

/-- A manager with the block hashes of the requests, and the events that were taken from it. -/
structure EventState where
  manager : KVCacheManager
  known : KnownHashes
  taken : List KVCacheEvent

inductive EventOp where
  | run (op : KVOp)
  | takeEvents

namespace EventState

def Next (x : EventState) (op : EventOp) (x' : EventState) : Prop :=
  match op with
  | .run op => x.manager.runOp op = .ok x'.manager ∧ x'.known = KVCacheManager.learn x.known op ∧
      x'.taken = x.taken
  | .takeEvents => x' = { x with
      manager := x.manager.takeEvents.2
      taken := x.taken ++ x.manager.takeEvents.1 }

/-- The operations as the scheduler issues them. -/
def Issued (cfg : HashConfig) (x : EventState) (op : KVOp) : Prop :=
  x.manager.AsIssued cfg x.known op ∧ x.manager.WithinSlots op

/-- The states of runs from a new manager whose operations are all `allowed`. -/
abbrev ReachedBy (config : KVCacheConfig) (allowed : EventState → KVOp → Prop) :
    EventState → Prop :=
  Runs.Reached
    (fun x => KVCacheManager.init config = .ok x.manager ∧ (x.known = fun _ => []) ∧ x.taken = [])
    (fun x op => ∀ op', op = .run op' → allowed x op') Next

/-- All events so far: the batches that were taken, and the queue. -/
def events (x : EventState) : List KVCacheEvent := x.taken ++ x.manager.blockPool.kvEventQueue

/-- The events tell the contents of the cache, also when the hashes are converted for the
consumers; the next stored blocks name their parents. The next operation finds them, and raises
nothing for the events. -/
structure EventsOk (x : EventState) (allowed : KVOp → Prop) : Prop where
  replayed : ∀ {External : Type} [DecidableEq External] (convert : BlockHash → External),
    replay 0 (x.events.map fun e => e.change.rename convert) =
      x.manager.blockPool.cachedHashes.map convert
  counted : ∀ hash, x.manager.blockPool.cachedHashes.count hash =
    x.manager.blockPool.numCached (hash, 0)
  parents : ∀ op s', allowed op → x.manager.runOp op = .ok s' →
    ∃ events, s'.blockPool.kvEventQueue = x.manager.blockPool.kvEventQueue ++ events ∧
      ∀ e ∈ events, e.InChain (KVCacheManager.opHashes op)
  found : ∀ op request numTokens s' m r, allowed op →
    x.manager.ComesToCache op request numTokens s' → m ∈ s'.singleTypeManagers →
    m.LooksUpParent s'.blockPool request numTokens r → r ≠ .error .assertionError ∧
      BlockPool.eventLoraId request.loraRequest ≠ .error .attributeError

/-- The invariant of the runs. -/
structure Told (x : EventState) : Prop where
  cached : x.manager.Cached x.known
  tells : Tells (x.events.map KVCacheEvent.change) 0 x.manager.blockPool.cachedHashes

variable {cfg : HashConfig} {config : KVCacheConfig} {x x' : EventState} {op : EventOp}

lemma told_init (hconfig : KVCacheManager.OneGroupEvents config)
    (hinit : KVCacheManager.init config = .ok x.manager) (htaken : x.taken = []) : x.Told := by
  obtain ⟨s, known, taken⟩ := x
  obtain rfl : taken = [] := htaken
  have hw := KVCacheManager.init_wellKept hinit
  obtain ⟨pool, coordinator, hpool, -, rfl⟩ := KVCacheManager.init_eq hinit
  obtain ⟨_, -, hpool⟩ := bind_eq_ok.mp hpool
  obtain rfl := Except.ok.inj hpool
  refine ⟨⟨hw, hconfig, hconfig.caching, hconfig.events, fun m hm => ?_⟩, ?_⟩
  · obtain ⟨⟨spec, i⟩, -, rfl⟩ := List.mem_map.mp hm
    refine ⟨fun b k => ?_, ?_, ?_, ?_⟩
    · constructor
      · intro hnone
        cases hnone
      · rintro ⟨c, hc, -⟩
        cases hc
    · intro b k hnone
      cases hnone
    · intro id n hn
      cases hn
    · intro id n hn
      cases hn
  · show Tells [] 0 (contents config.numBlocks fun _ => (none : Option BlockHash))
    have hempty : contents config.numBlocks (fun _ => (none : Option BlockHash)) = 0 := by
      simp [contents]
    rw [hempty]
    exact .nil _

lemma Told.takeEvents (h : x.Told) : Told { x with
    manager := x.manager.takeEvents.2
    taken := x.taken ++ x.manager.takeEvents.1 } := by
  obtain ⟨s, known, taken⟩ := x
  have hon : s.blockPool.enableKvCacheEvents = true := h.cached.events
  obtain ⟨⟨hw, hconfig, hcaching, -, hcached⟩, htells⟩ := h
  have htake : s.takeEvents = (s.blockPool.kvEventQueue,
      { s with blockPool := { s.blockPool with kvEventQueue := [] } }) := by
    rw [KVCacheManager.takeEvents, BlockPool.takeEvents, if_neg (by simp [hon])]
  rw [htake]
  refine ⟨⟨⟨⟨hw.accounted.size, ?_, hw.accounted.tables⟩, hw.coordinator, hw.shapes⟩, hconfig,
    hcaching, hon, fun m hm => ?_⟩, ?_⟩
  · exact ⟨⟨hw.accounted.pool.inPool, hw.accounted.pool.hashed⟩, hw.accounted.pool.counted⟩
  · have hm' := hcached m hm
    exact ⟨hm'.map, hm'.group, hm'.within, hm'.cached⟩
  · show Tells (((taken ++ s.blockPool.kvEventQueue) ++ []).map KVCacheEvent.change) 0
      s.blockPool.cachedHashes
    rw [List.append_nil]
    exact htells

lemma Told.run (hcfg : cfg.CollisionFree) {op : KVOp} (h : x.Told)
    (hallowed : x.Issued cfg op ∧ x.manager.StoresEvents op) (hnext : x.Next (.run op) x') :
    x'.Told := by
  obtain ⟨s', known', taken'⟩ := x'
  obtain ⟨hrun, rfl, rfl⟩ := hnext
  obtain ⟨⟨hissued, hslots⟩, hkeep⟩ := hallowed
  obtain ⟨hcached, events, hqueue, htells, -⟩ :=
    KVCacheManager.runOp_cached hcfg h.cached hissued hslots hkeep hrun
  refine ⟨hcached, ?_⟩
  show Tells ((x.taken ++ s'.blockPool.kvEventQueue).map KVCacheEvent.change) 0 _
  rw [hqueue, ← List.append_assoc, List.map_append]
  exact h.tells.append htells

lemma Told.counted (h : x.Told) (hash : BlockHash) :
    x.manager.blockPool.cachedHashes.count hash =
      x.manager.blockPool.numCached (hash, 0) := by
  obtain ⟨m, hm⟩ := h.cached.manager
  have hmc := h.cached.cached m (by simp [hm])
  have hids := h.cached.wellKept.groupIds
  rw [hm, h.cached.config.oneGroup] at hids
  obtain ⟨hid, -⟩ := List.cons.inj hids
  refine BlockPool.count_cachedHashes hmc.map h.cached.wellKept.accounted.pool.toMapOk ?_ hash
  intro b k hk
  rw [hmc.group b k hk, hid]

/-- In every run whose steps hash no blocks behind a null block or of a LoRA request, the events
replay to the cache, stored blocks name their parents, and the parents are found. -/
theorem eventsOk_of_storesEvents (cfg : HashConfig) (hcfg : cfg.CollisionFree)
    (config : KVCacheConfig) (hconfig : KVCacheManager.OneGroupEvents config) (x : EventState)
    (h : ReachedBy config (fun x op => x.Issued cfg op ∧ x.manager.StoresEvents op) x) :
    x.EventsOk fun op => x.Issued cfg op ∧ x.manager.StoresEvents op := by
  have htold : x.Told := by
    refine Runs.Reached.invariant (I := Told) ?_ ?_ h
    · rintro x₀ ⟨hinit, -, htaken⟩
      exact told_init hconfig hinit htaken
    · intro x₁ op x₂ h₁ hallowed hnext
      cases op with
      | run op => exact h₁.run hcfg (hallowed op rfl) hnext
      | takeEvents =>
        obtain rfl := hnext
        exact h₁.takeEvents
  refine ⟨fun convert => ?_, htold.counted, ?_, ?_⟩
  · have hreplay := htold.tells.replay_rename convert
    rwa [List.map_map, Multiset.map_zero] at hreplay
  · rintro op s' ⟨⟨hissued, hslots⟩, hkeep⟩ hrun
    obtain ⟨-, events, hqueue, -, hchain⟩ :=
      KVCacheManager.runOp_cached hcfg htold.cached hissued hslots hkeep hrun
    exact ⟨events, hqueue, hchain⟩
  · rintro op request numTokens s' m r ⟨⟨hissued, hslots⟩, hkeep⟩ hcomes hm hr
    exact hcomes.looksUpParent hcfg htold.cached hissued hslots hkeep hm hr

/-- One group with a sliding window, in blocks of two tokens, with events. -/
def windowConfig (slidingWindow : Nat) : KVCacheConfig :=
  { numBlocks := 8
    kvCacheGroups := [⟨2, .slidingWindow slidingWindow, Nat.two_pos⟩]
    maxModelLen := 16
    enableKvCacheEvents := true }

lemma windowConfig_oneGroupEvents (slidingWindow : Nat) :
    KVCacheManager.OneGroupEvents (windowConfig slidingWindow) where
  caching := rfl
  events := rfl
  oneGroup := rfl
  kind spec hspec := by
    rw [List.mem_singleton.mp hspec]
    exact nofun

/-- The parents that a request's first step and its later steps look up. -/
lemma storesEvents_start {s : KVCacheManager} {request : Request}
    {args : KVCacheManager.AllocArgs} {hits : List (List BlockId)} {length : Int}
    (hcomputed : s.getComputedBlocks request = .ok (hits, length))
    (hall : ∀ y ∈ s.singleTypeManagers.zip hits, y.1.StoresEvent request y.2
      (y.1.firstUsefulBlock request.requestId request.numComputedTokens)
      (KVCacheManager.numTokensToCache request args)) : s.StoresEvents (.start request args) := by
  intro hits' length' hcomputed' s₁ _ _ _
  obtain ⟨rfl, -⟩ := Prod.mk.inj (Except.ok.inj (hcomputed.symm.trans hcomputed'))
  exact hall

lemma ReachedBy.run {allowed : EventState → KVOp → Prop} {o : KVOp} {s' : KVCacheManager}
    (h : ReachedBy config allowed x) (ho : allowed x o) (hrun : x.manager.runOp o = .ok s') :
    ReachedBy config allowed ⟨s', KVCacheManager.learn x.known o, x.taken⟩ :=
  .step (e := .run o) h (fun _ heq => EventOp.run.inj heq ▸ ho) ⟨hrun, rfl, rfl⟩

open KVCacheManager in
/-- A window of four tokens: the second step puts the null block at the first place, and
tells of the third block with the second one as its parent. -/
theorem eventsOk_windowConfig : ∃ x : EventState,
    ReachedBy (windowConfig 4) (fun x op => x.Issued (plainHashing 2) op ∧
      x.manager.StoresEvents op) x ∧ x.manager.heldBlocks = [0, 2, 3] ∧ x.taken.length = 1 ∧
    x.EventsOk fun op => x.Issued (plainHashing 2) op ∧ x.manager.StoresEvents op := by
  set prompt := tinyRequest "a" 2 [7, 8, 9, 1, 2] 0 with hprompt
  set longer := tinyRequest "a" 2 [7, 8, 9, 1, 2, 3] 5 with hlonger
  have hview : (do
      let s₀ ← init (windowConfig 4)
      let hit ← s₀.getComputedBlocks prompt
      let s₁ ← s₀.runOp (.start prompt { numNewTokens := 5 })
      let s ← s₁.takeEvents.2.runOp (.allocate longer { numNewTokens := 1 })
      return (decide ((∀ y ∈ s₀.singleTypeManagers.zip hit.1,
            y.1.StoresEvent prompt y.2 (y.1.firstUsefulBlock "a" 0) 5) ∧
          numTokensToCache prompt { numNewTokens := 5 } ≤
            s₀.numTokensNeedSlot prompt { numNewTokens := 5 }),
        decide ((∀ y ∈ s₁.singleTypeManagers.zip s₁.createEmptyBlockList,
            y.1.StoresEvent longer y.2 (y.1.firstUsefulBlock "a" 5) 6) ∧
          numTokensToCache longer { numNewTokens := 1 } ≤
            s₁.numTokensNeedSlot longer { numNewTokens := 1 }),
        s₁.takeEvents.1.length, s.heldBlocks)) =
      (.ok (true, true, 1, [0, 2, 3]) : Except PyError (Bool × Bool × Nat × List BlockId)) := by
    rw [hprompt, hlonger]
    decide +kernel
  obtain ⟨s₀, hinit, hview⟩ := bind_eq_ok.mp hview
  obtain ⟨⟨hits, n⟩, hcomputed, hview⟩ := bind_eq_ok.mp hview
  obtain ⟨s₁, hrun₁, hview⟩ := bind_eq_ok.mp hview
  obtain ⟨s, hrun, hview⟩ := bind_eq_ok.mp hview
  obtain ⟨hok₁, hrest⟩ := Prod.mk.inj (Except.ok.inj hview)
  obtain ⟨hkeep₁, hslots₁⟩ := of_decide_eq_true hok₁
  obtain ⟨hok, hrest⟩ := Prod.mk.inj hrest
  obtain ⟨hkeep, hslots⟩ := of_decide_eq_true hok
  obtain ⟨htaken, hheld⟩ := Prod.mk.inj hrest
  have hstart : ReachedBy (windowConfig 4) (fun x op => x.Issued (plainHashing 2) op ∧
      x.manager.StoresEvents op) ⟨s₀, fun _ => [], []⟩ := .start ⟨hinit, rfl, rfl⟩
  have hfirst := hstart.run (o := .start prompt { numNewTokens := 5 })
    ⟨⟨⟨tinyRequest_made .., Or.inl List.nil_prefix, by decide +kernel⟩, hslots₁⟩,
      storesEvents_start hcomputed hkeep₁⟩ hrun₁
  have htake : ReachedBy (windowConfig 4) (fun x op => x.Issued (plainHashing 2) op ∧
      x.manager.StoresEvents op) _ := .step (e := .takeEvents) hfirst (by simp) rfl
  have hgrow : prompt.blockHashes <+: longer.blockHashes := by
    rw [hprompt, hlonger]
    decide +kernel
  have hreached := htake.run (o := .allocate longer { numNewTokens := 1 })
    ⟨⟨⟨tinyRequest_made .., Or.inl hgrow, by decide +kernel⟩, hslots⟩, fun _ _ _ _ => hkeep⟩ hrun
  exact ⟨_, hreached, hheld, htaken, eventsOk_of_storesEvents (plainHashing 2)
    (plainHashing_collisionFree 2) (windowConfig 4) (windowConfig_oneGroupEvents 4) _ hreached⟩

open KVCacheManager in
/-- A window of two tokens, a prompt of three: the first block, which is cached, leaves the
window before the second one is hashed. -/
theorem not_eventsOk_windowConfig : ∃ x : EventState,
    ReachedBy (windowConfig 2) (Issued (plainHashing 2)) x ∧
    ¬ x.EventsOk (x.Issued (plainHashing 2)) := by
  set prompt := tinyRequest "a" 2 [7, 8, 9] 0 with hprompt
  set longer := tinyRequest "a" 2 [7, 8, 9, 1] 3 with hlonger
  have hview : (do
      let s₀ ← init (windowConfig 2)
      let s₁ ← s₀.runOp (.start prompt { numNewTokens := 3 })
      let s₂ ← s₁.removeSkippedBlocks "a" 3
      let groups ← s₂.allocateGroups longer { numNewTokens := 1 } s₁.createEmptyBlockList
      let m ← pyIndex groups.2.singleTypeManagers 0
      let q ← BlockPool.cacheBlocksLoop m.kvCacheGroupId groups.2.blockPool
        (pySlice (m.blocksOf "a") 1 (Int.fdiv 4 m.blockSize)) (pyFrom longer.blockHashes 1)
      return (decide (numTokensToCache prompt { numNewTokens := 3 } ≤
            s₀.numTokensNeedSlot prompt { numNewTokens := 3 } ∧
          numTokensToCache longer { numNewTokens := 1 } ≤
            s₁.numTokensNeedSlot longer { numNewTokens := 1 } ∧
          s₂.numBlocksToAllocate longer { numNewTokens := 1 } ≤ s₂.blockPool.getNumFreeBlocks ∧
          m.numCachedBlock.get? "a" = some 1 ∧ 1 ≠ Int.fdiv 4 m.blockSize),
        q.parentBlockHash (m.blocksOf "a") 1)) =
      (.ok (true, .error .assertionError) :
        Except PyError (Bool × Except PyError (Option BlockHash))) := by
    rw [hprompt, hlonger]
    decide +kernel
  obtain ⟨s₀, hinit, hview⟩ := bind_eq_ok.mp hview
  obtain ⟨s₁, hrun₁, hview⟩ := bind_eq_ok.mp hview
  obtain ⟨s₂, hremove, hview⟩ := bind_eq_ok.mp hview
  obtain ⟨⟨new, s₃⟩, hgroups, hview⟩ := bind_eq_ok.mp hview
  obtain ⟨m, hm, hview⟩ := bind_eq_ok.mp hview
  obtain ⟨q, hloop, hview⟩ := bind_eq_ok.mp hview
  obtain ⟨hok, hparent⟩ := Prod.mk.inj (Except.ok.inj hview)
  obtain ⟨hslots₁, hslots, hpass, hnum, hne⟩ := of_decide_eq_true hok
  have hstart : ReachedBy (windowConfig 2) (Issued (plainHashing 2)) ⟨s₀, fun _ => [], []⟩ :=
    .start ⟨hinit, rfl, rfl⟩
  have hreached := hstart.run (o := .start prompt { numNewTokens := 3 })
    ⟨⟨tinyRequest_made .., Or.inl List.nil_prefix, by decide +kernel⟩, hslots₁⟩ hrun₁
  refine ⟨_, hreached, fun hok => ?_⟩
  have hgrow : prompt.blockHashes <+: longer.blockHashes := by
    rw [hprompt, hlonger]
    decide +kernel
  have hissued : Issued (plainHashing 2) ⟨s₁, learn (fun _ => []) (.start prompt
      { numNewTokens := 3 }), []⟩ (.allocate longer { numNewTokens := 1 }) :=
    ⟨⟨tinyRequest_made .., Or.inl hgrow, by decide +kernel⟩, hslots⟩
  exact (hok.found (.allocate longer { numNewTokens := 1 }) longer 4 s₃ m _ hissued
    ⟨rfl, by decide +kernel, rfl, s₂, new, hremove, hpass, hgroups⟩
    (List.mem_of_getElem? (pyIndex_eq_ok.mp hm))
    ⟨1, q, hnum, hne, hloop, rfl⟩).1 hparent

end EventState

end VllmV1
