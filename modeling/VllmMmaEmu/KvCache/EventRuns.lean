import VllmMmaEmu.KvCache.EventSteps

/-!
# Events over whole runs

A manager with one group and events. The batches that were taken and the queue, replayed from
an empty cache, give the hashes that are cached. The parent of the blocks to hash is looked up
in the table, where a sliding window may have put the null block just before; a chunked local
group starts with null blocks.
-/

namespace VllmV1

open Python EventLog

namespace KVCacheManager

/-- A manager with a prefix cache and events, over one group that may use both. -/
structure OneGroupEvents (config : KVCacheConfig) : Prop where
  caching : config.enableCaching = true
  events : config.enableKvCacheEvents = true
  oneGroup : config.kvCacheGroups.length = 1
  kind : ∀ spec ∈ config.kvCacheGroups, spec.kind ≠ .cross

/-- What holds of the hashes in every state that is reached. -/
structure Cached (s : KVCacheManager) (known : KnownHashes) : Prop where
  wellKept : s.WellKept
  config : OneGroupEvents s.config
  caching : s.blockPool.enableCaching = true
  events : s.blockPool.enableKvCacheEvents = true
  cached : ∀ m ∈ s.singleTypeManagers, m.CachedOk s.blockPool known

variable {s s' : KVCacheManager} {known : KnownHashes} {m m' : SingleTypeManager}
  {p p' : BlockPool} {request : Request} {a : AllocArgs} {requestId : String}

lemma Cached.manager (h : s.Cached known) : ∃ m, s.singleTypeManagers = [m] := by
  refine List.length_eq_one_iff.mp ?_
  rw [h.wellKept.length, h.config.oneGroup]

lemma accounted_single {extra : BlockId → Nat} (h : AllAccounted [m] p extra) :
    m.Accounted p extra := by
  obtain ⟨hacc, -⟩ := allAccounted_cons.mp h
  exact ⟨hacc.size, hacc.pool.congr fun b _ => by simp [heldBy], hacc.tables⟩

/-- The slots of the request hold the tokens whose blocks are hashed: a request is within the
model length, and lookahead tokens are not negative. -/
def WithinSlots (s : KVCacheManager) : KVOp → Prop
  | .start request args | .allocate request args =>
      numTokensToCache request args ≤ s.numTokensNeedSlot request args
  | .cacheBlocks request numComputedTokens => ∀ m ∈ s.singleTypeManagers,
      numComputedTokens ≤ (m.blocksOf request.requestId).length * m.blockSize
  | .free _ | .resetPrefixCache => True

/-- An `allocate_slots` that goes on to hash blocks makes their event. -/
def AllocateStoresEvent (s : KVCacheManager) (request : Request) (a : AllocArgs) : Prop :=
  ∀ s₁, s.removeSkippedBlocks request.requestId request.numComputedTokens = .ok s₁ →
    s₁.numBlocksToAllocate request a ≤ s₁.blockPool.getNumFreeBlocks →
    a.delayCacheBlocks = false →
    ∀ x ∈ s.singleTypeManagers.zip (a.newComputedBlocks.getD s.createEmptyBlockList),
      x.1.StoresEvent request x.2
        (x.1.firstUsefulBlock request.requestId request.numComputedTokens)
        (numTokensToCache request a)

/-- The blocks that the step hashes belong to no LoRA request, and in front of them stands no null
block, neither before the step nor after the removal of skipped blocks in it. -/
def StoresEvents (s : KVCacheManager) : KVOp → Prop
  | .start request args => ∀ hits length, s.getComputedBlocks request = .ok (hits, length) →
      s.AllocateStoresEvent request { args with newComputedBlocks := some hits }
  | .allocate request args =>
      s.AllocateStoresEvent request { args with newComputedBlocks := none }
  | .cacheBlocks request numComputedTokens => ∀ m ∈ s.singleTypeManagers,
      m.StoresEvent request [] 0 numComputedTokens
  | .free _ | .resetPrefixCache => True

/-- `allocate_slots` comes to hash blocks, in state `s'`. -/
def AllocateCaches (s : KVCacheManager) (request : Request) (a : AllocArgs)
    (s' : KVCacheManager) : Prop :=
  a.delayCacheBlocks = false ∧
    ∃ s₁ new, s.removeSkippedBlocks request.requestId request.numComputedTokens = .ok s₁ ∧
      s₁.numBlocksToAllocate request a ≤ s₁.blockPool.getNumFreeBlocks ∧
      s₁.allocateGroups request a (a.newComputedBlocks.getD s.createEmptyBlockList) =
        .ok (new, s')

/-- The operation comes to call `cache_blocks` of its managers in state `s'`. -/
def ComesToCache (s : KVCacheManager) (op : KVOp) (request : Request) (numTokens : Int)
    (s' : KVCacheManager) : Prop :=
  match op with
  | .start request' args => request = request' ∧ numTokens = numTokensToCache request' args ∧
      ∃ hits length, s.getComputedBlocks request' = .ok (hits, length) ∧
        s.AllocateCaches request' { args with newComputedBlocks := some hits } s'
  | .allocate request' args => request = request' ∧ numTokens = numTokensToCache request' args ∧
      s.AllocateCaches request' { args with newComputedBlocks := none } s'
  | .cacheBlocks request' numComputedTokens =>
      request = request' ∧ numTokens = numComputedTokens ∧ s' = s
  | .free _ | .resetPrefixCache => False

/-- The group's table before its blocks are hashed. -/
structure ReadyToCache (s : KVCacheManager) (known : KnownHashes) (request : Request)
    (numTokens : Int) : Prop where
  state : s.Cached known
  keeps : ∀ m ∈ s.singleTypeManagers, m.StoresEvent request [] 0 numTokens
  fits : ∀ m ∈ s.singleTypeManagers,
    numTokens ≤ (m.blocksOf request.requestId).length * m.blockSize

lemma removeSkippedBlocks_cached {n : Int} (h : s.Cached known)
    (hrun : s.removeSkippedBlocks requestId n = .ok s') :
    s'.Cached known ∧ s.blockPool.SameHashes s'.blockPool := by
  obtain ⟨m, hm⟩ := h.manager
  obtain ⟨m', hcall, hm'⟩ := removeSkippedBlocks_single hm hrun
  obtain ⟨hw, hconfig, -⟩ := removeSkippedBlocks_wellKept h.wellKept hrun
  have hacc := h.wellKept.accounted
  rw [hm] at hacc
  have hmc : m.CachedOk s.blockPool known := h.cached m (by simp [hm])
  obtain ⟨hcached, hsame⟩ := SingleTypeManager.removeSkippedBlocks_cachedOk hmc hcall
  obtain ⟨-, hconf, -⟩ :=
    SingleTypeManager.removeSkippedBlocks_accounted (accounted_single hacc) hcall
  refine ⟨⟨hw, hconfig ▸ h.config, hconf.2.1.trans h.caching, hconf.2.2.trans h.events, ?_⟩, hsame⟩
  rw [hm']
  intro m₁ hm₁
  rw [List.mem_singleton.mp hm₁]
  exact hcached

/-- Touched hits, saved hits and new blocks: the table covers the tokens, and the parent is
still in it. -/
lemma allocateGroups_cached {hits new : List (List BlockId)} (h : s.Cached known)
    (hhits : s.GoodHits hits)
    (hal : List.Forall₂ (fun m c => AlignedHits s.blockPool (known request.requestId)
      m.kvCacheGroupId c) s.singleTypeManagers hits)
    (hrun : s.allocateGroups request a hits = .ok (new, s')) :
    s'.Cached known ∧ s.blockPool.Logs (KVCacheEvent.InChain request.blockHashes) s'.blockPool ∧
      ∀ numTokens,
        (∀ x ∈ s.singleTypeManagers.zip hits, x.1.StoresEvent request x.2 0 numTokens) →
        numTokens ≤ s.numTokensNeedSlot request a →
        s'.ReadyToCache known request numTokens := by
  have hw' := allocateGroups_wellKept h.wellKept hhits hrun
  obtain ⟨m, hm⟩ := h.manager
  have hspec := (h.wellKept.spec_mem (m := m) (by simp [hm])).1
  have hmc : m.CachedOk s.blockPool known := h.cached m (by simp [hm])
  obtain ⟨c₀, b₀, m₀, -, -, hm₀, hstep, hcovers⟩ :=
    allocateGroups_at (i := 0) h.wellKept hhits hrun (by rw [hm]; rfl)
  obtain ⟨q, htouch, hrun⟩ := bind_eq_ok.mp hrun
  obtain ⟨ms, hsave, hrun⟩ := bind_eq_ok.mp hrun
  obtain ⟨⟨new', ms₂, p₂⟩, halloc, hret⟩ := bind_eq_ok.mp hrun
  obtain ⟨-, rfl⟩ := Prod.mk.inj (Except.ok.inj hret)
  have hacc := touchHits_accounted h.wellKept hhits htouch
  obtain ⟨hheld, htables, -⟩ := saveNewComputedBlocks_heldBy hsave hhits.length.symm
    (fun _ hc => hhits.nodup hc) h.wellKept.accounted.tables
  have hsaved : AllAccounted ms q fun _ => 0 :=
    ⟨hacc.size, hacc.pool.congr fun b _ => (hheld b).symm, htables⟩
  have hq : s.blockPool.SameHashes q ∧ s.blockPool.SameConfig q := by
    unfold touchHits at htouch
    rw [if_pos h.config.caching] at htouch
    exact ⟨BlockPool.foldlM_touchBlock_sameHashes htouch,
      (BlockPool.foldlM_touchBlock_ok h.wellKept.accounted.pool hhits.inPool htouch).2⟩
  rw [hm] at hsave hal ⊢
  obtain ⟨c, hc⟩ : ∃ c, hits = [c] := by
    obtain ⟨c, rest, -, hnil, hc⟩ := List.forall₂_cons_left_iff.mp hal
    rw [List.forall₂_nil_left_iff.mp hnil] at hc
    exact ⟨c, hc⟩
  subst hc
  obtain ⟨m₁, hsave₁, hsave⟩ := bind_eq_ok.mp hsave
  obtain rfl : [m₁] = ms := Except.ok.inj hsave
  obtain ⟨b, m₂, -, rfl, hcall⟩ := forManagers_single halloc
  have hmc₁ := SingleTypeManager.saveNewComputedBlocks_cachedOk (hmc.sameHashes hq.1)
    (fun j b hj hb => by
      obtain ⟨x, hx, hholds⟩ := (List.forall₂_cons.mp hal).1 j b hj hb
      exact ⟨x, hx, hq.1.map ▸ hholds⟩) hsave₁
  have hacc₁ := accounted_single hsaved
  obtain ⟨hmc₂, hlogs⟩ : m₂.CachedOk p₂ known ∧
      q.Logs (KVCacheEvent.InChain request.blockHashes) p₂ :=
    SingleTypeManager.allocateNewBlocks_cachedOk hmc₁ hacc₁ (hq.2.2.1.trans h.caching)
      (hq.2.2.2.trans h.events) (fun _ => trivial) hcall
  obtain ⟨-, hconf, hspec₂⟩ := SingleTypeManager.allocateNewBlocks_accounted hacc₁ hcall
  have hstate : Cached { s with blockPool := p₂, singleTypeManagers := [m₂] } known :=
    ⟨hw', h.config, hconf.2.1.trans (hq.2.2.1.trans h.caching),
      hconf.2.2.trans (hq.2.2.2.trans h.events), fun _ hx => List.mem_singleton.mp hx ▸ hmc₂⟩
  refine ⟨hstate, hq.1.logs.trans hlogs, fun numTokens hkeep hslots => ⟨hstate, fun _ hx => ?_,
    fun _ hx => ?_⟩⟩
  · rw [List.mem_singleton.mp hx]
    have hkeep₁ := SingleTypeManager.saveNewComputedBlocks_storesEvent
      (hkeep (m, c) (by simp)) hsave₁
    exact SingleTypeManager.allocateNewBlocks_storesEvent hmc₁ hacc₁ hkeep₁ hcall
  · rw [List.mem_singleton.mp hx]
    obtain rfl : m₂ = m₀ := Option.some.inj hm₀
    have hkind : m₂.kvCacheSpec.kind ≠ .cross := by
      rw [(Prod.mk.inj hstep.others.spec).1]
      exact h.config.kind _ hspec
    rw [Covers, tokensFor, if_neg hkind] at hcovers
    exact hslots.trans hcovers

lemma ReadyToCache.coordinatorCacheBlocks {numTokens : Int}
    (h : s.ReadyToCache known request numTokens)
    (hknown : known request.requestId = request.blockHashes) (hn : 0 ≤ numTokens)
    (hrun : s.coordinatorCacheBlocks request numTokens = .ok s') :
    s'.Cached known ∧
      s.blockPool.Logs (KVCacheEvent.InChain request.blockHashes) s'.blockPool := by
  have hw' := coordinatorCacheBlocks_wellKept h.state.wellKept hrun
  obtain ⟨m, hm⟩ := h.state.manager
  have hmem : m ∈ s.singleTypeManagers := by simp [hm]
  have hpos := (h.state.wellKept.spec_mem hmem).2
  have hacc := h.state.wellKept.accounted
  rw [hm] at hacc
  have hacc₁ := accounted_single hacc
  obtain ⟨m', hcall, hm', hconfig⟩ := coordinatorCacheBlocks_single hm hrun
  have hfit : numTokens.fdiv m.blockSize ≤ (m.blocksOf request.requestId).length := by
    rw [Int.fdiv_eq_ediv_of_nonneg _ hpos.le]
    exact Int.ediv_le_of_le_mul hpos (h.fits m hmem)
  obtain ⟨hcached, hlogs⟩ := SingleTypeManager.cacheBlocks_cachedOk (h.state.cached m hmem) hacc₁
    h.state.events hknown hpos.le hn hfit (h.keeps m hmem) hcall
  obtain ⟨-, hconf, -⟩ := SingleTypeManager.cacheBlocks_accounted hacc₁ hcall
  refine ⟨⟨hw', hconfig ▸ h.state.config, hconf.2.1.trans h.state.caching,
    hconf.2.2.trans h.state.events, fun m₁ hm₁ => ?_⟩, hlogs⟩
  rw [hm', List.mem_singleton] at hm₁
  rw [hm₁]
  exact hcached

lemma ReadyToCache.looksUpParent {numTokens : Int} {r : Except PyError (Option BlockHash)}
    (h : s.ReadyToCache known request numTokens)
    (hknown : known request.requestId = request.blockHashes) (hm : m ∈ s.singleTypeManagers)
    (hr : m.LooksUpParent s.blockPool request numTokens r) : r ≠ .error .assertionError ∧
      BlockPool.eventLoraId request.loraRequest ≠ .error .attributeError :=
  (h.state.cached m hm).looksUpParent hknown (h.keeps m hm) hr

/-- The hits of an `allocate_slots` fit the tables: they are good, and the map holds them under
the hashes of the request. -/
structure HitsFor (s : KVCacheManager) (known : KnownHashes) (request : Request)
    (a : AllocArgs) : Prop where
  good : s.GoodHits (a.newComputedBlocks.getD s.createEmptyBlockList)
  aligned : List.Forall₂ (fun m c => AlignedHits s.blockPool (known request.requestId)
    m.kvCacheGroupId c) s.singleTypeManagers (a.newComputedBlocks.getD s.createEmptyBlockList)

lemma removeSkippedBlocks_hits {s₁ : KVCacheManager} (h : s.Cached known)
    (hhits : s.HitsFor known request a)
    (hrun : s.removeSkippedBlocks request.requestId request.numComputedTokens = .ok s₁) :
    s₁.HitsFor known request a ∧ ∀ numTokens,
      (∀ x ∈ s.singleTypeManagers.zip (a.newComputedBlocks.getD s.createEmptyBlockList),
          x.1.StoresEvent request x.2
            (x.1.firstUsefulBlock request.requestId request.numComputedTokens) numTokens) →
      ∀ x ∈ s₁.singleTypeManagers.zip (a.newComputedBlocks.getD s₁.createEmptyBlockList),
        x.1.StoresEvent request x.2 0 numTokens := by
  obtain ⟨-, hconfig, hgood⟩ := removeSkippedBlocks_wellKept h.wellKept hrun
  have hempty : s₁.createEmptyBlockList = s.createEmptyBlockList := by
    rw [createEmptyBlockList, createEmptyBlockList, hconfig]
  obtain ⟨m, hm⟩ := h.manager
  obtain ⟨m', hcall, hm'⟩ := removeSkippedBlocks_single hm hrun
  have hmc : m.CachedOk s.blockPool known := h.cached m (by simp [hm])
  obtain ⟨-, hsame⟩ := removeSkippedBlocks_cached h hrun
  obtain ⟨-, -, hspec⟩ := SingleTypeManager.removeSkippedBlocks_spec hcall
  obtain ⟨hgoodHits, hal⟩ := hhits
  obtain ⟨c, hc⟩ : ∃ c, a.newComputedBlocks.getD s.createEmptyBlockList = [c] := by
    rw [hm, List.forall₂_cons_left_iff] at hal
    obtain ⟨c, rest, -, hnil, hc⟩ := hal
    rw [List.forall₂_nil_left_iff.mp hnil] at hc
    exact ⟨c, hc⟩
  rw [hc] at hgoodHits hal
  rw [hm, List.forall₂_cons] at hal
  refine ⟨⟨?_, ?_⟩, fun numTokens hkeep => ?_⟩
  · rw [hempty, hc]
    exact hgood _ hgoodHits
  · rw [hempty, hc, hm', List.forall₂_cons]
    refine ⟨fun j b hj hb => ?_, .nil⟩
    obtain ⟨x, hx, hholds⟩ := hal.1 j b hj hb
    rw [(Prod.mk.inj (Prod.mk.inj hspec).2).2, hsame.map]
    exact ⟨x, hx, hholds⟩
  · rw [hempty, hc, hm', List.zip_cons_cons, List.zip_nil_left, List.forall_mem_singleton]
    rw [hc, hm, List.zip_cons_cons, List.zip_nil_left, List.forall_mem_singleton] at hkeep
    exact SingleTypeManager.removeSkippedBlocks_storesEvent hmc hkeep hcall

lemma numTokensNeedSlot_congr {s₁ : KVCacheManager} (h : s₁.config = s.config) :
    s₁.numTokensNeedSlot request a = s.numTokensNeedSlot request a := by
  rw [numTokensNeedSlot, h, numTokensNeedSlot]

lemma AllocateCaches.ready (h : s.Cached known) (hhits : s.HitsFor known request a)
    (hkeep : s.AllocateStoresEvent request a)
    (hslots : numTokensToCache request a ≤ s.numTokensNeedSlot request a)
    (hcomes : s.AllocateCaches request a s') :
    s'.ReadyToCache known request (numTokensToCache request a) := by
  obtain ⟨hdelay, s₁, new, hremove, hpass, hgroups⟩ := hcomes
  obtain ⟨h₁, -⟩ := removeSkippedBlocks_cached h hremove
  obtain ⟨-, hconfig, -⟩ := removeSkippedBlocks_wellKept h.wellKept hremove
  have hempty : s₁.createEmptyBlockList = s.createEmptyBlockList := by
    rw [createEmptyBlockList, createEmptyBlockList, hconfig]
  obtain ⟨hhits₁, hkeep₁⟩ := removeSkippedBlocks_hits h hhits hremove
  rw [← hempty] at hgroups
  exact (allocateGroups_cached h₁ hhits₁.good hhits₁.aligned hgroups).2.2 _
    (hkeep₁ _ (hkeep s₁ hremove hpass hdelay)) (by rwa [numTokensNeedSlot_congr hconfig])

lemma allocateSlots_cached {new : Option (List (List BlockId))} (h : s.Cached known)
    (hknown : known request.requestId = request.blockHashes)
    (hhits : s.HitsFor known request a) (hn : 0 ≤ numTokensToCache request a)
    (hkeep : s.AllocateStoresEvent request a)
    (hslots : numTokensToCache request a ≤ s.numTokensNeedSlot request a)
    (hrun : s.allocateSlots request a = .ok (new, s')) :
    s'.Cached known ∧
      s.blockPool.Logs (KVCacheEvent.InChain request.blockHashes) s'.blockPool := by
  unfold allocateSlots at hrun
  split_ifs at hrun
  obtain ⟨s₁, hremove, hrun⟩ := bind_eq_ok.mp hrun
  obtain ⟨h₁, hsame⟩ := removeSkippedBlocks_cached h hremove
  obtain ⟨-, hconfig, -⟩ := removeSkippedBlocks_wellKept h.wellKept hremove
  have hempty : s₁.createEmptyBlockList = s.createEmptyBlockList := by
    rw [createEmptyBlockList, createEmptyBlockList, hconfig]
  simp only at hrun
  split_ifs at hrun with hcheck
  · obtain ⟨-, rfl⟩ := Prod.mk.inj (Except.ok.inj hrun)
    exact ⟨h₁, hsame.logs⟩
  obtain ⟨⟨new', s₂⟩, hchecked, hret⟩ := bind_eq_ok.mp hrun
  obtain ⟨-, rfl⟩ := Prod.mk.inj (Except.ok.inj hret)
  obtain ⟨⟨new'', s₃⟩, hgroups, hrun⟩ := bind_eq_ok.mp hchecked
  obtain ⟨hhits₁, -⟩ := removeSkippedBlocks_hits h hhits hremove
  have hgroups₁ := hgroups
  rw [← hempty] at hgroups₁
  obtain ⟨h₃, hlogs, -⟩ :=
    allocateGroups_cached h₁ hhits₁.good hhits₁.aligned hgroups₁
  have hlogs₃ := hsame.logs.trans hlogs
  simp only at hrun
  split_ifs at hrun with hskip
  · obtain ⟨-, rfl⟩ := Prod.mk.inj (Except.ok.inj hrun)
    exact ⟨h₃, hlogs₃⟩
  · obtain ⟨s₄, hcache, hret⟩ := bind_eq_ok.mp hrun
    obtain ⟨-, rfl⟩ := Prod.mk.inj (Except.ok.inj hret)
    have hdelay : a.delayCacheBlocks = false := by
      by_contra hdelay
      exact hskip (Or.inr (by simpa using hdelay))
    have hpass : s₁.numBlocksToAllocate request a ≤ s₁.blockPool.getNumFreeBlocks := by
      rw [numBlocksToAllocate, hempty]
      exact not_lt.mp hcheck
    have hready := AllocateCaches.ready h hhits hkeep hslots
      ⟨hdelay, s₁, new'', hremove, hpass, hgroups⟩
    obtain ⟨h₄, hlogs₄⟩ := hready.coordinatorCacheBlocks hknown hn hcache
    exact ⟨h₄, hlogs₃.trans hlogs₄⟩

/-- The block hashes of the request of an operation. -/
def opHashes : KVOp → List BlockHash
  | .start request _ | .allocate request _ | .cacheBlocks request _ => request.blockHashes
  | .free _ | .resetPrefixCache => []

lemma Cached.learn_hashes (h : s.Cached known) (hgrow : s.HashesGrow known request) :
    s.Cached fun id => if id = request.requestId then request.blockHashes else known id := by
  refine ⟨h.wellKept, h.config, h.caching, h.events, fun m hm => (h.cached m hm).extend fun id => ?_⟩
  by_cases hid : id = request.requestId
  · subst hid
    rw [if_pos rfl]
    exact hgrow.imp_right fun hempty => hempty m hm
  · rw [if_neg hid]
    exact .inl (List.prefix_refl _)

lemma hitsFor_start {cfg : HashConfig} (hcfg : cfg.CollisionFree) {args : AllocArgs}
    {hits : List (List BlockId)} {length : Int} (h : s.Cached known)
    (hknown : known request.requestId = request.blockHashes)
    (hmade : MadeHashes cfg request.blockHashes)
    (hcomputed : s.getComputedBlocks request = .ok (hits, length)) :
    s.HitsFor known request { args with newComputedBlocks := some hits } where
  good := getComputedBlocks_goodHits h.wellKept (hmade.chained.nodup hcfg) hcomputed
  aligned := by
    rw [hknown]
    exact alignedHits_of_aligned h.wellKept
      (getComputedBlocks_aligned h.wellKept.coordinator h.wellKept.length hcomputed)

lemma hitsFor_allocate {args : AllocArgs} (h : s.Cached known) :
    s.HitsFor known request { args with newComputedBlocks := none } where
  good := goodHits_empty h.wellKept
  aligned := by
    refine forall₂_of_length (goodHits_empty h.wellKept).length.symm fun m _ c hc => ?_
    obtain ⟨-, -, rfl⟩ := List.mem_map.mp hc
    exact alignedHits_nil

lemma runOp_cached {cfg : HashConfig} (hcfg : cfg.CollisionFree) {op : KVOp} (h : s.Cached known)
    (hissued : s.AsIssued cfg known op) (hslots : s.WithinSlots op) (hkeep : s.StoresEvents op)
    (hrun : s.runOp op = .ok s') : s'.Cached (learn known op) ∧
      s.blockPool.Logs (KVCacheEvent.InChain (opHashes op)) s'.blockPool := by
  cases op with
  | start request args =>
    obtain ⟨hmade, hgrow, hn⟩ := hissued
    obtain ⟨⟨hits, length⟩, hcomputed, hrun⟩ := bind_eq_ok.mp hrun
    obtain ⟨⟨new, s₁⟩, halloc, hret⟩ := bind_eq_ok.mp hrun
    obtain rfl := Except.ok.inj hret
    have hlearned := h.learn_hashes hgrow
    exact allocateSlots_cached (a := { args with newComputedBlocks := some hits }) hlearned
      (if_pos rfl) (hitsFor_start hcfg hlearned (if_pos rfl) hmade hcomputed) hn
      (hkeep hits length hcomputed) hslots halloc
  | allocate request args =>
    obtain ⟨-, hgrow, hn⟩ := hissued
    obtain ⟨⟨new, s₁⟩, halloc, hret⟩ := bind_eq_ok.mp hrun
    obtain rfl := Except.ok.inj hret
    have hlearned := h.learn_hashes hgrow
    exact allocateSlots_cached (a := { args with newComputedBlocks := none }) hlearned
      (if_pos rfl) (hitsFor_allocate hlearned) hn hkeep hslots halloc
  | cacheBlocks request n =>
    obtain ⟨hgrow, hn⟩ := hissued
    simp only [runOp, cacheBlocks] at hrun
    rw [if_pos h.config.caching] at hrun
    exact ReadyToCache.coordinatorCacheBlocks ⟨h.learn_hashes hgrow, hkeep, hslots⟩ (if_pos rfl) hn
      hrun
  | free requestId =>
    obtain rfl := Except.ok.inj hrun
    obtain ⟨m, hm⟩ := h.manager
    obtain ⟨hall, hconf, hspec⟩ := freeLoop_accounted requestId h.wellKept.accounted
    have hmc : m.CachedOk s.blockPool known := h.cached m (by simp [hm])
    have hloop : freeLoop requestId s.singleTypeManagers s.blockPool =
        ([(m.free s.blockPool requestId).1], (m.free s.blockPool requestId).2) := by
      rw [hm]
      rfl
    refine ⟨⟨h.wellKept.update hall hspec, h.config, hconf.2.1.trans h.caching,
      hconf.2.2.trans h.events, ?_⟩, ?_⟩
    · show ∀ m' ∈ (freeLoop requestId s.singleTypeManagers s.blockPool).1,
        m'.CachedOk (freeLoop requestId s.singleTypeManagers s.blockPool).2 known
      rw [hloop, List.forall_mem_singleton]
      exact SingleTypeManager.free_cachedOk requestId hmc
    · show s.blockPool.Logs _ (freeLoop requestId s.singleTypeManagers s.blockPool).2
      rw [hloop]
      exact (BlockPool.freeBlocks_sameHashes s.blockPool _).logs
  | resetPrefixCache =>
    obtain rfl := Except.ok.inj hrun
    obtain ⟨m, hm⟩ := h.manager
    have hw : s.resetPrefixCache.2.WellKept :=
      @runOp_wellKept _ _ _ hcfg .resetPrefixCache h.wellKept trivial rfl
    obtain ⟨-, hconf⟩ := BlockPool.resetPrefixCache_ok h.wellKept.accounted.pool
    have hacc := h.wellKept.accounted
    rw [hm] at hacc
    refine ⟨⟨hw, h.config, hconf.2.1.trans h.caching, hconf.2.2.trans h.events, fun m' hm' => ?_⟩,
      BlockPool.resetPrefixCache_logs h.events trivial⟩
    obtain rfl : m' = m := by simpa [resetPrefixCache, hm] using hm'
    exact (h.cached m' (by simp [hm])).reset (accounted_single hacc)

lemma ComesToCache.looksUpParent {cfg : HashConfig} (hcfg : cfg.CollisionFree) {op : KVOp}
    {numTokens : Int} {r : Except PyError (Option BlockHash)} (h : s.Cached known)
    (hissued : s.AsIssued cfg known op) (hslots : s.WithinSlots op) (hkeep : s.StoresEvents op)
    (hcomes : s.ComesToCache op request numTokens s') (hm : m ∈ s'.singleTypeManagers)
    (hr : m.LooksUpParent s'.blockPool request numTokens r) : r ≠ .error .assertionError ∧
      BlockPool.eventLoraId request.loraRequest ≠ .error .attributeError := by
  cases op with
  | start request' args =>
    obtain ⟨hmade, hgrow, -⟩ := hissued
    obtain ⟨rfl, rfl, hits, length, hcomputed, hcaches⟩ := hcomes
    have hlearned := h.learn_hashes hgrow
    have hready := hcaches.ready hlearned (hitsFor_start hcfg hlearned (if_pos rfl) hmade hcomputed)
      (hkeep hits length hcomputed) hslots
    exact hready.looksUpParent (if_pos rfl) hm hr
  | allocate request' args =>
    obtain ⟨-, hgrow, -⟩ := hissued
    obtain ⟨rfl, rfl, hcaches⟩ := hcomes
    have hlearned := h.learn_hashes hgrow
    have hready := hcaches.ready hlearned (hitsFor_allocate hlearned) hkeep hslots
    exact hready.looksUpParent (if_pos rfl) hm hr
  | cacheBlocks request' n =>
    obtain ⟨hgrow, -⟩ := hissued
    obtain ⟨rfl, rfl, rfl⟩ := hcomes
    have hready : s'.ReadyToCache _ request numTokens := ⟨h.learn_hashes hgrow, hkeep, hslots⟩
    exact hready.looksUpParent (if_pos rfl) hm hr
  | free requestId => exact hcomes.elim
  | resetPrefixCache => exact hcomes.elim

end KVCacheManager

end VllmV1
