import VllmMmaEmu.KvCache.Isolation

/-!
# The prefix cache over whole runs

A run carries the block hashes of the requests along. As long as no step hashes a null block,
hashes and map agree, held blocks carry the hashes of their places, and shared blocks are
hashed. A sliding window can drop blocks that are not hashed yet; hashing their places then
gives the null block a hash.
-/

namespace VllmV1

open Python RefCount

namespace KVCacheManager

variable {s s' : KVCacheManager} {known known' : KnownHashes} {ms ms' : List SingleTypeManager}
  {p : BlockPool} {requestId : String}

/-- What holds along a run: the accounting, and the hashes of all entries. -/
structure Isolated (s : KVCacheManager) (known : KnownHashes) : Prop where
  wellKept : s.WellKept
  tagged : AllTagged s.singleTypeManagers s.blockPool known (fun _ => 0) fun _ _ => False

lemma WellKept.groupIds (h : s.WellKept) :
    s.singleTypeManagers.map SingleTypeManager.kvCacheGroupId =
      List.range s.config.kvCacheGroups.length := by
  have hids := congrArg (List.map fun x : KVCacheSpec × Int × Nat => x.2.2) h.shapes
  rw [List.map_map, List.map_map] at hids
  rw [List.range_eq_range', ← List.zipIdx_map_snd 0 s.config.kvCacheGroups]
  exact hids

lemma removeSkippedBlocks_isolated {n : Int} (h : s.Isolated known)
    (hrun : s.removeSkippedBlocks requestId n = .ok s') : s'.Isolated known := by
  refine ⟨(removeSkippedBlocks_wellKept h.wellKept hrun).1, ?_⟩
  obtain ⟨⟨us, ms, p⟩, hloop, hret⟩ := bind_eq_ok.mp hrun
  obtain rfl := Except.ok.inj hret
  exact (forManagers_tagged (fun _ => True) (fun _ => True)
    (fun m p u m' p' extra others _ htag hcall =>
      ⟨SingleTypeManager.removeSkippedBlocks_tagged htag (withUnit_eq_ok hcall), trivial⟩)
    h.tagged (fun _ _ => trivial) hloop).1

lemma removeSkippedBlocks_hash {n : Int} (hrun : s.removeSkippedBlocks requestId n = .ok s') :
    s'.blockPool.cachedBlockHashToBlock = s.blockPool.cachedBlockHashToBlock := by
  obtain ⟨⟨us, ms, p⟩, hloop, hret⟩ := bind_eq_ok.mp hrun
  obtain rfl := Except.ok.inj hret
  have hgen : ∀ (ms : List SingleTypeManager) {q q' : BlockPool} {us : List Unit}
      {ms' : List SingleTypeManager},
      forManagers (fun m p => withUnit (m.removeSkippedBlocks p requestId n)) ms q =
        .ok (us, ms', q') → q'.cachedBlockHashToBlock = q.cachedBlockHashToBlock := by
    intro ms
    induction ms with
    | nil =>
      intro q q' us ms' hrun
      obtain ⟨-, -, rfl⟩ : [] = us ∧ [] = ms' ∧ q = q' := by simpa [forManagers] using hrun
      rfl
    | cons m ms ih =>
      intro q q' us ms' hrun
      obtain ⟨⟨u, m₁, q₁⟩, hm, hrun⟩ := bind_eq_ok.mp hrun
      obtain ⟨⟨us', ms₁, q₂⟩, hms, hret⟩ := bind_eq_ok.mp hrun
      obtain ⟨-, -, rfl⟩ : u :: us' = us ∧ m₁ :: ms₁ = ms' ∧ q₂ = q' := by simpa using hret
      obtain ⟨⟨blocks, removed⟩, -, hret⟩ := bind_eq_ok.mp (withUnit_eq_ok hm)
      obtain ⟨-, rfl⟩ := Prod.mk.inj (Except.ok.inj hret)
      exact (ih hms).trans (BlockPool.freeBlocks_hash q removed).2
  exact hgen _ hloop

lemma saveNewComputedBlocks_entryOf {hits : List (List BlockId)}
    (hrun : saveNewComputedBlocks requestId ms hits = .ok ms') {b : BlockId}
    {k : Option BlockHashWithGroupId} (he : EntryOf ms' known b k) :
    EntryOf ms known b k ∨ HitEntry known requestId ms hits b k := by
  induction ms generalizing hits ms' with
  | nil =>
    obtain rfl := Except.ok.inj hrun
    exact Or.inl he
  | cons m ms ih =>
    cases hits with
    | nil => cases hrun
    | cons c hits =>
      obtain ⟨m₁, hm, hrun⟩ := bind_eq_ok.mp hrun
      obtain ⟨ms₁, hms, hret⟩ := bind_eq_ok.mp hrun
      obtain rfl := Except.ok.inj hret
      rcases entryOf_cons.mp he with he | he
      · rcases SingleTypeManager.saveNewComputedBlocks_entry hm he with he | ⟨j, hj, hk⟩
        · exact Or.inl (entryOf_cons.mpr (Or.inl he))
        · exact Or.inr ⟨(m, c), by simp, j, hj, hk⟩
      · rcases ih hms he with he | ⟨x, hx, j, hj, hk⟩
        · exact Or.inl (entryOf_cons.mpr (Or.inr he))
        · exact Or.inr ⟨x, by simp [hx], j, hj, hk⟩

lemma allocateGroups_isolated {request : Request} {a : AllocArgs}
    {hits new : List (List BlockId)} {numTokensToCache : Int} (h : s.Isolated known)
    (hhits : s.GoodHits hits)
    (hal : List.Forall₂ (fun m c => AlignedHits s.blockPool (known request.requestId)
      m.kvCacheGroupId c) s.singleTypeManagers hits)
    (hnull : ∀ m ∈ s.singleTypeManagers, m.NoNullToCache request.requestId numTokensToCache)
    (hrun : s.allocateGroups request a hits = .ok (new, s')) :
    s'.Isolated known ∧
      ∀ m ∈ s'.singleTypeManagers, m.NoNullToCache request.requestId numTokensToCache := by
  have hw' := allocateGroups_wellKept h.wellKept hhits hrun
  obtain ⟨pool, htouch, hrun⟩ := bind_eq_ok.mp hrun
  obtain ⟨ms, hsave, hrun⟩ := bind_eq_ok.mp hrun
  obtain ⟨⟨new', ms₂, pool₂⟩, halloc, hret⟩ := bind_eq_ok.mp hrun
  obtain ⟨-, rfl⟩ := Prod.mk.inj (Except.ok.inj hret)
  have hacc := touchHits_accounted h.wellKept hhits htouch
  have hhash : s.blockPool.SameConfig pool ∧ pool.blockHash = s.blockPool.blockHash ∧
      pool.cachedBlockHashToBlock = s.blockPool.cachedBlockHashToBlock := by
    unfold touchHits at htouch
    split_ifs at htouch
    · exact ⟨(BlockPool.foldlM_touchBlock_ok h.wellKept.accounted.pool hhits.inPool htouch).2,
        BlockPool.foldlM_touchBlock_hash htouch⟩
    · obtain ⟨_, -, hret⟩ := bind_eq_ok.mp htouch
      obtain rfl := Except.ok.inj hret
      exact ⟨⟨rfl, rfl, rfl⟩, rfl, rfl⟩
  have htouched := h.tagged.touched hal hacc hhash.1 hhash.2
  obtain ⟨hheld, htables, -⟩ := saveNewComputedBlocks_heldBy hsave hhits.length.symm
    (fun _ hc => hhits.nodup hc) h.wellKept.accounted.tables
  have hsaved : AllTagged ms pool known (fun _ => 0) fun _ _ => False := by
    refine ⟨⟨hacc.size, hacc.pool.congr fun b _ => (hheld b).symm, htables⟩, htouched.caching,
      ?_, fun _ _ _ he => he.elim, ?_⟩
    · refine htouched.hashes.mono (fun b _ => (hheld b).le) fun b k _ he => ?_
      exact saveNewComputedBlocks_entryOf hsave (he.resolve_right id)
    · intro m hm id n hn
      obtain ⟨m₀, hm₀, c, hcall⟩ := saveNewComputedBlocks_mem hsave hm
      exact SingleTypeManager.saveNewComputedBlocks_cached hcall (h.tagged.cached m₀ hm₀) hn
  have hnull' : ∀ m ∈ ms, m.NoNullToCache request.requestId numTokensToCache := by
    intro m hm
    obtain ⟨m₀, hm₀, c, hcall⟩ := saveNewComputedBlocks_mem hsave hm
    exact SingleTypeManager.saveNewComputedBlocks_noNull hcall (hnull m₀ hm₀)
  obtain ⟨htag, hpost⟩ := forManagers_tagged
    (fun m => m.NoNullToCache request.requestId numTokensToCache)
    (fun m => m.NoNullToCache request.requestId numTokensToCache)
    (fun m p new m' p' extra others hpre htag hcall =>
      ⟨SingleTypeManager.allocateNewBlocks_tagged htag hcall,
        SingleTypeManager.allocateNewBlocks_noNull htag.toAccounted hpre hcall⟩)
    hsaved hnull' halloc
  exact ⟨⟨hw', htag⟩, hpost⟩

lemma coordinatorCacheBlocks_isolated {request : Request} {n : Int} (h : s.Isolated known)
    (hknown : known request.requestId = request.blockHashes) (hn : 0 ≤ n)
    (hnull : ∀ m ∈ s.singleTypeManagers, m.NoNullToCache request.requestId n)
    (hrun : s.coordinatorCacheBlocks request n = .ok s') : s'.Isolated known := by
  refine ⟨coordinatorCacheBlocks_wellKept h.wellKept hrun, ?_⟩
  obtain ⟨⟨us, ms, p⟩, hloop, hret⟩ := bind_eq_ok.mp hrun
  obtain rfl := Except.ok.inj hret
  exact (forManagers_tagged
    (fun m => 0 ≤ m.blockSize ∧ m.NoNullToCache request.requestId n)
    (fun _ => True)
    (fun m p u m' p' extra others hpre htag hcall =>
      ⟨SingleTypeManager.cacheBlocks_tagged htag hpre.1 hknown hn hpre.2 (withUnit_eq_ok hcall),
        trivial⟩)
    h.tagged (fun m hm => ⟨(h.wellKept.spec_mem hm).2.le, hnull m hm⟩) hloop).1

/-- The tokens whose blocks `allocate_slots` hashes. -/
def numTokensToCache (request : Request) (a : AllocArgs) : Int :=
  min (request.numComputedTokens + a.numNewComputedTokens + a.numNewTokens) request.numTokens

/-- An `allocate_slots` that passes its check finds no null block where it hashes. -/
def AllocateFindsNoNull (s : KVCacheManager) (request : Request) (a : AllocArgs) : Prop :=
  ∀ s₁, s.removeSkippedBlocks request.requestId request.numComputedTokens = .ok s₁ →
    s₁.numBlocksToAllocate request a ≤ s₁.blockPool.getNumFreeBlocks →
    a.delayCacheBlocks = false →
    ∀ m ∈ s₁.singleTypeManagers, m.NoNullToCache request.requestId (numTokensToCache request a)

/-- No null block stands at a place that the step hashes. -/
def HashesNoNull (s : KVCacheManager) : KVOp → Prop
  | .start request args => ∀ hits length, s.getComputedBlocks request = .ok (hits, length) →
      s.AllocateFindsNoNull request { args with newComputedBlocks := some hits }
  | .allocate request args =>
      s.AllocateFindsNoNull request { args with newComputedBlocks := none }
  | .cacheBlocks request numComputedTokens =>
      ∀ m ∈ s.singleTypeManagers, m.NoNullToCache request.requestId numComputedTokens
  | .free _ | .resetPrefixCache => True

/-- The hashes of a request that has tables only grow. -/
def HashesGrow (s : KVCacheManager) (known : KnownHashes) (request : Request) : Prop :=
  known request.requestId <+: request.blockHashes ∨
    ∀ m ∈ s.singleTypeManagers, m.blocksOf request.requestId = []

/-- The operations as the scheduler issues them: block hashes made by the hasher, which only
grow while the request has tables, and counts of tokens that are not negative. -/
def AsIssued (cfg : HashConfig) (s : KVCacheManager) (known : KnownHashes) : KVOp → Prop
  | .start request args | .allocate request args => MadeHashes cfg request.blockHashes ∧
      s.HashesGrow known request ∧ 0 ≤ numTokensToCache request args
  | .cacheBlocks request numComputedTokens =>
      s.HashesGrow known request ∧ 0 ≤ numComputedTokens
  | .free _ | .resetPrefixCache => True

/-- The block hashes of the requests after an operation. -/
def learn (known : KnownHashes) : KVOp → KnownHashes
  | .start request _ | .allocate request _ | .cacheBlocks request _ =>
      fun id => if id = request.requestId then request.blockHashes else known id
  | .free _ | .resetPrefixCache => known

/-- The states of runs from a new manager, with the block hashes of the requests. -/
abbrev ReachedWith (config : KVCacheConfig)
    (allowed : KVCacheManager → KnownHashes → KVOp → Prop) :
    KVCacheManager × KnownHashes → Prop :=
  Runs.Reached (fun x => init config = .ok x.1 ∧ x.2 = fun _ => []) (fun x => allowed x.1 x.2)
    fun x op x' => x.1.runOp op = .ok x'.1 ∧ x'.2 = learn x.2 op

lemma ReachedWith.next {config : KVCacheConfig}
    {allowed : KVCacheManager → KnownHashes → KVOp → Prop} {op : KVOp}
    (h : ReachedWith config allowed (s, known)) (hrun : s.runOp op = .ok s')
    (hop : allowed s known op) : ReachedWith config allowed (s', learn known op) :=
  .step h hop ⟨hrun, rfl⟩

lemma init_isolated {config : KVCacheConfig} (hcaching : config.enableCaching = true)
    (h : init config = .ok s) : s.Isolated fun _ => [] := by
  have hw := init_wellKept h
  have hheld := init_heldBy h
  obtain ⟨pool, coordinator, hpool, -, rfl⟩ := init_eq h
  obtain ⟨_, -, hpool⟩ := bind_eq_ok.mp hpool
  obtain rfl := Except.ok.inj hpool
  refine ⟨hw, hw.accounted, hcaching, ⟨fun b k => ?_, rfl, ?_, ?_⟩, fun _ _ _ he => he.elim, ?_⟩
  · constructor
    · intro hnone
      cases hnone
    · rintro ⟨c, hc, -⟩
      cases hc
  · intro b k hash _ _ hsome
    cases hsome
  · intro b _ hle
    rw [hheld b] at hle
    omega
  · intro m hm id n hn
    obtain ⟨⟨spec, i⟩, -, rfl⟩ := List.mem_map.mp hm
    cases hn

lemma Isolated.learn_hashes {request : Request} (h : s.Isolated known)
    (hgrow : s.HashesGrow known request) :
    s.Isolated fun id => if id = request.requestId then request.blockHashes else known id := by
  refine ⟨h.wellKept, h.tagged.extend fun id => ?_⟩
  by_cases hid : id = request.requestId
  · subst hid
    rw [if_pos rfl]
    exact hgrow
  · rw [if_neg hid]
    exact Or.inl (List.prefix_refl _)

lemma allocateSlots_isolated {request : Request} {a : AllocArgs}
    {new : Option (List (List BlockId))} (h : s.Isolated known)
    (hknown : known request.requestId = request.blockHashes)
    (hhits : s.GoodHits (a.newComputedBlocks.getD s.createEmptyBlockList))
    (hal : List.Forall₂ (fun m c => AlignedHits s.blockPool request.blockHashes
      m.kvCacheGroupId c) s.singleTypeManagers (a.newComputedBlocks.getD s.createEmptyBlockList))
    (htokens : 0 ≤ numTokensToCache request a) (hnull : s.AllocateFindsNoNull request a)
    (hrun : s.allocateSlots request a = .ok (new, s')) : s'.Isolated known := by
  unfold allocateSlots at hrun
  split_ifs at hrun
  obtain ⟨s₁, hremove, hrun⟩ := bind_eq_ok.mp hrun
  have h₁ := removeSkippedBlocks_isolated h hremove
  obtain ⟨-, hconfig, hgood⟩ := removeSkippedBlocks_wellKept h.wellKept hremove
  have hempty : s₁.createEmptyBlockList = s.createEmptyBlockList := by
    rw [createEmptyBlockList, createEmptyBlockList, hconfig]
  have hal₁ : List.Forall₂ (fun m c => AlignedHits s₁.blockPool (known request.requestId)
      m.kvCacheGroupId c) s₁.singleTypeManagers
      (a.newComputedBlocks.getD s.createEmptyBlockList) := by
    refine (forall₂_sameTables (fun m m' c hsame => ?_)
      (removeSkippedBlocks_sameTables hremove)).mp (hal.imp fun m c hmc => ?_)
    · rw [(Prod.mk.inj (Prod.mk.inj hsame.2.2).2).2]
    · intro j b hj hb
      obtain ⟨x, hx, hholds⟩ := hmc j b hj hb
      rw [hknown, removeSkippedBlocks_hash hremove]
      exact ⟨x, hx, hholds⟩
  simp only at hrun
  split_ifs at hrun with hcheck
  · obtain ⟨-, rfl⟩ := Prod.mk.inj (Except.ok.inj hrun)
    exact h₁
  · have hpass : s₁.numBlocksToAllocate request a ≤ s₁.blockPool.getNumFreeBlocks := by
      rw [numBlocksToAllocate, hempty]
      exact not_lt.mp hcheck
    obtain ⟨⟨new', s₂⟩, hchecked, hret⟩ := bind_eq_ok.mp hrun
    obtain ⟨-, rfl⟩ := Prod.mk.inj (Except.ok.inj hret)
    obtain ⟨⟨new'', s₃⟩, hgroups, hrun⟩ := bind_eq_ok.mp hchecked
    simp only at hrun
    split_ifs at hrun with hskip
    · obtain ⟨-, rfl⟩ := Prod.mk.inj (Except.ok.inj hrun)
      -- nothing is hashed, so nothing is asked of the null blocks
      have hnone : ∀ m ∈ s₁.singleTypeManagers, m.NoNullToCache request.requestId 0 := by
        intro m hm numCached hnum j hle hlt
        have := h₁.tagged.cached m hm _ _ hnum
        rw [Int.zero_fdiv] at hlt
        omega
      exact (allocateGroups_isolated h₁ (hgood _ hhits) hal₁ hnone hgroups).1
    · obtain ⟨s₄, hcache, hret⟩ := bind_eq_ok.mp hrun
      obtain ⟨-, rfl⟩ := Prod.mk.inj (Except.ok.inj hret)
      have hdelay : a.delayCacheBlocks = false := by
        by_contra hdelay
        exact hskip (Or.inr (by simpa using hdelay))
      obtain ⟨h₃, hnull₃⟩ := allocateGroups_isolated h₁ (hgood _ hhits) hal₁
        (hnull s₁ hremove hpass hdelay) hgroups
      exact coordinatorCacheBlocks_isolated h₃ hknown htokens hnull₃ hcache

lemma alignedHits_of_aligned {hashes : List BlockHash} {hits : List (List BlockId)}
    (h : s.WellKept) (hal : List.Forall₂ (AlignedHits s.blockPool hashes)
      (List.range s.config.kvCacheGroups.length) hits) :
    List.Forall₂ (fun m c => AlignedHits s.blockPool hashes m.kvCacheGroupId c)
      s.singleTypeManagers hits := by
  rw [← h.groupIds, List.forall₂_map_left_iff] at hal
  exact hal

lemma runOp_isolated {cfg : HashConfig} (hcfg : cfg.CollisionFree) {op : KVOp}
    (h : s.Isolated known) (hissued : s.AsIssued cfg known op) (hnull : s.HashesNoNull op)
    (hrun : s.runOp op = .ok s') : s'.Isolated (learn known op) := by
  cases op with
  | start request args =>
    obtain ⟨hmade, hgrow, htokens⟩ := hissued
    obtain ⟨⟨hits, length⟩, hcomputed, hrun⟩ := bind_eq_ok.mp hrun
    obtain ⟨⟨new, s₁⟩, halloc, hret⟩ := bind_eq_ok.mp hrun
    obtain rfl := Except.ok.inj hret
    have hal := getComputedBlocks_aligned h.wellKept.coordinator h.wellKept.length hcomputed
    exact allocateSlots_isolated (a := { args with newComputedBlocks := some hits })
      (h.learn_hashes hgrow) (if_pos rfl)
      (getComputedBlocks_goodHits h.wellKept (hmade.chained.nodup hcfg) hcomputed)
      (alignedHits_of_aligned h.wellKept hal) htokens (hnull hits length hcomputed) halloc
  | allocate request args =>
    obtain ⟨-, hgrow, htokens⟩ := hissued
    obtain ⟨⟨new, s₁⟩, halloc, hret⟩ := bind_eq_ok.mp hrun
    obtain rfl := Except.ok.inj hret
    have hal : List.Forall₂ (fun m c => AlignedHits s.blockPool request.blockHashes
        m.kvCacheGroupId c) s.singleTypeManagers s.createEmptyBlockList := by
      refine forall₂_of_length (goodHits_empty h.wellKept).length.symm fun m _ c hc => ?_
      obtain ⟨-, -, rfl⟩ := List.mem_map.mp hc
      exact alignedHits_nil
    exact allocateSlots_isolated (a := { args with newComputedBlocks := none })
      (h.learn_hashes hgrow) (if_pos rfl) (goodHits_empty h.wellKept) hal htokens hnull halloc
  | cacheBlocks request n =>
    obtain ⟨hgrow, hn⟩ := hissued
    simp only [runOp, cacheBlocks] at hrun
    split_ifs at hrun
    · exact coordinatorCacheBlocks_isolated (h.learn_hashes hgrow) (if_pos rfl) hn hnull hrun
    · obtain rfl := Except.ok.inj hrun
      exact h.learn_hashes hgrow
  | free requestId =>
    obtain rfl := Except.ok.inj hrun
    obtain ⟨hall, -, hspec⟩ := freeLoop_accounted requestId h.wellKept.accounted
    exact ⟨h.wellKept.update hall hspec, freeLoop_tagged h.tagged⟩
  | resetPrefixCache =>
    obtain rfl := Except.ok.inj hrun
    have hw : s.resetPrefixCache.2.WellKept :=
      @runOp_wellKept _ _ _ hcfg .resetPrefixCache h.wellKept trivial rfl
    obtain ⟨-, hconf⟩ := BlockPool.resetPrefixCache_ok h.wellKept.accounted.pool
    exact ⟨hw, hw.accounted, hconf.2.1.trans h.tagged.caching,
      BlockPool.resetPrefixCache_hashesOk h.tagged.hashes h.tagged.pool h.tagged.size,
      h.tagged.counted, h.tagged.cached⟩

/-- The map and the hashes of the blocks agree, held blocks carry the hashes of their
places, and a block with two entries carries the hash of both. -/
structure PrefixCacheOk (s : KVCacheManager) (known : KnownHashes) : Prop where
  hash_iff : ∀ b h, s.blockPool.blockHash b = some h ↔
    s.blockPool.cachedBlockHashToBlock.Holds h b
  null_unhashed : s.blockPool.blockHash nullBlock = none
  placed : ∀ m ∈ s.singleTypeManagers, ∀ requestId (j : Nat) b h,
    (m.blocksOf requestId)[j]? = some b → b ≠ nullBlock → s.blockPool.blockHash b = some h →
    expectedKey known m.kvCacheGroupId requestId j = some h
  shared : ∀ m ∈ s.singleTypeManagers, ∀ m' ∈ s.singleTypeManagers,
    ∀ requestId requestId' (j j' : Nat) b,
    (m.blocksOf requestId)[j]? = some b → (m'.blocksOf requestId')[j']? = some b →
    b ≠ nullBlock →
    (m.kvCacheGroupId, requestId, j) ≠ (m'.kvCacheGroupId, requestId', j') →
    ∃ h, s.blockPool.blockHash b = some (h, m.kvCacheGroupId) ∧
      m'.kvCacheGroupId = m.kvCacheGroupId ∧ (known requestId)[j]? = some h ∧
      (known requestId')[j']? = some h

lemma held_add_held_le {m m' : SingleTypeManager} (hm : m ∈ ms) (hm' : m' ∈ ms)
    (hne : m.kvCacheGroupId ≠ m'.kvCacheGroupId) (b : BlockId) :
    m.held b + m'.held b ≤ heldBy ms b := by
  induction ms with
  | nil => cases hm
  | cons m₀ ms ih =>
    have hle : ∀ x ∈ ms, x.held b ≤ heldBy ms b :=
      fun x hx => List.le_sum_of_mem (List.mem_map_of_mem hx)
    rw [heldBy_cons]
    rcases List.mem_cons.mp hm with rfl | hin
    · rcases List.mem_cons.mp hm' with rfl | hin'
      · exact absurd rfl hne
      · have := hle m' hin'
        omega
    · rcases List.mem_cons.mp hm' with rfl | hin'
      · have := hle m hin
        omega
      · have := ih hin hin'
        omega

lemma Isolated.two_le_heldBy (h : s.Isolated known) {m m' : SingleTypeManager}
    (hm : m ∈ s.singleTypeManagers) (hm' : m' ∈ s.singleTypeManagers) {id id' : String}
    {j j' : Nat} {b : BlockId} (hj : (m.blocksOf id)[j]? = some b)
    (hj' : (m'.blocksOf id')[j']? = some b) (hb : b ≠ nullBlock)
    (hne : (m.kvCacheGroupId, id, j) ≠ (m'.kvCacheGroupId, id', j')) :
    2 ≤ heldBy s.singleTypeManagers b := by
  have hpos := List.count_pos_iff.mpr (List.mem_of_getElem? hj)
  have hpos' := List.count_pos_iff.mpr (List.mem_of_getElem? hj')
  by_cases hgroup : m.kvCacheGroupId = m'.kvCacheGroupId
  · have hnodup : (s.singleTypeManagers.map SingleTypeManager.kvCacheGroupId).Nodup := by
      rw [h.wellKept.groupIds]
      exact List.nodup_range
    obtain rfl := List.inj_on_of_nodup_map hnodup hm hm' hgroup
    by_cases hid : id = id'
    · subst hid
      have hjj := SingleTypeManager.index_unique (h.tagged.tables m hm id) hb hj hj'
      exact absurd (by rw [hjj]) hne
    · have htwo := SingleTypeManager.count_add_count_le (m := m) hid b
      have hle : m.held b ≤ heldBy s.singleTypeManagers b :=
        List.le_sum_of_mem (List.mem_map_of_mem hm)
      omega
  · have htwo := held_add_held_le hm hm' hgroup b
    have hle := m.count_blocksOf_le id b
    have hle' := m'.count_blocksOf_le id' b
    omega

lemma Isolated.prefixCacheOk (h : s.Isolated known) : s.PrefixCacheOk known := by
  have hplaced : ∀ m ∈ s.singleTypeManagers, ∀ requestId (j : Nat) b hash,
      (m.blocksOf requestId)[j]? = some b → b ≠ nullBlock → s.blockPool.blockHash b = some hash →
      expectedKey known m.kvCacheGroupId requestId j = some hash :=
    fun m hm requestId j b hash hj hb hsome =>
      h.tagged.hashes.placed b _ hash hb (Or.inl ⟨m, hm, requestId, j, hj, rfl⟩) hsome
  refine ⟨h.tagged.hashes.map, h.tagged.hashes.null, hplaced, ?_⟩
  intro m hm m' hm' id id' j j' b hj hj' hb hne
  have htwo := h.two_le_heldBy hm hm' hj hj' hb hne
  obtain ⟨hash, hhash⟩ := Option.ne_none_iff_exists'.mp (h.tagged.hashes.shared b hb htwo)
  obtain ⟨x, hx, hkey⟩ := Option.map_eq_some_iff.mp (hplaced m hm id j b hash hj hb hhash)
  obtain ⟨x', hx', hkey'⟩ := Option.map_eq_some_iff.mp (hplaced m' hm' id' j' b hash hj' hb hhash)
  obtain ⟨rfl, hg⟩ := Prod.mk.inj (hkey.trans hkey'.symm)
  exact ⟨x, hhash.trans (congrArg some hkey.symm), hg.symm, hx, hx'⟩

/-- In every run whose steps hash no null block, the prefix cache is consistent and held
blocks are isolated in every state. -/
theorem prefixCacheOk_of_hashesNoNull (cfg : HashConfig) (hcfg : cfg.CollisionFree)
    (config : KVCacheConfig) (hcaching : config.enableCaching = true) (s : KVCacheManager)
    (known : KnownHashes)
    (h : ReachedWith config
      (fun s known op => s.AsIssued cfg known op ∧ s.HashesNoNull op) (s, known)) :
    s.PrefixCacheOk known := by
  have hinv : s.Isolated known := by
    refine Runs.Reached.invariant (I := fun x => x.1.Isolated x.2) ?_ ?_ h
    · rintro ⟨s₀, known₀⟩ ⟨hinit, hknown⟩
      obtain rfl : known₀ = fun _ => [] := hknown
      exact init_isolated hcaching hinit
    · rintro ⟨s₁, known₁⟩ op ⟨s₂, known₂⟩ hs₁ ⟨hissued, hnull⟩ ⟨hrun, hknown⟩
      obtain rfl : known₂ = learn known₁ op := hknown
      exact runOp_isolated hcfg hs₁ hissued hnull hrun
  exact hinv.prefixCacheOk

/-- A request that no group knows is hashed from its hits on. -/
lemma hashesNoNull_start {request : Request} {args : AllocArgs}
    (hnew : ∀ m ∈ s.singleTypeManagers, m.numCachedBlock.get? request.requestId = none) :
    s.HashesNoNull (.start request args) := by
  intro hits length _ s₁ hremove _ _ m hm numCached hnum
  obtain ⟨m₀, hm₀, hsame⟩ :=
    forall₂_exists_left (removeSkippedBlocks_sameTables hremove) hm
  rw [hsame.2.1, hnew m₀ hm₀] at hnum
  cases hnum

/-- The two requests with the same first block, both admitted: block 1 is in both tables. -/
theorem prefixCacheOk_tinyConfig : ∃ s known,
    ReachedWith tinyConfig (fun s known op => s.AsIssued (plainHashing 2) known op ∧
      s.HashesNoNull op) (s, known) ∧ s.heldBlocks = [1, 2, 1, 5, 3, 4, 3, 6] ∧
    s.PrefixCacheOk known := by
  set first : KVOp := .start (tinyRequest "a" 2 [7, 8, 9] 0) { numNewTokens := 3 } with hfirst
  set second : KVOp := .start (tinyRequest "b" 2 [7, 8, 1] 0)
    { numNewTokens := 1, numNewComputedTokens := 2 } with hsecond
  have hview : (do
      let s₀ ← init tinyConfig
      let s₁ ← s₀.runOp first
      let s ← s₁.runOp second
      return (decide (∀ m ∈ s₀.singleTypeManagers, m.numCachedBlock.get? "a" = none),
        decide (∀ m ∈ s₁.singleTypeManagers, m.numCachedBlock.get? "b" = none), s.heldBlocks)) =
      (.ok (true, true, [1, 2, 1, 5, 3, 4, 3, 6]) :
        Except PyError (Bool × Bool × List BlockId)) := by
    rw [hfirst, hsecond]
    decide +kernel
  obtain ⟨s₀, hinit, hview⟩ := bind_eq_ok.mp hview
  obtain ⟨s₁, hrun₁, hview⟩ := bind_eq_ok.mp hview
  obtain ⟨s, hrun, hview⟩ := bind_eq_ok.mp hview
  obtain ⟨hnew₁, hrest⟩ := Prod.mk.inj (Except.ok.inj hview)
  obtain ⟨hnew, hheld⟩ := Prod.mk.inj hrest
  have hissued₁ : s₀.AsIssued (plainHashing 2) (fun _ => []) first :=
    ⟨tinyRequest_made .., Or.inl List.nil_prefix, by decide +kernel⟩
  have hissued : s₁.AsIssued (plainHashing 2) (learn (fun _ => []) first) second :=
    ⟨tinyRequest_made .., Or.inl List.nil_prefix, by decide +kernel⟩
  have hstart : ReachedWith tinyConfig (fun s known op =>
      s.AsIssued (plainHashing 2) known op ∧ s.HashesNoNull op) (s₀, fun _ => []) :=
    .start ⟨hinit, rfl⟩
  have hreached := (hstart.next hrun₁ ⟨hissued₁,
    hashesNoNull_start (of_decide_eq_true hnew₁)⟩).next hrun ⟨hissued,
    hashesNoNull_start (of_decide_eq_true hnew)⟩
  exact ⟨s, _, hreached, hheld, prefixCacheOk_of_hashesNoNull (plainHashing 2)
    (plainHashing_collisionFree 2) tinyConfig rfl s _ hreached⟩

/-- One group with a sliding window of two tokens, in blocks of one. -/
def slidingConfig : KVCacheConfig :=
  { numBlocks := 8
    kvCacheGroups := [⟨1, .slidingWindow 2, Nat.one_pos⟩]
    maxModelLen := 16 }

/-- The prompt is one token. The second step takes two draft tokens along, which are
accepted; the third one moves the window past the first draft token, whose block has no hash
yet. -/
def draftOps : List KVOp :=
  [.start (tinyRequest "a" 1 [7] 0) { numNewTokens := 1 },
    .allocate (tinyRequest "a" 1 [7, 8] 1) { numNewTokens := 3 },
    .allocate (tinyRequest "a" 1 [7, 8, 9, 1, 2] 4) { numNewTokens := 1 }]

/-- The null block then carries the hash of the third block. -/
theorem not_prefixCacheOk_draftOps : ∃ s known,
    ReachedWith slidingConfig (fun s known op => s.AsIssued (plainHashing 1) known op)
      (s, known) ∧ ¬ s.PrefixCacheOk known := by
  have hview : (do
      let s₀ ← init slidingConfig
      let s₁ ← s₀.runOp draftOps[0]
      let s₂ ← s₁.runOp draftOps[1]
      let s ← s₂.runOp draftOps[2]
      return decide (s.blockPool.blockHash nullBlock = none)) =
      (.ok false : Except PyError Bool) := by
    decide +kernel
  obtain ⟨s₀, hinit, hview⟩ := bind_eq_ok.mp hview
  obtain ⟨s₁, hrun₁, hview⟩ := bind_eq_ok.mp hview
  obtain ⟨s₂, hrun₂, hview⟩ := bind_eq_ok.mp hview
  obtain ⟨s, hrun, hview⟩ := bind_eq_ok.mp hview
  have hissued₁ : s₀.AsIssued (plainHashing 1) (fun _ => []) draftOps[0] :=
    ⟨tinyRequest_made .., Or.inl List.nil_prefix, by decide +kernel⟩
  have hissued₂ : s₁.AsIssued (plainHashing 1) (learn (fun _ => []) draftOps[0]) draftOps[1] :=
    ⟨tinyRequest_made .., Or.inl (by decide +kernel), by decide +kernel⟩
  have hissued : s₂.AsIssued (plainHashing 1)
      (learn (learn (fun _ => []) draftOps[0]) draftOps[1]) draftOps[2] :=
    ⟨tinyRequest_made .., Or.inl (by decide +kernel), by decide +kernel⟩
  have hstart : ReachedWith slidingConfig
      (fun s known op => s.AsIssued (plainHashing 1) known op) (s₀, fun _ => []) :=
    .start ⟨hinit, rfl⟩
  refine ⟨s, _, ((hstart.next hrun₁ hissued₁).next hrun₂ hissued₂).next hrun hissued,
    fun hok => ?_⟩
  exact of_decide_eq_false (Except.ok.inj hview) hok.null_unhashed

end KVCacheManager

end VllmV1
