import Mathlib.Data.List.Dedup
import VllmMmaEmu.Engine.HashChain
import VllmMmaEmu.KvCache.Accounting
import VllmMmaEmu.Library.Runs

/-!
# Runs of the KV cache manager

The operations as the scheduler issues them, and the accounting of blocks in every state
that they reach.
-/

namespace VllmV1

open Python RefCount

namespace KVCacheManager

variable {ms ms' : List SingleTypeManager} {p p' : BlockPool} {requestId : String}

/-- What holds in every state the manager reaches. -/
structure WellKept (s : KVCacheManager) : Prop where
  accounted : AllAccounted s.singleTypeManagers s.blockPool fun _ => 0
  coordinator : getKvCacheCoordinator s.config = .ok s.coordinator
  shapes : s.singleTypeManagers.map SingleTypeManager.shape =
    s.config.kvCacheGroups.zipIdx.map fun g =>
      (SingleTypeManager.init g.1 g.2 s.config.dcpWorldSize).shape

variable {s s' : KVCacheManager}

lemma WellKept.length (h : s.WellKept) :
    s.singleTypeManagers.length = s.config.kvCacheGroups.length := by
  have := congrArg List.length h.shapes
  rwa [List.length_map, List.length_map, List.length_zipIdx] at this

lemma shapes_of_sameSpec (h : List.Forall₂ SingleTypeManager.SameSpec ms ms') :
    ms'.map SingleTypeManager.shape = ms.map SingleTypeManager.shape := by
  induction h with
  | nil => rfl
  | cons hspec _ ih => rw [List.map_cons, List.map_cons, hspec, ih]

/-- A new state with the same configuration and managers of the same groups. -/
lemma WellKept.update (h : s.WellKept) (hall : AllAccounted ms' p' fun _ => 0)
    (hspec : List.Forall₂ SingleTypeManager.SameSpec s.singleTypeManagers ms') :
    { s with blockPool := p', singleTypeManagers := ms' }.WellKept where
  accounted := hall
  coordinator := h.coordinator
  shapes := (shapes_of_sameSpec hspec).trans h.shapes

lemma init_eq {config : KVCacheConfig} (h : init config = .ok s) :
    ∃ pool coordinator,
      BlockPool.init config.numBlocks config.enableCaching config.enableKvCacheEvents = .ok pool ∧
      getKvCacheCoordinator config = .ok coordinator ∧
      s = ⟨config, coordinator, pool, config.kvCacheGroups.zipIdx.map fun (spec, i) =>
        SingleTypeManager.init spec i config.dcpWorldSize⟩ := by
  unfold init at h
  split_ifs at h
  · obtain ⟨_, -, h⟩ := bind_eq_ok.mp h
    obtain ⟨_, -, h⟩ := bind_eq_ok.mp h
    obtain ⟨pool, hpool, h⟩ := bind_eq_ok.mp h
    obtain ⟨coordinator, hcoord, h⟩ := bind_eq_ok.mp h
    exact ⟨pool, coordinator, hpool, hcoord, (Except.ok.inj h).symm⟩
  · obtain ⟨_, -, h⟩ := bind_eq_ok.mp h
    obtain ⟨pool, hpool, h⟩ := bind_eq_ok.mp h
    obtain ⟨coordinator, hcoord, h⟩ := bind_eq_ok.mp h
    exact ⟨pool, coordinator, hpool, hcoord, (Except.ok.inj h).symm⟩
  · obtain ⟨pool, hpool, h⟩ := bind_eq_ok.mp h
    obtain ⟨coordinator, hcoord, h⟩ := bind_eq_ok.mp h
    exact ⟨pool, coordinator, hpool, hcoord, (Except.ok.inj h).symm⟩

lemma init_reqToBlocks {config : KVCacheConfig} (h : init config = .ok s)
    {m : SingleTypeManager} (hm : m ∈ s.singleTypeManagers) : m.reqToBlocks = Dict.empty := by
  obtain ⟨pool, coordinator, -, -, rfl⟩ := init_eq h
  obtain ⟨⟨spec, i⟩, -, rfl⟩ := List.mem_map.mp hm
  rfl

lemma init_heldBy {config : KVCacheConfig} (h : init config = .ok s) (b : BlockId) :
    heldBy s.singleTypeManagers b = 0 := by
  rw [heldBy, List.sum_eq_zero]
  intro n hn
  obtain ⟨m, hm, rfl⟩ := List.mem_map.mp hn
  rw [SingleTypeManager.held, init_reqToBlocks h hm]
  rfl

lemma init_wellKept {config : KVCacheConfig} (h : init config = .ok s) : s.WellKept := by
  have hempty := fun m => init_reqToBlocks (m := m) h
  have hheld := init_heldBy h
  obtain ⟨pool, coordinator, hpool, hcoord, rfl⟩ := init_eq h
  obtain ⟨hok, hnum, hpos⟩ := BlockPool.init_ok hpool
  refine ⟨⟨hnum ▸ hpos, hok.congr fun b _ => ?_, fun m hm id => ?_⟩, hcoord, ?_⟩
  · exact (hheld b).symm
  · rw [SingleTypeManager.blocksOf, hempty m hm]
    exact List.nodup_nil
  · exact List.map_map

lemma coordinatorCacheBlocks_wellKept {request : Request} {n : Int} (h : s.WellKept)
    (hrun : s.coordinatorCacheBlocks request n = .ok s') : s'.WellKept := by
  obtain ⟨⟨us, ms, p⟩, hloop, hret⟩ := bind_eq_ok.mp hrun
  obtain rfl := Except.ok.inj hret
  obtain ⟨hall, -, hspec⟩ := forManagers_accounted
    (fun m p u m' p' extra hacc hcall =>
      SingleTypeManager.cacheBlocks_accounted hacc (withUnit_eq_ok hcall))
    h.accounted hloop
  exact h.update hall hspec

/-- Hits that can be handed to `allocate_slots`: one list for each group, of blocks of the
pool, none twice. -/
structure GoodHits (s : KVCacheManager) (hits : List (List BlockId)) : Prop where
  length : hits.length = s.singleTypeManagers.length
  inPool : ∀ b ∈ hits.flatten, b < s.blockPool.numGpuBlocks
  flat : (hits.flatten.filter (· ≠ 0)).Nodup
  uncached : s.config.enableCaching = false → hits = s.createEmptyBlockList

lemma GoodHits.nodup {hits : List (List BlockId)} (h : s.GoodHits hits) {c : List BlockId}
    (hc : c ∈ hits) : (c.filter (· ≠ 0)).Nodup :=
  h.flat.sublist ((List.sublist_flatten_of_mem hc).filter _)

lemma goodHits_empty (h : s.WellKept) : s.GoodHits s.createEmptyBlockList where
  length := by rw [createEmptyBlockList, List.length_map, h.length]
  inPool b hb := by simp [createEmptyBlockList] at hb
  flat := by simp [createEmptyBlockList]
  uncached _ := rfl

lemma getComputedBlocks_goodHits {request : Request} {hits : List (List BlockId)} {length : Int}
    (h : s.WellKept) (hhashes : request.blockHashes.Nodup)
    (hrun : s.getComputedBlocks request = .ok (hits, length)) : s.GoodHits hits := by
  have hal := getComputedBlocks_aligned h.coordinator h.length hrun
  have hmap := h.accounted.pool.toMapOk
  refine ⟨?_, ?_, ?_, ?_⟩
  · rw [← hal.length_eq, List.length_range, h.length]
  · intro b hb
    obtain ⟨c, hc, hbc⟩ := List.mem_flatten.mp hb
    obtain ⟨g, -, hg⟩ := forall₂_exists_left hal hc
    exact hg.inPool hmap h.accounted.size hbc
  · exact alignedHits_flatten_nodup hal List.nodup_range hmap hhashes
  · intro hoff
    rw [getComputedBlocks, if_pos (Or.inl hoff)] at hrun
    exact (Prod.mk.inj (Except.ok.inj hrun)).1.symm

lemma removeSkippedBlocks_wellKept {n : Int} (h : s.WellKept)
    (hrun : s.removeSkippedBlocks requestId n = .ok s') :
    s'.WellKept ∧ s'.config = s.config ∧ ∀ hits, s.GoodHits hits → s'.GoodHits hits := by
  obtain ⟨⟨us, ms, p⟩, hloop, hret⟩ := bind_eq_ok.mp hrun
  obtain rfl := Except.ok.inj hret
  obtain ⟨hall, hconf, hspec⟩ := forManagers_accounted
    (fun m p u m' p' extra hacc hcall =>
      SingleTypeManager.removeSkippedBlocks_accounted hacc (withUnit_eq_ok hcall))
    h.accounted hloop
  refine ⟨h.update hall hspec, rfl, fun hits hhits => ⟨?_, ?_, hhits.flat, hhits.uncached⟩⟩
  · exact hhits.length.trans hspec.length_eq
  · exact hconf.1 ▸ hhits.inPool

lemma touchHits_accounted {hits : List (List BlockId)} {pool : BlockPool} (h : s.WellKept)
    (hhits : s.GoodHits hits)
    (hrun : s.touchHits hits = .ok pool) :
    AllAccounted s.singleTypeManagers pool fun b => hits.flatten.count b := by
  unfold touchHits at hrun
  split_ifs at hrun
  · obtain ⟨hok, hconf⟩ := BlockPool.foldlM_touchBlock_ok h.accounted.pool hhits.inPool hrun
    exact ⟨hconf.1 ▸ h.accounted.size, hok.congr fun b _ => by omega, h.accounted.tables⟩
  · obtain ⟨_, hempty, hret⟩ := bind_eq_ok.mp hrun
    obtain rfl := Except.ok.inj hret
    have hnil : hits.flatten = [] := List.flatten_eq_nil_iff.mpr (pyAssert_eq_ok.mp hempty)
    exact ⟨h.accounted.size, h.accounted.pool.congr fun b _ => by rw [hnil]; rfl,
      h.accounted.tables⟩

lemma allocateGroups_wellKept {request : Request} {a : AllocArgs}
    {hits newBlocks : List (List BlockId)} (h : s.WellKept) (hhits : s.GoodHits hits)
    (hrun : s.allocateGroups request a hits = .ok (newBlocks, s')) : s'.WellKept := by
  obtain ⟨pool, htouch, hrun⟩ := bind_eq_ok.mp hrun
  obtain ⟨ms, hsave, hrun⟩ := bind_eq_ok.mp hrun
  obtain ⟨⟨new, ms₂, pool₂⟩, halloc, hret⟩ := bind_eq_ok.mp hrun
  obtain ⟨-, rfl⟩ := Prod.mk.inj (Except.ok.inj hret)
  have htouched := touchHits_accounted h hhits htouch
  obtain ⟨hheld, htables, hspec⟩ := saveNewComputedBlocks_heldBy hsave hhits.length.symm
    (fun _ hc => hhits.nodup hc) h.accounted.tables
  have hsaved : AllAccounted ms pool fun _ => 0 :=
    ⟨htouched.size, htouched.pool.congr fun b _ => (hheld b).symm, htables⟩
  obtain ⟨hall, -, hspec₂⟩ := forManagers_accounted
    (fun m p new m' p' extra hacc hcall =>
      SingleTypeManager.allocateNewBlocks_accounted hacc hcall) hsaved halloc
  exact (h.update hsaved hspec).update hall hspec₂

lemma allocateChecked_wellKept {request : Request} {a : AllocArgs}
    {hits newBlocks : List (List BlockId)} (h : s.WellKept) (hhits : s.GoodHits hits)
    (hrun : s.allocateChecked request a hits = .ok (newBlocks, s')) : s'.WellKept := by
  obtain ⟨⟨new, s₁⟩, hgroups, hrun⟩ := bind_eq_ok.mp hrun
  have hs₁ := allocateGroups_wellKept h hhits hgroups
  simp only at hrun
  split_ifs at hrun
  · obtain ⟨-, rfl⟩ := Prod.mk.inj (Except.ok.inj hrun)
    exact hs₁
  · obtain ⟨s₂, hcache, hret⟩ := bind_eq_ok.mp hrun
    obtain ⟨-, rfl⟩ := Prod.mk.inj (Except.ok.inj hret)
    exact coordinatorCacheBlocks_wellKept hs₁ hcache

lemma allocateSlots_wellKept {request : Request} {a : AllocArgs}
    {newBlocks : Option (List (List BlockId))} (h : s.WellKept)
    (hhits : s.GoodHits (a.newComputedBlocks.getD s.createEmptyBlockList))
    (hrun : s.allocateSlots request a = .ok (newBlocks, s')) : s'.WellKept := by
  unfold allocateSlots at hrun
  split_ifs at hrun
  obtain ⟨s₁, hremove, hrun⟩ := bind_eq_ok.mp hrun
  obtain ⟨hs₁, -, hgood⟩ := removeSkippedBlocks_wellKept h hremove
  simp only at hrun
  split_ifs at hrun
  · obtain ⟨-, rfl⟩ := Prod.mk.inj (Except.ok.inj hrun)
    exact hs₁
  · obtain ⟨⟨new, s₂⟩, hchecked, hret⟩ := bind_eq_ok.mp hrun
    obtain ⟨-, rfl⟩ := Prod.mk.inj (Except.ok.inj hret)
    exact allocateChecked_wellKept hs₁ (hgood _ hhits) hchecked

end KVCacheManager

/-- The operations of the manager as the scheduler issues them. -/
inductive KVOp where
  /-- `get_computed_blocks` and then `allocate_slots` with the hits. -/
  | start (request : Request) (args : KVCacheManager.AllocArgs)
  /-- `allocate_slots` without hits. -/
  | allocate (request : Request) (args : KVCacheManager.AllocArgs)
  | cacheBlocks (request : Request) (numComputedTokens : Int)
  | free (requestId : String)
  | resetPrefixCache

namespace KVCacheManager

/-- One operation; one that raises has no next state. -/
def runOp (s : KVCacheManager) : KVOp → Except PyError KVCacheManager
  | .start request args => do
    let (hits, _) ← s.getComputedBlocks request
    let (_, s') ← s.allocateSlots request { args with newComputedBlocks := some hits }
    return s'
  | .allocate request args => do
    let (_, s') ← s.allocateSlots request { args with newComputedBlocks := none }
    return s'
  | .cacheBlocks request numComputedTokens => s.cacheBlocks request numComputedTokens
  | .free requestId => .ok (s.free requestId)
  | .resetPrefixCache => .ok s.resetPrefixCache.2

/-- A request comes with the hashes its hasher made. -/
def HashesMade (cfg : HashConfig) : KVOp → Prop
  | .start request _ => MadeHashes cfg request.blockHashes
  | _ => True

/-- The states reached from a new manager. -/
abbrev ReachedBy (config : KVCacheConfig) (allowed : KVCacheManager → KVOp → Prop) :
    KVCacheManager → Prop :=
  Runs.Reached (fun s => init config = .ok s) allowed fun s op s' => s.runOp op = .ok s'

variable {s s' : KVCacheManager}

lemma runOp_wellKept {cfg : HashConfig} (hcfg : cfg.CollisionFree) {op : KVOp} (h : s.WellKept)
    (hmade : HashesMade cfg op) (hrun : s.runOp op = .ok s') : s'.WellKept := by
  cases op with
  | start request args =>
    obtain ⟨⟨hits, length⟩, hhits, hrun⟩ := bind_eq_ok.mp hrun
    obtain ⟨⟨new, s₁⟩, halloc, hret⟩ := bind_eq_ok.mp hrun
    obtain rfl := Except.ok.inj hret
    have hgood : s.GoodHits hits :=
      getComputedBlocks_goodHits h (hmade.chained.nodup hcfg) hhits
    exact allocateSlots_wellKept (a := { args with newComputedBlocks := some hits }) h hgood halloc
  | allocate request args =>
    obtain ⟨⟨new, s₁⟩, halloc, hret⟩ := bind_eq_ok.mp hrun
    obtain rfl := Except.ok.inj hret
    exact allocateSlots_wellKept (a := { args with newComputedBlocks := none }) h
      (goodHits_empty h) halloc
  | cacheBlocks request n =>
    simp only [runOp, cacheBlocks] at hrun
    split_ifs at hrun
    · exact coordinatorCacheBlocks_wellKept h hrun
    · obtain rfl := Except.ok.inj hrun
      exact h
  | free requestId =>
    obtain rfl := Except.ok.inj hrun
    obtain ⟨hall, -, hspec⟩ := freeLoop_accounted requestId h.accounted
    exact h.update hall hspec
  | resetPrefixCache =>
    obtain rfl := Except.ok.inj hrun
    obtain ⟨hok, hconf⟩ := BlockPool.resetPrefixCache_ok h.accounted.pool
    have hsize : 0 < s.blockPool.resetPrefixCache.2.numGpuBlocks := by
      rw [hconf.1]
      exact h.accounted.size
    exact h.update ⟨hsize, hok, h.accounted.tables⟩
      (List.forall₂_same.mpr fun _ _ => rfl)

lemma ReachedBy.wellKept {cfg : HashConfig} (hcfg : cfg.CollisionFree) {config : KVCacheConfig}
    (h : ReachedBy config (fun _ => HashesMade cfg) s) : s.WellKept :=
  Runs.Reached.invariant (I := WellKept) (fun _ hinit => init_wellKept hinit)
    (fun _ _ _ hs hmade hrun => runOp_wellKept hcfg hs hmade hrun) h

/-- All entries of all tables of all groups. -/
def heldBlocks (s : KVCacheManager) : List BlockId :=
  (s.singleTypeManagers.map SingleTypeManager.heldBlocks).flatten

lemma count_heldBlocks (s : KVCacheManager) (b : BlockId) :
    s.heldBlocks.count b = heldBy s.singleTypeManagers b := by
  rw [heldBlocks, List.count_flatten, List.map_map, heldBy]
  congr 1
  exact List.map_congr_left fun m _ => m.count_heldBlocks b

/-- In every reached state the reference count of a block is the number of its occurrences
in the tables, the free queue has exactly the blocks without references, each once and never
the null block, and every block is free, held or the null block. -/
theorem blocks_accounted (cfg : HashConfig) (hcfg : cfg.CollisionFree) (config : KVCacheConfig)
    (s : KVCacheManager) (h : ReachedBy config (fun _ => HashesMade cfg) s) :
    (∀ b, b ≠ nullBlock → b < s.blockPool.numGpuBlocks →
      s.blockPool.refCnt b = s.heldBlocks.count b ∧
      (b ∈ s.blockPool.freeBlockQueue ↔ s.blockPool.refCnt b = 0) ∧
      (s.blockPool.refCnt b = 0 → s.blockPool.freeBlockQueue.count b = 1)) ∧
    nullBlock ∉ s.blockPool.freeBlockQueue ∧
    (∀ b ∈ s.heldBlocks, b < s.blockPool.numGpuBlocks) ∧
    s.blockPool.freeBlockQueue.length + (s.heldBlocks.filter (· ≠ nullBlock)).dedup.length + 1 =
      s.blockPool.numGpuBlocks := by
  have hacc := (ReachedBy.wellKept hcfg h).accounted
  have hcounted : Counted s.blockPool.numGpuBlocks s.blockPool.refCnt
      s.blockPool.freeBlockQueue fun b => s.heldBlocks.count b :=
    hacc.pool.counted.congr fun b _ => by rw [count_heldBlocks, Nat.add_zero]
  have hin : ∀ b ∈ s.heldBlocks, b < s.blockPool.numGpuBlocks := by
    intro b hb
    by_contra hge
    by_cases hnull : b = 0
    · exact hge (hnull ▸ hacc.size)
    · have hpos := List.count_pos_iff.mpr hb
      have hzero := hcounted.outside b hnull (not_lt.mp hge)
      omega
  have hdistinct : (heldSlots s.blockPool.numGpuBlocks fun b => s.heldBlocks.count b).Perm
      (s.heldBlocks.filter (· ≠ nullBlock)).dedup := by
    refine (List.perm_ext_iff_of_nodup (List.nodup_range.filter _) (List.nodup_dedup _)).mpr ?_
    intro b
    have hmem : s.heldBlocks.count b ≠ 0 ↔ b ∈ s.heldBlocks := by
      rw [← Nat.pos_iff_ne_zero, List.count_pos_iff]
    rw [List.mem_dedup, List.mem_filter, List.mem_filter, List.mem_range, decide_eq_true_eq,
      decide_eq_true_eq, hmem]
    constructor
    · rintro ⟨-, hb, hheld⟩
      exact ⟨hheld, hb⟩
    · rintro ⟨hheld, hb⟩
      exact ⟨hin b hheld, hb, hheld⟩
  refine ⟨fun b hb hlt => ⟨hcounted.refs b hb hlt, hcounted.free_iff_refCnt hb hlt, ?_⟩,
    hcounted.null_not_free, hin, ?_⟩
  · intro hzero
    exact List.count_eq_one_of_mem hcounted.nodup ((hcounted.free_iff_refCnt hb hlt).mpr hzero)
  · rw [← hdistinct.length_eq]
    exact hcounted.total hacc.size

/-- The state after some operations on a new manager. -/
def afterOps (config : KVCacheConfig) (ops : List KVOp) : Except PyError KVCacheManager := do
  let s ← init config
  ops.foldlM runOp s

lemma afterOps_reached {config : KVCacheConfig} {allowed : KVCacheManager → KVOp → Prop}
    {ops : List KVOp} (hall : ∀ op ∈ ops, ∀ s, allowed s op) (h : afterOps config ops = .ok s) :
    ReachedBy config allowed s := by
  obtain ⟨s₀, hinit, hrun⟩ := bind_eq_ok.mp h
  exact Runs.Reached.of_foldlM (.start hinit) hall hrun

/-- A request with these tokens, of which `computed` are computed, in blocks of
`blockSize`. -/
def tinyRequest (requestId : String) (blockSize : Nat) (tokens : List Int) (computed : Int) :
    Request :=
  { requestId := requestId
    priority := 0
    samplingParams := some { maxTokens := some 16 }
    poolingParams := false
    eosTokenId := none
    loraRequest := none
    arrivalTime := 0
    status := .running
    useStructuredOutput := false
    maxTokens := 16
    numPromptTokens := tokens.length
    outputTokenIds := []
    allTokenIds := tokens
    numOutputPlaceholders := 0
    specTokenIds := []
    numComputedTokens := computed
    cacheSalt := none
    mmFeatures := []
    numCachedTokens := -1
    blockHashes := promptHashes blockSize tokens }

lemma tinyRequest_made (requestId : String) (blockSize : Nat) (tokens : List Int) (computed : Int) :
    MadeHashes (plainHashing blockSize) (tinyRequest requestId blockSize tokens computed).blockHashes :=
  promptHashes_made blockSize tokens

/-- A full and a sliding window group over eight blocks of two tokens. -/
def tinyConfig : KVCacheConfig :=
  { numBlocks := 8
    kvCacheGroups := [⟨2, .full, Nat.two_pos⟩, ⟨2, .slidingWindow 2, Nat.two_pos⟩]
    maxModelLen := 16 }

/-- Two requests with the same first block are admitted and the first one finishes. -/
def tinyOps : List KVOp :=
  [.start (tinyRequest "a" 2 [7, 8, 9] 0) { numNewTokens := 3 },
    .start (tinyRequest "b" 2 [7, 8, 1] 0) { numNewTokens := 1, numNewComputedTokens := 2 },
    .free "a"]

lemma tinyOps_hashesMade : ∀ op ∈ tinyOps, HashesMade (plainHashing 2) op := by
  intro op hop
  simp only [tinyOps, List.mem_cons, List.not_mem_nil, or_false] at hop
  rcases hop with rfl | rfl | rfl
  · exact tinyRequest_made ..
  · exact tinyRequest_made ..
  · trivial

theorem blocks_accounted_tinyOps : ∃ s,
    ReachedBy tinyConfig (fun _ => HashesMade (plainHashing 2)) s ∧
    s.heldBlocks = [1, 5, 3, 6] ∧ s.blockPool.freeBlockQueue = [7, 2, 4] ∧
    s.blockPool.freeBlockQueue.length + (s.heldBlocks.filter (· ≠ nullBlock)).dedup.length + 1 =
      s.blockPool.numGpuBlocks := by
  have hview : (do
      let s ← afterOps tinyConfig tinyOps
      return (s.heldBlocks, s.blockPool.freeBlockQueue)) =
      (.ok ([1, 5, 3, 6], [7, 2, 4]) : Except PyError (List BlockId × List BlockId)) := by
    decide +kernel
  obtain ⟨s, hs, hview⟩ := bind_eq_ok.mp hview
  obtain ⟨hheld, hfree⟩ := Prod.mk.inj (Except.ok.inj hview)
  have hreached : ReachedBy tinyConfig (fun _ => HashesMade (plainHashing 2)) s :=
    afterOps_reached (fun op hop _ => tinyOps_hashesMade op hop) hs
  exact ⟨s, hreached, hheld, hfree, (blocks_accounted (plainHashing 2)
    (plainHashing_collisionFree 2) tinyConfig s hreached).2.2.2⟩

end KVCacheManager

end VllmV1
