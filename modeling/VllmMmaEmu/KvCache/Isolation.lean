import Mathlib.Algebra.Order.BigOperators.Group.List
import VllmMmaEmu.KvCache.Capacity

/-!
# Hashes of held blocks

Every table entry has a key that its block should carry: the hash of the request at that
position, with the group. A block that carries a hash carries the key of all its entries, and
a block with two entries carries one. A pool operation changes the hash of a block only while
the block has no entry, or one.
-/

namespace VllmV1

open Python RefCount

namespace BlockPool

/-- A block carries a hash exactly when the map holds it under that hash. -/
def HashMapOk (p : BlockPool) : Prop :=
  ∀ b h, p.blockHash b = some h ↔ p.cachedBlockHashToBlock.Holds h b

/-- The hashes of a pool whose blocks are referenced `held` times, from entries with the
given keys. -/
structure HashesOk (p : BlockPool) (held : BlockId → Nat)
    (entry : BlockId → Option BlockHashWithGroupId → Prop) : Prop where
  map : p.HashMapOk
  null : p.blockHash nullBlock = none
  placed : ∀ b k h, b ≠ nullBlock → entry b k → p.blockHash b = some h → k = some h
  shared : ∀ b, b ≠ nullBlock → 2 ≤ held b → p.blockHash b ≠ none

variable {p p' : BlockPool} {held held' : BlockId → Nat}
  {entry entry' : BlockId → Option BlockHashWithGroupId → Prop}

lemma HashesOk.mono (h : p.HashesOk held entry) (hheld : ∀ b, b ≠ nullBlock → held' b ≤ held b)
    (hentry : ∀ b k, b ≠ nullBlock → entry' b k → entry b k) : p.HashesOk held' entry' where
  map := h.map
  null := h.null
  placed b k hash hb he := h.placed b k hash hb (hentry b k hb he)
  shared b hb hle := h.shared b hb (hle.trans (hheld b hb))

lemma HashesOk.of_eq (h : p.HashesOk held entry) (hhash : p'.blockHash = p.blockHash)
    (hmap : p'.cachedBlockHashToBlock = p.cachedBlockHashToBlock) : p'.HashesOk held entry := by
  obtain ⟨h₁, h₂, h₃, h₄⟩ := h
  refine ⟨fun b hash => ?_, ?_, ?_, ?_⟩
  · rw [hhash, hmap]
    exact h₁ b hash
  · rw [hhash]
    exact h₂
  · rw [hhash]
    exact h₃
  · rw [hhash]
    exact h₄

lemma maybeEvictCachedBlock_hash (h : p.HashMapOk) (b : BlockId) :
    (p.maybeEvictCachedBlock b).HashMapOk ∧
      ∀ c, (p.maybeEvictCachedBlock b).blockHash c = if c = b then none else p.blockHash c := by
  unfold maybeEvictCachedBlock
  cases hhash : p.blockHash b with
  | none =>
    refine ⟨h, fun c => ?_⟩
    split_ifs with hcb
    · rw [hcb, hhash]
    · rfl
  | some k =>
    -- the map holds the block, so it is found, and under no other hash
    have hfound : (p.cachedBlockHashToBlock.pop k b).1 = true :=
      BlockHashToBlockMap.pop_fst.mpr ((h b k).mp hhash)
    have hset : ∀ c, (p.setHash b none).blockHash c = if c = b then none else p.blockHash c :=
      fun _ => rfl
    have hmap : ∀ c h', (if c = b then none else p.blockHash c) = some h' ↔
        (p.cachedBlockHashToBlock.pop k b).2.Holds h' c := by
      intro c h'
      rw [BlockHashToBlockMap.holds_pop, ← h c h']
      by_cases hcb : c = b
      · subst hcb
        rw [if_pos rfl, hhash]
        constructor
        · intro hnone
          cases hnone
        · rintro ⟨hk, hne⟩
          exact absurd ⟨(Option.some.inj hk).symm, rfl⟩ hne
      · rw [if_neg hcb]
        constructor
        · intro hk
          exact ⟨hk, fun heq => hcb heq.2⟩
        · exact And.left
    simp only [hfound, if_true]
    split_ifs
    · exact ⟨hmap, hset⟩
    · exact ⟨hmap, hset⟩

lemma takeBlocks_hash {blocks : List BlockId} (hcaching : p.enableCaching = true)
    (h : p.HashMapOk) (hrun : takeBlocks p blocks = .ok p') :
    p'.HashMapOk ∧ ∀ c, p'.blockHash c = if c ∈ blocks then none else p.blockHash c := by
  induction blocks generalizing p with
  | nil =>
    obtain rfl := Except.ok.inj hrun
    exact ⟨h, fun c => by simp⟩
  | cons b blocks ih =>
    simp only [takeBlocks, hcaching, if_true] at hrun
    obtain ⟨_, -, htail⟩ := bind_eq_ok.mp hrun
    obtain ⟨hmap, hhash⟩ := maybeEvictCachedBlock_hash h b
    have hcaching' : (p.maybeEvictCachedBlock b).enableCaching = true := by
      unfold maybeEvictCachedBlock
      split
      · exact hcaching
      · simp only
        split_ifs <;> exact hcaching
    set q := p.maybeEvictCachedBlock b
    have hq : (q.setRefCnt b (q.refCnt b + 1)).HashMapOk := hmap
    obtain ⟨hmap', hhash'⟩ := ih (p := q.setRefCnt b (q.refCnt b + 1)) hcaching' hq htail
    refine ⟨hmap', fun c => ?_⟩
    have hc : (q.setRefCnt b (q.refCnt b + 1)).blockHash c = if c = b then none else p.blockHash c :=
      hhash c
    rw [hhash' c, hc]
    by_cases hcb : c = b
    · simp [hcb]
    · simp [hcb]

lemma getNewBlocks_hashesOk {n : Int} {blocks : List BlockId} (hcaching : p.enableCaching = true)
    (h : p.HashesOk held entry) (hok : p.Ok held)
    (hentry : ∀ b k, b ≠ nullBlock → entry b k → held b ≠ 0)
    (hrun : p.getNewBlocks n = .ok (blocks, p')) :
    p'.HashesOk held entry ∧ ∀ b ∈ blocks, p'.blockHash b = none := by
  obtain ⟨-, -, -, hfresh, -, -⟩ := getNewBlocks_ok hok hrun
  unfold getNewBlocks at hrun
  split_ifs at hrun
  obtain ⟨q, htake, hret⟩ := bind_eq_ok.mp hrun
  obtain ⟨rfl, rfl⟩ := Prod.mk.inj (Except.ok.inj hret)
  obtain ⟨hmap', hhash⟩ := takeBlocks_hash
    (p := { p with freeBlockQueue := p.freeBlockQueue.drop n.toNat }) hcaching h.map htake
  refine ⟨⟨hmap', ?_, fun b k hash hb he hsome => ?_, fun b hb hle => ?_⟩, fun b hb => ?_⟩
  · rw [hhash, if_neg fun hmem => (hfresh _ hmem).1 rfl]
    exact h.null
  · have hnot : b ∉ p.freeBlockQueue.take n.toNat :=
      fun hmem => hentry b k hb he (hfresh b hmem).2
    rw [hhash, if_neg hnot] at hsome
    exact h.placed b k hash hb he hsome
  · have hnot : b ∉ p.freeBlockQueue.take n.toNat := by
      intro hmem
      have := (hfresh b hmem).2
      omega
    rw [hhash, if_neg hnot]
    exact h.shared b hb hle
  · rw [hhash, if_pos hb]

lemma HashMapOk.insert (h : p.HashMapOk) {b : BlockId} (hnone : p.blockHash b = none)
    (k : BlockHashWithGroupId) :
    { p.setHash b (some k) with
      cachedBlockHashToBlock := p.cachedBlockHashToBlock.insert k b }.HashMapOk := by
  intro c h'
  rw [BlockHashToBlockMap.holds_insert]
  show (if c = b then some k else p.blockHash c) = some h' ↔ _
  by_cases hcb : c = b
  · subst hcb
    rw [if_pos rfl]
    constructor
    · intro heq
      exact Or.inr ⟨(Option.some.inj heq).symm, rfl⟩
    · rintro (hold | ⟨rfl, -⟩)
      · rw [(h c h').mpr hold] at hnone
        cases hnone
      · rfl
  · rw [if_neg hcb, h c h']
    constructor
    · exact Or.inl
    · rintro (hold | ⟨-, rfl⟩)
      · exact hold
      · exact absurd rfl hcb

lemma cacheBlocksLoop_hashesOk {g : Nat} {blocks : List BlockId} {hashes : List BlockHash}
    (h : p.HashesOk held entry)
    (hblocks : ∀ (i : Nat) b hash, blocks[i]? = some b → hashes[i]? = some hash →
      b ≠ nullBlock ∧ (held b ≤ 1 → ∀ k, entry b k → k = some (hash, g)))
    (hrun : cacheBlocksLoop g p blocks hashes = .ok p') : p'.HashesOk held entry := by
  induction blocks generalizing p hashes with
  | nil =>
    obtain rfl := Except.ok.inj hrun
    exact h
  | cons b blocks ih =>
    cases hashes with
    | nil => simp [cacheBlocksLoop] at hrun
    | cons hash hashes =>
      obtain ⟨_, hnone, htail⟩ := bind_eq_ok.mp hrun
      rw [pyAssert_eq_ok] at hnone
      obtain ⟨hb, hkeys⟩ := hblocks 0 b hash rfl rfl
      have hone : held b ≤ 1 := by
        by_contra htwo
        exact h.shared b hb (by omega) hnone
      refine ih ⟨h.map.insert hnone (hash, g), ?_, fun c k h' hc he hsome => ?_,
        fun c hc hle => ?_⟩ (fun i c hash' hi hi' => hblocks (i + 1) c hash' hi hi') htail
      · show (if nullBlock = b then some (hash, g) else p.blockHash nullBlock) = none
        rw [if_neg hb.symm]
        exact h.null
      · have hc' : (if c = b then some (hash, g) else p.blockHash c) = some h' := hsome
        split_ifs at hc' with hcb
        · rw [← hc']
          exact hkeys hone k (hcb ▸ he)
        · exact h.placed c k h' hc he hc'
      · show (if c = b then some (hash, g) else p.blockHash c) ≠ none
        split_ifs
        · exact Option.some_ne_none _
        · exact h.shared c hc hle

lemma cacheFullBlocks_hashesOk {request : Request} {blocks : List BlockId}
    {numCached numFull blockSize : Int} {g : Nat} (hcached : 0 ≤ numCached) (hfull : 0 ≤ numFull)
    (h : p.HashesOk held entry)
    (hblocks : ∀ (j : Nat) b hash, numCached ≤ j → (j : Int) < numFull → blocks[j]? = some b →
      request.blockHashes[j]? = some hash →
      b ≠ nullBlock ∧ (held b ≤ 1 → ∀ k, entry b k → k = some (hash, g)))
    (hrun : p.cacheFullBlocks request blocks numCached numFull blockSize g = .ok p') :
    p'.HashesOk held entry := by
  rcases cacheFullBlocks_cases hrun with ⟨-, rfl⟩ | ⟨-, -, q, hloop, hevents⟩
  · exact h
  · have hq : q.HashesOk held entry := by
      refine cacheBlocksLoop_hashesOk h (fun i b hash hb hhash => ?_) hloop
      obtain ⟨hb', hlt⟩ := getElem?_pySlice hcached hfull hb
      exact hblocks (numCached.toNat + i) b hash (by omega) (by omega) hb'
        (getElem?_pyFrom hcached hhash)
    rcases hevents with ⟨-, rfl⟩ | ⟨-, parent, -, rfl⟩
    · exact hq
    · exact hq.of_eq rfl rfl

lemma touchBlock_hash {b : BlockId} (hrun : p.touchBlock b = .ok p') :
    p'.blockHash = p.blockHash ∧ p'.cachedBlockHashToBlock = p.cachedBlockHashToBlock := by
  unfold touchBlock at hrun
  split_ifs at hrun
  · obtain rfl := Except.ok.inj hrun
    exact ⟨rfl, rfl⟩
  · obtain rfl := Except.ok.inj hrun
    exact ⟨rfl, rfl⟩

lemma foldlM_touchBlock_hash {blocks : List BlockId} (hrun : blocks.foldlM touchBlock p = .ok p') :
    p'.blockHash = p.blockHash ∧ p'.cachedBlockHashToBlock = p.cachedBlockHashToBlock := by
  induction blocks generalizing p with
  | nil =>
    obtain rfl := Except.ok.inj hrun
    exact ⟨rfl, rfl⟩
  | cons b blocks ih =>
    rw [List.foldlM_cons] at hrun
    obtain ⟨q, hq, htail⟩ := bind_eq_ok.mp hrun
    obtain ⟨hhash, hmap⟩ := touchBlock_hash hq
    obtain ⟨hhash', hmap'⟩ := ih htail
    exact ⟨hhash'.trans hhash, hmap'.trans hmap⟩

lemma freeBlocks_hash (p : BlockPool) (blocks : List BlockId) :
    (p.freeBlocks blocks).blockHash = p.blockHash ∧
      (p.freeBlocks blocks).cachedBlockHashToBlock = p.cachedBlockHashToBlock := by
  rw [freeBlocks_eq]
  exact ⟨rfl, rfl⟩

lemma resetPrefixCache_hashesOk (h : p.HashesOk held entry) (hok : p.Ok held)
    (hsize : 0 < p.numGpuBlocks) : p.resetPrefixCache.2.HashesOk held entry := by
  by_cases hused : (p.numGpuBlocks : Int) - p.getNumFreeBlocks ≠ 1
  · rw [resetPrefixCache, if_pos hused]
    exact h
  · have hheld : ∀ b, b ≠ 0 → held b = 0 := by
      intro b hb
      by_contra hpos
      have htotal := hok.counted.total hsize
      have hlt : b < p.numGpuBlocks := by
        by_contra hge
        exact hpos (hok.counted.outside b hb (not_lt.mp hge))
      have hmem : b ∈ heldSlots p.numGpuBlocks held := by
        rw [heldSlots, List.mem_filter, List.mem_range, decide_eq_true_eq]
        exact ⟨hlt, hb, hpos⟩
      have hlen := List.length_pos_of_mem hmem
      unfold getNumFreeBlocks at hused
      omega
    have hcleared : ∀ q : BlockPool, (q.blockHash = fun _ => none) →
        (q.cachedBlockHashToBlock = fun _ => none) → q.HashesOk held entry := by
      intro q hhash hmap
      refine ⟨fun b k => ?_, ?_, fun b k hash _ _ hsome => ?_, fun b hb hle => ?_⟩
      · rw [hhash, hmap]
        constructor
        · intro hnone
          cases hnone
        · rintro ⟨c, hc, -⟩
          cases hc
      · rw [hhash]
      · rw [hhash] at hsome
        cases hsome
      · rw [hheld b hb] at hle
        omega
    rw [resetPrefixCache, if_neg hused]
    simp only
    split_ifs
    · exact hcleared _ rfl rfl
    · exact hcleared _ rfl rfl

end BlockPool

/-- The block hashes of the requests, by id. -/
abbrev KnownHashes := String → List BlockHash

/-- The key that a block at position `j` of a table of group `g` should carry. -/
def expectedKey (known : KnownHashes) (g : Nat) (requestId : String) (j : Nat) :
    Option BlockHashWithGroupId :=
  (known requestId)[j]?.map fun h => (h, g)

namespace SingleTypeManager

/-- A table of the manager has the block at a place with this key. -/
def Entry (m : SingleTypeManager) (known : KnownHashes) (b : BlockId)
    (k : Option BlockHashWithGroupId) : Prop :=
  ∃ requestId j, (m.blocksOf requestId)[j]? = some b ∧
    k = expectedKey known m.kvCacheGroupId requestId j

/-- The hashes of the pool fit the tables of the manager and the entries of `others`, which
are among the `extra` references. -/
structure Tagged (m : SingleTypeManager) (p : BlockPool) (known : KnownHashes)
    (extra : BlockId → Nat) (others : BlockId → Option BlockHashWithGroupId → Prop) : Prop
    extends Accounted m p extra where
  caching : p.enableCaching = true
  hashes : p.HashesOk (fun b => m.held b + extra b) fun b k => m.Entry known b k ∨ others b k
  counted : ∀ b k, b ≠ nullBlock → others b k → extra b ≠ 0
  cached : ∀ requestId n, m.numCachedBlock.get? requestId = some n → 0 ≤ n

variable {m m' : SingleTypeManager} {p p' : BlockPool} {known : KnownHashes}
  {extra : BlockId → Nat} {others : BlockId → Option BlockHashWithGroupId → Prop}
  {requestId : String} {blocks : List BlockId} {b : BlockId} {k : Option BlockHashWithGroupId}

lemma Entry.held_ne_zero (h : m.Entry known b k) : m.held b ≠ 0 := by
  obtain ⟨id, j, hj, -⟩ := h
  have hpos := List.count_pos_iff.mpr (List.mem_of_getElem? hj)
  have hle := m.count_blocksOf_le id b
  omega

lemma index_unique (hn : (blocks.filter (· ≠ 0)).Nodup) (hb : b ≠ 0) {i j : Nat}
    (hi : blocks[i]? = some b) (hj : blocks[j]? = some b) : i = j := by
  induction blocks generalizing i j with
  | nil => simp at hi
  | cons a blocks ih =>
    have htail := hn.sublist ((List.sublist_cons_self a blocks).filter _)
    have hhead : ∀ l : Nat, blocks[l]? = some b → a ≠ b := by
      rintro l hl rfl
      rw [List.filter_cons_of_pos (by simp [hb]), List.nodup_cons, List.mem_filter] at hn
      exact hn.1 ⟨List.mem_of_getElem? hl, by simp [hb]⟩
    cases i with
    | zero =>
      cases j with
      | zero => rfl
      | succ j => exact absurd (Option.some.inj hi) (hhead j hj)
    | succ i =>
      cases j with
      | zero => exact absurd (Option.some.inj hj) (hhead i hi)
      | succ j => rw [ih htail hi hj]

lemma count_add_count_le {id id' : String} (hne : id ≠ id') (b : BlockId) :
    (m.blocksOf id).count b + (m.blocksOf id').count b ≤ m.held b := by
  have herase := held_erase m id b
  have hother := (m.reqToBlocks.erase id).sumBy_erase (List.count b) id'
  have hpart : (m.reqToBlocks.erase id).part (List.count b) id' = (m.blocksOf id').count b := by
    rw [← part_count, Dict.part, Dict.part, Dict.get?_erase_of_ne hne]
  omega

lemma Tagged.unique_entry (h : m.Tagged p known extra others) {j : Nat}
    (hj : (m.blocksOf requestId)[j]? = some b) (hb : b ≠ nullBlock)
    (hone : m.held b + extra b ≤ 1) (he : m.Entry known b k ∨ others b k) :
    k = expectedKey known m.kvCacheGroupId requestId j := by
  have hpos := List.count_pos_iff.mpr (List.mem_of_getElem? hj)
  have hle := m.count_blocksOf_le requestId b
  rcases he with ⟨id', j', hj', rfl⟩ | he
  · by_cases hid : requestId = id'
    · subst hid
      rw [index_unique (h.tables requestId) hb hj hj']
    · have htwo := count_add_count_le (m := m) hid b
      have hpos' := List.count_pos_iff.mpr (List.mem_of_getElem? hj')
      omega
  · have := h.counted b k hb he
    omega

/-- An operation that changes no hash and drops entries. -/
lemma Tagged.shrink (h : m.Tagged p known extra others) (hacc : m'.Accounted p' extra)
    (hconf : p.SameConfig p')
    (hhash : p'.blockHash = p.blockHash ∧ p'.cachedBlockHashToBlock = p.cachedBlockHashToBlock)
    (hheld : ∀ b, b ≠ nullBlock → m'.held b ≤ m.held b)
    (hentry : ∀ b k, b ≠ nullBlock → m'.Entry known b k → m.Entry known b k)
    (hcached : ∀ requestId n, m'.numCachedBlock.get? requestId = some n → 0 ≤ n) :
    m'.Tagged p' known extra others where
  toAccounted := hacc
  caching := hconf.2.1.trans h.caching
  hashes := by
    refine (h.hashes.of_eq hhash.1 hhash.2).mono (fun b hb => ?_) fun b k hb he => ?_
    · exact Nat.add_le_add_right (hheld b hb) _
    · exact he.imp_left (hentry b k hb)
  counted := h.counted
  cached := hcached

lemma removeLoop_getElem {i : Nat} {blocks' removed : List BlockId}
    (h : removeLoop blocks i = .ok (blocks', removed)) {j : Nat} (hj : blocks'[j]? = some b)
    (hb : b ≠ nullBlock) : blocks[j]? = some b := by
  induction i generalizing blocks removed with
  | zero =>
    obtain ⟨rfl, -⟩ := Prod.mk.inj (Except.ok.inj h)
    exact hj
  | succ i ih =>
    unfold removeLoop at h
    split at h
    · cases h
    · split_ifs at h
      · obtain ⟨rfl, -⟩ := Prod.mk.inj (Except.ok.inj h)
        exact hj
      · obtain ⟨⟨rest, removed'⟩, hrest, hret⟩ := bind_eq_ok.mp h
        obtain ⟨rfl, -⟩ := Prod.mk.inj (Except.ok.inj hret)
        have hset := ih hrest
        rw [List.getElem?_set] at hset
        split_ifs at hset
        · exact absurd (Option.some.inj hset).symm hb
        · exact hset

lemma removeSkippedBlocks_tagged {n : Int} (h : m.Tagged p known extra others)
    (hrun : m.removeSkippedBlocks p requestId n = .ok (m', p')) :
    m'.Tagged p' known extra others := by
  obtain ⟨hacc, hconf, -⟩ := removeSkippedBlocks_accounted h.toAccounted hrun
  obtain ⟨⟨blocks', removed⟩, hloop, hret⟩ := bind_eq_ok.mp hrun
  obtain ⟨rfl, rfl⟩ := Prod.mk.inj (Except.ok.inj hret)
  refine h.shrink hacc hconf (BlockPool.freeBlocks_hash p removed) (fun b hb => ?_) ?_ h.cached
  · have hset := held_setBlocks m requestId blocks' b
    have hcount := removeLoop_count hloop hb
    omega
  · rintro b k hb ⟨id, j, hj, rfl⟩
    rw [blocksOf_setBlocks] at hj
    split_ifs at hj with hid
    · subst hid
      exact ⟨requestId, j, removeLoop_getElem hloop hj hb, rfl⟩
    · exact ⟨id, j, hj, rfl⟩

lemma free_tagged (requestId : String) (h : m.Tagged p known extra others) :
    (m.free p requestId).1.Tagged (m.free p requestId).2 known extra others := by
  obtain ⟨hacc, hconf, -⟩ := free_accounted requestId h.toAccounted
  refine h.shrink hacc hconf (BlockPool.freeBlocks_hash p _) (fun b _ => ?_) ?_ ?_
  · have := held_erase m requestId b
    show Dict.sumBy (List.count b) (m.reqToBlocks.erase requestId) ≤ m.held b
    omega
  · rintro b k - ⟨id, j, hj, rfl⟩
    refine ⟨id, j, ?_, rfl⟩
    unfold free blocksOf at hj
    rw [Dict.get?_erase] at hj
    split_ifs at hj
    · simp at hj
    · exact hj
  · intro id n hn
    have hn' : (m.numCachedBlock.erase requestId).get? id = some n := hn
    rw [Dict.get?_erase] at hn'
    split_ifs at hn'
    exact h.cached id n hn'

lemma allocateNewBlocks_tagged {numTokens : Int} {new : List BlockId}
    (h : m.Tagged p known extra others)
    (hrun : m.allocateNewBlocks p requestId numTokens = .ok (new, m', p')) :
    m'.Tagged p' known extra others := by
  obtain ⟨hacc, hconf, -⟩ := allocateNewBlocks_accounted h.toAccounted hrun
  simp only [allocateNewBlocks] at hrun
  split_ifs at hrun
  · obtain ⟨-, rfl, rfl⟩ : [] = new ∧ m = m' ∧ p = p' := by simpa using hrun
    exact h
  · obtain ⟨⟨fresh, q⟩, hget, hret⟩ := bind_eq_ok.mp hrun
    obtain ⟨rfl, rfl, rfl⟩ : fresh = new ∧
        m.setBlocks requestId (m.blocksOf requestId ++ fresh) = m' ∧ q = p' := by
      simpa using hret
    have hentry : ∀ b k, b ≠ nullBlock → (m.Entry known b k ∨ others b k) →
        m.held b + extra b ≠ 0 := by
      rintro b k hb (he | he)
      · have := he.held_ne_zero
        omega
      · have := h.counted b k hb he
        omega
    obtain ⟨hhash, hnone⟩ := BlockPool.getNewBlocks_hashesOk h.caching h.hashes h.pool hentry hget
    obtain ⟨-, -, hnodup, hfresh, -, -⟩ := BlockPool.getNewBlocks_ok h.pool hget
    refine ⟨hacc, hconf.2.1.trans h.caching, ⟨hhash.map, hhash.null, ?_, ?_⟩, h.counted, h.cached⟩
    · rintro b k hash hb (⟨id, j, hj, rfl⟩ | he) hsome
      · rw [blocksOf_setBlocks] at hj
        split_ifs at hj with hid
        · subst hid
          rw [List.getElem?_append] at hj
          split_ifs at hj
          · exact hhash.placed b _ hash hb (Or.inl ⟨requestId, j, hj, rfl⟩) hsome
          · rw [hnone b (List.mem_of_getElem? hj)] at hsome
            cases hsome
        · exact hhash.placed b _ hash hb (Or.inl ⟨id, j, hj, rfl⟩) hsome
      · exact hhash.placed b k hash hb (Or.inr he) hsome
    · intro b hb hle
      refine hhash.shared b hb ?_
      have hset := held_setBlocks m requestId (m.blocksOf requestId ++ fresh) b
      rw [List.count_append] at hset
      by_cases hmem : b ∈ fresh
      · have hzero := (hfresh b hmem).2
        have hone := List.nodup_iff_count_le_one.mp hnodup b
        omega
      · rw [List.count_eq_zero.mpr hmem] at hset
        omega

/-- No null block stands where the next full blocks would be hashed. -/
def NoNullToCache (m : SingleTypeManager) (requestId : String) (numTokens : Int) : Prop :=
  ∀ numCached, m.numCachedBlock.get? requestId = some numCached →
    ∀ j : Nat, numCached ≤ j → (j : Int) < numTokens.fdiv m.blockSize →
      (m.blocksOf requestId)[j]? ≠ some nullBlock

lemma cacheBlocks_tagged {request : Request} {numTokens : Int}
    (h : m.Tagged p known extra others) (hbs : 0 ≤ m.blockSize)
    (hknown : known request.requestId = request.blockHashes) (htokens : 0 ≤ numTokens)
    (hnull : m.NoNullToCache request.requestId numTokens)
    (hrun : m.cacheBlocks p request numTokens = .ok (m', p')) :
    m'.Tagged p' known extra others := by
  obtain ⟨hacc, hconf, -⟩ := cacheBlocks_accounted h.toAccounted hrun
  unfold cacheBlocks at hrun
  split at hrun
  · cases hrun
  · split at hrun
    · cases hrun
    · rename_i numCached hnum
      obtain ⟨q, hq, hret⟩ := bind_eq_ok.mp hrun
      obtain ⟨rfl, rfl⟩ := Prod.mk.inj (Except.ok.inj hret)
      have hfull : 0 ≤ numTokens.fdiv m.blockSize := Int.fdiv_nonneg htokens hbs
      refine ⟨hacc, hconf.2.1.trans h.caching, ?_, h.counted, fun id n hn => ?_⟩
      · refine BlockPool.cacheFullBlocks_hashesOk (h.cached _ _ hnum) hfull h.hashes
          (fun j b hash hle hlt hj hhash => ?_) hq
        have hb : b ≠ nullBlock := by
          rintro rfl
          exact hnull numCached hnum j hle hlt hj
        refine ⟨hb, fun hone k he => ?_⟩
        rw [h.unique_entry hj hb hone he, expectedKey, hknown, hhash]
        rfl
      · have hn' : (m.numCachedBlock.set request.requestId (numTokens.fdiv m.blockSize)).get? id =
            some n := hn
        rw [Dict.get?_set] at hn'
        split_ifs at hn'
        · exact Option.some.inj hn' ▸ hfull
        · exact h.cached id n hn'

end SingleTypeManager

namespace KVCacheManager

/-- Some table of some group has the block at a place with this key. -/
def EntryOf (ms : List SingleTypeManager) (known : KnownHashes) (b : BlockId)
    (k : Option BlockHashWithGroupId) : Prop :=
  ∃ m ∈ ms, m.Entry known b k

/-- The hashes of the pool fit all tables. -/
structure AllTagged (ms : List SingleTypeManager) (p : BlockPool) (known : KnownHashes)
    (extra : BlockId → Nat) (others : BlockId → Option BlockHashWithGroupId → Prop) : Prop
    extends AllAccounted ms p extra where
  caching : p.enableCaching = true
  hashes : p.HashesOk (fun b => heldBy ms b + extra b) fun b k => EntryOf ms known b k ∨ others b k
  counted : ∀ b k, b ≠ nullBlock → others b k → extra b ≠ 0
  cached : ∀ m ∈ ms, ∀ requestId n, m.numCachedBlock.get? requestId = some n → 0 ≤ n

variable {m : SingleTypeManager} {ms ms' : List SingleTypeManager} {p p' : BlockPool}
  {known known' : KnownHashes} {extra : BlockId → Nat}
  {others : BlockId → Option BlockHashWithGroupId → Prop} {α : Type} {requestId : String}

lemma entryOf_cons {b : BlockId} {k : Option BlockHashWithGroupId} :
    EntryOf (m :: ms) known b k ↔ m.Entry known b k ∨ EntryOf ms known b k := by
  unfold EntryOf
  rw [List.exists_mem_cons_iff]

lemma heldBy_cons (b : BlockId) : heldBy (m :: ms) b = m.held b + heldBy ms b := by
  rw [heldBy, List.map_cons, List.sum_cons, ← heldBy]

lemma EntryOf.heldBy_ne_zero {b : BlockId} {k : Option BlockHashWithGroupId}
    (h : EntryOf ms known b k) : heldBy ms b ≠ 0 := by
  obtain ⟨m, hm, he⟩ := h
  have hle : m.held b ≤ heldBy ms b := List.le_sum_of_mem (List.mem_map_of_mem hm)
  have := he.held_ne_zero
  omega

/-- The first manager, for which the entries of the others are other entries. -/
lemma AllTagged.head (h : AllTagged (m :: ms) p known extra others) :
    m.Tagged p known (fun b => heldBy ms b + extra b)
      (fun b k => EntryOf ms known b k ∨ others b k) where
  toAccounted := (allAccounted_cons.mp h.toAllAccounted).1
  caching := h.caching
  hashes := by
    refine h.hashes.mono (fun b _ => ?_) fun b k _ he => ?_
    · rw [heldBy_cons]
      omega
    · rw [entryOf_cons, or_assoc]
      exact he
  counted b k hb he := by
    rcases he with he | he
    · have := he.heldBy_ne_zero
      omega
    · have := h.counted b k hb he
      omega
  cached := h.cached m (by simp)

/-- The managers behind the first, for which the entries of the first are other entries. -/
lemma AllTagged.tail (h : AllTagged (m :: ms) p known extra others) :
    AllTagged ms p known (fun b => m.held b + extra b)
      (fun b k => m.Entry known b k ∨ others b k) where
  toAllAccounted := (allAccounted_tail (h.tables m (by simp))).mp h.toAllAccounted
  caching := h.caching
  hashes := by
    refine h.hashes.mono (fun b _ => ?_) fun b k _ he => ?_
    · rw [heldBy_cons]
      omega
    · rw [entryOf_cons]
      rcases he with he | he | he
      · exact Or.inl (Or.inr he)
      · exact Or.inl (Or.inl he)
      · exact Or.inr he
  counted b k hb he := by
    rcases he with he | he
    · have := he.held_ne_zero
      omega
    · have := h.counted b k hb he
      omega
  cached m' hm' := h.cached m' (by simp [hm'])

lemma AllTagged.of_head (hcounted : ∀ b k, b ≠ nullBlock → others b k → extra b ≠ 0)
    (h : m.Tagged p known (fun b => heldBy ms b + extra b)
      fun b k => EntryOf ms known b k ∨ others b k)
    (htables : ∀ m' ∈ ms, m'.TablesNodup)
    (hcached : ∀ m' ∈ ms, ∀ id n, m'.numCachedBlock.get? id = some n → 0 ≤ n) :
    AllTagged (m :: ms) p known extra others where
  toAllAccounted := allAccounted_cons.mpr ⟨h.toAccounted, htables⟩
  caching := h.caching
  hashes := by
    refine h.hashes.mono (fun b _ => ?_) fun b k _ he => ?_
    · rw [heldBy_cons]
      omega
    · rw [entryOf_cons, or_assoc] at he
      exact he
  counted := hcounted
  cached := List.forall_mem_cons.mpr ⟨h.cached, hcached⟩

lemma AllTagged.of_tail (hcounted : ∀ b k, b ≠ nullBlock → others b k → extra b ≠ 0)
    (hm : m.TablesNodup) (hmcached : ∀ id n, m.numCachedBlock.get? id = some n → 0 ≤ n)
    (h : AllTagged ms p known (fun b => m.held b + extra b)
      fun b k => m.Entry known b k ∨ others b k) :
    AllTagged (m :: ms) p known extra others where
  toAllAccounted := (allAccounted_tail hm).mpr h.toAllAccounted
  caching := h.caching
  hashes := by
    refine h.hashes.mono (fun b _ => ?_) fun b k _ he => ?_
    · rw [heldBy_cons]
      omega
    · rw [entryOf_cons] at he
      rcases he with (he | he) | he
      · exact Or.inr (Or.inl he)
      · exact Or.inl he
      · exact Or.inr (Or.inr he)
  counted := hcounted
  cached := List.forall_mem_cons.mpr ⟨hmcached, h.cached⟩

/-- What each call keeps, for managers that meet its precondition, the loop keeps. -/
lemma forManagers_tagged (pre post : SingleTypeManager → Prop) {f : SingleTypeManager →
      BlockPool → Except PyError (α × SingleTypeManager × BlockPool)} {as : List α}
    (hf : ∀ m p a m' p' extra others, pre m → m.Tagged p known extra others →
      f m p = .ok (a, m', p') → m'.Tagged p' known extra others ∧ post m')
    (h : AllTagged ms p known extra others) (hpre : ∀ m ∈ ms, pre m)
    (hrun : forManagers f ms p = .ok (as, ms', p')) :
    AllTagged ms' p' known extra others ∧ ∀ m' ∈ ms', post m' := by
  induction ms generalizing p extra others as ms' p' with
  | nil =>
    obtain ⟨-, rfl, rfl⟩ : [] = as ∧ [] = ms' ∧ p = p' := by simpa [forManagers] using hrun
    exact ⟨h, by simp⟩
  | cons m ms ih =>
    obtain ⟨⟨a, m₁, p₁⟩, hm, hrun⟩ := bind_eq_ok.mp hrun
    obtain ⟨⟨as', ms₁, p₂⟩, hms, hret⟩ := bind_eq_ok.mp hrun
    obtain ⟨-, rfl, rfl⟩ : a :: as' = as ∧ m₁ :: ms₁ = ms' ∧ p₂ = p' := by simpa using hret
    obtain ⟨hhead, hpost⟩ := hf m p a m₁ p₁ _ _ (hpre m (by simp)) h.head hm
    have hall := AllTagged.of_head h.counted hhead (fun m' hm' => h.tables m' (by simp [hm']))
      fun m' hm' => h.cached m' (by simp [hm'])
    obtain ⟨htail, hposts⟩ := ih hall.tail (fun m' hm' => hpre m' (by simp [hm'])) hms
    exact ⟨AllTagged.of_tail h.counted hhead.tables hhead.cached htail,
      List.forall_mem_cons.mpr ⟨hpost, hposts⟩⟩

lemma freeLoop_tagged (h : AllTagged ms p known extra others) :
    AllTagged (freeLoop requestId ms p).1 (freeLoop requestId ms p).2 known extra others := by
  induction ms generalizing p extra others with
  | nil => exact h
  | cons m ms ih =>
    have hhead := SingleTypeManager.free_tagged requestId h.head
    have hall := AllTagged.of_head h.counted hhead (fun m' hm' => h.tables m' (by simp [hm']))
      fun m' hm' => h.cached m' (by simp [hm'])
    exact AllTagged.of_tail h.counted hhead.tables hhead.cached (ih hall.tail)

/-- Other hash lists that extend the known ones of every request with a table. -/
lemma AllTagged.extend (h : AllTagged ms p known extra fun _ _ => False)
    (hext : ∀ id, known id <+: known' id ∨ ∀ m ∈ ms, m.blocksOf id = []) :
    AllTagged ms p known' extra fun _ _ => False where
  toAllAccounted := h.toAllAccounted
  caching := h.caching
  hashes := by
    refine ⟨h.hashes.map, h.hashes.null, ?_, h.hashes.shared⟩
    rintro b k hash hb (⟨m, hm, id, j, hj, rfl⟩ | he) hsome
    · have hold := h.hashes.placed b _ hash hb (Or.inl ⟨m, hm, id, j, hj, rfl⟩) hsome
      rcases hext id with hprefix | hempty
      · obtain ⟨x, hx, hkey⟩ := Option.map_eq_some_iff.mp hold
        have hx' : (known' id)[j]? = some x := by
          obtain ⟨more, hmore⟩ := hprefix
          obtain ⟨hlt, -⟩ := List.getElem?_eq_some_iff.mp hx
          rw [← hmore, List.getElem?_append_left hlt, hx]
        rw [expectedKey, hx', Option.map_some, hkey]
      · rw [hempty m hm] at hj
        simp at hj
    · exact he.elim
  counted b k _ he := he.elim
  cached := h.cached

/-- A hit as an entry of the table it is about to be saved in. -/
def HitEntry (known : KnownHashes) (requestId : String) (ms : List SingleTypeManager)
    (hits : List (List BlockId)) (b : BlockId) (k : Option BlockHashWithGroupId) : Prop :=
  ∃ x ∈ ms.zip hits, ∃ j, x.2[j]? = some b ∧ k = expectedKey known x.1.kvCacheGroupId requestId j

/-- Hits carry the keys of the places they are about to have. -/
lemma AllTagged.touched {hits : List (List BlockId)}
    (h : AllTagged ms p known (fun _ => 0) fun _ _ => False)
    (hal : List.Forall₂ (fun m c => AlignedHits p (known requestId) m.kvCacheGroupId c) ms hits)
    (hacc : AllAccounted ms p' fun b => hits.flatten.count b) (hconf : p.SameConfig p')
    (hhash : p'.blockHash = p.blockHash ∧ p'.cachedBlockHashToBlock = p.cachedBlockHashToBlock) :
    AllTagged ms p' known (fun b => hits.flatten.count b) (HitEntry known requestId ms hits) := by
  have hkey : ∀ b k, b ≠ nullBlock → HitEntry known requestId ms hits b k →
      k = p.blockHash b ∧ p.blockHash b ≠ none := by
    rintro b k hb ⟨⟨m, c⟩, hmc, j, hj, rfl⟩
    obtain ⟨x, hx, hholds⟩ := (List.forall₂_iff_zip.mp hal).2 hmc j b hj hb
    rw [(h.hashes.map b _).mpr hholds]
    refine ⟨?_, Option.some_ne_none _⟩
    rw [expectedKey, hx]
    rfl
  have hmem : ∀ b, b ∈ hits.flatten → ∃ k, HitEntry known requestId ms hits b k := by
    intro b hb
    obtain ⟨c, hc, hbc⟩ := List.mem_flatten.mp hb
    obtain ⟨i, hi⟩ := List.mem_iff_getElem?.mp hc
    obtain ⟨j, hj⟩ := List.mem_iff_getElem?.mp hbc
    obtain ⟨hlt, -⟩ := List.getElem?_eq_some_iff.mp hi
    rw [← hal.length_eq] at hlt
    have hm : ms[i]? = some ms[i] := List.getElem?_eq_getElem hlt
    have hzip : (ms.zip hits)[i]? = some (ms[i], c) := by
      rw [List.getElem?_zip_eq_some]
      exact ⟨hm, hi⟩
    exact ⟨_, (ms[i], c), List.mem_of_getElem? hzip, j, hj, rfl⟩
  have hp' := h.hashes.of_eq hhash.1 hhash.2
  refine ⟨hacc, hconf.2.1.trans h.caching, ⟨hp'.map, hp'.null, ?_, ?_⟩, ?_, h.cached⟩
  · rintro b k hash hb (he | he) hsome
    · exact hp'.placed b k hash hb (Or.inl he) hsome
    · rw [hhash.1] at hsome
      exact (hkey b k hb he).1.trans hsome
  · intro b hb hle
    by_cases hin : b ∈ hits.flatten
    · obtain ⟨k, he⟩ := hmem b hin
      rw [hhash.1]
      exact (hkey b k hb he).2
    · rw [List.count_eq_zero.mpr hin] at hle
      exact hp'.shared b hb hle
  · rintro b k - ⟨⟨m, c⟩, hmc, j, hj, -⟩
    have hin : b ∈ hits.flatten :=
      List.mem_flatten.mpr ⟨c, (List.of_mem_zip hmc).2, List.mem_of_getElem? hj⟩
    exact (List.count_pos_iff.mpr hin).ne'

end KVCacheManager

namespace SingleTypeManager

variable {m m' : SingleTypeManager} {p p' : BlockPool} {known : KnownHashes} {requestId : String}
  {hits : List BlockId} {extra : BlockId → Nat}

lemma saveNewComputedBlocks_entry (hrun : m.saveNewComputedBlocks requestId hits = .ok m')
    {b : BlockId} {k : Option BlockHashWithGroupId} (he : m'.Entry known b k) :
    m.Entry known b k ∨
      ∃ j : Nat, hits[j]? = some b ∧ k = expectedKey known m.kvCacheGroupId requestId j := by
  rcases saveNewComputedBlocks_cases hrun with ⟨-, rfl⟩ | ⟨-, rfl⟩
  · exact Or.inl he
  · obtain ⟨id, j, hj, rfl⟩ := he
    have hj' : ((m.setBlocks requestId hits).blocksOf id)[j]? = some b := hj
    rw [blocksOf_setBlocks] at hj'
    split_ifs at hj' with hid
    · exact Or.inr ⟨j, hj', hid ▸ rfl⟩
    · exact Or.inl ⟨id, j, hj', rfl⟩

lemma saveNewComputedBlocks_cached (hrun : m.saveNewComputedBlocks requestId hits = .ok m')
    (h : ∀ id n, m.numCachedBlock.get? id = some n → 0 ≤ n) {id : String} {n : Int}
    (hn : m'.numCachedBlock.get? id = some n) : 0 ≤ n := by
  rcases saveNewComputedBlocks_cases hrun with ⟨-, rfl⟩ | ⟨-, rfl⟩
  · exact h id n hn
  · have hn' : (m.numCachedBlock.set requestId (hits.length : Int)).get? id = some n := hn
    rw [Dict.get?_set] at hn'
    split_ifs at hn'
    · rw [← Option.some.inj hn']
      exact Int.natCast_nonneg _
    · exact h id n hn'

lemma saveNewComputedBlocks_noNull {numTokens : Int}
    (hrun : m.saveNewComputedBlocks requestId hits = .ok m')
    (h : m.NoNullToCache requestId numTokens) : m'.NoNullToCache requestId numTokens := by
  rcases saveNewComputedBlocks_cases hrun with ⟨-, rfl⟩ | ⟨-, rfl⟩
  · exact h
  · intro numCached hnum j hle _ hj
    have hnum' : (m.numCachedBlock.set requestId (hits.length : Int)).get? requestId =
        some numCached := hnum
    rw [Dict.get?_set_self, Option.some.injEq] at hnum'
    have hj' : ((m.setBlocks requestId hits).blocksOf requestId)[j]? = some nullBlock := hj
    rw [blocksOf_setBlocks, if_pos rfl] at hj'
    obtain ⟨hlt, -⟩ := List.getElem?_eq_some_iff.mp hj'
    omega

lemma allocateNewBlocks_noNull {numTokens numTokensToCache : Int} {new : List BlockId}
    (hacc : m.Accounted p extra) (h : m.NoNullToCache requestId numTokensToCache)
    (hrun : m.allocateNewBlocks p requestId numTokens = .ok (new, m', p')) :
    m'.NoNullToCache requestId numTokensToCache := by
  simp only [allocateNewBlocks] at hrun
  split_ifs at hrun
  · obtain ⟨-, rfl, -⟩ : [] = new ∧ m = m' ∧ p = p' := by simpa using hrun
    exact h
  · obtain ⟨⟨fresh, q⟩, hget, hret⟩ := bind_eq_ok.mp hrun
    obtain ⟨-, rfl, -⟩ : fresh = new ∧
        m.setBlocks requestId (m.blocksOf requestId ++ fresh) = m' ∧ q = p' := by
      simpa using hret
    obtain ⟨-, -, -, hfresh, -, -⟩ := BlockPool.getNewBlocks_ok hacc.pool hget
    intro numCached hnum j hle hlt hj
    rw [blocksOf_setBlocks, if_pos rfl, List.getElem?_append] at hj
    split_ifs at hj
    · exact h numCached hnum j hle hlt hj
    · exact (hfresh _ (List.mem_of_getElem? hj)).1 rfl

end SingleTypeManager

end VllmV1
