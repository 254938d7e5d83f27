import VllmMmaEmu.KvCache.KvEvents

/-!
# Events of the operations of one manager

The first blocks of a table, as many as are counted as cached, carry the hashes of their
places as far as they are not null. So the parent of the next blocks to hash is found, when it
is not the null block.
-/

namespace VllmV1

open Python

namespace BlockPool

variable {p p' : BlockPool} {held : BlockId → Nat}

/-- Hashes, map and events are left alone. -/
structure SameHashes (p p' : BlockPool) : Prop where
  size : p'.numGpuBlocks = p.numGpuBlocks
  hash : p'.blockHash = p.blockHash
  map : p'.cachedBlockHashToBlock = p.cachedBlockHashToBlock
  queue : p'.kvEventQueue = p.kvEventQueue

lemma SameHashes.logs {shape : KVCacheEvent → Prop} (h : SameHashes p p') : Logs shape p p' :=
  .silent h.queue (cachedHashes_congr h.size h.hash)

lemma SameHashes.hashMapOk (h : SameHashes p p') (hmap : p.HashMapOk) : p'.HashMapOk := by
  intro b k
  rw [h.hash, h.map]
  exact hmap b k

lemma freeBlocks_sameHashes (p : BlockPool) (blocks : List BlockId) :
    SameHashes p (p.freeBlocks blocks) := by
  rw [freeBlocks_eq]
  exact ⟨rfl, rfl, rfl, rfl⟩

lemma touchBlock_sameHashes {b : BlockId} (hrun : p.touchBlock b = .ok p') : SameHashes p p' := by
  unfold touchBlock at hrun
  split_ifs at hrun
  · obtain rfl := Except.ok.inj hrun
    exact ⟨rfl, rfl, rfl, rfl⟩
  · obtain rfl := Except.ok.inj hrun
    exact ⟨rfl, rfl, rfl, rfl⟩

lemma foldlM_touchBlock_sameHashes {blocks : List BlockId}
    (hrun : blocks.foldlM touchBlock p = .ok p') : SameHashes p p' := by
  induction blocks generalizing p with
  | nil =>
    obtain rfl := Except.ok.inj hrun
    exact ⟨rfl, rfl, rfl, rfl⟩
  | cons b blocks ih =>
    rw [List.foldlM_cons] at hrun
    obtain ⟨q, hq, htail⟩ := bind_eq_ok.mp hrun
    have h₁ := touchBlock_sameHashes hq
    have h₂ := ih htail
    exact ⟨h₂.size.trans h₁.size, h₂.hash.trans h₁.hash, h₂.map.trans h₁.map,
      h₂.queue.trans h₁.queue⟩

lemma resetPrefixCache_cases (p : BlockPool) : p.resetPrefixCache.2 = p ∨
    (∀ b, p.resetPrefixCache.2.blockHash b = none) ∧
      ∀ k b, ¬ p.resetPrefixCache.2.cachedBlockHashToBlock.Holds k b := by
  have hnone : ∀ (k : BlockHashWithGroupId) b, ¬ BlockHashToBlockMap.Holds (fun _ => none) k b := by
    rintro k b ⟨c, hc, -⟩
    cases hc
  by_cases hused : (p.numGpuBlocks : Int) - p.getNumFreeBlocks ≠ 1
  · rw [resetPrefixCache, if_pos hused]
    exact .inl rfl
  · rw [resetPrefixCache, if_neg hused]
    dsimp only
    split_ifs
    · exact .inr ⟨fun _ => rfl, hnone⟩
    · exact .inr ⟨fun _ => rfl, hnone⟩

lemma resetPrefixCache_hashMapOk (h : p.HashMapOk) :
    p.resetPrefixCache.2.HashMapOk ∧
      ∀ b k, p.resetPrefixCache.2.blockHash b = some k → p.blockHash b = some k := by
  rcases resetPrefixCache_cases p with hsame | ⟨hhash, hmap⟩
  · rw [hsame]
    exact ⟨h, fun _ _ hk => hk⟩
  · refine ⟨fun b k => ?_, fun b k hk => ?_⟩
    · rw [hhash]
      constructor
      · intro hk
        cases hk
      · intro hholds
        exact absurd hholds (hmap k b)
    · rw [hhash] at hk
      cases hk

lemma parentBlockHash_eq {blocks : List BlockId} {n : Int} {b : BlockId} {hash : BlockHash}
    {g : Nat} (hn : 0 < n) (hb : blocks[(n - 1).toNat]? = some b)
    (hhash : p.blockHash b = some (hash, g)) : p.parentBlockHash blocks n = .ok (some hash) := by
  rw [parentBlockHash, if_neg (by omega), pyFrom_of_nonneg (by omega), List.head?_drop, hb]
  simp only [hhash]

end BlockPool

namespace SingleTypeManager

/-- What holds between the counts of cached blocks, the tables and the hashes. -/
structure CachedOk (m : SingleTypeManager) (p : BlockPool) (known : KnownHashes) : Prop where
  map : p.HashMapOk
  group : ∀ b k, p.blockHash b = some k → k.2 = m.kvCacheGroupId
  within : ∀ requestId n, m.numCachedBlock.get? requestId = some n →
    0 ≤ n ∧ n ≤ (m.blocksOf requestId).length
  cached : ∀ requestId n, m.numCachedBlock.get? requestId = some n → ∀ (j : Nat) b, (j : Int) < n →
    (m.blocksOf requestId)[j]? = some b → b ≠ nullBlock →
    ∃ hash, (known requestId)[j]? = some hash ∧ p.blockHash b = some (hash, m.kvCacheGroupId)

variable {m m' : SingleTypeManager} {p p' : BlockPool} {known known' : KnownHashes}
  {extra : BlockId → Nat} {requestId : String} {shape : KVCacheEvent → Prop}

lemma CachedOk.sameHashes (h : m.CachedOk p known) (hsame : p.SameHashes p') :
    m.CachedOk p' known where
  map := hsame.hashMapOk h.map
  group := by
    rw [hsame.hash]
    exact h.group
  within := h.within
  cached := by
    rw [hsame.hash]
    exact h.cached

lemma CachedOk.extend (h : m.CachedOk p known)
    (hext : ∀ id, known id <+: known' id ∨ m.blocksOf id = []) : m.CachedOk p known' where
  map := h.map
  group := h.group
  within := h.within
  cached id n hn j b hj hb hnull := by
    rcases hext id with ⟨more, hmore⟩ | hempty
    · obtain ⟨hash, hhash, hblock⟩ := h.cached id n hn j b hj hb hnull
      have hlt := (List.getElem?_eq_some_iff.mp hhash).1
      exact ⟨hash, by rw [← hmore, List.getElem?_append_left hlt, hhash], hblock⟩
    · rw [hempty] at hb
      simp at hb

lemma removeSkippedBlocks_cachedOk {n : Int} (h : m.CachedOk p known)
    (hrun : m.removeSkippedBlocks p requestId n = .ok (m', p')) :
    m'.CachedOk p' known ∧ p.SameHashes p' := by
  obtain ⟨hmask, hothers, -⟩ := removeSkippedBlocks_table hrun
  obtain ⟨⟨blocks, removed⟩, -, hret⟩ := bind_eq_ok.mp hrun
  obtain ⟨rfl, rfl⟩ := Prod.mk.inj (Except.ok.inj hret)
  have hsame := BlockPool.freeBlocks_sameHashes p removed
  have h' := h.sameHashes hsame
  refine ⟨⟨h'.map, h'.group, fun id n hn => ?_, fun id n hn j b hj hb hnull => ?_⟩, hsame⟩
  · by_cases hid : id = requestId
    · subst hid
      rw [hmask.length]
      exact h.within id n hn
    · rw [hothers id hid]
      exact h.within id n hn
  · by_cases hid : id = requestId
    · subst hid
      exact h'.cached id n hn j b hj (hmask.of_ne_null hb hnull) hnull
    · rw [hothers id hid] at hb
      exact h'.cached id n hn j b hj hb hnull

/-- Hits are counted as cached, and the map holds them under their hashes. -/
lemma saveNewComputedBlocks_cachedOk {hits : List BlockId} (h : m.CachedOk p known)
    (hal : AlignedHits p (known requestId) m.kvCacheGroupId hits)
    (hrun : m.saveNewComputedBlocks requestId hits = .ok m') : m'.CachedOk p known := by
  rcases saveNewComputedBlocks_cases hrun with ⟨-, rfl⟩ | ⟨-, rfl⟩
  · exact h
  · set m₁ := m.setBlocks requestId hits
    have htable : ∀ id, m₁.blocksOf id = if requestId = id then hits else m.blocksOf id :=
      fun id => blocksOf_setBlocks id
    refine ⟨h.map, h.group, fun id n hn => ?_, fun id n hn j b hj hb hnull => ?_⟩
    · change (m.numCachedBlock.set requestId (hits.length : Int)).get? id = some n at hn
      show 0 ≤ n ∧ n ≤ (m₁.blocksOf id).length
      rw [Dict.get?_set] at hn
      rw [htable]
      split_ifs at hn ⊢
      · obtain rfl := Option.some.inj hn
        exact ⟨Int.natCast_nonneg _, le_rfl⟩
      · exact h.within id n hn
    · change (m.numCachedBlock.set requestId (hits.length : Int)).get? id = some n at hn
      change (m₁.blocksOf id)[j]? = some b at hb
      rw [Dict.get?_set] at hn
      rw [htable] at hb
      split_ifs at hn hb with hid
      · subst hid
        obtain ⟨hash, hhash, hholds⟩ := hal j b hb hnull
        exact ⟨hash, hhash, (h.map b _).mpr hholds⟩
      · exact h.cached id n hn j b hj hb hnull

lemma allocateNewBlocks_cachedOk {numTokens : Int} {new : List BlockId} (h : m.CachedOk p known)
    (hacc : m.Accounted p extra) (hcaching : p.enableCaching = true)
    (hevents : p.enableKvCacheEvents = true) (hshape : ∀ hash, shape (.blockRemoved hash))
    (hrun : m.allocateNewBlocks p requestId numTokens = .ok (new, m', p')) :
    m'.CachedOk p' known ∧ p.Logs shape p' := by
  obtain ⟨htable, -, hothers, -, -⟩ := allocateNewBlocks_table hacc hrun
  simp only [allocateNewBlocks] at hrun
  split_ifs at hrun
  · obtain ⟨rfl, rfl, rfl⟩ : [] = new ∧ m = m' ∧ p = p' := by simpa using hrun
    exact ⟨h, .silent rfl rfl⟩
  · obtain ⟨⟨fresh, q⟩, hget, hret⟩ := bind_eq_ok.mp hrun
    obtain ⟨rfl, rfl, rfl⟩ : fresh = new ∧
        m.setBlocks requestId (m.blocksOf requestId ++ fresh) = m' ∧ q = p' := by
      simpa using hret
    obtain ⟨hlogs, hmap, hhash⟩ :=
      BlockPool.getNewBlocks_logs hcaching hevents h.map hacc.pool hshape hget
    obtain ⟨-, -, -, hfresh, -, -⟩ := BlockPool.getNewBlocks_ok hacc.pool hget
    refine ⟨⟨hmap, fun b k hk => ?_, fun id n hn => ?_, fun id n hn j b hj hb hnull => ?_⟩,
      hlogs⟩
    · rw [hhash] at hk
      split_ifs at hk
      exact h.group b k hk
    · obtain ⟨hpos, hle⟩ := h.within id n hn
      by_cases hid : id = requestId
      · subst hid
        rw [htable, List.length_append]
        omega
      · rw [hothers id hid]
        exact ⟨hpos, hle⟩
    · have hold : (m.blocksOf id)[j]? = some b := by
        by_cases hid : id = requestId
        · subst hid
          have hle := (h.within id n hn).2
          rwa [htable, List.getElem?_append_left (by omega)] at hb
        · rwa [hothers id hid] at hb
      have hpos := List.count_pos_iff.mpr (List.mem_of_getElem? hold)
      have hheld := m.count_blocksOf_le id b
      have hnot : b ∉ fresh := by
        intro hmem
        have := (hfresh b hmem).2
        omega
      rw [hhash, if_neg hnot]
      exact h.cached id n hn j b hj hold hnull

lemma free_cachedOk (requestId : String) (h : m.CachedOk p known) :
    (m.free p requestId).1.CachedOk (m.free p requestId).2 known := by
  have h' := h.sameHashes (BlockPool.freeBlocks_sameHashes p (m.blocksOf requestId).reverse)
  have hnum : ∀ id n, (m.numCachedBlock.erase requestId).get? id = some n →
      id ≠ requestId ∧ m.numCachedBlock.get? id = some n := by
    intro id n hn
    rw [Dict.get?_erase] at hn
    split_ifs at hn with hid
    exact ⟨Ne.symm hid, hn⟩
  refine ⟨h'.map, h'.group, fun id n hn => ?_, fun id n hn j b hj hb hnull => ?_⟩
  · obtain ⟨hid, hn⟩ := hnum id n hn
    rw [free_table hid]
    exact h.within id n hn
  · obtain ⟨hid, hn⟩ := hnum id n hn
    rw [free_table hid] at hb
    exact h'.cached id n hn j b hj hb hnull

/-- The cache is cleared only while no table has a block. -/
lemma CachedOk.reset (h : m.CachedOk p known) (hacc : m.Accounted p extra) :
    m.CachedOk p.resetPrefixCache.2 known := by
  obtain ⟨hmap, hhash⟩ := BlockPool.resetPrefixCache_hashMapOk h.map
  refine ⟨hmap, fun b k hk => h.group b k (hhash b k hk), h.within,
    fun id n hn j b hj hb hnull => ?_⟩
  have hpos := List.count_pos_iff.mpr (List.mem_of_getElem? hb)
  have hheld := m.count_blocksOf_le id b
  rw [BlockPool.resetPrefixCache_held hacc.pool hacc.size hnull (by omega)]
  exact h.cached id n hn j b hj hb hnull

/-- The place of the first block to hash, for a request that has these hits if it is new. -/
def firstToHash (m : SingleTypeManager) (requestId : String) (hits : List BlockId) : Int :=
  (m.numCachedBlock.get? requestId).getD hits.length

/-- The event for the blocks to hash can be made: the request has no LoRA adapter, and the block
before the first one is not the null block, nor among the ones before `useful`, which are removed
first. Or nothing is hashed. -/
def StoresEvent (m : SingleTypeManager) (request : Request) (hits : List BlockId)
    (useful numTokens : Int) : Prop :=
  m.firstToHash request.requestId hits = numTokens.fdiv m.blockSize ∨ request.loraRequest = none ∧
    (m.firstToHash request.requestId hits = 0 ∨ useful < m.firstToHash request.requestId hits ∧
      (m.blocksOf request.requestId ++ hits)[(m.firstToHash request.requestId hits - 1).toNat]? ≠
        some nullBlock)

instance (m : SingleTypeManager) (request : Request) (hits : List BlockId)
    (useful numTokens : Int) : Decidable (m.StoresEvent request hits useful numTokens) :=
  inferInstanceAs (Decidable (_ ∨ _ ∧ (_ ∨ _ ∧ _)))

/-- `r` is what `cache_full_blocks` gets for the parent's hash when `cache_blocks` is called
with these tokens. -/
def LooksUpParent (m : SingleTypeManager) (p : BlockPool) (request : Request) (numTokens : Int)
    (r : Except PyError (Option BlockHash)) : Prop :=
  ∃ numCached q, m.numCachedBlock.get? request.requestId = some numCached ∧
    numCached ≠ numTokens.fdiv m.blockSize ∧
    BlockPool.cacheBlocksLoop m.kvCacheGroupId p
      (pySlice (m.blocksOf request.requestId) numCached (numTokens.fdiv m.blockSize))
      (pyFrom request.blockHashes numCached) = .ok q ∧
    r = q.parentBlockHash (m.blocksOf request.requestId) numCached

variable {hits : List BlockId} {useful numTokens : Int} {request : Request}

lemma CachedOk.firstToHash_nonneg (h : m.CachedOk p known) :
    0 ≤ m.firstToHash requestId hits := by
  unfold firstToHash
  cases hn : m.numCachedBlock.get? requestId with
  | none => exact Int.natCast_nonneg _
  | some n => exact (h.within requestId n hn).1

lemma removeSkippedBlocks_storesEvent {n : Int} (h : m.CachedOk p known)
    (hkeep : m.StoresEvent request hits (m.firstUsefulBlock request.requestId n) numTokens)
    (hrun : m.removeSkippedBlocks p request.requestId n = .ok (m', p')) :
    m'.StoresEvent request hits 0 numTokens := by
  obtain ⟨hmask, -, -⟩ := removeSkippedBlocks_table hrun
  obtain ⟨-, hnum, hspec⟩ := removeSkippedBlocks_spec hrun
  have hfirst : m'.firstToHash request.requestId hits = m.firstToHash request.requestId hits := by
    rw [firstToHash, hnum, firstToHash]
  have hpos : 0 ≤ m.firstToHash request.requestId hits := h.firstToHash_nonneg
  unfold StoresEvent at hkeep ⊢
  rw [hfirst, (Prod.mk.inj (Prod.mk.inj hspec).2).1]
  refine hkeep.imp_right (And.imp_right ?_)
  rintro (hzero | ⟨hlt, hnull⟩)
  · exact .inl hzero
  by_cases hzero : m.firstToHash request.requestId hits = 0
  · exact .inl hzero
  refine .inr ⟨by omega, ?_⟩
  by_cases hin : (m.firstToHash request.requestId hits - 1).toNat < (m.blocksOf request.requestId).length
  · have hin' := hin
    rw [← hmask.length] at hin'
    rw [List.getElem?_append_left hin] at hnull
    rw [List.getElem?_append_left hin', hmask.useful hin' (by omega)]
    exact hnull
  · have hge := not_lt.mp hin
    rw [List.getElem?_append_right (by rwa [hmask.length]), hmask.length]
    rwa [List.getElem?_append_right hge] at hnull

lemma saveNewComputedBlocks_storesEvent (hkeep : m.StoresEvent request hits 0 numTokens)
    (hrun : m.saveNewComputedBlocks request.requestId hits = .ok m') :
    m'.StoresEvent request [] 0 numTokens := by
  have htable := (saveNewComputedBlocks_table hrun).1
  have hfirst : m'.firstToHash request.requestId [] = m.firstToHash request.requestId hits ∧
      m'.blockSize = m.blockSize := by
    unfold saveNewComputedBlocks at hrun
    split at hrun
    · obtain ⟨_, hlen, hret⟩ := bind_eq_ok.mp hrun
      obtain rfl := List.length_eq_zero_iff.mp (pyAssert_eq_ok.mp hlen)
      obtain rfl := Except.ok.inj hret
      exact ⟨rfl, rfl⟩
    · split_ifs at hrun with hknown
      · obtain ⟨_, hlen, hret⟩ := bind_eq_ok.mp hrun
        obtain rfl := List.length_eq_zero_iff.mp (pyAssert_eq_ok.mp hlen)
        obtain rfl := Except.ok.inj hret
        exact ⟨rfl, rfl⟩
      · obtain ⟨_, -, hret⟩ := bind_eq_ok.mp hrun
        obtain rfl := Except.ok.inj hret
        refine ⟨?_, rfl⟩
        rw [firstToHash, firstToHash, Dict.get?_eq_none_iff.mpr hknown, Dict.get?_set_self]
        rfl
  unfold StoresEvent at hkeep ⊢
  rw [hfirst.1, hfirst.2, htable, List.append_nil]
  exact hkeep

lemma allocateNewBlocks_storesEvent {n : Int} {new : List BlockId} (h : m.CachedOk p known)
    (hacc : m.Accounted p extra) (hkeep : m.StoresEvent request [] 0 numTokens)
    (hrun : m.allocateNewBlocks p request.requestId n = .ok (new, m', p')) :
    m'.StoresEvent request [] 0 numTokens := by
  obtain ⟨htable, -, -, -, -⟩ := allocateNewBlocks_table hacc hrun
  obtain ⟨-, -, hspec⟩ := allocateNewBlocks_accounted hacc hrun
  obtain ⟨-, -, hnum, -⟩ := allocateNewBlocks_spec hacc hrun
  have hfirst : m'.firstToHash request.requestId [] = m.firstToHash request.requestId [] := by
    rw [firstToHash, hnum, firstToHash]
  have hle : m.firstToHash request.requestId [] ≤ (m.blocksOf request.requestId).length := by
    unfold firstToHash
    cases hn : m.numCachedBlock.get? request.requestId with
    | none => exact Int.natCast_nonneg _
    | some n => exact (h.within request.requestId n hn).2
  unfold StoresEvent at hkeep ⊢
  rw [hfirst, (Prod.mk.inj (Prod.mk.inj hspec).2).1, htable]
  rw [List.append_nil] at hkeep ⊢
  refine hkeep.imp_right (And.imp_right (Or.imp_right fun ⟨hlt, hnull⟩ => ⟨hlt, ?_⟩))
  rwa [List.getElem?_append_left (by omega)]

lemma CachedOk.parent {numCached : Int} {q : BlockPool}
    (h : m.CachedOk p known) (hknown : known request.requestId = request.blockHashes)
    (hkeep : m.StoresEvent request [] 0 numTokens)
    (hnum : m.numCachedBlock.get? request.requestId = some numCached)
    (hne : numCached ≠ numTokens.fdiv m.blockSize) (hkept : p.HashesKept q) :
    numCached = 0 ∧ q.parentBlockHash (m.blocksOf request.requestId) numCached = .ok none ∨
      ∃ hash, 0 < numCached ∧ request.blockHashes[numCached.toNat - 1]? = some hash ∧
        q.parentBlockHash (m.blocksOf request.requestId) numCached = .ok (some hash) := by
  have hfirst : m.firstToHash request.requestId [] = numCached := by
    rw [firstToHash, hnum, Option.getD_some]
  obtain ⟨hnonneg, hle⟩ := h.within _ _ hnum
  unfold StoresEvent at hkeep
  rw [hfirst, List.append_nil] at hkeep
  obtain ⟨-, rfl | ⟨hpos, hnull⟩⟩ := hkeep.resolve_left hne
  · exact .inl ⟨rfl, if_pos rfl⟩
  · have hlt : (numCached - 1).toNat < (m.blocksOf request.requestId).length := by omega
    have hb := List.getElem?_eq_getElem hlt
    have hb0 : (m.blocksOf request.requestId)[(numCached - 1).toNat] ≠ nullBlock := by
      intro heq
      exact hnull (hb.trans (congrArg some heq))
    obtain ⟨hash, hhash, hblock⟩ := h.cached _ _ hnum _ _ (by omega) hb hb0
    refine .inr ⟨hash, hpos, ?_, ?_⟩
    · rw [← hknown, ← hhash]
      congr 1
      omega
    · exact BlockPool.parentBlockHash_eq hpos hb (hkept _ _ hblock)

lemma cacheBlocks_cachedOk (h : m.CachedOk p known)
    (hacc : m.Accounted p extra) (hon : p.enableKvCacheEvents = true)
    (hknown : known request.requestId = request.blockHashes) (hbs : 0 ≤ m.blockSize)
    (hn : 0 ≤ numTokens)
    (hfit : numTokens.fdiv m.blockSize ≤ (m.blocksOf request.requestId).length)
    (hkeep : m.StoresEvent request [] 0 numTokens)
    (hrun : m.cacheBlocks p request numTokens = .ok (m', p')) :
    m'.CachedOk p' known ∧ p.Logs (KVCacheEvent.InChain request.blockHashes) p' := by
  unfold cacheBlocks at hrun
  split at hrun
  · cases hrun
  split at hrun
  · cases hrun
  rename_i numCached hnum
  obtain ⟨q, hq, hret⟩ := bind_eq_ok.mp hrun
  obtain ⟨rfl, rfl⟩ := Prod.mk.inj (Except.ok.inj hret)
  obtain ⟨hcached, hle⟩ := h.within _ _ hnum
  have hfull : 0 ≤ numTokens.fdiv m.blockSize := Int.fdiv_nonneg hn hbs
  have hcount : ∀ id n, (m.numCachedBlock.set request.requestId
      (numTokens.fdiv m.blockSize)).get? id = some n →
      id = request.requestId ∧ n = numTokens.fdiv m.blockSize ∨
        id ≠ request.requestId ∧ m.numCachedBlock.get? id = some n := by
    intro id n hid
    rw [Dict.get?_set] at hid
    split_ifs at hid with heq
    · exact .inl ⟨heq.symm, (Option.some.inj hid).symm⟩
    · exact .inr ⟨Ne.symm heq, hid⟩
  have hwithin : ∀ id n, (m.numCachedBlock.set request.requestId
      (numTokens.fdiv m.blockSize)).get? id = some n →
      0 ≤ n ∧ n ≤ (m.blocksOf id).length := by
    intro id n hid
    rcases hcount id n hid with ⟨rfl, rfl⟩ | ⟨-, hid⟩
    · exact ⟨hfull, hfit⟩
    · exact h.within id n hid
  rcases BlockPool.cacheFullBlocks_cases hq with ⟨heq, rfl⟩ | ⟨hne, -, r, hloop, hevents⟩
  · refine ⟨⟨h.map, h.group, hwithin, fun id n hid j b hj hb hnull => ?_⟩, .silent rfl rfl⟩
    rcases hcount id n hid with ⟨rfl, rfl⟩ | ⟨-, hid⟩
    · exact h.cached _ _ hnum j b (by omega) hb hnull
    · exact h.cached id n hid j b hj hb hnull
  · have hslice : ∀ b ∈ pySlice (m.blocksOf request.requestId) numCached
        (numTokens.fdiv m.blockSize), b < p.numGpuBlocks :=
      fun b hb => hacc.inPool (List.mem_of_mem_drop (List.mem_of_mem_take hb))
    have hhashed := BlockPool.cacheBlocksLoop_hashed h.map hslice hloop
    have hr : ∀ id n, (m.numCachedBlock.set request.requestId
        (numTokens.fdiv m.blockSize)).get? id = some n → ∀ (j : Nat) b, (j : Int) < n →
        (m.blocksOf id)[j]? = some b → b ≠ nullBlock →
        ∃ hash, (known id)[j]? = some hash ∧ r.blockHash b = some (hash, m.kvCacheGroupId) := by
      intro id n hid j b hj hb hnull
      rcases hcount id n hid with ⟨rfl, rfl⟩ | ⟨-, hid⟩
      · by_cases hold : (j : Int) < numCached
        · obtain ⟨hash, hhash, hblock⟩ := h.cached _ _ hnum j b hold hb hnull
          exact ⟨hash, hhash, hhashed.kept b _ hblock⟩
        · -- a block that was hashed now
          have hj' : numCached.toNat + (j - numCached.toNat) = j := by omega
          have hslice : (pySlice (m.blocksOf request.requestId) numCached
              (numTokens.fdiv m.blockSize))[j - numCached.toNat]? = some b := by
            rw [pySlice, slice, List.getElem?_take, List.getElem?_drop,
              clampIndex_of_nonneg hcached, clampIndex_of_nonneg hfull, min_eq_left (by omega),
              min_eq_left (by omega), if_pos (by omega), hj', hb]
          obtain ⟨hash, hhash, hblock⟩ := hhashed.placed _ _ hslice
          have hhash' := getElem?_pyFrom hcached hhash
          rw [hj'] at hhash'
          exact ⟨hash, by rw [hknown, hhash'], hblock⟩
      · obtain ⟨hash, hhash, hblock⟩ := h.cached id n hid j b hj hb hnull
        exact ⟨hash, hhash, hhashed.kept b _ hblock⟩
    have hgroup : ∀ b k, r.blockHash b = some k → k.2 = m.kvCacheGroupId := by
      intro b k hk
      exact (hhashed.group b k hk).elim (h.group b k) id
    rcases hevents with ⟨hoff, -⟩ | ⟨-, parent, hparent, rfl⟩
    · have hsame := (BlockPool.cacheBlocksLoop_ok hacc.pool.toMapOk hslice hloop).2
      rw [hsame.config.2.2, hon] at hoff
      cases hoff
    · refine ⟨⟨hhashed.map, hgroup, hwithin, hr⟩, hhashed.logs ?_⟩
      refine ⟨numCached.toNat, ?_, ?_⟩
      · rw [pyFrom_of_nonneg hcached]
        exact List.take_prefix _ _
      · rcases h.parent hknown hkeep hnum hne hhashed.kept with ⟨rfl, hr⟩ | ⟨hash, hpos, hhash, hr⟩
        · exact .inl ⟨rfl, Except.ok.inj (hparent.symm.trans hr)⟩
        · exact .inr ⟨hash, hhash, by omega, Except.ok.inj (hparent.symm.trans hr)⟩

/-- Where blocks are hashed, nothing is raised for their event. -/
lemma CachedOk.looksUpParent {r : Except PyError (Option BlockHash)}
    (h : m.CachedOk p known) (hknown : known request.requestId = request.blockHashes)
    (hkeep : m.StoresEvent request [] 0 numTokens) (hr : m.LooksUpParent p request numTokens r) :
    r ≠ .error .assertionError ∧
      BlockPool.eventLoraId request.loraRequest ≠ .error .attributeError := by
  obtain ⟨numCached, q, hnum, hne, hloop, rfl⟩ := hr
  have hkept := BlockPool.cacheBlocksLoop_kept hloop
  have hfirst : m.firstToHash request.requestId [] = numCached := by
    rw [firstToHash, hnum, Option.getD_some]
  obtain ⟨hlora, -⟩ := hkeep.resolve_left (hfirst ▸ hne)
  refine ⟨?_, by rw [hlora]; exact nofun⟩
  rcases h.parent hknown hkeep hnum hne hkept with ⟨-, hr⟩ | ⟨hash, -, -, hr⟩
  · rw [hr]
    exact nofun
  · rw [hr]
    exact nofun

end SingleTypeManager

end VllmV1
