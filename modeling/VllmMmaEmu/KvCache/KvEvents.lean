import VllmMmaEmu.KvCache.TableSteps
import VllmMmaEmu.Library.EventLog

/-!
# What the events of the pool tell

Every operation of the pool appends events to its queue. Replayed on the hashes that were
cached before the operation, they give the hashes that are cached after it, each as often as
there are blocks under it.
-/

namespace VllmV1

open Python EventLog

/-- What an event tells of the cached hashes. -/
def KVCacheEvent.change : KVCacheEvent → Change BlockHash
  | .blockStored blockHashes _ _ _ _ => .stored blockHashes
  | .blockRemoved blockHash => .removed blockHash
  | .allBlocksCleared => .cleared

/-- The hashes of the stored blocks stand in the request's chain, and the parent is the hash
before them. -/
def KVCacheEvent.InChain (blockHashes : List BlockHash) : KVCacheEvent → Prop
  | .blockStored stored parent _ _ _ => ∃ first : Nat, stored <+: blockHashes.drop first ∧
      (first = 0 ∧ parent = none ∨ ∃ hash, blockHashes[first - 1]? = some hash ∧ 0 < first ∧
        parent = some hash)
  | .blockRemoved _ | .allBlocksCleared => True

namespace BlockPool

/-- The hashes of the cached blocks. -/
def cachedHashes (p : BlockPool) : Multiset BlockHash :=
  contents p.numGpuBlocks fun b => (p.blockHash b).map Prod.fst

/-- The events of an operation tell what it does to the cached hashes. -/
def Logs (shape : KVCacheEvent → Prop) (p p' : BlockPool) : Prop :=
  ∃ events, p'.kvEventQueue = p.kvEventQueue ++ events ∧
    Tells (events.map KVCacheEvent.change) p.cachedHashes p'.cachedHashes ∧
    ∀ e ∈ events, shape e

variable {p p' p'' : BlockPool} {shape : KVCacheEvent → Prop} {held : BlockId → Nat}
  {b : BlockId} {k : BlockHashWithGroupId} {blocks : List BlockId} {g : Nat}

lemma cachedHashes_congr (hsize : p'.numGpuBlocks = p.numGpuBlocks)
    (hhash : p'.blockHash = p.blockHash) : p'.cachedHashes = p.cachedHashes := by
  rw [cachedHashes, hsize, hhash, cachedHashes]

lemma Logs.silent (hqueue : p'.kvEventQueue = p.kvEventQueue)
    (hcached : p'.cachedHashes = p.cachedHashes) : Logs shape p p' := by
  refine ⟨[], ?_, ?_, by simp⟩
  · rw [hqueue, List.append_nil]
  · rw [hcached]
    exact .nil _

lemma Logs.trans (h : Logs shape p p') (h' : Logs shape p' p'') : Logs shape p p'' := by
  obtain ⟨events, hqueue, htells, hshape⟩ := h
  obtain ⟨events', hqueue', htells', hshape'⟩ := h'
  refine ⟨events ++ events', ?_, ?_, ?_⟩
  · rw [hqueue', hqueue, List.append_assoc]
  · rw [List.map_append]
    exact htells.append htells'
  · intro e he
    exact (List.mem_append.mp he).elim (hshape e) (hshape' e)

lemma Logs.one {e : KVCacheEvent} (hqueue : p'.kvEventQueue = p.kvEventQueue ++ [e])
    (htells : Tells [e.change] p.cachedHashes p'.cachedHashes) (hshape : shape e) :
    Logs shape p p' :=
  ⟨[e], hqueue, htells, fun _ he => List.mem_singleton.mp he ▸ hshape⟩

lemma cachedHashes_setHash_none (hb : b < p.numGpuBlocks) (hhash : p.blockHash b = some k) :
    (p.setHash b none).cachedHashes = p.cachedHashes.erase k.1 := by
  have hvalue : (fun c => ((p.setHash b none).blockHash c).map Prod.fst) =
      fun c => if c = b then none else (p.blockHash c).map Prod.fst := by
    funext c
    show (if c = b then none else p.blockHash c).map Prod.fst = _
    split_ifs <;> rfl
  unfold cachedHashes
  rw [hvalue]
  exact contents_remove hb (by rw [hhash, Option.map_some])

lemma maybeEvictCachedBlock_logs (h : p.HashMapOk) (hmap : p.MapOk)
    (hevents : p.enableKvCacheEvents = true) (hshape : ∀ hash, shape (.blockRemoved hash))
    (b : BlockId) : Logs shape p (p.maybeEvictCachedBlock b) := by
  unfold maybeEvictCachedBlock
  cases hhash : p.blockHash b with
  | none => exact .silent rfl rfl
  | some k =>
    have hholds := (h b k).mp hhash
    have hfound : (p.cachedBlockHashToBlock.pop k b).1 = true :=
      BlockHashToBlockMap.pop_fst.mpr hholds
    have hset := cachedHashes_setHash_none (hmap.inPool k b hholds) hhash
    simp only [hfound, if_true]
    split_ifs with hon
    · refine .one rfl (.removed ?_ ?_) (hshape k.1)
      · exact mem_contents.mpr ⟨b, hmap.inPool k b hholds, by rw [hhash, Option.map_some]⟩
      · show Tells [] _ (p.setHash b none).cachedHashes
        rw [hset]
        exact .nil _
    · exact absurd hevents hon

lemma takeBlocks_logs (hcaching : p.enableCaching = true) (hevents : p.enableKvCacheEvents = true)
    (h : p.HashMapOk) (hmap : p.MapOk) (hshape : ∀ hash, shape (.blockRemoved hash))
    (hrun : takeBlocks p blocks = .ok p') : Logs shape p p' := by
  induction blocks generalizing p with
  | nil =>
    obtain rfl := Except.ok.inj hrun
    exact .silent rfl rfl
  | cons b blocks ih =>
    simp only [takeBlocks, hcaching, if_true] at hrun
    obtain ⟨_, -, htail⟩ := bind_eq_ok.mp hrun
    obtain ⟨hmap', hsame⟩ := maybeEvictCachedBlock_ok hmap b
    have hhash := (maybeEvictCachedBlock_hash h b).1
    have hevict := maybeEvictCachedBlock_logs h hmap hevents hshape b
    set q := p.maybeEvictCachedBlock b
    have hrest : Logs shape (q.setRefCnt b (q.refCnt b + 1)) p' :=
      ih (hsame.config.2.1.trans hcaching) (hsame.config.2.2.trans hevents) hhash
        (hmap'.setRefCnt b _) htail
    exact hevict.trans (.trans (.silent rfl rfl) hrest)

lemma getNewBlocks_logs {n : Int} (hcaching : p.enableCaching = true)
    (hevents : p.enableKvCacheEvents = true) (h : p.HashMapOk) (hok : p.Ok held)
    (hshape : ∀ hash, shape (.blockRemoved hash)) (hrun : p.getNewBlocks n = .ok (blocks, p')) :
    Logs shape p p' ∧ p'.HashMapOk ∧ ∀ c,
      p'.blockHash c = if c ∈ blocks then none else p.blockHash c := by
  unfold getNewBlocks at hrun
  split_ifs at hrun
  obtain ⟨q, htake, hret⟩ := bind_eq_ok.mp hrun
  obtain ⟨rfl, rfl⟩ := Prod.mk.inj (Except.ok.inj hret)
  set p₀ := { p with freeBlockQueue := p.freeBlockQueue.drop n.toNat }
  have hmap₀ : p₀.MapOk := ⟨hok.inPool, hok.hashed⟩
  have hlogs := takeBlocks_logs (p := p₀) hcaching hevents h hmap₀ hshape htake
  exact ⟨Logs.trans (.silent rfl rfl) hlogs, takeBlocks_hash (p := p₀) hcaching h htake⟩

lemma cachedHashes_setHash_some (hb : b < p.numGpuBlocks) (hnone : p.blockHash b = none) :
    (p.setHash b (some k)).cachedHashes = p.cachedHashes + [k.1] := by
  have hvalue : (fun c => ((p.setHash b (some k)).blockHash c).map Prod.fst) =
      fun c => if c = b then some k.1 else (p.blockHash c).map Prod.fst := by
    funext c
    show (if c = b then some k else p.blockHash c).map Prod.fst = _
    split_ifs <;> rfl
  unfold cachedHashes
  rw [hvalue]
  exact contents_store hb (by rw [hnone, Option.map_none]) k.1

/-- What the loop of `cache_full_blocks` leaves: each block has its hash, other blocks have
the hashes they had, and the new hashes are the ones that are told. -/
structure Hashed (g : Nat) (p : BlockPool) (blocks : List BlockId) (hashes : List BlockHash)
    (p' : BlockPool) : Prop where
  map : p'.HashMapOk
  queue : p'.kvEventQueue = p.kvEventQueue
  placed : ∀ (i : Nat) (b : BlockId), blocks[i]? = some b →
    ∃ hash, hashes[i]? = some hash ∧ p'.blockHash b = some (hash, g)
  kept : HashesKept p p'
  group : ∀ b k, p'.blockHash b = some k → p.blockHash b = some k ∨ k.2 = g
  told : p'.cachedHashes = p.cachedHashes + (hashes.take blocks.length : List BlockHash)

lemma cacheBlocksLoop_hashed {hashes : List BlockHash} (h : p.HashMapOk)
    (hin : ∀ b ∈ blocks, b < p.numGpuBlocks)
    (hrun : cacheBlocksLoop g p blocks hashes = .ok p') : Hashed g p blocks hashes p' := by
  induction blocks generalizing p hashes with
  | nil =>
    obtain rfl := Except.ok.inj hrun
    exact ⟨h, rfl, by simp, .of_eq rfl, fun _ _ hk => .inl hk, by simp⟩
  | cons b blocks ih =>
    cases hashes with
    | nil => simp [cacheBlocksLoop] at hrun
    | cons hash hashes =>
      have hkept := cacheBlocksLoop_kept hrun
      obtain ⟨_, hnone, htail⟩ := bind_eq_ok.mp hrun
      rw [pyAssert_eq_ok] at hnone
      have hrest := ih (h.insert hnone (hash, g)) (fun c hc => hin c (by simp [hc])) htail
      have hset := cachedHashes_setHash_some (k := (hash, g)) (hin b (by simp)) hnone
      refine ⟨hrest.map, hrest.queue, fun i c hc => ?_, hkept, fun c k hk => ?_, ?_⟩
      · cases i with
        | zero =>
          obtain rfl := Option.some.inj hc
          exact ⟨hash, rfl, hrest.kept b _ (if_pos rfl)⟩
        | succ i => exact hrest.placed i c hc
      · rcases hrest.group c k hk with hold | hg
        · have hold' : (if c = b then some (hash, g) else p.blockHash c) = some k := hold
          split_ifs at hold'
          · exact .inr (congrArg Prod.snd (Option.some.inj hold')).symm
          · exact .inl hold'
        · exact .inr hg
      · have htold : p'.cachedHashes = (p.setHash b (some (hash, g))).cachedHashes +
            (hashes.take blocks.length : List BlockHash) := hrest.told
        rw [htold, hset, add_assoc, List.length_cons, List.take_succ_cons, Multiset.coe_add,
          List.singleton_append]

/-- The event of `cache_full_blocks` stores what the loop hashed. -/
lemma Hashed.logs {hashes : List BlockHash} {parent : Option BlockHash} {tokenIds : List Int}
    {blockSize : Int} {loraId : Option Int} (h : Hashed g p blocks hashes p')
    (hshape : shape (.blockStored (hashes.take blocks.length) parent tokenIds blockSize loraId)) :
    Logs shape p { p' with kvEventQueue := p'.kvEventQueue ++ [.blockStored
      (hashes.take blocks.length) parent tokenIds blockSize loraId] } := by
  refine .one (congrArg (· ++ _) h.queue) (.stored ?_) hshape
  show Tells [] _ p'.cachedHashes
  rw [h.told]
  exact .nil _

lemma resetPrefixCache_logs (hevents : p.enableKvCacheEvents = true)
    (hshape : shape .allBlocksCleared) : Logs shape p p.resetPrefixCache.2 := by
  unfold resetPrefixCache
  simp only
  split_ifs
  · exact .silent rfl rfl
  · refine .one rfl (.cleared ?_) hshape
    have hempty : ∀ n, contents n (fun _ => (none : Option BlockHash)) = 0 := by
      intro n
      simp [contents]
    show Tells [] 0 (contents p.numGpuBlocks fun _ => none)
    rw [hempty]
    exact .nil _

end BlockPool

end VllmV1
