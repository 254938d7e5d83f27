import VllmMmaEmu.KvCache.BlockPool
import VllmMmaEmu.Library.RefCount

/-!
# What the operations of the block pool keep

The reference counts and the free queue follow the references that are held, and a block
that the map gives for a hash carries that hash.
-/

namespace VllmV1

open Python RefCount

namespace BlockHashToBlockMap

variable {m : BlockHashToBlockMap} {key key' : BlockHashWithGroupId} {b b' : BlockId}

/-- The map holds the block under the hash. -/
def Holds (m : BlockHashToBlockMap) (key : BlockHashWithGroupId) (b : BlockId) : Prop :=
  ∃ c, m key = some c ∧ b ∈ c.toList

lemma holds_put {c : Option CachedBlocks} :
    (m.put key c).Holds key' b' ↔
      if key' = key then ∃ d, c = some d ∧ b' ∈ d.toList else m.Holds key' b' := by
  unfold Holds put
  split_ifs <;> rfl

lemma holds_of_getOneBlock (h : m.getOneBlock key = some b) : m.Holds key b := by
  unfold getOneBlock at h
  split at h
  · simp at h
  · rename_i c hc
    exact ⟨_, hc, by simpa [CachedBlocks.toList, eq_comm] using h⟩
  · rename_i bs nodup hc
    exact ⟨_, hc, List.mem_of_mem_head? h⟩

lemma holds_insert : (m.insert key b).Holds key' b' ↔
    m.Holds key' b' ∨ key' = key ∧ b' = b := by
  unfold insert
  split
  · rename_i hnone
    rw [holds_put]
    by_cases hk : key' = key
    · subst hk
      simp [Holds, hnone, CachedBlocks.toList]
    · simp [hk]
  · rename_i b₁ hone
    split_ifs with hb
    · rw [holds_put]
      by_cases hk : key' = key
      · subst hk
        simp [Holds, hone, CachedBlocks.toList, hb]
      · simp [hk]
    · rw [holds_put]
      by_cases hk : key' = key
      · subst hk
        simp [Holds, hone, CachedBlocks.toList]
      · simp [hk]
  · rename_i bs nodup hmany
    split_ifs with hb
    · constructor
      · exact Or.inl
      · rintro (h | ⟨rfl, rfl⟩)
        · exact h
        · exact ⟨_, hmany, hb⟩
    · rw [holds_put]
      by_cases hk : key' = key
      · subst hk
        simp [Holds, hmany, CachedBlocks.toList]
      · simp [hk]

lemma pop_fst : (m.pop key b).1 = true ↔ m.Holds key b := by
  unfold pop
  split
  · rename_i hnone
    simp [Holds, hnone]
  · rename_i b₁ hone
    split_ifs with hb
    · simp [Holds, hone, CachedBlocks.toList, hb]
    · simp [Holds, hone, CachedBlocks.toList, Ne.symm hb]
  · rename_i bs nodup hmany
    simp [Holds, hmany, CachedBlocks.toList]

lemma holds_pop : (m.pop key b).2.Holds key' b' ↔ m.Holds key' b' ∧ ¬ (key' = key ∧ b' = b) := by
  unfold pop
  split
  · rename_i hnone
    constructor
    · intro h
      refine ⟨h, ?_⟩
      rintro ⟨rfl, rfl⟩
      obtain ⟨c, hc, -⟩ := h
      simp [hnone] at hc
    · exact And.left
  · rename_i b₁ hone
    split_ifs with hb
    · rw [holds_put]
      by_cases hk : key' = key
      · subst hk
        simp [Holds, hone, CachedBlocks.toList, hb]
      · simp [hk]
    · constructor
      · intro h
        refine ⟨h, ?_⟩
        rintro ⟨rfl, rfl⟩
        obtain ⟨c, hc, hmem⟩ := h
        obtain rfl := Option.some.inj (hone.symm.trans hc)
        exact hb (List.mem_singleton.mp hmem).symm
      · exact And.left
  · rename_i bs nodup hmany
    rw [holds_put]
    by_cases hk : key' = key
    · subst hk
      have herase : b' ∈ bs.erase b ↔ b' ∈ bs ∧ b' ≠ b := by
        rw [nodup.mem_erase_iff, and_comm]
      by_cases hnil : bs.erase b = []
      · have : ¬ (b' ∈ bs ∧ b' ≠ b) := by
          rw [← herase, hnil]
          simp
        simpa [Holds, hmany, CachedBlocks.toList, hnil] using this
      · simp [Holds, hmany, CachedBlocks.toList, hnil, herase]
    · simp [hk]

end BlockHashToBlockMap

namespace BlockPool

/-- The blocks of the map are blocks of the pool that carry the hash they are found under. -/
structure MapOk (p : BlockPool) : Prop where
  inPool : ∀ h b, p.cachedBlockHashToBlock.Holds h b → b < p.numGpuBlocks
  hashed : ∀ h b, p.cachedBlockHashToBlock.Holds h b → b ≠ nullBlock → p.blockHash b = some h

/-- The counts and the free queue follow the references `held`. -/
structure Ok (p : BlockPool) (held : BlockId → Nat) : Prop extends MapOk p where
  counted : Counted p.numGpuBlocks p.refCnt p.freeBlockQueue held

/-- The parts of the configuration that no operation changes. -/
def SameConfig (p p' : BlockPool) : Prop :=
  p'.numGpuBlocks = p.numGpuBlocks ∧ p'.enableCaching = p.enableCaching ∧
    p'.enableKvCacheEvents = p.enableKvCacheEvents

variable {p p' : BlockPool} {held : BlockId → Nat}

lemma Ok.congr {held' : BlockId → Nat} (h : p.Ok held) (heq : ∀ b, b ≠ 0 → held b = held' b) :
    p.Ok held' :=
  ⟨h.toMapOk, h.counted.congr heq⟩

lemma init_ok {n : Nat} {caching events : Bool} (h : init n caching events = .ok p) :
    p.Ok (fun _ => 0) ∧ p.numGpuBlocks = n ∧ 0 < n := by
  simp only [init, bind_eq_ok, pyAssert_eq_ok, pure_eq, Except.ok.injEq] at h
  obtain ⟨-, hpos, rfl⟩ := h
  have hmap : ∀ (h : BlockHashWithGroupId) b,
      ¬ BlockHashToBlockMap.Holds (fun _ => none) h b := by
    rintro h b ⟨c, hc, -⟩
    simp at hc
  refine ⟨⟨⟨fun h b hb => absurd hb (hmap h b), fun h b hb => absurd hb (hmap h b)⟩,
    fun _ _ _ => rfl, fun _ _ _ => rfl, ?_, ?_⟩, rfl, hpos⟩
  · intro b
    simp only [List.mem_iff_getElem?, List.getElem?_drop, and_true]
    constructor
    · rintro ⟨i, hi⟩
      rw [List.getElem?_eq_some_iff] at hi
      obtain ⟨hlt, hi⟩ := hi
      simp at hi hlt
      omega
    · rintro ⟨hb, hlt⟩
      refine ⟨b - 1, ?_⟩
      have : 1 + (b - 1) = b := by omega
      rw [this, List.getElem?_range hlt]
  · exact List.nodup_range.sublist (List.drop_sublist _ _)

/-- An operation that changes hashes and the map only. -/
structure SameCounts (p p' : BlockPool) : Prop where
  config : SameConfig p p'
  refCnt : p'.refCnt = p.refCnt
  free : p'.freeBlockQueue = p.freeBlockQueue

lemma SameCounts.refl (p : BlockPool) : SameCounts p p := ⟨⟨rfl, rfl, rfl⟩, rfl, rfl⟩

lemma SameCounts.trans {p₁ p₂ p₃ : BlockPool} (h : SameCounts p₁ p₂) (h' : SameCounts p₂ p₃) :
    SameCounts p₁ p₃ :=
  ⟨⟨h'.config.1.trans h.config.1, h'.config.2.1.trans h.config.2.1,
    h'.config.2.2.trans h.config.2.2⟩, h'.refCnt.trans h.refCnt, h'.free.trans h.free⟩

lemma Ok.of_sameCounts (h : p.Ok held) (hs : SameCounts p p') (hmap : p'.MapOk) :
    p'.Ok held := by
  refine ⟨hmap, ?_⟩
  rw [hs.config.1, hs.refCnt, hs.free]
  exact h.counted

lemma MapOk.insert (h : p.MapOk) {b : BlockId} (hin : b < p.numGpuBlocks)
    (hnone : p.blockHash b = none) (k : BlockHashWithGroupId) :
    { p.setHash b (some k) with
      cachedBlockHashToBlock := p.cachedBlockHashToBlock.insert k b }.MapOk := by
  constructor
  · intro k' c hk
    rcases BlockHashToBlockMap.holds_insert.mp hk with hk | ⟨-, rfl⟩
    · exact h.inPool k' c hk
    · exact hin
  · intro k' c hk hc
    by_cases hcb : c = b
    · -- the block had no hash, so the map held it nowhere
      subst hcb
      rcases BlockHashToBlockMap.holds_insert.mp hk with hk | ⟨rfl, -⟩
      · simp [h.hashed k' c hk hc] at hnone
      · simp [setHash]
    · rcases BlockHashToBlockMap.holds_insert.mp hk with hk | ⟨-, rfl⟩
      · simpa [setHash, hcb] using h.hashed k' c hk hc
      · exact absurd rfl hcb

lemma cacheBlocksLoop_ok {g : Nat} {blocks : List BlockId} {hashes : List BlockHash}
    (h : p.MapOk) (hin : ∀ b ∈ blocks, b < p.numGpuBlocks)
    (hrun : cacheBlocksLoop g p blocks hashes = .ok p') : p'.MapOk ∧ SameCounts p p' := by
  induction blocks generalizing p hashes with
  | nil =>
    obtain rfl := Except.ok.inj hrun
    exact ⟨h, .refl p⟩
  | cons b blocks ih =>
    cases hashes with
    | nil => simp [cacheBlocksLoop] at hrun
    | cons hash hashes =>
      obtain ⟨_, hnone, htail⟩ := bind_eq_ok.mp hrun
      rw [pyAssert_eq_ok] at hnone
      have hq := h.insert (hin b (by simp)) hnone (hash, g)
      have hset : SameCounts p { p.setHash b (some (hash, g)) with
          cachedBlockHashToBlock := p.cachedBlockHashToBlock.insert (hash, g) b } :=
        ⟨⟨rfl, rfl, rfl⟩, rfl, rfl⟩
      obtain ⟨hok, hsame⟩ := ih hq (fun c hc => hin c (by simp [hc])) htail
      exact ⟨hok, hset.trans hsame⟩

lemma cacheFullBlocks_cases {request : Request} {blocks : List BlockId}
    {numCached numFull blockSize : Int} {g : Nat}
    (hrun : p.cacheFullBlocks request blocks numCached numFull blockSize g = .ok p') :
    numCached = numFull ∧ p' = p ∨ numCached ≠ numFull ∧
      (request.blockHashes.length : Int) ≥ numFull ∧ ∃ q,
      cacheBlocksLoop g p (pySlice blocks numCached numFull)
        (pyFrom request.blockHashes numCached) = .ok q ∧
      (q.enableKvCacheEvents = false ∧ p' = q ∨ q.enableKvCacheEvents = true ∧ ∃ parent,
        q.parentBlockHash blocks numCached = .ok parent ∧
        p' = { q with kvEventQueue := q.kvEventQueue ++ [.blockStored
          ((pyFrom request.blockHashes numCached).take (pySlice blocks numCached numFull).length)
          parent
          (pySlice request.allTokenIds (numCached * blockSize) (numFull * blockSize))
          blockSize none] }) := by
  unfold cacheFullBlocks at hrun
  split_ifs at hrun with heq
  · exact .inl ⟨heq, (Except.ok.inj hrun).symm⟩
  · obtain ⟨_, hlen, hrun⟩ := bind_eq_ok.mp hrun
    obtain ⟨q, hloop, hrun⟩ := bind_eq_ok.mp hrun
    refine .inr ⟨heq, pyAssert_eq_ok.mp hlen, q, hloop, ?_⟩
    split_ifs at hrun with hevents
    · obtain ⟨parent, hparent, hrun⟩ := bind_eq_ok.mp hrun
      obtain ⟨loraId, hlora, hret⟩ := bind_eq_ok.mp hrun
      obtain rfl : none = loraId := by
        unfold eventLoraId at hlora
        split at hlora
        · exact Except.ok.inj hlora
        · cases hlora
      exact .inr ⟨hevents, parent, hparent, (Except.ok.inj hret).symm⟩
    · exact .inl ⟨Bool.not_eq_true _ ▸ hevents, (Except.ok.inj hrun).symm⟩

lemma cacheFullBlocks_ok {request : Request} {blocks : List BlockId}
    {numCached numFull blockSize : Int} {g : Nat} (h : p.MapOk)
    (hin : ∀ b ∈ blocks, b < p.numGpuBlocks)
    (hrun : p.cacheFullBlocks request blocks numCached numFull blockSize g = .ok p') :
    p'.MapOk ∧ SameCounts p p' := by
  rcases cacheFullBlocks_cases hrun with ⟨-, rfl⟩ | ⟨-, -, q, hloop, hevents⟩
  · exact ⟨h, .refl p'⟩
  · have hslice : ∀ b ∈ pySlice blocks numCached numFull, b < p.numGpuBlocks :=
      fun b hb => hin b (List.mem_of_mem_drop (List.mem_of_mem_take hb))
    obtain ⟨hq, hsame⟩ := cacheBlocksLoop_ok h hslice hloop
    rcases hevents with ⟨-, rfl⟩ | ⟨-, parent, -, rfl⟩
    · exact ⟨hq, hsame⟩
    · exact ⟨⟨hq.inPool, hq.hashed⟩, hsame.trans ⟨⟨rfl, rfl, rfl⟩, rfl, rfl⟩⟩

lemma maybeEvictCachedBlock_ok (h : p.MapOk) (b : BlockId) :
    (p.maybeEvictCachedBlock b).MapOk ∧ SameCounts p (p.maybeEvictCachedBlock b) := by
  unfold maybeEvictCachedBlock
  cases hhash : p.blockHash b with
  | none => exact ⟨h, .refl p⟩
  | some k =>
    have hpop : ∀ k' b', (p.cachedBlockHashToBlock.pop k b).2.Holds k' b' →
        p.cachedBlockHashToBlock.Holds k' b' ∧ ¬ (k' = k ∧ b' = b) :=
      fun k' b' => BlockHashToBlockMap.holds_pop.mp
    have hin : ∀ k' b', (p.cachedBlockHashToBlock.pop k b).2.Holds k' b' → b' < p.numGpuBlocks :=
      fun k' b' hk => h.inPool k' b' (hpop k' b' hk).1
    have hreset : ∀ k' b', (p.cachedBlockHashToBlock.pop k b).2.Holds k' b' → b' ≠ nullBlock →
        (p.setHash b none).blockHash b' = some k' := by
      intro k' b' hk hb'
      obtain ⟨hold, hne⟩ := hpop k' b' hk
      have hk' := h.hashed k' b' hold hb'
      have hbb : b' ≠ b := by
        rintro rfl
        exact hne ⟨Option.some.inj (hk'.symm.trans hhash), rfl⟩
      simpa [setHash, hbb] using hk'
    simp only
    split_ifs with hfound hev
    · exact ⟨⟨hin, hreset⟩, ⟨rfl, rfl, rfl⟩, rfl, rfl⟩
    · exact ⟨⟨hin, hreset⟩, ⟨rfl, rfl, rfl⟩, rfl, rfl⟩
    · exact ⟨⟨hin, fun k' b' hk => h.hashed k' b' (hpop k' b' hk).1⟩, ⟨rfl, rfl, rfl⟩, rfl, rfl⟩

@[simp] lemma setRefCnt_refCnt_self (p : BlockPool) (b : BlockId) (n : Int) :
    (p.setRefCnt b n).refCnt b = n := by
  simp [setRefCnt]

lemma setRefCnt_refCnt_of_ne (p : BlockPool) {b c : BlockId} (n : Int) (h : c ≠ b) :
    (p.setRefCnt b n).refCnt c = p.refCnt c := by
  simp [setRefCnt, h]

lemma MapOk.setRefCnt (h : p.MapOk) (b : BlockId) (n : Int) : (p.setRefCnt b n).MapOk :=
  ⟨h.inPool, h.hashed⟩

lemma count_cons_eq_add (b c : BlockId) (blocks : List BlockId) :
    (b :: blocks).count c = [b].count c + blocks.count c := by
  rw [← List.count_append, List.singleton_append]

lemma takeBlocks_ok {blocks rest : List BlockId} (hmap : p.MapOk)
    (h : Counted p.numGpuBlocks p.refCnt (blocks ++ rest) held) (hq : p.freeBlockQueue = rest)
    (hrun : takeBlocks p blocks = .ok p') :
    p'.Ok (fun b => held b + blocks.count b) ∧ SameConfig p p' ∧ p'.freeBlockQueue = rest := by
  induction blocks generalizing p held with
  | nil =>
    obtain rfl := Except.ok.inj hrun
    subst hq
    exact ⟨⟨hmap, h.congr (by simp)⟩, ⟨rfl, rfl, rfl⟩, rfl⟩
  | cons b blocks ih =>
    simp only [takeBlocks] at hrun
    set q := if p.enableCaching then p.maybeEvictCachedBlock b else p with hqdef
    obtain ⟨hqmap, hsame⟩ : q.MapOk ∧ SameCounts p q := by
      rw [hqdef]
      split_ifs
      · exact maybeEvictCachedBlock_ok hmap b
      · exact ⟨hmap, .refl p⟩
    obtain ⟨_, -, htail⟩ := bind_eq_ok.mp hrun
    have hcounted : Counted q.numGpuBlocks (q.setRefCnt b (q.refCnt b + 1)).refCnt
        (blocks ++ rest) (fun c => held c + [b].count c) := by
      have hfront : Counted q.numGpuBlocks q.refCnt (b :: (blocks ++ rest)) held := by
        rw [hsame.config.1, hsame.refCnt]
        exact h
      have := hfront.retain_free (b := b) (by simp) (setRefCnt_refCnt_self q b _)
        (fun c hc => setRefCnt_refCnt_of_ne q _ hc)
      rwa [List.erase_cons_head] at this
    obtain ⟨hok, hconf, hfree⟩ := ih (hqmap.setRefCnt b _) hcounted (hsame.free.trans hq) htail
    refine ⟨hok.congr fun c _ => ?_, ?_, hfree⟩
    · have := count_cons_eq_add b c blocks
      omega
    · exact ⟨hconf.1.trans hsame.config.1, hconf.2.1.trans hsame.config.2.1,
        hconf.2.2.trans hsame.config.2.2⟩

/-- New blocks come from the free queue: nobody held them, and none comes twice. -/
lemma getNewBlocks_ok {n : Int} {blocks : List BlockId} (h : p.Ok held)
    (hrun : p.getNewBlocks n = .ok (blocks, p')) :
    p'.Ok (fun b => held b + blocks.count b) ∧ SameConfig p p' ∧ blocks.Nodup ∧
      (∀ b ∈ blocks, b ≠ nullBlock ∧ held b = 0) ∧ blocks.length = n.toNat ∧
      p'.freeBlockQueue = p.freeBlockQueue.drop n.toNat := by
  unfold getNewBlocks at hrun
  split_ifs at hrun with hgt
  obtain ⟨q, htake, hpair⟩ := bind_eq_ok.mp hrun
  obtain ⟨rfl, rfl⟩ := Prod.mk.inj (Except.ok.inj hpair)
  have hsplit : p.freeBlockQueue.take n.toNat ++ p.freeBlockQueue.drop n.toNat =
      p.freeBlockQueue := List.take_append_drop _ _
  have hmap : { p with freeBlockQueue := p.freeBlockQueue.drop n.toNat }.MapOk :=
    ⟨h.inPool, h.hashed⟩
  have hcounted : Counted p.numGpuBlocks p.refCnt
      (p.freeBlockQueue.take n.toNat ++ p.freeBlockQueue.drop n.toNat) held := by
    rw [hsplit]
    exact h.counted
  obtain ⟨hok, hconf, hfree⟩ := takeBlocks_ok hmap hcounted rfl htake
  refine ⟨hok, hconf, h.counted.nodup.sublist (List.take_sublist _ _), ?_, ?_, hfree⟩
  · intro b hb
    have := (h.counted.free_iff b).mp (List.mem_of_mem_take hb)
    exact ⟨this.1, this.2.2⟩
  · rw [List.length_take]
    simp only [getNumFreeBlocks] at hgt
    omega

lemma touchBlock_ok {b : BlockId} (h : p.Ok held) (hb : b < p.numGpuBlocks)
    (hrun : p.touchBlock b = .ok p') :
    p'.Ok (fun c => held c + [b].count c) ∧ SameConfig p p' := by
  unfold touchBlock at hrun
  have hmap : ∀ n, (p.setRefCnt b n).MapOk := fun n => h.toMapOk.setRefCnt b n
  split_ifs at hrun with hzero hmem
  · obtain rfl := Except.ok.inj hrun
    exact ⟨⟨⟨h.inPool, h.hashed⟩, h.counted.retain_free hmem (setRefCnt_refCnt_self p b _)
      (fun c hc => setRefCnt_refCnt_of_ne p _ hc)⟩, rfl, rfl, rfl⟩
  · obtain rfl := Except.ok.inj hrun
    refine ⟨⟨hmap _, ?_⟩, rfl, rfl, rfl⟩
    by_cases hnull : b = 0
    · have := h.counted.retain_null (p.setRefCnt b (p.refCnt b + 1)).refCnt
        (fun c hc => setRefCnt_refCnt_of_ne p _ (hnull ▸ hc))
      exact this.congr fun c hc => by rw [count_singleton_of_ne (hnull ▸ hc), Nat.add_zero]
    · have hpos : held b ≠ 0 := by
        intro hheld
        have := h.counted.refs b hnull hb
        rw [hheld] at this
        exact hzero ⟨this, hnull⟩
      exact h.counted.retain_held hb hpos (setRefCnt_refCnt_self p b _)
        (fun c hc => setRefCnt_refCnt_of_ne p _ hc)

lemma foldlM_touchBlock_ok {blocks : List BlockId} (h : p.Ok held)
    (hb : ∀ b ∈ blocks, b < p.numGpuBlocks) (hrun : blocks.foldlM touchBlock p = .ok p') :
    p'.Ok (fun c => held c + blocks.count c) ∧ SameConfig p p' := by
  induction blocks generalizing p held with
  | nil =>
    obtain rfl := Except.ok.inj hrun
    exact ⟨h.congr (by simp), rfl, rfl, rfl⟩
  | cons b blocks ih =>
    rw [List.foldlM_cons] at hrun
    obtain ⟨q, hstep, htail⟩ := bind_eq_ok.mp hrun
    obtain ⟨hq, hconf⟩ := touchBlock_ok h (hb b (by simp)) hstep
    obtain ⟨hp', hconf'⟩ := ih hq (fun c hc => hconf.1 ▸ hb c (by simp [hc])) htail
    refine ⟨hp'.congr fun c _ => ?_, hconf'.1.trans hconf.1, hconf'.2.1.trans hconf.2.1,
      hconf'.2.2.trans hconf.2.2⟩
    have := count_cons_eq_add b c blocks
    omega

lemma foldl_release (blocks : List BlockId) (p : BlockPool) :
    (∀ b, (blocks.foldl (fun p b => p.setRefCnt b (p.refCnt b - 1)) p).refCnt b =
      p.refCnt b - blocks.count b) ∧
    { blocks.foldl (fun p b => p.setRefCnt b (p.refCnt b - 1)) p with refCnt := p.refCnt } = p := by
  induction blocks generalizing p with
  | nil => simp
  | cons a blocks ih =>
    obtain ⟨hcnt, hrest⟩ := ih (p.setRefCnt a (p.refCnt a - 1))
    rw [List.foldl_cons]
    constructor
    · intro b
      rw [hcnt, List.count_cons]
      by_cases hab : b = a
      · subst hab
        simp only [setRefCnt_refCnt_self, BEq.rfl, if_true]
        push_cast
        omega
      · rw [setRefCnt_refCnt_of_ne p _ hab]
        have : (a == b) = false := by simp [Ne.symm hab]
        simp [this]
    · have := congrArg (fun q : BlockPool => { q with refCnt := p.refCnt }) hrest
      exact this

lemma freeBlocks_eq (p : BlockPool) (blocks : List BlockId) :
    p.freeBlocks blocks = { p with
      refCnt := fun b => p.refCnt b - blocks.count b
      freeBlockQueue := p.freeBlockQueue ++
        blocks.filter fun b => p.refCnt b - blocks.count b = 0 ∧ b ≠ 0 } := by
  obtain ⟨hcnt, hrest⟩ := foldl_release blocks p
  have hcnt' := funext hcnt
  unfold freeBlocks
  set q := blocks.foldl (fun p b => p.setRefCnt b (p.refCnt b - 1)) p
  have hq : q = { p with refCnt := fun b => p.refCnt b - blocks.count b } := by
    rw [← hcnt', ← hrest]
  rw [hq]
  rfl

lemma freeBlocks_ok {blocks : List BlockId} (h : p.Ok (fun b => held b + blocks.count b))
    (hnodup : (blocks.filter (· ≠ 0)).Nodup) :
    (p.freeBlocks blocks).Ok held ∧ SameConfig p (p.freeBlocks blocks) := by
  rw [freeBlocks_eq]
  exact ⟨⟨⟨h.inPool, h.hashed⟩, h.counted.release hnodup fun _ => rfl⟩, rfl, rfl, rfl⟩

lemma resetPrefixCache_ok (h : p.Ok held) :
    p.resetPrefixCache.2.Ok held ∧ SameConfig p p.resetPrefixCache.2 := by
  have hmap : ∀ (k : BlockHashWithGroupId) b,
      ¬ BlockHashToBlockMap.Holds (fun _ => none) k b := by
    rintro k b ⟨c, hc, -⟩
    simp at hc
  unfold resetPrefixCache
  simp only
  split_ifs
  · exact ⟨h, rfl, rfl, rfl⟩
  · refine ⟨⟨⟨fun k b hk => absurd hk (hmap k b), fun k b hk => absurd hk (hmap k b)⟩, ?_⟩,
      rfl, rfl, rfl⟩
    exact h.counted
  · refine ⟨⟨⟨fun k b hk => absurd hk (hmap k b), fun k b hk => absurd hk (hmap k b)⟩, ?_⟩,
      rfl, rfl, rfl⟩
    exact h.counted

end BlockPool

end VllmV1
