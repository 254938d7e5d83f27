import VllmMmaEmu.KvCache.ManagerRuns

/-!
# The capacity check of `allocate_slots`

The check adds up, over the groups, the blocks that are missing; a group that has more
blocks than it needs counts negatively, although the allocation gives nothing back. The check
is safe exactly when no group has too many.
-/

namespace VllmV1

open Python RefCount

namespace BlockPool

variable {p p' : BlockPool} {held : BlockId → Nat}

lemma maybeEvictCachedBlock_refCnt (p : BlockPool) (b : BlockId) :
    (p.maybeEvictCachedBlock b).refCnt = p.refCnt := by
  unfold maybeEvictCachedBlock
  split
  · rfl
  · simp only
    split_ifs <;> rfl

lemma takeBlocks_isOk {blocks : List BlockId} (hn : blocks.Nodup)
    (h : ∀ b ∈ blocks, p.refCnt b = 0) : ∃ p', takeBlocks p blocks = .ok p' := by
  induction blocks generalizing p with
  | nil => exact ⟨p, rfl⟩
  | cons b blocks ih =>
    obtain ⟨hb, hn⟩ := List.nodup_cons.mp hn
    simp only [takeBlocks]
    set q := if p.enableCaching then p.maybeEvictCachedBlock b else p with hq
    have hcnt : q.refCnt = p.refCnt := by
      rw [hq]
      split_ifs
      · exact maybeEvictCachedBlock_refCnt p b
      · rfl
    obtain ⟨p', hp'⟩ := ih (p := q.setRefCnt b (q.refCnt b + 1)) hn fun c hc => by
      have hne : c ≠ b := fun heq => hb (heq ▸ hc)
      rw [setRefCnt_refCnt_of_ne q _ hne, hcnt]
      exact h c (by simp [hc])
    refine ⟨p', bind_eq_ok.mpr ⟨(), ?_, hp'⟩⟩
    rw [pyAssert_eq_ok, hcnt]
    exact h b (by simp)

lemma getNewBlocks_isOk {n : Int} (h : p.Ok held) (hn : n ≤ p.getNumFreeBlocks) :
    ∃ blocks p', p.getNewBlocks n = .ok (blocks, p') := by
  obtain ⟨q, hq⟩ := takeBlocks_isOk
    (p := { p with freeBlockQueue := p.freeBlockQueue.drop n.toNat })
    (h.counted.nodup.sublist (List.take_sublist n.toNat _)) fun b hb => by
      obtain ⟨hne, hlt, hzero⟩ := (h.counted.free_iff b).mp (List.mem_of_mem_take hb)
      rw [h.counted.refs b hne hlt, hzero]
      rfl
  refine ⟨p.freeBlockQueue.take n.toNat, q, ?_⟩
  unfold getNewBlocks
  rw [if_neg (not_lt.mpr hn)]
  exact bind_eq_ok.mpr ⟨q, hq, rfl⟩

lemma touchBlock_free {b : BlockId} (h : p.Ok held) (hb : b < p.numGpuBlocks) :
    ∃ p', p.touchBlock b = .ok p' ∧
      p'.getNumFreeBlocks + [b].countP (SingleTypeManager.isEvictable p) = p.getNumFreeBlocks ∧
      ∀ c, c ≠ b → p'.refCnt c = p.refCnt c := by
  unfold touchBlock
  by_cases hzero : p.refCnt b = 0 ∧ b ≠ nullBlock
  · have hmem := (h.counted.free_iff_refCnt hzero.2 hb).mpr hzero.1
    rw [if_pos hzero, if_pos hmem]
    refine ⟨_, rfl, ?_, fun c hc => setRefCnt_refCnt_of_ne p _ hc⟩
    have hlen := List.length_erase_of_mem hmem
    have hpos := List.length_pos_of_mem hmem
    have hone : [b].countP (SingleTypeManager.isEvictable p) = 1 := by
      simp [SingleTypeManager.isEvictable, hzero.1, hzero.2]
    rw [hone]
    show (p.freeBlockQueue.erase b).length + 1 = p.freeBlockQueue.length
    omega
  · rw [if_neg hzero]
    refine ⟨_, rfl, ?_, fun c hc => setRefCnt_refCnt_of_ne p _ hc⟩
    have hnone : [b].countP (SingleTypeManager.isEvictable p) = 0 := by
      simpa [SingleTypeManager.isEvictable] using hzero
    rw [hnone]
    rfl

lemma foldlM_touchBlock_free {blocks : List BlockId} (h : p.Ok held)
    (hb : ∀ b ∈ blocks, b < p.numGpuBlocks) (hn : (blocks.filter (· ≠ 0)).Nodup) :
    ∃ p', blocks.foldlM touchBlock p = .ok p' ∧
      p'.getNumFreeBlocks + blocks.countP (SingleTypeManager.isEvictable p) =
        p.getNumFreeBlocks := by
  induction blocks generalizing p held with
  | nil => exact ⟨p, rfl, rfl⟩
  | cons b blocks ih =>
    obtain ⟨q, hq, hfree, hrest⟩ := touchBlock_free h (hb b (by simp))
    obtain ⟨hok, hconf⟩ := touchBlock_ok h (hb b (by simp)) hq
    have hn' : (blocks.filter (· ≠ 0)).Nodup :=
      hn.sublist ((List.sublist_cons_self b blocks).filter _)
    obtain ⟨p', hp', hfree'⟩ := ih hok (fun c hc => hconf.1 ▸ hb c (by simp [hc])) hn'
    refine ⟨p', ?_, ?_⟩
    · rw [List.foldlM_cons]
      exact bind_eq_ok.mpr ⟨q, hq, hp'⟩
    · -- the hits after `b` are evictable before and after it is touched
      have hcongr : blocks.countP (SingleTypeManager.isEvictable q) =
          blocks.countP (SingleTypeManager.isEvictable p) := by
        refine List.countP_congr fun c hc => ?_
        by_cases hnull : c = 0
        · simp [SingleTypeManager.isEvictable, hnull, nullBlock]
        · have hne : c ≠ b := by
            rintro rfl
            rw [List.filter_cons_of_pos (by simp [hnull]), List.nodup_cons, List.mem_filter] at hn
            exact hn.1 ⟨hc, by simp [hnull]⟩
          simp [SingleTypeManager.isEvictable, hrest c hne]
      have hsplit : (b :: blocks).countP (SingleTypeManager.isEvictable p) =
          [b].countP (SingleTypeManager.isEvictable p) +
            blocks.countP (SingleTypeManager.isEvictable p) := by
        rw [← List.countP_append, List.singleton_append]
      omega

end BlockPool

namespace SingleTypeManager

variable {m m' : SingleTypeManager} {p p' : BlockPool} {extra : BlockId → Nat}
  {requestId : String} {blocks : List BlockId}

/-- The blocks that a request lacks; negative when its table has more than it needs. -/
def deficit (m : SingleTypeManager) (requestId : String) (numTokens : Int) : Int :=
  m.numRequiredBlocks numTokens - (m.blocksOf requestId).length

/-- A table is only kept for a request whose cached blocks are counted. -/
def Registered (m : SingleTypeManager) : Prop :=
  m.kvCacheSpec.kind ≠ .cross → ∀ id, m.blocksOf id ≠ [] → id ∈ m.numCachedBlock.keys

/-- What an allocation that returns has done: a surplus is not given back. -/
lemma allocateNewBlocks_spec {numTokens : Int} {new : List BlockId} (h : Accounted m p extra)
    (hrun : m.allocateNewBlocks p requestId numTokens = .ok (new, m', p')) :
    p'.getNumFreeBlocks + (m.deficit requestId numTokens).toNat = p.getNumFreeBlocks ∧
      (m'.blocksOf requestId).length =
        (m.blocksOf requestId).length + (m.deficit requestId numTokens).toNat ∧
      m'.numCachedBlock = m.numCachedBlock ∧
      ∀ id, id ≠ requestId → m'.blocksOf id = m.blocksOf id := by
  simp only [allocateNewBlocks] at hrun
  rw [← deficit] at hrun
  split_ifs at hrun with hle
  · obtain ⟨-, rfl, rfl⟩ : [] = new ∧ m = m' ∧ p = p' := by simpa using hrun
    have hzero : (m.deficit requestId numTokens).toNat = 0 := Int.toNat_eq_zero.mpr hle
    rw [hzero]
    exact ⟨rfl, rfl, rfl, fun _ _ => rfl⟩
  · obtain ⟨⟨fresh, q⟩, hget, hret⟩ := bind_eq_ok.mp hrun
    obtain ⟨rfl, rfl, rfl⟩ : fresh = new ∧
        m.setBlocks requestId (m.blocksOf requestId ++ fresh) = m' ∧ q = p' := by
      simpa using hret
    obtain ⟨-, -, -, -, hlen, hfree⟩ := BlockPool.getNewBlocks_ok h.pool hget
    refine ⟨?_, ?_, rfl, fun id hid => ?_⟩
    · have htake := congrArg List.length hfree
      rw [List.length_drop] at htake
      have hle : (m.deficit requestId numTokens).toNat ≤ p.freeBlockQueue.length := by
        unfold BlockPool.getNewBlocks at hget
        split_ifs at hget with hgt
        unfold BlockPool.getNumFreeBlocks at hgt
        omega
      unfold BlockPool.getNumFreeBlocks
      omega
    · rw [blocksOf_setBlocks, if_pos rfl, List.length_append, hlen]
    · rw [blocksOf_setBlocks, if_neg hid.symm]

lemma allocateNewBlocks_isOk (requestId : String) (numTokens : Int) (h : Accounted m p extra)
    (hfit : (m.deficit requestId numTokens).toNat ≤ p.getNumFreeBlocks) :
    ∃ r, m.allocateNewBlocks p requestId numTokens = .ok r := by
  simp only [allocateNewBlocks]
  rw [← deficit]
  split_ifs with hle
  · exact ⟨_, rfl⟩
  · obtain ⟨new, q, hget⟩ := BlockPool.getNewBlocks_isOk h.pool
      (n := m.deficit requestId numTokens) (by omega)
    exact ⟨_, bind_eq_ok.mpr ⟨_, hget, rfl⟩⟩

/-- The request is unknown to the manager, or known and without new hits. -/
def AcceptsHits (m : SingleTypeManager) (requestId : String) (hits : List BlockId) : Prop :=
  hits = [] ∨ m.kvCacheSpec.kind ≠ .cross ∧ requestId ∉ m.numCachedBlock.keys

lemma saveNewComputedBlocks_isOk {hits : List BlockId} (hr : m.Registered)
    (h : m.AcceptsHits requestId hits) :
    ∃ m', m.saveNewComputedBlocks requestId hits = .ok m' := by
  unfold saveNewComputedBlocks
  split
  · rename_i hcross
    have hnil : hits = [] := by
      rcases h with h | ⟨h, -⟩
      · exact h
      · exact absurd hcross h
    exact ⟨m, bind_eq_ok.mpr ⟨(), pyAssert_eq_ok.mpr (by rw [hnil]; rfl), rfl⟩⟩
  · rename_i hkind
    split_ifs with hkey
    · have hnil : hits = [] := by
        rcases h with h | ⟨-, h⟩
        · exact h
        · exact absurd hkey h
      exact ⟨m, bind_eq_ok.mpr ⟨(), pyAssert_eq_ok.mpr (by rw [hnil]; rfl), rfl⟩⟩
    · have hempty : m.blocksOf requestId = [] := by
        by_contra hne
        exact hkey (hr (fun hcross => hkind hcross) requestId hne)
      exact ⟨_, bind_eq_ok.mpr ⟨(), pyAssert_eq_ok.mpr (by rw [hempty]; rfl), rfl⟩⟩

lemma saveNewComputedBlocks_spec {hits : List BlockId} (hr : m.Registered)
    (hrun : m.saveNewComputedBlocks requestId hits = .ok m') :
    (m'.blocksOf requestId).length = (m.blocksOf requestId).length + hits.length ∧
      m.SameSpec m' ∧ m'.Registered ∧
      (m.kvCacheSpec.kind ≠ .cross → requestId ∈ m'.numCachedBlock.keys) := by
  unfold saveNewComputedBlocks at hrun
  split at hrun
  · rename_i hcross
    obtain ⟨_, hlen, hret⟩ := bind_eq_ok.mp hrun
    obtain rfl := Except.ok.inj hret
    rw [pyAssert_eq_ok] at hlen
    exact ⟨by omega, rfl, hr, fun h => absurd hcross h⟩
  · split_ifs at hrun with hkey
    · obtain ⟨_, hlen, hret⟩ := bind_eq_ok.mp hrun
      obtain rfl := Except.ok.inj hret
      rw [pyAssert_eq_ok] at hlen
      exact ⟨by omega, rfl, hr, fun _ => hkey⟩
    · obtain ⟨_, hlen, hret⟩ := bind_eq_ok.mp hrun
      obtain rfl := Except.ok.inj hret
      have hblocks : ∀ id, blocksOf { m.setBlocks requestId (m.blocksOf requestId ++ hits) with
          numCachedBlock := m.numCachedBlock.set requestId hits.length } id =
          if requestId = id then m.blocksOf requestId ++ hits else m.blocksOf id :=
        fun id => blocksOf_setBlocks id
      refine ⟨?_, rfl, fun hcross id hid => ?_, fun _ => by simp⟩
      · rw [hblocks, if_pos rfl, List.length_append]
      · rw [hblocks] at hid
        rw [Dict.mem_keys_set]
        split_ifs at hid with heq
        · exact Or.inl heq.symm
        · exact Or.inr (hr hcross id hid)

lemma allocateNewBlocks_registered {numTokens : Int} {new : List BlockId} (h : m.Registered)
    (hkey : m.kvCacheSpec.kind ≠ .cross → requestId ∈ m.numCachedBlock.keys)
    (hrun : m.allocateNewBlocks p requestId numTokens = .ok (new, m', p')) : m'.Registered := by
  simp only [allocateNewBlocks] at hrun
  split_ifs at hrun with hle
  · obtain ⟨-, rfl, -⟩ : [] = new ∧ m = m' ∧ p = p' := by simpa using hrun
    exact h
  · obtain ⟨⟨fresh, q⟩, -, hret⟩ := bind_eq_ok.mp hrun
    obtain ⟨-, rfl, -⟩ : fresh = new ∧
        m.setBlocks requestId (m.blocksOf requestId ++ fresh) = m' ∧ q = p' := by
      simpa using hret
    intro hcross id hid
    rw [blocksOf_setBlocks] at hid
    split_ifs at hid with heq
    · exact heq ▸ hkey hcross
    · exact h hcross id hid

lemma removeLoop_length {i : Nat} {blocks' removed : List BlockId}
    (h : removeLoop blocks i = .ok (blocks', removed)) : blocks'.length = blocks.length := by
  induction i generalizing blocks removed with
  | zero =>
    obtain ⟨rfl, -⟩ := Prod.mk.inj (Except.ok.inj h)
    rfl
  | succ i ih =>
    unfold removeLoop at h
    split at h
    · cases h
    · split_ifs at h
      · obtain ⟨rfl, -⟩ := Prod.mk.inj (Except.ok.inj h)
        rfl
      · obtain ⟨⟨rest, removed'⟩, hrest, hret⟩ := bind_eq_ok.mp h
        obtain ⟨rfl, -⟩ := Prod.mk.inj (Except.ok.inj hret)
        rw [ih hrest, List.length_set]

lemma removeSkippedBlocks_spec {n : Int}
    (hrun : m.removeSkippedBlocks p requestId n = .ok (m', p')) :
    (∀ id, (m'.blocksOf id).length = (m.blocksOf id).length) ∧
      m'.numCachedBlock = m.numCachedBlock ∧ m.SameSpec m' := by
  obtain ⟨⟨blocks', removed⟩, hloop, hret⟩ := bind_eq_ok.mp hrun
  obtain ⟨rfl, -⟩ := Prod.mk.inj (Except.ok.inj hret)
  refine ⟨fun id => ?_, rfl, rfl⟩
  rw [blocksOf_setBlocks]
  split_ifs with heq
  · rw [← heq]
    exact removeLoop_length hloop
  · rfl

lemma removeSkippedBlocks_registered {n : Int} (h : m.Registered)
    (hrun : m.removeSkippedBlocks p requestId n = .ok (m', p')) : m'.Registered := by
  obtain ⟨hlen, hcached, hspec⟩ := removeSkippedBlocks_spec hrun
  intro hcross id hid
  have hkind : m'.kvCacheSpec = m.kvCacheSpec := (Prod.mk.inj hspec).1
  rw [hcached]
  refine h (hkind ▸ hcross) id fun hnil => hid ?_
  rw [← List.length_eq_zero_iff, hlen, hnil]
  rfl

lemma cacheBlocks_registered {request : Request} {n : Int} (h : m.Registered)
    (hrun : m.cacheBlocks p request n = .ok (m', p')) : m'.Registered := by
  unfold cacheBlocks at hrun
  split at hrun
  · cases hrun
  · split at hrun
    · cases hrun
    · obtain ⟨q, -, hret⟩ := bind_eq_ok.mp hrun
      obtain ⟨rfl, -⟩ := Prod.mk.inj (Except.ok.inj hret)
      intro hcross id hid
      rw [Dict.mem_keys_set]
      exact Or.inr (h hcross id hid)

lemma free_registered (h : m.Registered) : (m.free p requestId).1.Registered := by
  intro hcross id hid
  have hblocks : (m.free p requestId).1.blocksOf id =
      if requestId = id then [] else m.blocksOf id := by
    unfold free blocksOf
    rw [Dict.get?_erase]
    split_ifs <;> rfl
  rw [hblocks] at hid
  split_ifs at hid with heq
  · exact absurd rfl hid
  · exact Dict.mem_keys_erase.mpr ⟨fun h' => heq h'.symm, h hcross id hid⟩

end SingleTypeManager

namespace SingleTypeManager

variable {m m' : SingleTypeManager} {p : BlockPool} {requestId : String}

lemma numRequiredBlocks_sameSpec (h : m.SameSpec m') (n : Int) :
    m'.numRequiredBlocks n = m.numRequiredBlocks n := by
  obtain ⟨hspec, hrest⟩ := Prod.mk.inj h
  obtain ⟨hsize, -⟩ := Prod.mk.inj hrest
  rw [numRequiredBlocks, numRequiredBlocks, tokensNeedingSlots, tokensNeedingSlots, hspec, hsize]

lemma le_numRequiredBlocks_mul (hpos : 0 < m.blockSize) (n : Int) :
    n ≤ m.numRequiredBlocks n * m.blockSize := by
  have hle : n ≤ m.tokensNeedingSlots n := by
    unfold tokensNeedingSlots
    split
    · split_ifs
      · exact le_add_of_nonneg_right (by positivity)
      · exact le_refl n
    · exact le_refl n
  exact hle.trans (le_cdiv_mul hpos)

end SingleTypeManager

namespace KVCacheManager

variable {ms ms' : List SingleTypeManager} {p p' : BlockPool} {extra : BlockId → Nat} {α : Type}
  {requestId : String} {numTokens numEncoderTokens : Int}

lemma forManagers_calls {f : SingleTypeManager → BlockPool →
      Except PyError (α × SingleTypeManager × BlockPool)} {as : List α}
    (hrun : forManagers f ms p = .ok (as, ms', p')) :
    List.Forall₂ (fun m m' => ∃ q a q', f m q = .ok (a, m', q')) ms ms' := by
  induction ms generalizing p as ms' p' with
  | nil =>
    obtain ⟨-, rfl, -⟩ : [] = as ∧ [] = ms' ∧ p = p' := by simpa [forManagers] using hrun
    exact .nil
  | cons m ms ih =>
    obtain ⟨⟨a, m₁, p₁⟩, hm, hrun⟩ := bind_eq_ok.mp hrun
    obtain ⟨⟨as', ms₁, p₂⟩, hms, hret⟩ := bind_eq_ok.mp hrun
    obtain ⟨-, rfl, -⟩ : a :: as' = as ∧ m₁ :: ms₁ = ms' ∧ p₂ = p' := by simpa using hret
    exact .cons ⟨p, a, p₁, hm⟩ (ih hms)

lemma forManagers_mem {f : SingleTypeManager → BlockPool →
      Except PyError (α × SingleTypeManager × BlockPool)} {as : List α}
    (hrun : forManagers f ms p = .ok (as, ms', p')) {m' : SingleTypeManager} (hm' : m' ∈ ms') :
    ∃ m ∈ ms, ∃ q a q', f m q = .ok (a, m', q') :=
  forall₂_exists_left (forManagers_calls hrun) hm'

/-- The blocks a call takes from the pool, over all groups. -/
def blocksTaken (requestId : String) (numTokens numEncoderTokens : Int)
    (ms : List SingleTypeManager) : Nat :=
  (ms.map fun m => (m.deficit requestId (tokensFor m numTokens numEncoderTokens)).toNat).sum

/-- The sum of the check, once the hits are in the tables and out of the free queue. -/
def totalDeficit (requestId : String) (numTokens numEncoderTokens : Int)
    (ms : List SingleTypeManager) : Int :=
  (ms.map fun m => m.deficit requestId (tokensFor m numTokens numEncoderTokens)).sum

/-- No group's table has more blocks than the call needs. -/
def NoSurplus (requestId : String) (numTokens numEncoderTokens : Int)
    (ms : List SingleTypeManager) : Prop :=
  ∀ m ∈ ms, 0 ≤ m.deficit requestId (tokensFor m numTokens numEncoderTokens)

lemma totalDeficit_cons (requestId : String) (numTokens numEncoderTokens : Int)
    (m : SingleTypeManager) (ms : List SingleTypeManager) :
    totalDeficit requestId numTokens numEncoderTokens (m :: ms) =
      m.deficit requestId (tokensFor m numTokens numEncoderTokens) +
        totalDeficit requestId numTokens numEncoderTokens ms := by
  simp [totalDeficit]

lemma blocksTaken_cons (requestId : String) (numTokens numEncoderTokens : Int)
    (m : SingleTypeManager) (ms : List SingleTypeManager) :
    blocksTaken requestId numTokens numEncoderTokens (m :: ms) =
      (m.deficit requestId (tokensFor m numTokens numEncoderTokens)).toNat +
        blocksTaken requestId numTokens numEncoderTokens ms := by
  simp [blocksTaken]

lemma totalDeficit_le_blocksTaken (requestId : String) (numTokens numEncoderTokens : Int)
    (ms : List SingleTypeManager) :
    totalDeficit requestId numTokens numEncoderTokens ms ≤
      blocksTaken requestId numTokens numEncoderTokens ms := by
  induction ms with
  | nil => exact le_refl 0
  | cons m ms ih =>
    have := Int.self_le_toNat (m.deficit requestId (tokensFor m numTokens numEncoderTokens))
    rw [totalDeficit_cons, blocksTaken_cons]
    omega

/-- The two sums agree exactly when no group has a surplus. -/
lemma blocksTaken_le_totalDeficit_iff (ms : List SingleTypeManager) :
    (blocksTaken requestId numTokens numEncoderTokens ms : Int) ≤
        totalDeficit requestId numTokens numEncoderTokens ms ↔
      NoSurplus requestId numTokens numEncoderTokens ms := by
  induction ms with
  | nil => simp [blocksTaken, totalDeficit, NoSurplus]
  | cons m ms ih =>
    have htail := totalDeficit_le_blocksTaken requestId numTokens numEncoderTokens ms
    have hhead := Int.self_le_toNat (m.deficit requestId (tokensFor m numTokens numEncoderTokens))
    rw [NoSurplus, List.forall_mem_cons, ← NoSurplus, ← ih, totalDeficit_cons, blocksTaken_cons]
    omega

lemma allocateNewBlocks_taken {new : List (List BlockId)} (h : AllAccounted ms p extra)
    (hrun : allocateNewBlocks requestId numTokens numEncoderTokens ms p = .ok (new, ms', p')) :
    p'.getNumFreeBlocks + blocksTaken requestId numTokens numEncoderTokens ms =
      p.getNumFreeBlocks := by
  induction ms generalizing p extra new ms' p' with
  | nil =>
    obtain ⟨-, -, rfl⟩ : [] = new ∧ [] = ms' ∧ p = p' := by
      simpa [allocateNewBlocks, forManagers] using hrun
    rfl
  | cons m ms ih =>
    obtain ⟨⟨a, m₁, p₁⟩, hm, hrun⟩ := bind_eq_ok.mp hrun
    obtain ⟨⟨as', ms₁, p₂⟩, hms, hret⟩ := bind_eq_ok.mp hrun
    obtain ⟨-, rfl, rfl⟩ : a :: as' = new ∧ m₁ :: ms₁ = ms' ∧ p₂ = p' := by simpa using hret
    obtain ⟨hacc, htables⟩ := allAccounted_cons.mp h
    obtain ⟨hacc₁, -, -⟩ := SingleTypeManager.allocateNewBlocks_accounted hacc hm
    obtain ⟨hfree, -⟩ := SingleTypeManager.allocateNewBlocks_spec hacc hm
    have htail := (allAccounted_tail hacc₁.tables).mp (allAccounted_cons.mpr ⟨hacc₁, htables⟩)
    have hfree' := ih htail hms
    simp only [blocksTaken, List.map_cons, List.sum_cons] at hfree' ⊢
    omega

lemma allocateNewBlocks_isOk (h : AllAccounted ms p extra)
    (hfit : blocksTaken requestId numTokens numEncoderTokens ms ≤ p.getNumFreeBlocks) :
    ∃ r, allocateNewBlocks requestId numTokens numEncoderTokens ms p = .ok r := by
  induction ms generalizing p extra with
  | nil => exact ⟨_, rfl⟩
  | cons m ms ih =>
    have hsum : blocksTaken requestId numTokens numEncoderTokens (m :: ms) =
        (m.deficit requestId (tokensFor m numTokens numEncoderTokens)).toNat +
          blocksTaken requestId numTokens numEncoderTokens ms := by
      simp [blocksTaken]
    obtain ⟨hacc, htables⟩ := allAccounted_cons.mp h
    obtain ⟨⟨a, m₁, p₁⟩, hm⟩ := SingleTypeManager.allocateNewBlocks_isOk
      requestId (tokensFor m numTokens numEncoderTokens) hacc (by omega)
    obtain ⟨hacc₁, -, -⟩ := SingleTypeManager.allocateNewBlocks_accounted hacc hm
    obtain ⟨hfree, -⟩ := SingleTypeManager.allocateNewBlocks_spec hacc hm
    have htail := (allAccounted_tail hacc₁.tables).mp (allAccounted_cons.mpr ⟨hacc₁, htables⟩)
    obtain ⟨r, hr⟩ := ih htail (by omega)
    exact ⟨_, bind_eq_ok.mpr ⟨_, hm, bind_eq_ok.mpr ⟨r, hr, rfl⟩⟩⟩

lemma allocateNewBlocks_covers {new : List (List BlockId)} (h : AllAccounted ms p extra)
    (hrun : allocateNewBlocks requestId numTokens numEncoderTokens ms p = .ok (new, ms', p'))
    (hpos : ∀ m ∈ ms, 0 < m.blockSize) {m' : SingleTypeManager} (hm' : m' ∈ ms') :
    tokensFor m' numTokens numEncoderTokens ≤ (m'.blocksOf requestId).length * m'.blockSize := by
  induction ms generalizing p extra new ms' p' with
  | nil =>
    obtain ⟨-, rfl, -⟩ : [] = new ∧ [] = ms' ∧ p = p' := by
      simpa [allocateNewBlocks, forManagers] using hrun
    cases hm'
  | cons m ms ih =>
    obtain ⟨⟨a, m₁, p₁⟩, hm, hrun⟩ := bind_eq_ok.mp hrun
    obtain ⟨⟨as', ms₁, p₂⟩, hms, hret⟩ := bind_eq_ok.mp hrun
    obtain ⟨-, rfl, rfl⟩ : a :: as' = new ∧ m₁ :: ms₁ = ms' ∧ p₂ = p' := by simpa using hret
    obtain ⟨hacc, htables⟩ := allAccounted_cons.mp h
    obtain ⟨hacc₁, -, hspec⟩ := SingleTypeManager.allocateNewBlocks_accounted hacc hm
    rcases List.mem_cons.mp hm' with rfl | hm'
    · obtain ⟨-, hlen, -⟩ := SingleTypeManager.allocateNewBlocks_spec hacc hm
      obtain ⟨hkind, hrest⟩ := Prod.mk.inj hspec
      have htokens : tokensFor m' numTokens numEncoderTokens =
          tokensFor m numTokens numEncoderTokens := by
        rw [tokensFor, tokensFor, hkind]
      have hbs := hpos m (by simp)
      rw [htokens, (Prod.mk.inj hrest).1]
      refine (SingleTypeManager.le_numRequiredBlocks_mul hbs _).trans
        (mul_le_mul_of_nonneg_right ?_ hbs.le)
      rw [hlen, SingleTypeManager.deficit]
      omega
    · have htail := (allAccounted_tail hacc₁.tables).mp (allAccounted_cons.mpr ⟨hacc₁, htables⟩)
      exact ih htail hms (fun m₀ hm₀ => hpos m₀ (by simp [hm₀])) hm'

lemma saveNewComputedBlocks_isOk {hits : List (List BlockId)}
    (hr : ∀ m ∈ ms, m.Registered)
    (h : List.Forall₂ (fun m c => m.AcceptsHits requestId c) ms hits) :
    ∃ ms', saveNewComputedBlocks requestId ms hits = .ok ms' := by
  induction h with
  | nil => exact ⟨[], rfl⟩
  | cons hm _ ih =>
    obtain ⟨m', hm'⟩ := SingleTypeManager.saveNewComputedBlocks_isOk (hr _ (by simp)) hm
    obtain ⟨ms', hms'⟩ := ih fun m hm => hr m (by simp [hm])
    exact ⟨m' :: ms', bind_eq_ok.mpr ⟨m', hm', bind_eq_ok.mpr ⟨ms', hms', rfl⟩⟩⟩

/-- The count of the check is the sum of the deficits that are left after the hits are
saved, and the hits that leave the free queue. -/
lemma sum_getNumBlocksToAllocate {hits : List (List BlockId)} (hr : ∀ m ∈ ms, m.Registered)
    (hlen : ms.length = hits.length)
    (hrun : saveNewComputedBlocks requestId ms hits = .ok ms') :
    (List.zipWith (fun (m : SingleTypeManager) hits =>
      if m.kvCacheSpec.kind = .cross then
        m.getNumBlocksToAllocate p requestId numEncoderTokens []
      else m.getNumBlocksToAllocate p requestId numTokens hits) ms hits).sum =
      totalDeficit requestId numTokens numEncoderTokens ms' +
        hits.flatten.countP (SingleTypeManager.isEvictable p) := by
  induction ms generalizing hits ms' with
  | nil =>
    obtain rfl := Except.ok.inj hrun
    obtain rfl := List.length_eq_zero_iff.mp hlen.symm
    rfl
  | cons m ms ih =>
    cases hits with
    | nil => simp at hlen
    | cons c hits =>
      obtain ⟨m₁, hm, hrun⟩ := bind_eq_ok.mp hrun
      obtain ⟨ms₁, hms, hret⟩ := bind_eq_ok.mp hrun
      obtain rfl := Except.ok.inj hret
      have hih := ih (fun m' hm' => hr m' (by simp [hm'])) (by simpa using hlen) hms
      obtain ⟨hlen₁, hspec, -, -⟩ :=
        SingleTypeManager.saveNewComputedBlocks_spec (hr m (by simp)) hm
      have hkind : m₁.kvCacheSpec = m.kvCacheSpec := (Prod.mk.inj hspec).1
      have hreq := SingleTypeManager.numRequiredBlocks_sameSpec hspec
      have hone : (if m.kvCacheSpec.kind = .cross then
            m.getNumBlocksToAllocate p requestId numEncoderTokens []
          else m.getNumBlocksToAllocate p requestId numTokens c) =
          m₁.deficit requestId (tokensFor m₁ numTokens numEncoderTokens) +
            c.countP (SingleTypeManager.isEvictable p) := by
        rw [tokensFor, hkind, SingleTypeManager.deficit, hlen₁]
        split_ifs with hcross
        · have hnil : c = [] := by
            unfold SingleTypeManager.saveNewComputedBlocks at hm
            rw [hcross] at hm
            obtain ⟨_, hassert, -⟩ := bind_eq_ok.mp hm
            exact List.length_eq_zero_iff.mp (pyAssert_eq_ok.mp hassert)
          rw [hreq, hnil, SingleTypeManager.getNumBlocksToAllocate]
          simp
        · rw [hreq, SingleTypeManager.getNumBlocksToAllocate]
          push_cast
          omega
      rw [List.zipWith_cons_cons, List.sum_cons, hone, hih, List.flatten_cons,
        List.countP_append]
      simp only [totalDeficit, List.map_cons, List.sum_cons]
      push_cast
      omega

lemma saveNewComputedBlocks_mem {hits : List (List BlockId)}
    (hrun : saveNewComputedBlocks requestId ms hits = .ok ms') {m' : SingleTypeManager}
    (hm' : m' ∈ ms') : ∃ m ∈ ms, ∃ c, m.saveNewComputedBlocks requestId c = .ok m' := by
  induction ms generalizing hits ms' with
  | nil =>
    obtain rfl := Except.ok.inj hrun
    cases hm'
  | cons m ms ih =>
    cases hits with
    | nil => cases hrun
    | cons c hits =>
      obtain ⟨m₁, hm, hrun⟩ := bind_eq_ok.mp hrun
      obtain ⟨ms₁, hms, hret⟩ := bind_eq_ok.mp hrun
      obtain rfl := Except.ok.inj hret
      rcases List.mem_cons.mp hm' with rfl | hm'
      · exact ⟨m, by simp, c, hm⟩
      · obtain ⟨m₀, hm₀, hcall⟩ := ih hms hm'
        exact ⟨m₀, by simp [hm₀], hcall⟩

def AllRegistered (s : KVCacheManager) : Prop := ∀ m ∈ s.singleTypeManagers, m.Registered

variable {s s' : KVCacheManager}

lemma removeSkippedBlocks_allRegistered {n : Int} (h : s.AllRegistered)
    (hrun : s.removeSkippedBlocks requestId n = .ok s') : s'.AllRegistered := by
  obtain ⟨⟨us, ms, p⟩, hloop, hret⟩ := bind_eq_ok.mp hrun
  obtain rfl := Except.ok.inj hret
  intro m' hm'
  obtain ⟨m, hm, q, u, q', hcall⟩ := forManagers_mem hloop hm'
  exact SingleTypeManager.removeSkippedBlocks_registered (h m hm) (withUnit_eq_ok hcall)

lemma coordinatorCacheBlocks_allRegistered {request : Request} {n : Int} (h : s.AllRegistered)
    (hrun : s.coordinatorCacheBlocks request n = .ok s') : s'.AllRegistered := by
  obtain ⟨⟨us, ms, p⟩, hloop, hret⟩ := bind_eq_ok.mp hrun
  obtain rfl := Except.ok.inj hret
  intro m' hm'
  obtain ⟨m, hm, q, u, q', hcall⟩ := forManagers_mem hloop hm'
  exact SingleTypeManager.cacheBlocks_registered (h m hm) (withUnit_eq_ok hcall)

lemma allocateGroups_allRegistered {request : Request} {a : AllocArgs}
    {hits new : List (List BlockId)} (h : s.AllRegistered)
    (hrun : s.allocateGroups request a hits = .ok (new, s')) : s'.AllRegistered := by
  obtain ⟨pool, -, hrun⟩ := bind_eq_ok.mp hrun
  obtain ⟨ms, hsave, hrun⟩ := bind_eq_ok.mp hrun
  obtain ⟨⟨new, ms₂, pool₂⟩, halloc, hret⟩ := bind_eq_ok.mp hrun
  obtain ⟨-, rfl⟩ := Prod.mk.inj (Except.ok.inj hret)
  intro m₂ hm₂
  obtain ⟨m₁, hm₁, q, a', q', hcall⟩ := forManagers_mem halloc hm₂
  obtain ⟨m, hm, c, hsaved⟩ := saveNewComputedBlocks_mem hsave hm₁
  obtain ⟨-, hspec, hr, hkey⟩ := SingleTypeManager.saveNewComputedBlocks_spec (h m hm) hsaved
  have hkind : m₁.kvCacheSpec = m.kvCacheSpec := (Prod.mk.inj hspec).1
  exact SingleTypeManager.allocateNewBlocks_registered hr (fun hc => hkey (hkind ▸ hc)) hcall

lemma allocateSlots_allRegistered {request : Request} {a : AllocArgs}
    {new : Option (List (List BlockId))} (h : s.AllRegistered)
    (hrun : s.allocateSlots request a = .ok (new, s')) : s'.AllRegistered := by
  unfold allocateSlots at hrun
  split_ifs at hrun
  obtain ⟨s₁, hremove, hrun⟩ := bind_eq_ok.mp hrun
  have h₁ := removeSkippedBlocks_allRegistered h hremove
  simp only at hrun
  split_ifs at hrun
  · obtain ⟨-, rfl⟩ := Prod.mk.inj (Except.ok.inj hrun)
    exact h₁
  · obtain ⟨⟨new', s₂⟩, hchecked, hret⟩ := bind_eq_ok.mp hrun
    obtain ⟨-, rfl⟩ := Prod.mk.inj (Except.ok.inj hret)
    obtain ⟨⟨new'', s₃⟩, hgroups, hrun⟩ := bind_eq_ok.mp hchecked
    have h₃ := allocateGroups_allRegistered h₁ hgroups
    simp only at hrun
    split_ifs at hrun
    · obtain ⟨-, rfl⟩ := Prod.mk.inj (Except.ok.inj hrun)
      exact h₃
    · obtain ⟨s₄, hcache, hret⟩ := bind_eq_ok.mp hrun
      obtain ⟨-, rfl⟩ := Prod.mk.inj (Except.ok.inj hret)
      exact coordinatorCacheBlocks_allRegistered h₃ hcache

lemma freeLoop_registered (h : ∀ m ∈ ms, m.Registered) :
    ∀ m ∈ (freeLoop requestId ms p).1, m.Registered := by
  induction ms generalizing p with
  | nil => simp [freeLoop]
  | cons m ms ih =>
    refine List.forall_mem_cons.mpr ⟨?_, ih fun m' hm' => h m' (by simp [hm'])⟩
    exact SingleTypeManager.free_registered (p := p) (h m (by simp))

lemma runOp_allRegistered {op : KVOp} (h : s.AllRegistered) (hrun : s.runOp op = .ok s') :
    s'.AllRegistered := by
  cases op with
  | start request args =>
    obtain ⟨⟨hits, length⟩, -, hrun⟩ := bind_eq_ok.mp hrun
    obtain ⟨⟨new, s₁⟩, halloc, hret⟩ := bind_eq_ok.mp hrun
    obtain rfl := Except.ok.inj hret
    exact allocateSlots_allRegistered h halloc
  | allocate request args =>
    obtain ⟨⟨new, s₁⟩, halloc, hret⟩ := bind_eq_ok.mp hrun
    obtain rfl := Except.ok.inj hret
    exact allocateSlots_allRegistered h halloc
  | cacheBlocks request n =>
    simp only [runOp, cacheBlocks] at hrun
    split_ifs at hrun
    · exact coordinatorCacheBlocks_allRegistered h hrun
    · obtain rfl := Except.ok.inj hrun
      exact h
  | free requestId =>
    obtain rfl := Except.ok.inj hrun
    exact freeLoop_registered h
  | resetPrefixCache =>
    obtain rfl := Except.ok.inj hrun
    exact h

lemma ReachedBy.allRegistered {config : KVCacheConfig}
    {allowed : KVCacheManager → KVOp → Prop} (h : ReachedBy config allowed s) :
    s.AllRegistered := by
  refine Runs.Reached.invariant (I := AllRegistered) (fun s₀ hinit m hm _ id hid => ?_)
    (fun _ _ _ hr _ hrun => runOp_allRegistered hr hrun) h
  rw [SingleTypeManager.blocksOf, init_reqToBlocks hinit hm] at hid
  exact absurd rfl hid

lemma WellKept.spec_mem (h : s.WellKept) {m : SingleTypeManager}
    (hm : m ∈ s.singleTypeManagers) :
    m.kvCacheSpec ∈ s.config.kvCacheGroups ∧ 0 < m.blockSize := by
  have hshape : m.shape ∈ s.singleTypeManagers.map SingleTypeManager.shape :=
    List.mem_map_of_mem hm
  rw [h.shapes] at hshape
  obtain ⟨⟨spec, i⟩, hg, hinit⟩ := List.mem_map.mp hshape
  obtain ⟨hspec, hrest⟩ := Prod.mk.inj hinit
  obtain ⟨hsize, -⟩ := Prod.mk.inj hrest
  refine ⟨?_, ?_⟩
  · rw [← hspec]
    exact List.fst_mem_of_mem_zipIdx hg
  · rw [← hsize]
    have hpos := spec.blockSize_pos
    simp only [SingleTypeManager.init]
    split_ifs
    · have : 0 < s.config.dcpWorldSize := by omega
      positivity
    · exact_mod_cast hpos

lemma sameSpec_mem {specs : List KVCacheSpec} {spec spec' : KVCacheSpec}
    (h : sameSpec specs = .ok spec) (hmem : spec' ∈ specs) : spec' = spec := by
  cases specs with
  | nil => cases hmem
  | cons first rest =>
    obtain ⟨_, hall, hret⟩ := bind_eq_ok.mp h
    obtain rfl := Except.ok.inj hret
    rcases List.mem_cons.mp hmem with rfl | hmem
    · rfl
    · exact (pyAssert_eq_ok.mp hall spec' hmem).symm

/-- Cross attention has no prefix cache: its search raises, so hits that were found are
none. -/
lemma getComputedBlocks_cross {request : Request} {hits : List (List BlockId)} {length : Int}
    (h : s.WellKept) (hrun : s.getComputedBlocks request = .ok (hits, length))
    {m : SingleTypeManager} (hm : m ∈ s.singleTypeManagers) (hcross : m.kvCacheSpec.kind = .cross) :
    hits = s.createEmptyBlockList := by
  obtain ⟨hgroup, -⟩ := h.spec_mem hm
  have hcoord := h.coordinator
  unfold getComputedBlocks at hrun
  split_ifs at hrun with hskip
  · exact (Prod.mk.inj (Except.ok.inj hrun)).1.symm
  · unfold findLongestCacheHit at hrun
    unfold getKvCacheCoordinator at hcoord
    rw [if_neg fun hoff => hskip (Or.inl hoff)] at hcoord
    split at hcoord
    · rename_i spec hgroups
      rw [hgroups, List.mem_singleton] at hgroup
      rw [← Except.ok.inj hcoord] at hrun
      obtain ⟨found, hfound, -⟩ := bind_eq_ok.mp hrun
      simp only [SingleTypeManager.findLongestCacheHit, ← hgroup, hcross] at hfound
      cases hfound
    · obtain ⟨_, -, hcoord⟩ := bind_eq_ok.mp hcoord
      obtain ⟨g, hg, hcoord⟩ := bind_eq_ok.mp hcoord
      rw [← Except.ok.inj hcoord] at hrun
      obtain ⟨full, -, hg⟩ := bind_eq_ok.mp hg
      obtain ⟨other, hother, hg⟩ := bind_eq_ok.mp hg
      obtain ⟨_, -, hg⟩ := bind_eq_ok.mp hg
      obtain ⟨first, -, hg⟩ := bind_eq_ok.mp hg
      obtain rfl := Except.ok.inj hg
      have hspec : m.kvCacheSpec = other := by
        refine sameSpec_mem hother (List.mem_filter.mpr ⟨hgroup, ?_⟩)
        rw [hcross]
        rfl
      obtain ⟨hitFull, -, hrun⟩ := bind_eq_ok.mp hrun
      obtain ⟨hitOther, hfound, -⟩ := bind_eq_ok.mp hrun
      simp only [SingleTypeManager.findLongestCacheHit, ← hspec, hcross] at hfound
      cases hfound

/-- The hits the scheduler passes: none for a request that is known already, or those of
`get_computed_blocks` for a request that no group knows. -/
inductive PassedHits (s : KVCacheManager) (request : Request) : Option (List (List BlockId)) → Prop
  | known : PassedHits s request none
  | new {hits : List (List BlockId)} {length : Int}
      (h : s.getComputedBlocks request = .ok (hits, length))
      (hnew : ∀ m ∈ s.singleTypeManagers, request.requestId ∉ m.numCachedBlock.keys) :
      PassedHits s request (some hits)

lemma forall₂_of_length {β : Type} {R : SingleTypeManager → β → Prop} {bs : List β}
    (hlen : ms.length = bs.length) (h : ∀ m ∈ ms, ∀ b ∈ bs, R m b) : List.Forall₂ R ms bs := by
  induction ms generalizing bs with
  | nil =>
    obtain rfl := List.length_eq_zero_iff.mp hlen.symm
    exact .nil
  | cons m ms ih =>
    cases bs with
    | nil => simp at hlen
    | cons b bs =>
      exact .cons (h m (by simp) b (by simp)) (ih (by simpa using hlen)
        fun m' hm' b' hb' => h m' (by simp [hm']) b' (by simp [hb']))

lemma PassedHits.accepts {request : Request} {passed : Option (List (List BlockId))}
    (h : s.WellKept) (hp : s.PassedHits request passed) :
    List.Forall₂ (fun m c => m.AcceptsHits request.requestId c) s.singleTypeManagers
      (passed.getD s.createEmptyBlockList) := by
  have hempty : List.Forall₂ (fun m c => SingleTypeManager.AcceptsHits m request.requestId c)
      s.singleTypeManagers s.createEmptyBlockList := by
    refine forall₂_of_length ((goodHits_empty h).length.symm) fun m _ c hc => Or.inl ?_
    obtain ⟨-, -, rfl⟩ := List.mem_map.mp hc
    rfl
  cases hp with
  | known => exact hempty
  | new hrun hnew =>
    rename_i hits length
    by_cases hcross : ∃ m ∈ s.singleTypeManagers, m.kvCacheSpec.kind = .cross
    · obtain ⟨m, hm, hcross⟩ := hcross
      rw [Option.getD_some, getComputedBlocks_cross h hrun hm hcross]
      exact hempty
    · have hal := getComputedBlocks_aligned h.coordinator h.length hrun
      refine forall₂_of_length ?_ fun m hm c _ => Or.inr ⟨?_, hnew m hm⟩
      · rw [h.length, Option.getD_some, ← hal.length_eq, List.length_range]
      · exact fun hc => hcross ⟨m, hm, hc⟩

/-- The blocks of a group, with the hits, are no more than the call needs. -/
def Fits (requestId : String) (numTokens numEncoderTokens : Int) (m : SingleTypeManager)
    (hits : List BlockId) : Prop :=
  ((m.blocksOf requestId).length + hits.length : Int) ≤
    m.numRequiredBlocks (tokensFor m numTokens numEncoderTokens)

lemma noSurplus_iff_fits {hits : List (List BlockId)} (hr : ∀ m ∈ ms, m.Registered)
    (hlen : ms.length = hits.length)
    (hrun : saveNewComputedBlocks requestId ms hits = .ok ms') :
    NoSurplus requestId numTokens numEncoderTokens ms' ↔
      List.Forall₂ (Fits requestId numTokens numEncoderTokens) ms hits := by
  induction ms generalizing hits ms' with
  | nil =>
    obtain rfl := Except.ok.inj hrun
    obtain rfl := List.length_eq_zero_iff.mp hlen.symm
    simp [NoSurplus]
  | cons m ms ih =>
    cases hits with
    | nil => simp at hlen
    | cons c hits =>
      obtain ⟨m₁, hm, hrun⟩ := bind_eq_ok.mp hrun
      obtain ⟨ms₁, hms, hret⟩ := bind_eq_ok.mp hrun
      obtain rfl := Except.ok.inj hret
      have hih := ih (fun m' hm' => hr m' (by simp [hm'])) (by simpa using hlen) hms
      obtain ⟨hlen₁, hspec, -, -⟩ :=
        SingleTypeManager.saveNewComputedBlocks_spec (hr m (by simp)) hm
      have hkind : m₁.kvCacheSpec = m.kvCacheSpec := (Prod.mk.inj hspec).1
      have hone : 0 ≤ m₁.deficit requestId (tokensFor m₁ numTokens numEncoderTokens) ↔
          Fits requestId numTokens numEncoderTokens m c := by
        rw [SingleTypeManager.deficit, Fits, hlen₁, tokensFor, hkind, ← tokensFor,
          SingleTypeManager.numRequiredBlocks_sameSpec hspec]
        push_cast
        omega
      rw [NoSurplus, List.forall_mem_cons, List.forall₂_cons, ← hih, hone]
      rfl

/-- What the removal of skipped blocks leaves as it was. -/
def SameTables (m m' : SingleTypeManager) : Prop :=
  (∀ id, (m'.blocksOf id).length = (m.blocksOf id).length) ∧
    m'.numCachedBlock = m.numCachedBlock ∧ m.SameSpec m'

lemma forall₂_sameTables {R : SingleTypeManager → List BlockId → Prop}
    {hits : List (List BlockId)} (hR : ∀ m m' c, SameTables m m' → (R m c ↔ R m' c))
    (h : List.Forall₂ SameTables ms ms') :
    List.Forall₂ R ms hits ↔ List.Forall₂ R ms' hits := by
  induction h generalizing hits with
  | nil => rfl
  | cons hm _ ih =>
    cases hits with
    | nil => simp
    | cons c hits => rw [List.forall₂_cons, List.forall₂_cons, hR _ _ c hm, ih]

lemma fits_sameTables {m m' : SingleTypeManager} (h : SameTables m m') (c : List BlockId) :
    Fits requestId numTokens numEncoderTokens m c ↔
      Fits requestId numTokens numEncoderTokens m' c := by
  have hkind : m'.kvCacheSpec = m.kvCacheSpec := (Prod.mk.inj h.2.2).1
  rw [Fits, Fits, h.1, tokensFor, tokensFor, hkind,
    SingleTypeManager.numRequiredBlocks_sameSpec h.2.2]

lemma acceptsHits_sameTables {m m' : SingleTypeManager} (h : SameTables m m')
    (c : List BlockId) : m.AcceptsHits requestId c ↔ m'.AcceptsHits requestId c := by
  have hkind : m'.kvCacheSpec = m.kvCacheSpec := (Prod.mk.inj h.2.2).1
  rw [SingleTypeManager.AcceptsHits, SingleTypeManager.AcceptsHits, hkind, h.2.1]

lemma removeSkippedBlocks_sameTables {n : Int}
    (hrun : s.removeSkippedBlocks requestId n = .ok s') :
    List.Forall₂ SameTables s.singleTypeManagers s'.singleTypeManagers := by
  obtain ⟨⟨us, ms, p⟩, hloop, hret⟩ := bind_eq_ok.mp hrun
  obtain rfl := Except.ok.inj hret
  refine (forManagers_calls hloop).imp ?_
  rintro m m' ⟨q, u, q', hcall⟩
  exact SingleTypeManager.removeSkippedBlocks_spec (withUnit_eq_ok hcall)

/-- The number of blocks the check compares with the free ones, in the state after the
removal of skipped blocks. -/
def numBlocksToAllocate (s : KVCacheManager) (request : Request) (a : AllocArgs) : Int :=
  s.getNumBlocksToAllocate request.requestId (s.numTokensNeedSlot request a)
    (a.newComputedBlocks.getD s.createEmptyBlockList) a.numEncoderTokens

/-- The check is safe for a call: when it passes, the groups get their blocks, at most as
many as it counted, and cover the tokens; when it fails, nothing happens beyond the removal
of skipped blocks, which leads to `s₁`. -/
structure SafeCheck (s s₁ : KVCacheManager) (request : Request) (a : AllocArgs) : Prop where
  passes : s₁.numBlocksToAllocate request a ≤ s₁.blockPool.getNumFreeBlocks →
    ∃ newBlocks s₂, s₁.allocateGroups request a
        (a.newComputedBlocks.getD s₁.createEmptyBlockList) = .ok (newBlocks, s₂) ∧
      (s₁.blockPool.getNumFreeBlocks : Int) - s₂.blockPool.getNumFreeBlocks ≤
        s₁.numBlocksToAllocate request a ∧
      ∀ m ∈ s₂.singleTypeManagers, m.kvCacheSpec.kind ≠ .cross →
        s.numTokensNeedSlot request a ≤ (m.blocksOf request.requestId).length * m.blockSize
  fails : s₁.numBlocksToAllocate request a > s₁.blockPool.getNumFreeBlocks →
    s.allocateSlots request a = .ok (none, s₁)

/-- No group has more blocks, with its hits, than the call needs. -/
def NoGroupExceeds (s : KVCacheManager) (request : Request) (a : AllocArgs) : Prop :=
  List.Forall₂ (Fits request.requestId (s.numTokensNeedSlot request a) a.numEncoderTokens)
    s.singleTypeManagers (a.newComputedBlocks.getD s.createEmptyBlockList)

/-- The allocation after a passed check, from the hits being accepted. -/
lemma allocateGroups_iff {request : Request} {a : AllocArgs} {hits : List (List BlockId)}
    (h : s.WellKept) (hr : s.AllRegistered) (hhits : s.GoodHits hits)
    (haccept : List.Forall₂ (fun m c => m.AcceptsHits request.requestId c)
      s.singleTypeManagers hits)
    (hcheck : s.getNumBlocksToAllocate request.requestId (s.numTokensNeedSlot request a) hits
      a.numEncoderTokens ≤ s.blockPool.getNumFreeBlocks) :
    (∃ newBlocks s₂, s.allocateGroups request a hits = .ok (newBlocks, s₂) ∧
      (s.blockPool.getNumFreeBlocks : Int) - s₂.blockPool.getNumFreeBlocks ≤
        s.getNumBlocksToAllocate request.requestId (s.numTokensNeedSlot request a) hits
          a.numEncoderTokens ∧
      ∀ m ∈ s₂.singleTypeManagers, m.kvCacheSpec.kind ≠ .cross →
        s.numTokensNeedSlot request a ≤ (m.blocksOf request.requestId).length * m.blockSize) ↔
    List.Forall₂ (Fits request.requestId (s.numTokensNeedSlot request a) a.numEncoderTokens)
      s.singleTypeManagers hits := by
  set n := s.numTokensNeedSlot request a
  obtain ⟨ms, hsave⟩ := saveNewComputedBlocks_isOk hr haccept
  obtain ⟨pool, htouch, hfree⟩ : ∃ pool, s.touchHits hits = .ok pool ∧
      pool.getNumFreeBlocks + hits.flatten.countP (SingleTypeManager.isEvictable s.blockPool) =
        s.blockPool.getNumFreeBlocks := by
    unfold touchHits
    split_ifs with hcaching
    · exact BlockPool.foldlM_touchBlock_free h.accounted.pool hhits.inPool hhits.flat
    · have hnil : hits.flatten = [] := by
        rw [hhits.uncached (by simpa using hcaching)]
        simp [createEmptyBlockList]
      refine ⟨s.blockPool, bind_eq_ok.mpr ⟨(), pyAssert_eq_ok.mpr ?_, rfl⟩, ?_⟩
      · exact List.flatten_eq_nil_iff.mp hnil
      · rw [hnil]
        rfl
  have htouched := touchHits_accounted h hhits htouch
  obtain ⟨hheld, htables, hspec⟩ := saveNewComputedBlocks_heldBy hsave hhits.length.symm
    (fun _ hc => hhits.nodup hc) h.accounted.tables
  have hsaved : AllAccounted ms pool fun _ => 0 :=
    ⟨htouched.size, htouched.pool.congr fun b _ => (hheld b).symm, htables⟩
  have hcount : s.getNumBlocksToAllocate request.requestId n hits a.numEncoderTokens =
      totalDeficit request.requestId n a.numEncoderTokens ms +
        hits.flatten.countP (SingleTypeManager.isEvictable s.blockPool) :=
    sum_getNumBlocksToAllocate hr hhits.length.symm hsave
  rw [← noSurplus_iff_fits hr hhits.length.symm hsave, ← blocksTaken_le_totalDeficit_iff]
  constructor
  · rintro ⟨newBlocks, s₂, hrun, hdrop, -⟩
    obtain ⟨pool', htouch', hrun⟩ := bind_eq_ok.mp hrun
    obtain rfl := Except.ok.inj (htouch.symm.trans htouch')
    obtain ⟨ms', hsave', hrun⟩ := bind_eq_ok.mp hrun
    obtain rfl := Except.ok.inj (hsave.symm.trans hsave')
    obtain ⟨⟨new, ms₂, pool₂⟩, halloc, hret⟩ := bind_eq_ok.mp hrun
    obtain ⟨-, rfl⟩ := Prod.mk.inj (Except.ok.inj hret)
    have htaken : pool₂.getNumFreeBlocks + blocksTaken request.requestId n a.numEncoderTokens ms =
      pool.getNumFreeBlocks := allocateNewBlocks_taken hsaved halloc
    simp only at hdrop
    omega
  · intro hle
    have hfit : blocksTaken request.requestId n a.numEncoderTokens ms ≤ pool.getNumFreeBlocks := by
      omega
    obtain ⟨⟨new, ms₂, pool₂⟩, halloc⟩ := allocateNewBlocks_isOk hsaved hfit
    have htaken := allocateNewBlocks_taken hsaved halloc
    refine ⟨new, { s with blockPool := pool₂, singleTypeManagers := ms₂ },
      bind_eq_ok.mpr ⟨pool, htouch, bind_eq_ok.mpr ⟨ms, hsave,
        bind_eq_ok.mpr ⟨_, halloc, rfl⟩⟩⟩, ?_, ?_⟩
    · simp only
      omega
    · intro m hm hkind
      have hpos : ∀ m ∈ ms, 0 < m.blockSize := fun m hm =>
        ((h.update hsaved hspec).spec_mem hm).2
      have hcover := allocateNewBlocks_covers hsaved halloc hpos hm
      rwa [tokensFor, if_neg hkind] at hcover

/-- The check of `allocate_slots` is safe exactly when it fails or no group has more blocks
than the call needs. -/
theorem safeCheck_iff_noGroupExceeds (cfg : HashConfig) (hcfg : cfg.CollisionFree)
    (config : KVCacheConfig) (s s₁ : KVCacheManager)
    (hs : ReachedBy config (fun _ => HashesMade cfg) s) (request : Request) (a : AllocArgs)
    (hnew : a.numNewTokens ≠ 0) (hmade : MadeHashes cfg request.blockHashes)
    (hpassed : s.PassedHits request a.newComputedBlocks)
    (hremove : s.removeSkippedBlocks request.requestId request.numComputedTokens = .ok s₁) :
    SafeCheck s s₁ request a ↔
      (s₁.numBlocksToAllocate request a > s₁.blockPool.getNumFreeBlocks ∨
        s.NoGroupExceeds request a) := by
  have hw := ReachedBy.wellKept hcfg hs
  have hr : s.AllRegistered := ReachedBy.allRegistered hs
  obtain ⟨hw₁, hconfig, hkeep⟩ := removeSkippedBlocks_wellKept hw hremove
  have hr₁ := removeSkippedBlocks_allRegistered hr hremove
  have hsame := removeSkippedBlocks_sameTables hremove
  have htokens : s₁.numTokensNeedSlot request a = s.numTokensNeedSlot request a := by
    rw [numTokensNeedSlot, numTokensNeedSlot, hconfig]
  have hempty : s₁.createEmptyBlockList = s.createEmptyBlockList := by
    rw [createEmptyBlockList, createEmptyBlockList, hconfig]
  have hgood : s₁.GoodHits (a.newComputedBlocks.getD s₁.createEmptyBlockList) := by
    rw [hempty]
    refine hkeep _ ?_
    generalize a.newComputedBlocks = passed at hpassed
    cases hpassed with
    | known => exact goodHits_empty hw
    | new hrun _ => exact getComputedBlocks_goodHits hw (hmade.chained.nodup hcfg) hrun
  have haccept : List.Forall₂ (fun m c => m.AcceptsHits request.requestId c)
      s₁.singleTypeManagers (a.newComputedBlocks.getD s₁.createEmptyBlockList) := by
    rw [hempty]
    exact (forall₂_sameTables (fun _ _ c h => acceptsHits_sameTables h c) hsame).mp
      (hpassed.accepts hw)
  have hfits : s.NoGroupExceeds request a ↔
      List.Forall₂ (Fits request.requestId (s₁.numTokensNeedSlot request a) a.numEncoderTokens)
        s₁.singleTypeManagers (a.newComputedBlocks.getD s₁.createEmptyBlockList) := by
    rw [htokens, hempty]
    exact forall₂_sameTables (fun _ _ c h => fits_sameTables h c) hsame
  constructor
  · intro hsafe
    by_cases hcheck : s₁.numBlocksToAllocate request a ≤ s₁.blockPool.getNumFreeBlocks
    · right
      rw [hfits, ← allocateGroups_iff hw₁ hr₁ hgood haccept hcheck, htokens]
      have := hsafe.passes hcheck
      rw [numBlocksToAllocate, htokens] at this
      exact this
    · exact Or.inl (not_le.mp hcheck)
  · intro hcond
    refine ⟨fun hcheck => ?_, fun hcheck => ?_⟩
    · have hexceeds := hcond.resolve_left (not_lt.mpr hcheck)
      rw [hfits, ← allocateGroups_iff hw₁ hr₁ hgood haccept hcheck, htokens] at hexceeds
      rw [numBlocksToAllocate, htokens]
      exact hexceeds
    · unfold allocateSlots
      rw [if_neg hnew]
      refine bind_eq_ok.mpr ⟨s₁, hremove, ?_⟩
      rw [numBlocksToAllocate, hempty] at hcheck
      rw [if_pos hcheck]
      rfl

instance (requestId : String) (numTokens numEncoderTokens : Int) (m : SingleTypeManager)
    (hits : List BlockId) : Decidable (Fits requestId numTokens numEncoderTokens m hits) :=
  inferInstanceAs (Decidable ((_ : Int) ≤ _))

instance (s : KVCacheManager) (request : Request) (a : AllocArgs) :
    Decidable (s.NoGroupExceeds request a) :=
  inferInstanceAs (Decidable (List.Forall₂ _ _ _))

/-- The request that is left decodes one more token. -/
theorem safeCheck_tinyOps : ∃ s s₁,
    ReachedBy tinyConfig (fun _ => HashesMade (plainHashing 2)) s ∧
    s.removeSkippedBlocks "b" 3 = .ok s₁ ∧
    SafeCheck s s₁ (tinyRequest "b" 2 [7, 8, 1, 2] 3) { numNewTokens := 1 } := by
  have hview : (do
      let s ← afterOps tinyConfig tinyOps
      let _ ← s.removeSkippedBlocks "b" 3
      return decide (s.NoGroupExceeds (tinyRequest "b" 2 [7, 8, 1, 2] 3) { numNewTokens := 1 })) =
      (.ok true : Except PyError Bool) := by
    decide +kernel
  obtain ⟨s, hs, hview⟩ := bind_eq_ok.mp hview
  obtain ⟨s₁, hremove, hview⟩ := bind_eq_ok.mp hview
  have hexceeds := of_decide_eq_true (Except.ok.inj hview)
  have hreached : ReachedBy tinyConfig (fun _ => HashesMade (plainHashing 2)) s :=
    afterOps_reached (fun op hop _ => tinyOps_hashesMade op hop) hs
  exact ⟨s, s₁, hreached, hremove,
    (safeCheck_iff_noGroupExceeds (plainHashing 2) (plainHashing_collisionFree 2) tinyConfig s s₁
      hreached (tinyRequest "b" 2 [7, 8, 1, 2] 3) { numNewTokens := 1 } (by decide)
      (tinyRequest_made ..) .known hremove).mpr (Or.inr hexceeds)⟩

/-- Self and cross attention over four blocks, without a prefix cache. -/
def encoderDecoderConfig : KVCacheConfig :=
  { numBlocks := 4
    kvCacheGroups := [⟨1, .full, Nat.one_pos⟩, ⟨1, .cross, Nat.one_pos⟩]
    maxModelLen := 16
    enableCaching := false }

/-- One decoder token and two encoder tokens fill the pool. -/
def encoderDecoderOps : List KVOp :=
  [.start (tinyRequest "a" 1 [7] 0) { numNewTokens := 1, numEncoderTokens := 2 }]

/-- The next token of the running request needs a block. The two cross attention blocks
count as minus two, so the check passes with no block free, and the allocation raises. -/
theorem not_safeCheck_encoderDecoder : ∃ s s₁,
    ReachedBy encoderDecoderConfig (fun _ => HashesMade (plainHashing 1)) s ∧
    s.PassedHits (tinyRequest "a" 1 [7, 8] 1) none ∧
    s.removeSkippedBlocks "a" 1 = .ok s₁ ∧
    s₁.allocateGroups (tinyRequest "a" 1 [7, 8] 1) { numNewTokens := 1 }
      s₁.createEmptyBlockList =
        .error (.valueError "Cannot get 1 free blocks from the pool") ∧
    ¬ SafeCheck s s₁ (tinyRequest "a" 1 [7, 8] 1) { numNewTokens := 1 } := by
  have hview : (do
      let s ← afterOps encoderDecoderConfig encoderDecoderOps
      let s₁ ← s.removeSkippedBlocks "a" 1
      return (s₁.numBlocksToAllocate (tinyRequest "a" 1 [7, 8] 1) { numNewTokens := 1 },
        s₁.blockPool.getNumFreeBlocks,
        (s₁.allocateGroups (tinyRequest "a" 1 [7, 8] 1) { numNewTokens := 1 }
          s₁.createEmptyBlockList).map fun _ => ())) =
      (.ok (-1, 0, .error (.valueError "Cannot get 1 free blocks from the pool")) :
        Except PyError (Int × Nat × Except PyError Unit)) := by
    decide +kernel
  obtain ⟨s, hs, hview⟩ := bind_eq_ok.mp hview
  obtain ⟨s₁, hremove, hview⟩ := bind_eq_ok.mp hview
  obtain ⟨hcount, hrest⟩ := Prod.mk.inj (Except.ok.inj hview)
  obtain ⟨hfree, halloc⟩ := Prod.mk.inj hrest
  have hraise : s₁.allocateGroups (tinyRequest "a" 1 [7, 8] 1) { numNewTokens := 1 }
      s₁.createEmptyBlockList =
        .error (.valueError "Cannot get 1 free blocks from the pool") := by
    cases hcase : s₁.allocateGroups (tinyRequest "a" 1 [7, 8] 1) { numNewTokens := 1 }
        s₁.createEmptyBlockList with
    | error e =>
      rw [hcase] at halloc
      rw [Except.error.inj halloc]
    | ok r =>
      rw [hcase] at halloc
      cases halloc
  have hreached : ReachedBy encoderDecoderConfig (fun _ => HashesMade (plainHashing 1)) s := by
    refine afterOps_reached (fun op hop _ => ?_) hs
    obtain rfl := List.mem_singleton.mp hop
    exact tinyRequest_made ..
  refine ⟨s, s₁, hreached, .known, hremove, hraise, fun hsafe => ?_⟩
  have hpass : s₁.numBlocksToAllocate (tinyRequest "a" 1 [7, 8] 1) { numNewTokens := 1 } ≤
      s₁.blockPool.getNumFreeBlocks := by
    rw [hcount, hfree]
    decide
  obtain ⟨new, s₂, hrun, -⟩ := hsafe.passes hpass
  rw [Option.getD_none, hraise] at hrun
  cases hrun

end KVCacheManager

end VllmV1
