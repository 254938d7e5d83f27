import VllmMmaEmu.KvCache.Hits

/-!
# Block accounting

The reference count of a block is the number of its occurrences in the tables of all groups,
and the free queue has exactly the blocks that occur nowhere. An operation on one manager
keeps this whatever the other managers hold.
-/

namespace VllmV1

open Python RefCount

namespace SingleTypeManager

/-- All table entries, of all requests. -/
def heldBlocks (m : SingleTypeManager) : List BlockId := m.reqToBlocks.values.flatten

/-- The occurrences of a block in the tables. -/
def held (m : SingleTypeManager) (b : BlockId) : Nat := m.reqToBlocks.sumBy (List.count b)

/-- No table has a block twice, the null block apart. -/
def TablesNodup (m : SingleTypeManager) : Prop :=
  ∀ requestId, ((m.blocksOf requestId).filter (· ≠ 0)).Nodup

/-- The data that no operation changes. -/
def shape (m : SingleTypeManager) : KVCacheSpec × Int × Nat :=
  (m.kvCacheSpec, m.blockSize, m.kvCacheGroupId)

def SameSpec (m m' : SingleTypeManager) : Prop := m'.shape = m.shape

/-- The pool counts the tables of the manager and `extra` references of others. -/
structure Accounted (m : SingleTypeManager) (p : BlockPool) (extra : BlockId → Nat) : Prop where
  size : 0 < p.numGpuBlocks
  pool : p.Ok fun b => m.held b + extra b
  tables : m.TablesNodup

variable {m m' : SingleTypeManager} {p p' : BlockPool} {extra : BlockId → Nat}
  {requestId : String} {blocks : List BlockId}

lemma count_heldBlocks (m : SingleTypeManager) (b : BlockId) : m.heldBlocks.count b = m.held b := by
  rw [heldBlocks, List.count_flatten, Dict.values, List.map_map]
  rfl

lemma part_count (m : SingleTypeManager) (requestId : String) (b : BlockId) :
    m.reqToBlocks.part (List.count b) requestId = (m.blocksOf requestId).count b := by
  unfold Dict.part blocksOf
  cases m.reqToBlocks.get? requestId <;> simp

lemma held_setBlocks (m : SingleTypeManager) (requestId : String) (blocks : List BlockId)
    (b : BlockId) :
    (m.setBlocks requestId blocks).held b + (m.blocksOf requestId).count b =
      m.held b + blocks.count b := by
  rw [← part_count]
  exact m.reqToBlocks.sumBy_set (List.count b) requestId blocks

lemma held_erase (m : SingleTypeManager) (requestId : String) (b : BlockId) :
    Dict.sumBy (List.count b) (m.reqToBlocks.erase requestId) + (m.blocksOf requestId).count b =
      m.held b := by
  rw [← part_count]
  exact m.reqToBlocks.sumBy_erase (List.count b) requestId

lemma blocksOf_setBlocks (id : String) :
    (m.setBlocks requestId blocks).blocksOf id =
      if requestId = id then blocks else m.blocksOf id := by
  unfold setBlocks blocksOf
  rw [Dict.get?_set]
  split_ifs <;> rfl

lemma TablesNodup.setBlocks (h : m.TablesNodup) (hb : (blocks.filter (· ≠ 0)).Nodup) :
    (m.setBlocks requestId blocks).TablesNodup := by
  intro id
  rw [blocksOf_setBlocks]
  split_ifs
  · exact hb
  · exact h id

lemma count_blocksOf_le (m : SingleTypeManager) (requestId : String) (b : BlockId) :
    (m.blocksOf requestId).count b ≤ m.held b := by
  have := held_erase m requestId b
  omega

lemma Accounted.inPool (h : Accounted m p extra) {b : BlockId} (hb : b ∈ m.blocksOf requestId) :
    b < p.numGpuBlocks := by
  by_contra hge
  have hne : b ≠ 0 := by
    rintro rfl
    exact hge h.size
  have hout := h.pool.counted.outside b hne (not_lt.mp hge)
  have hpos := List.count_pos_iff.mpr hb
  have hle := m.count_blocksOf_le requestId b
  omega

lemma allocateNewBlocks_accounted {numTokens : Int} {new : List BlockId}
    (h : Accounted m p extra)
    (hrun : m.allocateNewBlocks p requestId numTokens = .ok (new, m', p')) :
    Accounted m' p' extra ∧ p.SameConfig p' ∧ m.SameSpec m' := by
  simp only [allocateNewBlocks] at hrun
  split_ifs at hrun
  · obtain ⟨-, hm, hp⟩ : [] = new ∧ m = m' ∧ p = p' := by simpa using hrun
    subst hm hp
    exact ⟨h, ⟨rfl, rfl, rfl⟩, rfl⟩
  · obtain ⟨⟨fresh, q⟩, hget, hret⟩ := bind_eq_ok.mp hrun
    obtain ⟨rfl, rfl, rfl⟩ : fresh = new ∧
        m.setBlocks requestId (m.blocksOf requestId ++ fresh) = m' ∧ q = p' := by
      simpa using hret
    obtain ⟨hok, hconf, hnodup, hfresh, -, -⟩ := BlockPool.getNewBlocks_ok h.pool hget
    refine ⟨⟨hconf.1 ▸ h.size, hok.congr fun b _ => ?_, h.tables.setBlocks ?_⟩, hconf, rfl⟩
    · have := held_setBlocks m requestId (m.blocksOf requestId ++ fresh) b
      rw [List.count_append] at this
      omega
    · -- new blocks were free, so no table has them
      rw [List.filter_append, List.nodup_append']
      refine ⟨h.tables requestId, hnodup.filter _, ?_⟩
      intro b hold hnew
      have hzero := (hfresh b (List.mem_of_mem_filter hnew)).2
      have hpos := List.count_pos_iff.mpr (List.mem_of_mem_filter hold)
      have hle := m.count_blocksOf_le requestId b
      omega

lemma cacheBlocks_accounted {request : Request} {numTokens : Int} (h : Accounted m p extra)
    (hrun : m.cacheBlocks p request numTokens = .ok (m', p')) :
    Accounted m' p' extra ∧ p.SameConfig p' ∧ m.SameSpec m' := by
  have hcase : ∃ numCached numFull, p.cacheFullBlocks request (m.blocksOf request.requestId)
        numCached numFull m.blockSize m.kvCacheGroupId = .ok p' ∧
      m' = { m with numCachedBlock := m.numCachedBlock.set request.requestId numFull } := by
    unfold cacheBlocks at hrun
    split at hrun
    · cases hrun
    · split at hrun
      · cases hrun
      · rename_i numCached _
        obtain ⟨q, hq, hret⟩ := bind_eq_ok.mp hrun
        obtain ⟨rfl, rfl⟩ := Prod.mk.inj (Except.ok.inj hret)
        exact ⟨numCached, _, hq, rfl⟩
  obtain ⟨numCached, numFull, hfull, rfl⟩ := hcase
  obtain ⟨hmap, hsame⟩ := BlockPool.cacheFullBlocks_ok h.pool.toMapOk
    (fun b hb => h.inPool hb) hfull
  exact ⟨⟨hsame.config.1 ▸ h.size, h.pool.of_sameCounts hsame hmap, h.tables⟩, hsame.config, rfl⟩

lemma free_accounted (requestId : String) (h : Accounted m p extra) :
    Accounted (m.free p requestId).1 (m.free p requestId).2 extra ∧
      p.SameConfig (m.free p requestId).2 ∧ m.SameSpec (m.free p requestId).1 := by
  have hpool : p.Ok fun b => (Dict.sumBy (List.count b) (m.reqToBlocks.erase requestId) + extra b) +
      (m.blocksOf requestId).reverse.count b := by
    refine h.pool.congr fun b _ => ?_
    have := held_erase m requestId b
    rw [List.count_reverse]
    omega
  have hnodup : ((m.blocksOf requestId).reverse.filter (· ≠ 0)).Nodup := by
    rw [List.filter_reverse, List.nodup_reverse]
    exact h.tables requestId
  obtain ⟨hok, hconf⟩ := BlockPool.freeBlocks_ok hpool hnodup
  refine ⟨⟨hconf.1 ▸ h.size, hok, fun id => ?_⟩, hconf, rfl⟩
  unfold free blocksOf
  rw [Dict.get?_erase]
  split_ifs
  · exact List.nodup_nil
  · exact h.tables id

/-- What the loop takes out of the table: every occurrence is either kept or returned. -/
lemma removeLoop_count {i : Nat} {blocks' removed : List BlockId}
    (h : removeLoop blocks i = .ok (blocks', removed)) {b : BlockId} (hb : b ≠ 0) :
    blocks.count b = blocks'.count b + removed.count b := by
  induction i generalizing blocks removed with
  | zero =>
    obtain ⟨rfl, rfl⟩ := Prod.mk.inj (Except.ok.inj h)
    simp
  | succ i ih =>
    unfold removeLoop at h
    split at h
    · cases h
    · rename_i c hc
      split_ifs at h with hnull
      · obtain ⟨rfl, rfl⟩ := Prod.mk.inj (Except.ok.inj h)
        simp
      · obtain ⟨⟨rest, removed'⟩, hrest, hret⟩ := bind_eq_ok.mp h
        obtain ⟨rfl, rfl⟩ := Prod.mk.inj (Except.ok.inj hret)
        have hih := ih hrest
        obtain ⟨hlt, hget⟩ := List.getElem?_eq_some_iff.mp hc
        have hset := List.count_set (a := nullBlock) (b := b) hlt
        have hnull' : (nullBlock == b) = false := by simpa [nullBlock] using Ne.symm hb
        rw [hget, hnull', if_neg Bool.false_ne_true] at hset
        rw [List.count_cons]
        by_cases heq : c = b
        · subst heq
          have hpos := List.count_pos_iff.mpr (List.mem_of_getElem? hc)
          rw [BEq.rfl, if_pos rfl] at hset ⊢
          omega
        · have hne : ¬ (c == b) = true := by simpa using heq
          rw [if_neg hne] at hset ⊢
          omega

lemma removeLoop_nodup {i : Nat} {blocks' removed : List BlockId}
    (h : removeLoop blocks i = .ok (blocks', removed))
    (hn : (blocks.filter (· ≠ 0)).Nodup) :
    (blocks'.filter (· ≠ 0)).Nodup ∧ (removed.filter (· ≠ 0)).Nodup := by
  have hcount : ∀ b, (blocks'.filter (· ≠ 0)).count b + (removed.filter (· ≠ 0)).count b ≤ 1 := by
    intro b
    by_cases hb : b = 0
    · subst hb
      have : ∀ l : List BlockId, (l.filter (· ≠ 0)).count 0 = 0 := by simp [List.count_eq_zero]
      rw [this, this]
      exact Nat.zero_le 1
    · have hfilter : ∀ l : List BlockId, (l.filter (· ≠ 0)).count b = l.count b :=
        fun l => List.count_filter (by simp [hb])
      have := List.nodup_iff_count_le_one.mp hn b
      rw [hfilter] at this
      rw [hfilter, hfilter, ← removeLoop_count h hb]
      exact this
  constructor
  · exact List.nodup_iff_count_le_one.mpr fun b => le_trans (Nat.le_add_right _ _) (hcount b)
  · exact List.nodup_iff_count_le_one.mpr fun b => le_trans (Nat.le_add_left _ _) (hcount b)

lemma removeSkippedBlocks_accounted {numComputedTokens : Int} (h : Accounted m p extra)
    (hrun : m.removeSkippedBlocks p requestId numComputedTokens = .ok (m', p')) :
    Accounted m' p' extra ∧ p.SameConfig p' ∧ m.SameSpec m' := by
  obtain ⟨⟨blocks, removed⟩, hloop, hret⟩ := bind_eq_ok.mp hrun
  obtain ⟨rfl, rfl⟩ := Prod.mk.inj (Except.ok.inj hret)
  obtain ⟨hblocks, hremoved⟩ := removeLoop_nodup hloop (h.tables requestId)
  have hpool : p.Ok fun b => ((m.setBlocks requestId blocks).held b + extra b) +
      removed.count b := by
    refine h.pool.congr fun b hb => ?_
    have hset := held_setBlocks m requestId blocks b
    have hcount := removeLoop_count hloop hb
    omega
  obtain ⟨hok, hconf⟩ := BlockPool.freeBlocks_ok hpool hremoved
  exact ⟨⟨hconf.1 ▸ h.size, hok, h.tables.setBlocks hblocks⟩, hconf, rfl⟩

lemma saveNewComputedBlocks_cases {hits : List BlockId}
    (hrun : m.saveNewComputedBlocks requestId hits = .ok m') :
    (hits = [] ∧ m' = m) ∨ (m.blocksOf requestId = [] ∧
      m' = { m.setBlocks requestId hits with
        numCachedBlock := m.numCachedBlock.set requestId hits.length }) := by
  unfold saveNewComputedBlocks at hrun
  split at hrun
  · obtain ⟨_, hlen, hret⟩ := bind_eq_ok.mp hrun
    exact Or.inl ⟨List.length_eq_zero_iff.mp (pyAssert_eq_ok.mp hlen), (Except.ok.inj hret).symm⟩
  · split_ifs at hrun
    · obtain ⟨_, hlen, hret⟩ := bind_eq_ok.mp hrun
      exact Or.inl ⟨List.length_eq_zero_iff.mp (pyAssert_eq_ok.mp hlen), (Except.ok.inj hret).symm⟩
    · obtain ⟨_, hlen, hret⟩ := bind_eq_ok.mp hrun
      have hnil := List.length_eq_zero_iff.mp (pyAssert_eq_ok.mp hlen)
      refine Or.inr ⟨hnil, ?_⟩
      rw [← Except.ok.inj hret, hnil, List.nil_append]

/-- The hits, which were touched before, move into the table. -/
lemma saveNewComputedBlocks_held {hits : List BlockId}
    (hrun : m.saveNewComputedBlocks requestId hits = .ok m') (hn : (hits.filter (· ≠ 0)).Nodup)
    (ht : m.TablesNodup) :
    (∀ b, m'.held b = m.held b + hits.count b) ∧ m'.TablesNodup ∧ m.SameSpec m' := by
  rcases saveNewComputedBlocks_cases hrun with ⟨rfl, rfl⟩ | ⟨hnil, rfl⟩
  · exact ⟨fun b => by simp, ht, rfl⟩
  · refine ⟨fun b => ?_, ?_, rfl⟩
    · have := held_setBlocks m requestId hits b
      rwa [hnil, List.count_nil, Nat.add_zero] at this
    · exact ht.setBlocks hn

end SingleTypeManager

namespace KVCacheManager

/-- The occurrences of a block in the tables of all managers. -/
def heldBy (ms : List SingleTypeManager) (b : BlockId) : Nat := (ms.map fun m => m.held b).sum

/-- The pool counts the tables of all managers and `extra` references. -/
structure AllAccounted (ms : List SingleTypeManager) (p : BlockPool) (extra : BlockId → Nat) :
    Prop where
  size : 0 < p.numGpuBlocks
  pool : p.Ok fun b => heldBy ms b + extra b
  tables : ∀ m ∈ ms, m.TablesNodup

variable {m : SingleTypeManager} {ms ms' : List SingleTypeManager} {p p' : BlockPool}
  {extra : BlockId → Nat} {α : Type} {requestId : String}

/-- The first manager, for which the others are among the rest. -/
lemma allAccounted_cons : AllAccounted (m :: ms) p extra ↔
    m.Accounted p (fun b => heldBy ms b + extra b) ∧ ∀ m' ∈ ms, m'.TablesNodup := by
  have hsum : ∀ b, heldBy (m :: ms) b + extra b = m.held b + (heldBy ms b + extra b) := by
    intro b
    simp only [heldBy, List.map_cons, List.sum_cons]
    omega
  constructor
  · rintro ⟨hsize, hpool, htables⟩
    exact ⟨⟨hsize, hpool.congr fun b _ => hsum b, htables m (by simp)⟩,
      fun m' hm' => htables m' (by simp [hm'])⟩
  · rintro ⟨⟨hsize, hpool, hm⟩, htables⟩
    exact ⟨hsize, hpool.congr fun b _ => (hsum b).symm, List.forall_mem_cons.mpr ⟨hm, htables⟩⟩

/-- The managers behind the first, for which the first is among the rest. -/
lemma allAccounted_tail (hm : m.TablesNodup) :
    AllAccounted (m :: ms) p extra ↔ AllAccounted ms p fun b => m.held b + extra b := by
  have hsum : ∀ b, heldBy (m :: ms) b + extra b = heldBy ms b + (m.held b + extra b) := by
    intro b
    simp only [heldBy, List.map_cons, List.sum_cons]
    omega
  constructor
  · rintro ⟨hsize, hpool, htables⟩
    exact ⟨hsize, hpool.congr fun b _ => hsum b, fun m' hm' => htables m' (by simp [hm'])⟩
  · rintro ⟨hsize, hpool, htables⟩
    exact ⟨hsize, hpool.congr fun b _ => (hsum b).symm, List.forall_mem_cons.mpr ⟨hm, htables⟩⟩

/-- What each call keeps, the loop over the managers keeps. -/
lemma forManagers_accounted {f : SingleTypeManager → BlockPool →
      Except PyError (α × SingleTypeManager × BlockPool)} {as : List α}
    (hf : ∀ m p a m' p' extra, m.Accounted p extra → f m p = .ok (a, m', p') →
      m'.Accounted p' extra ∧ p.SameConfig p' ∧ m.SameSpec m')
    (h : AllAccounted ms p extra) (hrun : forManagers f ms p = .ok (as, ms', p')) :
    AllAccounted ms' p' extra ∧ p.SameConfig p' ∧
      List.Forall₂ SingleTypeManager.SameSpec ms ms' := by
  induction ms generalizing p extra as ms' p' with
  | nil =>
    obtain ⟨-, rfl, rfl⟩ : [] = as ∧ [] = ms' ∧ p = p' := by simpa [forManagers] using hrun
    exact ⟨h, ⟨rfl, rfl, rfl⟩, .nil⟩
  | cons m ms ih =>
    obtain ⟨⟨a, m₁, p₁⟩, hm, hrun⟩ := bind_eq_ok.mp hrun
    obtain ⟨⟨as', ms₁, p₂⟩, hms, hret⟩ := bind_eq_ok.mp hrun
    obtain ⟨-, rfl, rfl⟩ : a :: as' = as ∧ m₁ :: ms₁ = ms' ∧ p₂ = p' := by simpa using hret
    obtain ⟨hacc, htables⟩ := allAccounted_cons.mp h
    obtain ⟨hacc₁, hconf₁, hspec₁⟩ := hf m p a m₁ p₁ _ hacc hm
    have hall₁ : AllAccounted (m₁ :: ms) p₁ extra := allAccounted_cons.mpr ⟨hacc₁, htables⟩
    obtain ⟨hall, hconf, hspec⟩ := ih ((allAccounted_tail hacc₁.tables).mp hall₁) hms
    exact ⟨(allAccounted_tail hacc₁.tables).mpr hall, ⟨hconf.1.trans hconf₁.1,
      hconf.2.1.trans hconf₁.2.1, hconf.2.2.trans hconf₁.2.2⟩, .cons hspec₁ hspec⟩

lemma withUnit_eq_ok {x : Except PyError (SingleTypeManager × BlockPool)} {u : Unit}
    (h : withUnit x = .ok (u, m, p)) : x = .ok (m, p) := by
  obtain ⟨⟨m', p'⟩, hx, hret⟩ := bind_eq_ok.mp h
  obtain ⟨rfl, rfl⟩ : m' = m ∧ p' = p := by simpa using hret
  exact hx

lemma freeLoop_accounted (requestId : String) (h : AllAccounted ms p extra) :
    AllAccounted (freeLoop requestId ms p).1 (freeLoop requestId ms p).2 extra ∧
      p.SameConfig (freeLoop requestId ms p).2 ∧
      List.Forall₂ SingleTypeManager.SameSpec ms (freeLoop requestId ms p).1 := by
  induction ms generalizing p extra with
  | nil => exact ⟨h, ⟨rfl, rfl, rfl⟩, .nil⟩
  | cons m ms ih =>
    obtain ⟨hacc, htables⟩ := allAccounted_cons.mp h
    obtain ⟨hacc₁, hconf₁, hspec₁⟩ := SingleTypeManager.free_accounted requestId hacc
    have hall₁ := allAccounted_cons.mpr ⟨hacc₁, htables⟩
    obtain ⟨hall, hconf, hspec⟩ := ih ((allAccounted_tail hacc₁.tables).mp hall₁)
    exact ⟨(allAccounted_tail hacc₁.tables).mpr hall, ⟨hconf.1.trans hconf₁.1,
      hconf.2.1.trans hconf₁.2.1, hconf.2.2.trans hconf₁.2.2⟩, .cons hspec₁ hspec⟩

lemma saveNewComputedBlocks_heldBy {hits : List (List BlockId)}
    (hrun : saveNewComputedBlocks requestId ms hits = .ok ms') (hlen : ms.length = hits.length)
    (hn : ∀ c ∈ hits, (c.filter (· ≠ 0)).Nodup) (ht : ∀ m ∈ ms, m.TablesNodup) :
    (∀ b, heldBy ms' b = heldBy ms b + hits.flatten.count b) ∧ (∀ m ∈ ms', m.TablesNodup) ∧
      List.Forall₂ SingleTypeManager.SameSpec ms ms' := by
  induction ms generalizing hits ms' with
  | nil =>
    obtain rfl := Except.ok.inj hrun
    obtain rfl := List.length_eq_zero_iff.mp hlen.symm
    exact ⟨fun _ => rfl, by simp, .nil⟩
  | cons m ms ih =>
    cases hits with
    | nil => simp at hlen
    | cons c hits =>
      obtain ⟨m₁, hm, hrun⟩ := bind_eq_ok.mp hrun
      obtain ⟨ms₁, hms, hret⟩ := bind_eq_ok.mp hrun
      obtain rfl := Except.ok.inj hret
      obtain ⟨hheld₁, ht₁, hspec₁⟩ :=
        SingleTypeManager.saveNewComputedBlocks_held hm (hn c (by simp)) (ht m (by simp))
      obtain ⟨hheld, ht', hspec⟩ := ih hms (by simpa using hlen)
        (fun c' hc' => hn c' (by simp [hc'])) (fun m' hm' => ht m' (by simp [hm']))
      refine ⟨fun b => ?_, List.forall_mem_cons.mpr ⟨ht₁, ht'⟩, .cons hspec₁ hspec⟩
      have h₁ := hheld₁ b
      have h₂ := hheld b
      simp only [heldBy, List.map_cons, List.sum_cons, List.flatten_cons, List.count_append] at h₂ ⊢
      omega

lemma forManagers_single {f : SingleTypeManager → BlockPool →
      Except PyError (α × SingleTypeManager × BlockPool)} {as : List α}
    (hrun : forManagers f [m] p = .ok (as, ms', p')) :
    ∃ x m', as = [x] ∧ ms' = [m'] ∧ f m p = .ok (x, m', p') := by
  obtain ⟨⟨x, m₁, p₁⟩, hm, hrun⟩ := bind_eq_ok.mp hrun
  obtain ⟨rfl, rfl, rfl⟩ : [x] = as ∧ [m₁] = ms' ∧ p₁ = p' := by simpa [forManagers] using hrun
  exact ⟨x, m₁, rfl, rfl, hm⟩

lemma saveNewComputedBlocks_single {hits : List (List BlockId)}
    (hrun : saveNewComputedBlocks requestId [m] hits = .ok ms') :
    ∃ c rest m', hits = c :: rest ∧ ms' = [m'] ∧
      m.saveNewComputedBlocks requestId c = .ok m' := by
  cases hits with
  | nil => cases hrun
  | cons c rest =>
    obtain ⟨m', hm, hret⟩ := bind_eq_ok.mp hrun
    obtain rfl := Except.ok.inj hret
    exact ⟨c, rest, m', rfl, rfl, hm⟩

variable {s s' : KVCacheManager} {request : Request}

lemma removeSkippedBlocks_single {n : Int} (hm : s.singleTypeManagers = [m])
    (hrun : s.removeSkippedBlocks requestId n = .ok s') :
    ∃ m', m.removeSkippedBlocks s.blockPool requestId n = .ok (m', s'.blockPool) ∧
      s'.singleTypeManagers = [m'] := by
  obtain ⟨⟨us, ms, p⟩, hloop, hret⟩ := bind_eq_ok.mp hrun
  obtain rfl := Except.ok.inj hret
  rw [hm] at hloop
  obtain ⟨u, m', -, rfl, hcall⟩ := forManagers_single hloop
  exact ⟨m', withUnit_eq_ok hcall, rfl⟩

lemma coordinatorCacheBlocks_single {n : Int} (hm : s.singleTypeManagers = [m])
    (hrun : s.coordinatorCacheBlocks request n = .ok s') :
    ∃ m', m.cacheBlocks s.blockPool request n = .ok (m', s'.blockPool) ∧
      s'.singleTypeManagers = [m'] ∧ s'.config = s.config := by
  obtain ⟨⟨us, ms, p⟩, hloop, hret⟩ := bind_eq_ok.mp hrun
  obtain rfl := Except.ok.inj hret
  rw [hm] at hloop
  obtain ⟨u, m', -, rfl, hcall⟩ := forManagers_single hloop
  exact ⟨m', withUnit_eq_ok hcall, rfl, rfl⟩

end KVCacheManager

end VllmV1
