import VllmMmaEmu.KvCache.PrefixCache

/-!
# What an operation does to one table

The operations of the manager as steps of the table of one request in one group: skipped
blocks become null, hits and new blocks are appended, other requests leave the table alone,
and a block that stays in a table keeps its hash.
-/

namespace VllmV1

open Python

namespace BlockPool

variable {p p' : BlockPool} {held : BlockId → Nat} {b : BlockId} {k : BlockHashWithGroupId}

/-- No hash is lost. -/
def HashesKept (p p' : BlockPool) : Prop :=
  ∀ b k, p.blockHash b = some k → p'.blockHash b = some k

lemma HashesKept.of_eq (h : p'.blockHash = p.blockHash) : HashesKept p p' := by
  intro b k hk
  rw [h, hk]

lemma maybeEvictCachedBlock_other {c : BlockId} (hc : c ≠ b) :
    (p.maybeEvictCachedBlock b).blockHash c = p.blockHash c := by
  unfold maybeEvictCachedBlock
  split
  · rfl
  · simp only
    split_ifs
    · exact if_neg hc
    · exact if_neg hc
    · rfl

lemma takeBlocks_other {blocks : List BlockId} {c : BlockId} (hc : c ∉ blocks)
    (hrun : takeBlocks p blocks = .ok p') : p'.blockHash c = p.blockHash c := by
  induction blocks generalizing p with
  | nil =>
    obtain rfl := Except.ok.inj hrun
    rfl
  | cons b blocks ih =>
    rw [List.mem_cons, not_or] at hc
    obtain ⟨hne, hrest⟩ := hc
    obtain ⟨_, -, htail⟩ := bind_eq_ok.mp hrun
    rw [ih hrest htail]
    show (if p.enableCaching then p.maybeEvictCachedBlock b else p).blockHash c = _
    split_ifs
    · exact maybeEvictCachedBlock_other hne
    · rfl

lemma getNewBlocks_held {n : Int} {blocks : List BlockId} (h : p.Ok held) (hb : held b ≠ 0)
    (hrun : p.getNewBlocks n = .ok (blocks, p')) : p'.blockHash b = p.blockHash b := by
  obtain ⟨-, -, -, hfresh, -, -⟩ := getNewBlocks_ok h hrun
  have hnot : b ∉ blocks := fun hmem => hb (hfresh b hmem).2
  unfold getNewBlocks at hrun
  split_ifs at hrun
  obtain ⟨q, htake, hret⟩ := bind_eq_ok.mp hrun
  obtain ⟨rfl, rfl⟩ := Prod.mk.inj (Except.ok.inj hret)
  exact takeBlocks_other (p := { p with freeBlockQueue := p.freeBlockQueue.drop n.toNat })
    hnot htake

lemma cacheBlocksLoop_kept {g : Nat} {blocks : List BlockId} {hashes : List BlockHash}
    (hrun : cacheBlocksLoop g p blocks hashes = .ok p') : HashesKept p p' := by
  induction blocks generalizing p hashes with
  | nil =>
    obtain rfl := Except.ok.inj hrun
    exact .of_eq rfl
  | cons b blocks ih =>
    cases hashes with
    | nil => simp [cacheBlocksLoop] at hrun
    | cons hash hashes =>
      obtain ⟨_, hnone, htail⟩ := bind_eq_ok.mp hrun
      rw [pyAssert_eq_ok] at hnone
      intro c k hk
      refine ih htail c k ?_
      have hne : c ≠ b := by
        rintro rfl
        rw [hnone] at hk
        cases hk
      exact (if_neg hne).trans hk

lemma cacheFullBlocks_kept {request : Request} {blocks : List BlockId}
    {numCached numFull blockSize : Int} {g : Nat}
    (hrun : p.cacheFullBlocks request blocks numCached numFull blockSize g = .ok p') :
    HashesKept p p' := by
  rcases cacheFullBlocks_cases hrun with ⟨-, rfl⟩ | ⟨-, -, q, hloop, hevents⟩
  · exact .of_eq rfl
  · have hq := cacheBlocksLoop_kept hloop
    rcases hevents with ⟨-, rfl⟩ | ⟨-, parent, -, rfl⟩
    · exact hq
    · exact hq

lemma resetPrefixCache_held (h : p.Ok held) (hsize : 0 < p.numGpuBlocks) (hb : b ≠ nullBlock)
    (hheld : held b ≠ 0) : p.resetPrefixCache.2.blockHash = p.blockHash := by
  have htotal := h.counted.total hsize
  have hlt : b < p.numGpuBlocks := by
    by_contra hge
    exact hheld (h.counted.outside b hb (not_lt.mp hge))
  have hmem : b ∈ RefCount.heldSlots p.numGpuBlocks held := by
    rw [RefCount.heldSlots, List.mem_filter, List.mem_range, decide_eq_true_eq]
    exact ⟨hlt, hb, hheld⟩
  have hlen := List.length_pos_of_mem hmem
  rw [resetPrefixCache, if_pos (by unfold getNumFreeBlocks; omega)]

end BlockPool

/-- The table of a request after some of the blocks it was given, all before `useful`, have
been replaced by the null block. -/
structure Masked (useful : Int) (given table : List BlockId) : Prop where
  length : table.length = given.length
  kept : ∀ (j : Nat) (b : BlockId), given[j]? = some b →
    table[j]? = some b ∨ table[j]? = some nullBlock ∧ (j : Int) < useful

lemma Masked.refl (useful : Int) (given : List BlockId) : Masked useful given given :=
  ⟨rfl, fun _ _ h => .inl h⟩

lemma Masked.mono {useful useful' : Int} {given table : List BlockId}
    (h : Masked useful given table) (hle : useful ≤ useful') : Masked useful' given table where
  length := h.length
  kept j b hj := (h.kept j b hj).imp_right fun ⟨hnull, hlt⟩ => ⟨hnull, hlt.trans_le hle⟩

lemma Masked.trans {useful : Int} {given table table' : List BlockId}
    (h : Masked useful given table) (h' : Masked useful table table') :
    Masked useful given table' where
  length := h'.length.trans h.length
  kept j b hj := by
    rcases h.kept j b hj with hb | ⟨hnull, hlt⟩
    · exact h'.kept j b hb
    · rcases h'.kept j _ hnull with hnull' | ⟨hnull', -⟩
      · exact .inr ⟨hnull', hlt⟩
      · exact .inr ⟨hnull', hlt⟩

lemma Masked.append {useful : Int} {given table : List BlockId} (h : Masked useful given table)
    (more : List BlockId) : Masked useful (given ++ more) (table ++ more) where
  length := by rw [List.length_append, List.length_append, h.length]
  kept j b hj := by
    by_cases hlt : j < given.length
    · rw [List.getElem?_append_left hlt] at hj
      rw [List.getElem?_append_left (by rwa [h.length])]
      exact h.kept j b hj
    · rw [List.getElem?_append_right (not_lt.mp hlt)] at hj
      rw [List.getElem?_append_right (by rw [h.length]; exact not_lt.mp hlt), h.length]
      exact .inl hj

lemma Masked.useful {useful : Int} {given table : List BlockId} (h : Masked useful given table)
    {j : Nat} (hj : j < table.length) (hle : useful ≤ j) : table[j]? = given[j]? := by
  rw [h.length] at hj
  have hgiven := List.getElem?_eq_getElem hj
  rcases h.kept j _ hgiven with hsame | ⟨-, hlt⟩
  · rw [hsame, hgiven]
  · omega

lemma Masked.of_ne_null {useful : Int} {given table : List BlockId}
    (h : Masked useful given table) {j : Nat} {b : BlockId} (hb : table[j]? = some b)
    (hnull : b ≠ nullBlock) : given[j]? = some b := by
  have hlt := (List.getElem?_eq_some_iff.mp hb).1
  rw [h.length] at hlt
  have hgiven := List.getElem?_eq_getElem hlt
  rcases h.kept j _ hgiven with hsame | ⟨hnone, -⟩
  · rw [hgiven, ← hsame, hb]
  · exact absurd (Option.some.inj (hb.symm.trans hnone)) hnull

namespace SingleTypeManager

variable {m m' : SingleTypeManager} {p p' : BlockPool} {extra : BlockId → Nat}
  {requestId id : String} {b : BlockId}

lemma removeLoop_masked {i : Nat} {blocks blocks' removed : List BlockId}
    (h : removeLoop blocks i = .ok (blocks', removed)) : Masked i blocks blocks' := by
  induction i generalizing blocks removed with
  | zero =>
    obtain ⟨rfl, -⟩ := Prod.mk.inj (Except.ok.inj h)
    exact .refl _ _
  | succ i ih =>
    unfold removeLoop at h
    split at h
    · cases h
    · split_ifs at h
      · obtain ⟨rfl, -⟩ := Prod.mk.inj (Except.ok.inj h)
        exact .refl _ _
      · obtain ⟨⟨rest, removed'⟩, hrest, hret⟩ := bind_eq_ok.mp h
        obtain ⟨rfl, -⟩ := Prod.mk.inj (Except.ok.inj hret)
        have hset : Masked (i + 1 : Nat) blocks (blocks.set i nullBlock) := by
          refine ⟨List.length_set, fun j c hj => ?_⟩
          by_cases hji : j = i
          · subst hji
            have hlt := (List.getElem?_eq_some_iff.mp hj).1
            exact .inr ⟨List.getElem?_set_self hlt, by omega⟩
          · rw [List.getElem?_set_ne (Ne.symm hji)]
            exact .inl hj
        exact hset.trans ((ih hrest).mono (by omega))

lemma removeSkippedBlocks_table {n : Int}
    (hrun : m.removeSkippedBlocks p requestId n = .ok (m', p')) :
    Masked (max 0 (m.firstUsefulBlock requestId n)) (m.blocksOf requestId)
        (m'.blocksOf requestId) ∧
      (∀ id, id ≠ requestId → m'.blocksOf id = m.blocksOf id) ∧ p'.blockHash = p.blockHash := by
  obtain ⟨⟨blocks', removed⟩, hloop, hret⟩ := bind_eq_ok.mp hrun
  obtain ⟨rfl, rfl⟩ := Prod.mk.inj (Except.ok.inj hret)
  refine ⟨?_, fun id hid => ?_, (BlockPool.freeBlocks_hash p removed).1⟩
  · rw [blocksOf_setBlocks, if_pos rfl]
    exact (removeLoop_masked hloop).mono (by omega)
  · rw [blocksOf_setBlocks, if_neg hid.symm]

lemma allocateNewBlocks_table {numTokens : Int} {new : List BlockId} (h : m.Accounted p extra)
    (hrun : m.allocateNewBlocks p requestId numTokens = .ok (new, m', p')) :
    m'.blocksOf requestId = m.blocksOf requestId ++ new ∧ (∀ b ∈ new, b ≠ nullBlock) ∧
      (∀ id, id ≠ requestId → m'.blocksOf id = m.blocksOf id) ∧
      (∀ b, m.held b ≤ m'.held b) ∧
      ∀ b, m.held b + extra b ≠ 0 → p'.blockHash b = p.blockHash b := by
  simp only [allocateNewBlocks] at hrun
  split_ifs at hrun
  · obtain ⟨rfl, rfl, rfl⟩ : [] = new ∧ m = m' ∧ p = p' := by simpa using hrun
    exact ⟨by simp, by simp, fun _ _ => rfl, fun _ => le_rfl, fun _ _ => rfl⟩
  · obtain ⟨⟨fresh, q⟩, hget, hret⟩ := bind_eq_ok.mp hrun
    obtain ⟨rfl, rfl, rfl⟩ : fresh = new ∧
        m.setBlocks requestId (m.blocksOf requestId ++ fresh) = m' ∧ q = p' := by
      simpa using hret
    obtain ⟨-, -, -, hfresh, -, -⟩ := BlockPool.getNewBlocks_ok h.pool hget
    refine ⟨?_, fun b hb => (hfresh b hb).1, fun id hid => ?_, fun b => ?_, fun b hb => ?_⟩
    · rw [blocksOf_setBlocks, if_pos rfl]
    · rw [blocksOf_setBlocks, if_neg hid.symm]
    · have := held_setBlocks m requestId (m.blocksOf requestId ++ fresh) b
      rw [List.count_append] at this
      omega
    · exact BlockPool.getNewBlocks_held h.pool hb hget

lemma saveNewComputedBlocks_table {hits : List BlockId}
    (hrun : m.saveNewComputedBlocks requestId hits = .ok m') :
    m'.blocksOf requestId = m.blocksOf requestId ++ hits ∧
      ∀ id, id ≠ requestId → m'.blocksOf id = m.blocksOf id := by
  rcases saveNewComputedBlocks_cases hrun with ⟨rfl, rfl⟩ | ⟨hnil, rfl⟩
  · exact ⟨by simp, fun _ _ => rfl⟩
  · refine ⟨?_, fun id hid => ?_⟩
    · rw [hnil, List.nil_append]
      exact (blocksOf_setBlocks (m := m) requestId).trans (if_pos rfl)
    · exact (blocksOf_setBlocks (m := m) id).trans (if_neg hid.symm)

lemma cacheBlocks_table {request : Request} {n : Int}
    (hrun : m.cacheBlocks p request n = .ok (m', p')) :
    (∀ id, m'.blocksOf id = m.blocksOf id) ∧ p.HashesKept p' := by
  unfold cacheBlocks at hrun
  split at hrun
  · cases hrun
  · split at hrun
    · cases hrun
    · obtain ⟨q, hq, hret⟩ := bind_eq_ok.mp hrun
      obtain ⟨rfl, rfl⟩ := Prod.mk.inj (Except.ok.inj hret)
      exact ⟨fun _ => rfl, BlockPool.cacheFullBlocks_kept hq⟩

lemma free_table (hid : id ≠ requestId) : (m.free p requestId).1.blocksOf id = m.blocksOf id := by
  unfold free blocksOf
  rw [Dict.get?_erase_of_ne hid.symm]

end SingleTypeManager

namespace KVCacheManager

variable {ms ms' : List SingleTypeManager} {p p' : BlockPool} {extra : BlockId → Nat}
  {requestId id : String} {b : BlockId} {α : Type} {i : Nat} {m : SingleTypeManager}

/-- The call for the manager at one place, in the pool that the calls before it left. -/
lemma forManagers_at {f : SingleTypeManager → BlockPool →
      Except PyError (α × SingleTypeManager × BlockPool)} {as : List α}
    (hf : ∀ m p a m' p' extra, m.Accounted p extra → f m p = .ok (a, m', p') →
      m'.Accounted p' extra ∧ p.SameConfig p' ∧ m.SameSpec m')
    (h : AllAccounted ms p extra) (hrun : forManagers f ms p = .ok (as, ms', p'))
    (hi : ms[i]? = some m) :
    ∃ a m' q q' ex, as[i]? = some a ∧ ms'[i]? = some m' ∧ m.Accounted q ex ∧
      f m q = .ok (a, m', q') := by
  induction ms generalizing p extra as ms' p' i with
  | nil => simp at hi
  | cons m₀ ms ih =>
    obtain ⟨⟨a, m₁, p₁⟩, hm, hrun⟩ := bind_eq_ok.mp hrun
    obtain ⟨⟨as', ms₁, p₂⟩, hms, hret⟩ := bind_eq_ok.mp hrun
    obtain ⟨rfl, rfl, -⟩ : a :: as' = as ∧ m₁ :: ms₁ = ms' ∧ p₂ = p' := by simpa using hret
    obtain ⟨hacc, htables⟩ := allAccounted_cons.mp h
    obtain ⟨hacc₁, -, -⟩ := hf m₀ p a m₁ p₁ _ hacc hm
    have hall₁ : AllAccounted (m₁ :: ms) p₁ extra := allAccounted_cons.mpr ⟨hacc₁, htables⟩
    cases i with
    | zero =>
      obtain rfl := Option.some.inj hi
      exact ⟨a, m₁, p, p₁, _, rfl, rfl, hacc, hm⟩
    | succ i =>
      obtain ⟨a', m', q, q', ex, ha, hm', hq, hcall⟩ :=
        ih ((allAccounted_tail hacc₁.tables).mp hall₁) hms hi
      exact ⟨a', m', q, q', ex, ha, hm', hq, hcall⟩

lemma forManagers_kept {f : SingleTypeManager → BlockPool →
      Except PyError (α × SingleTypeManager × BlockPool)} {as : List α}
    (hf : ∀ m p a m' p', f m p = .ok (a, m', p') → p.HashesKept p')
    (hrun : forManagers f ms p = .ok (as, ms', p')) : p.HashesKept p' := by
  induction ms generalizing p as ms' p' with
  | nil =>
    obtain ⟨-, -, rfl⟩ : [] = as ∧ [] = ms' ∧ p = p' := by simpa [forManagers] using hrun
    exact .of_eq rfl
  | cons m ms ih =>
    obtain ⟨⟨a, m₁, p₁⟩, hm, hrun⟩ := bind_eq_ok.mp hrun
    obtain ⟨⟨as', ms₁, p₂⟩, hms, hret⟩ := bind_eq_ok.mp hrun
    obtain ⟨-, -, rfl⟩ : a :: as' = as ∧ m₁ :: ms₁ = ms' ∧ p₂ = p' := by simpa using hret
    intro c k hk
    exact ih hms c k (hf m p a m₁ p₁ hm c k hk)

lemma allocateNewBlocks_held {numTokens numEncoderTokens : Int} {new : List (List BlockId)}
    (h : AllAccounted ms p extra) (hb : heldBy ms b + extra b ≠ 0)
    (hrun : allocateNewBlocks requestId numTokens numEncoderTokens ms p = .ok (new, ms', p')) :
    p'.blockHash b = p.blockHash b := by
  induction ms generalizing p extra new ms' p' with
  | nil =>
    obtain ⟨-, -, rfl⟩ : [] = new ∧ [] = ms' ∧ p = p' := by
      simpa [allocateNewBlocks, forManagers] using hrun
    rfl
  | cons m ms ih =>
    obtain ⟨⟨a, m₁, p₁⟩, hm, hrun⟩ := bind_eq_ok.mp hrun
    obtain ⟨⟨as', ms₁, p₂⟩, hms, hret⟩ := bind_eq_ok.mp hrun
    obtain ⟨-, -, rfl⟩ : a :: as' = new ∧ m₁ :: ms₁ = ms' ∧ p₂ = p' := by simpa using hret
    obtain ⟨hacc, htables⟩ := allAccounted_cons.mp h
    obtain ⟨hacc₁, -, -⟩ := SingleTypeManager.allocateNewBlocks_accounted hacc hm
    obtain ⟨-, -, -, hle, hkept⟩ := SingleTypeManager.allocateNewBlocks_table hacc hm
    have hall₁ := (allAccounted_tail hacc₁.tables).mp (allAccounted_cons.mpr ⟨hacc₁, htables⟩)
    rw [heldBy_cons] at hb
    have hmono := hle b
    rw [ih hall₁ (by omega) hms]
    exact hkept b (by omega)

lemma saveNewComputedBlocks_at {hits : List (List BlockId)}
    (hrun : saveNewComputedBlocks requestId ms hits = .ok ms') (hi : ms[i]? = some m) :
    ∃ c m', hits[i]? = some c ∧ ms'[i]? = some m' ∧
      m.saveNewComputedBlocks requestId c = .ok m' := by
  induction ms generalizing hits ms' i with
  | nil => simp at hi
  | cons m₀ ms ih =>
    cases hits with
    | nil => cases hrun
    | cons c hits =>
      obtain ⟨m₁, hm, hrun⟩ := bind_eq_ok.mp hrun
      obtain ⟨ms₁, hms, hret⟩ := bind_eq_ok.mp hrun
      obtain rfl := Except.ok.inj hret
      cases i with
      | zero =>
        obtain rfl := Option.some.inj hi
        exact ⟨c, m₁, rfl, rfl, hm⟩
      | succ i =>
        obtain ⟨c', m', hc', hm', hcall⟩ := ih hms hi
        exact ⟨c', m', hc', hm', hcall⟩

lemma freeLoop_at (hi : ms[i]? = some m) :
    ∃ q, (freeLoop requestId ms p).1[i]? = some (m.free q requestId).1 := by
  induction ms generalizing p i with
  | nil => simp at hi
  | cons m₀ ms ih =>
    cases i with
    | zero =>
      obtain rfl := Option.some.inj hi
      exact ⟨p, rfl⟩
    | succ i => exact ih hi

lemma freeLoop_blockHash : (freeLoop requestId ms p).2.blockHash = p.blockHash := by
  induction ms generalizing p with
  | nil => rfl
  | cons m ms ih =>
    have hm : (m.free p requestId).2.blockHash = p.blockHash :=
      (BlockPool.freeBlocks_hash p _).1
    exact (ih (p := (m.free p requestId).2)).trans hm

lemma heldBy_ne_zero (hi : ms[i]? = some m) (hb : b ∈ m.blocksOf id) : heldBy ms b ≠ 0 := by
  have hle : m.held b ≤ heldBy ms b :=
    List.le_sum_of_mem (List.mem_map_of_mem (List.mem_of_getElem? hi))
  have hcount := m.count_blocksOf_le id b
  have hpos := List.count_pos_iff.mpr hb
  omega

variable {s s' : KVCacheManager} {m' : SingleTypeManager}

/-- The manager of the same group afterwards, with the tables of the other requests. -/
structure SameOthers (requestId : String) (m m' : SingleTypeManager) : Prop where
  spec : m.SameSpec m'
  tables : ∀ id, id ≠ requestId → m'.blocksOf id = m.blocksOf id

lemma SameOthers.trans {m₁ m₂ m₃ : SingleTypeManager} (h : SameOthers requestId m₁ m₂)
    (h' : SameOthers requestId m₂ m₃) : SameOthers requestId m₁ m₃ where
  spec := h'.spec.trans h.spec
  tables id hid := (h'.tables id hid).trans (h.tables id hid)

lemma WellKept.manager_at (h : s.WellKept) {spec : KVCacheSpec}
    (hi : s.config.kvCacheGroups[i]? = some spec) :
    ∃ m, s.singleTypeManagers[i]? = some m ∧ m.kvCacheSpec = spec ∧
      m.blockSize = (if s.config.dcpWorldSize > 1 then
        (spec.blockSize : Int) * s.config.dcpWorldSize else spec.blockSize) := by
  have hshape := congrArg (fun shapes => shapes[i]?) h.shapes
  simp only [List.getElem?_map, List.getElem?_zipIdx, hi, Option.map_some] at hshape
  obtain ⟨m, hm, hmeq⟩ := Option.map_eq_some_iff.mp hshape
  obtain ⟨hspec, hrest⟩ := Prod.mk.inj hmeq
  exact ⟨m, hm, hspec, (Prod.mk.inj hrest).1⟩

lemma removeSkippedBlocks_at {n : Int} (h : s.WellKept)
    (hrun : s.removeSkippedBlocks requestId n = .ok s') (hi : s.singleTypeManagers[i]? = some m) :
    ∃ m', s'.singleTypeManagers[i]? = some m' ∧ SameOthers requestId m m' ∧
      Masked (max 0 (m.firstUsefulBlock requestId n)) (m.blocksOf requestId)
        (m'.blocksOf requestId) := by
  obtain ⟨⟨us, ms, p⟩, hloop, hret⟩ := bind_eq_ok.mp hrun
  obtain rfl := Except.ok.inj hret
  obtain ⟨u, m', q, q', ex, -, hm', -, hcall⟩ := forManagers_at
    (fun m p u m' p' extra hacc hcall =>
      SingleTypeManager.removeSkippedBlocks_accounted hacc (withUnit_eq_ok hcall))
    h.accounted hloop hi
  obtain ⟨hmask, hother, -⟩ := SingleTypeManager.removeSkippedBlocks_table (withUnit_eq_ok hcall)
  obtain ⟨-, -, hspec⟩ := SingleTypeManager.removeSkippedBlocks_spec (withUnit_eq_ok hcall)
  exact ⟨m', hm', ⟨hspec, hother⟩, hmask⟩

lemma removeSkippedBlocks_kept {n : Int} (hrun : s.removeSkippedBlocks requestId n = .ok s') :
    s.blockPool.HashesKept s'.blockPool := by
  obtain ⟨⟨us, ms, p⟩, hloop, hret⟩ := bind_eq_ok.mp hrun
  obtain rfl := Except.ok.inj hret
  exact forManagers_kept (fun m p u m' p' hcall =>
    .of_eq (SingleTypeManager.removeSkippedBlocks_table (withUnit_eq_ok hcall)).2.2) hloop

lemma coordinatorCacheBlocks_at {request : Request} {n : Int} (h : s.WellKept)
    (hrun : s.coordinatorCacheBlocks request n = .ok s')
    (hi : s.singleTypeManagers[i]? = some m) :
    ∃ m', s'.singleTypeManagers[i]? = some m' ∧ m.SameSpec m' ∧
      ∀ id, m'.blocksOf id = m.blocksOf id := by
  obtain ⟨⟨us, ms, p⟩, hloop, hret⟩ := bind_eq_ok.mp hrun
  obtain rfl := Except.ok.inj hret
  have hacc : ∀ m p (u : Unit) m' p' extra, SingleTypeManager.Accounted m p extra →
      withUnit (m.cacheBlocks p request n) = .ok (u, m', p') →
      m'.Accounted p' extra ∧ p.SameConfig p' ∧ m.SameSpec m' :=
    fun m p u m' p' extra hacc hcall =>
      SingleTypeManager.cacheBlocks_accounted hacc (withUnit_eq_ok hcall)
  obtain ⟨u, m', q, q', ex, -, hm', hq, hcall⟩ := forManagers_at hacc h.accounted hloop hi
  exact ⟨m', hm', (hacc m q u m' q' ex hq hcall).2.2,
    (SingleTypeManager.cacheBlocks_table (withUnit_eq_ok hcall)).1⟩

lemma coordinatorCacheBlocks_kept {request : Request} {n : Int}
    (hrun : s.coordinatorCacheBlocks request n = .ok s') :
    s.blockPool.HashesKept s'.blockPool := by
  obtain ⟨⟨us, ms, p⟩, hloop, hret⟩ := bind_eq_ok.mp hrun
  obtain rfl := Except.ok.inj hret
  exact forManagers_kept (fun m p u m' p' hcall =>
    (SingleTypeManager.cacheBlocks_table (withUnit_eq_ok hcall)).2) hloop

/-- A block keeps its hash. -/
def HashKept (p p' : BlockPool) (b : BlockId) : Prop :=
  ∀ k, p.blockHash b = some k → p'.blockHash b = some k

/-- What `allocate_slots` does in one group: `left` is what the removal of skipped blocks
leaves of the table, then come the hits and the new blocks. -/
structure SlotsStep (m m' : SingleTypeManager) (p p' : BlockPool) (request : Request)
    (left hits new : List BlockId) : Prop where
  others : SameOthers request.requestId m m'
  masked : Masked (max 0 (m.firstUsefulBlock request.requestId request.numComputedTokens))
    (m.blocksOf request.requestId) left
  table : m'.blocksOf request.requestId = left ++ (hits ++ new)
  fresh : ∀ b ∈ new, b ≠ nullBlock
  kept : ∀ b ∈ left ++ hits, HashKept p p' b
  keptOthers : ∀ id, id ≠ request.requestId → ∀ b ∈ m.blocksOf id, HashKept p p' b

lemma touchHits_blockHash {hits : List (List BlockId)} {pool : BlockPool}
    (hrun : s.touchHits hits = .ok pool) : pool.blockHash = s.blockPool.blockHash := by
  unfold touchHits at hrun
  split_ifs at hrun
  · exact (BlockPool.foldlM_touchBlock_hash hrun).1
  · obtain ⟨_, -, hret⟩ := bind_eq_ok.mp hrun
    obtain rfl := Except.ok.inj hret
    rfl

/-- The table of the request has a slot for each of the tokens. -/
def Covers (m : SingleTypeManager) (requestId : String) (numTokens numEncoderTokens : Int) :
    Prop :=
  tokensFor m numTokens numEncoderTokens ≤ (m.blocksOf requestId).length * m.blockSize

lemma Covers.congr {m m' : SingleTypeManager} {numTokens numEncoderTokens : Int}
    (h : Covers m requestId numTokens numEncoderTokens) (hspec : m.SameSpec m')
    (htable : m'.blocksOf requestId = m.blocksOf requestId) :
    Covers m' requestId numTokens numEncoderTokens := by
  obtain ⟨hkind, hrest⟩ := Prod.mk.inj hspec
  rw [Covers, tokensFor, htable, hkind, (Prod.mk.inj hrest).1]
  exact h

lemma allocateGroups_at {request : Request} {a : AllocArgs} {hits new : List (List BlockId)}
    (h : s.WellKept) (hhits : s.GoodHits hits)
    (hrun : s.allocateGroups request a hits = .ok (new, s'))
    (hi : s.singleTypeManagers[i]? = some m) :
    ∃ c b m', hits[i]? = some c ∧ new[i]? = some b ∧ s'.singleTypeManagers[i]? = some m' ∧
      SlotsStep m m' s.blockPool s'.blockPool request (m.blocksOf request.requestId) c b ∧
      Covers m' request.requestId (s.numTokensNeedSlot request a) a.numEncoderTokens := by
  obtain ⟨pool, htouch, hrun⟩ := bind_eq_ok.mp hrun
  obtain ⟨ms, hsave, hrun⟩ := bind_eq_ok.mp hrun
  obtain ⟨⟨new', ms₂, pool₂⟩, halloc, hret⟩ := bind_eq_ok.mp hrun
  obtain ⟨rfl, rfl⟩ := Prod.mk.inj (Except.ok.inj hret)
  have htouched := touchHits_accounted h hhits htouch
  obtain ⟨hheld, htables, hspecs⟩ := saveNewComputedBlocks_heldBy hsave hhits.length.symm
    (fun _ hc => hhits.nodup hc) h.accounted.tables
  have hsaved : AllAccounted ms pool fun _ => 0 :=
    ⟨htouched.size, htouched.pool.congr fun b _ => (hheld b).symm, htables⟩
  obtain ⟨c, m₁, hc, hm₁, hcall⟩ := saveNewComputedBlocks_at hsave hi
  obtain ⟨htable₁, hothers₁⟩ := SingleTypeManager.saveNewComputedBlocks_table hcall
  have hspec₁ : m.SameSpec m₁ := by
    rcases SingleTypeManager.saveNewComputedBlocks_cases hcall with ⟨-, rfl⟩ | ⟨-, rfl⟩
    · rfl
    · rfl
  obtain ⟨b, m₂, q, q', ex, hb, hm₂, hq, hcall₂⟩ := forManagers_at
    (fun m p new m' p' extra hacc hcall =>
      SingleTypeManager.allocateNewBlocks_accounted hacc hcall) hsaved halloc hm₁
  obtain ⟨htable₂, hfresh, hothers₂, -, -⟩ :=
    SingleTypeManager.allocateNewBlocks_table hq hcall₂
  obtain ⟨-, -, hspec₂⟩ := SingleTypeManager.allocateNewBlocks_accounted hq hcall₂
  have hkept : ∀ x, heldBy ms x ≠ 0 → HashKept s.blockPool pool₂ x := by
    intro x hx k hk
    rw [allocateNewBlocks_held hsaved (by simpa using hx) halloc, touchHits_blockHash htouch, hk]
  have hpos : ∀ m ∈ ms, 0 < m.blockSize := fun m hm => ((h.update hsaved hspecs).spec_mem hm).2
  refine ⟨c, b, m₂, hc, hb, hm₂, ⟨⟨hspec₂.trans hspec₁, fun id hid => ?_⟩, .refl _ _, ?_, hfresh,
    fun x hx => ?_, fun id hid x hx => ?_⟩,
    allocateNewBlocks_covers hsaved halloc hpos (List.mem_of_getElem? hm₂)⟩
  · rw [hothers₂ id hid, hothers₁ id hid]
  · rw [htable₂, htable₁, List.append_assoc]
  · exact hkept x (heldBy_ne_zero hm₁ (htable₁ ▸ hx))
  · exact hkept x (heldBy_ne_zero hm₁ ((hothers₁ id hid).symm ▸ hx))

lemma SlotsStep.then {m₁ m₂ : SingleTypeManager} {p₁ p₂ : BlockPool} {request : Request}
    {left hits new : List BlockId} (h : SlotsStep m m₁ p p₁ request left hits new)
    (hspec : m₁.SameSpec m₂) (htables : ∀ id, m₂.blocksOf id = m₁.blocksOf id)
    (hkept : p₁.HashesKept p₂) : SlotsStep m m₂ p p₂ request left hits new where
  others := ⟨hspec.trans h.others.spec, fun id hid => (htables id).trans (h.others.tables id hid)⟩
  masked := h.masked
  table := (htables _).trans h.table
  fresh := h.fresh
  kept b hb k hk := hkept b k (h.kept b hb k hk)
  keptOthers id hid b hb k hk := hkept b k (h.keptOthers id hid b hb k hk)

lemma SlotsStep.after {m₁ m₂ : SingleTypeManager} {p₁ p₂ : BlockPool} {request : Request}
    {hits new : List BlockId}
    (h : SlotsStep m₁ m₂ p₁ p₂ request (m₁.blocksOf request.requestId) hits new)
    (hothers : SameOthers request.requestId m m₁)
    (hmask : Masked (max 0 (m.firstUsefulBlock request.requestId request.numComputedTokens))
      (m.blocksOf request.requestId) (m₁.blocksOf request.requestId))
    (hkept : p.HashesKept p₁) :
    SlotsStep m m₂ p p₂ request (m₁.blocksOf request.requestId) hits new where
  others := hothers.trans h.others
  masked := hmask
  table := h.table
  fresh := h.fresh
  kept b hb k hk := h.kept b hb k (hkept b k hk)
  keptOthers id hid b hb k hk :=
    h.keptOthers id hid b ((hothers.tables id hid).symm ▸ hb) k (hkept b k hk)

/-- The hits and new blocks of one group; none when the allocation fails. -/
def groupBlocks (i : Nat) : Option (List (List BlockId)) → List BlockId
  | none => []
  | some blocks => (blocks[i]?).getD []

lemma allocateSlots_at {request : Request} {a : AllocArgs}
    {new : Option (List (List BlockId))} (h : s.WellKept)
    (hhits : s.GoodHits (a.newComputedBlocks.getD s.createEmptyBlockList))
    (hrun : s.allocateSlots request a = .ok (new, s'))
    (hi : s.singleTypeManagers[i]? = some m) :
    ∃ left m', s'.singleTypeManagers[i]? = some m' ∧
      SlotsStep m m' s.blockPool s'.blockPool request left
        (if new.isSome then groupBlocks i a.newComputedBlocks else []) (groupBlocks i new) ∧
      (new.isSome →
        Covers m' request.requestId (s.numTokensNeedSlot request a) a.numEncoderTokens) := by
  unfold allocateSlots at hrun
  split_ifs at hrun
  obtain ⟨s₁, hremove, hrun⟩ := bind_eq_ok.mp hrun
  obtain ⟨hs₁, hconfig, hgood⟩ := removeSkippedBlocks_wellKept h hremove
  obtain ⟨m₁, hm₁, hothers, hmask⟩ := removeSkippedBlocks_at h hremove hi
  have hkept := removeSkippedBlocks_kept hremove
  simp only at hrun
  split_ifs at hrun
  · obtain ⟨rfl, rfl⟩ := Prod.mk.inj (Except.ok.inj hrun)
    refine ⟨m₁.blocksOf request.requestId, m₁, hm₁,
      SlotsStep.after ?_ hothers hmask hkept, by simp⟩
    exact ⟨⟨rfl, fun _ _ => rfl⟩, .refl _ _, by simp [groupBlocks], by simp [groupBlocks],
      fun _ _ _ hk => hk, fun _ _ _ _ _ hk => hk⟩
  · obtain ⟨⟨new', s₂⟩, hchecked, hret⟩ := bind_eq_ok.mp hrun
    obtain ⟨rfl, rfl⟩ := Prod.mk.inj (Except.ok.inj hret)
    obtain ⟨⟨new'', s₃⟩, hgroups, hrun⟩ := bind_eq_ok.mp hchecked
    obtain ⟨c, b, m₃, hc, hb, hm₃, hstep, hcovers⟩ := allocateGroups_at hs₁ (hgood _ hhits) hgroups hm₁
    have hc' : groupBlocks i a.newComputedBlocks = c := by
      cases hcomputed : a.newComputedBlocks with
      | none =>
        rw [hcomputed, Option.getD_none, createEmptyBlockList, List.getElem?_map] at hc
        obtain ⟨-, -, rfl⟩ := Option.map_eq_some_iff.mp hc
        rfl
      | some hits =>
        rw [hcomputed, Option.getD_some] at hc
        simp [groupBlocks, hc]
    have hb' : groupBlocks i (some new'') = b := by simp [groupBlocks, hb]
    have hfirst := hstep.after hothers hmask hkept
    rw [numTokensNeedSlot, hconfig] at hcovers
    simp only at hrun
    split_ifs at hrun
    · obtain ⟨rfl, rfl⟩ := Prod.mk.inj (Except.ok.inj hrun)
      refine ⟨m₁.blocksOf request.requestId, m₃, hm₃, ?_, fun _ => hcovers⟩
      simpa only [Option.isSome_some, if_pos, hb', hc'] using hfirst
    · obtain ⟨s₄, hcache, hret⟩ := bind_eq_ok.mp hrun
      obtain ⟨rfl, rfl⟩ := Prod.mk.inj (Except.ok.inj hret)
      have hs₃ := allocateGroups_wellKept hs₁ (hgood _ hhits) hgroups
      obtain ⟨m₄, hm₄, hspec₄, htables₄⟩ := coordinatorCacheBlocks_at hs₃ hcache hm₃
      refine ⟨m₁.blocksOf request.requestId, m₄, hm₄, ?_,
        fun _ => hcovers.congr hspec₄ (htables₄ _)⟩
      have hlast := hfirst.then hspec₄ htables₄ (coordinatorCacheBlocks_kept hcache)
      simpa only [Option.isSome_some, if_pos, hb', hc'] using hlast

lemma coordinatorCacheBlocks_config {request : Request} {n : Int}
    (hrun : s.coordinatorCacheBlocks request n = .ok s') : s'.config = s.config := by
  obtain ⟨⟨us, ms, p⟩, -, hret⟩ := bind_eq_ok.mp hrun
  obtain rfl := Except.ok.inj hret
  rfl

lemma allocateGroups_config {request : Request} {a : AllocArgs} {hits new : List (List BlockId)}
    (hrun : s.allocateGroups request a hits = .ok (new, s')) : s'.config = s.config := by
  obtain ⟨pool, -, hrun⟩ := bind_eq_ok.mp hrun
  obtain ⟨ms, -, hrun⟩ := bind_eq_ok.mp hrun
  obtain ⟨⟨new', ms₂, pool₂⟩, -, hret⟩ := bind_eq_ok.mp hrun
  obtain ⟨-, rfl⟩ := Prod.mk.inj (Except.ok.inj hret)
  rfl

lemma allocateSlots_config {request : Request} {a : AllocArgs}
    {new : Option (List (List BlockId))}
    (hrun : s.allocateSlots request a = .ok (new, s')) : s'.config = s.config := by
  unfold allocateSlots at hrun
  split_ifs at hrun
  obtain ⟨s₁, hremove, hrun⟩ := bind_eq_ok.mp hrun
  have hconfig : s₁.config = s.config := by
    obtain ⟨⟨us, ms, p⟩, -, hret⟩ := bind_eq_ok.mp hremove
    obtain rfl := Except.ok.inj hret
    rfl
  simp only at hrun
  split_ifs at hrun
  · obtain ⟨-, rfl⟩ := Prod.mk.inj (Except.ok.inj hrun)
    exact hconfig
  · obtain ⟨⟨new', s₂⟩, hchecked, hret⟩ := bind_eq_ok.mp hrun
    obtain ⟨-, rfl⟩ := Prod.mk.inj (Except.ok.inj hret)
    obtain ⟨⟨new'', s₃⟩, hgroups, hrun⟩ := bind_eq_ok.mp hchecked
    have hgroups := (allocateGroups_config hgroups).trans hconfig
    simp only at hrun
    split_ifs at hrun
    · obtain ⟨-, rfl⟩ := Prod.mk.inj (Except.ok.inj hrun)
      exact hgroups
    · obtain ⟨s₄, hcache, hret⟩ := bind_eq_ok.mp hrun
      obtain ⟨-, rfl⟩ := Prod.mk.inj (Except.ok.inj hret)
      exact (coordinatorCacheBlocks_config hcache).trans hgroups

lemma runOp_config {op : KVOp} (hrun : s.runOp op = .ok s') : s'.config = s.config := by
  cases op with
  | start request args =>
    obtain ⟨⟨hits, length⟩, -, hrun⟩ := bind_eq_ok.mp hrun
    obtain ⟨⟨new, s₁⟩, halloc, hret⟩ := bind_eq_ok.mp hrun
    obtain rfl := Except.ok.inj hret
    exact allocateSlots_config halloc
  | allocate request args =>
    obtain ⟨⟨new, s₁⟩, halloc, hret⟩ := bind_eq_ok.mp hrun
    obtain rfl := Except.ok.inj hret
    exact allocateSlots_config halloc
  | cacheBlocks request n =>
    simp only [runOp, cacheBlocks] at hrun
    split_ifs at hrun
    · exact coordinatorCacheBlocks_config hrun
    · obtain rfl := Except.ok.inj hrun
      rfl
  | free requestId =>
    obtain rfl := Except.ok.inj hrun
    rfl
  | resetPrefixCache =>
    obtain rfl := Except.ok.inj hrun
    rfl

end KVCacheManager

/-- The operation neither allocates blocks for the request nor frees it. -/
def KVOp.LeavesTable (requestId : String) : KVOp → Prop
  | .start request _ | .allocate request _ => request.requestId ≠ requestId
  | .free id => id ≠ requestId
  | .cacheBlocks _ _ | .resetPrefixCache => True

namespace KVCacheManager

variable {s s' : KVCacheManager} {m : SingleTypeManager} {i : Nat} {id : String}

/-- The table of the request afterwards is the same, and the blocks in it keep their hashes. -/
structure TableKept (id : String) (s s' : KVCacheManager) (m m' : SingleTypeManager) : Prop where
  spec : m.SameSpec m'
  table : m'.blocksOf id = m.blocksOf id
  hashes : ∀ b ∈ m.blocksOf id, b ≠ nullBlock → HashKept s.blockPool s'.blockPool b

lemma allocateSlots_tableKept {request : Request} {a : AllocArgs}
    {new : Option (List (List BlockId))} (h : s.WellKept)
    (hhits : s.GoodHits (a.newComputedBlocks.getD s.createEmptyBlockList))
    (hrun : s.allocateSlots request a = .ok (new, s'))
    (hi : s.singleTypeManagers[i]? = some m) (hid : request.requestId ≠ id) :
    ∃ m', s'.singleTypeManagers[i]? = some m' ∧ TableKept id s s' m m' := by
  obtain ⟨left, m', hm', hstep, -⟩ := allocateSlots_at h hhits hrun hi
  exact ⟨m', hm', hstep.others.spec, hstep.others.tables id hid.symm,
    fun b hb _ => hstep.keptOthers id hid.symm b hb⟩

lemma runOp_tableKept {cfg : HashConfig} (hcfg : cfg.CollisionFree) {op : KVOp} (h : s.WellKept)
    (hmade : HashesMade cfg op) (hop : op.LeavesTable id) (hrun : s.runOp op = .ok s')
    (hi : s.singleTypeManagers[i]? = some m) :
    ∃ m', s'.singleTypeManagers[i]? = some m' ∧ TableKept id s s' m m' := by
  cases op with
  | start request args =>
    obtain ⟨⟨hits, length⟩, hhits, hrun⟩ := bind_eq_ok.mp hrun
    obtain ⟨⟨new, s₁⟩, halloc, hret⟩ := bind_eq_ok.mp hrun
    obtain rfl := Except.ok.inj hret
    exact allocateSlots_tableKept (a := { args with newComputedBlocks := some hits }) h
      (getComputedBlocks_goodHits h (hmade.chained.nodup hcfg) hhits) halloc hi hop
  | allocate request args =>
    obtain ⟨⟨new, s₁⟩, halloc, hret⟩ := bind_eq_ok.mp hrun
    obtain rfl := Except.ok.inj hret
    exact allocateSlots_tableKept (a := { args with newComputedBlocks := none }) h
      (goodHits_empty h) halloc hi hop
  | cacheBlocks request n =>
    simp only [runOp, cacheBlocks] at hrun
    split_ifs at hrun
    · obtain ⟨m', hm', hspec, htables⟩ := coordinatorCacheBlocks_at h hrun hi
      exact ⟨m', hm', hspec, htables id, fun b _ _ => coordinatorCacheBlocks_kept hrun b⟩
    · obtain rfl := Except.ok.inj hrun
      exact ⟨m, hi, rfl, rfl, fun _ _ _ _ hk => hk⟩
  | free requestId =>
    obtain rfl := Except.ok.inj hrun
    obtain ⟨q, hq⟩ : ∃ q, (freeLoop requestId s.singleTypeManagers s.blockPool).1[i]? =
        some (m.free q requestId).1 := freeLoop_at hi
    refine ⟨(m.free q requestId).1, hq, rfl, SingleTypeManager.free_table (Ne.symm hop),
      fun b _ _ k hk => ?_⟩
    exact (congrFun freeLoop_blockHash b).trans hk
  | resetPrefixCache =>
    obtain rfl := Except.ok.inj hrun
    refine ⟨m, hi, rfl, rfl, fun b hb hnull k hk => ?_⟩
    have hheld := heldBy_ne_zero hi hb
    exact (congrFun (BlockPool.resetPrefixCache_held h.accounted.pool h.accounted.size hnull
      (by simpa using hheld)) b).trans hk

end KVCacheManager

end VllmV1
