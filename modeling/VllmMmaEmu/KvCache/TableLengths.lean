import Mathlib.Data.Set.Basic
import VllmMmaEmu.KvCache.Capacity

/-!
# The lengths of the block tables

An operation for one request leaves the tables of the others as long as they are. The table
of a request that gets its slots is as long as its hits and its tokens need, and never
becomes shorter. None of this depends on the state of the pool.
-/

namespace VllmV1

open Python

namespace SingleTypeManager

/-- The tables of the requests `ids` are as long as before. -/
structure SameLengths (ids : Set String) (m m' : SingleTypeManager) : Prop where
  spec : m.SameSpec m'
  lengths : ∀ id ∈ ids, (m'.blocksOf id).length = (m.blocksOf id).length

variable {ids ids' : Set String} {m m' m'' : SingleTypeManager} {p p' : BlockPool}
  {requestId : String}

lemma SameLengths.refl (ids : Set String) (m : SingleTypeManager) : SameLengths ids m m :=
  ⟨rfl, fun _ _ => rfl⟩

lemma SameLengths.trans (h : SameLengths ids m m') (h' : SameLengths ids m' m'') :
    SameLengths ids m m'' where
  spec := h'.spec.trans h.spec
  lengths id hid := (h'.lengths id hid).trans (h.lengths id hid)

lemma SameLengths.mono (h : SameLengths ids m m') (hle : ids' ⊆ ids) : SameLengths ids' m m' :=
  ⟨h.spec, fun id hid => h.lengths id (hle hid)⟩

lemma setBlocks_sameLengths (blocks : List BlockId) :
    SameLengths {requestId}ᶜ m (m.setBlocks requestId blocks) := by
  refine ⟨rfl, fun id hid => ?_⟩
  rw [blocksOf_setBlocks, if_neg (Ne.symm hid)]

lemma removeSkippedBlocks_sameLengths {n : Int}
    (hrun : m.removeSkippedBlocks p requestId n = .ok (m', p')) :
    SameLengths Set.univ m m' := by
  obtain ⟨hlengths, -, hspec⟩ := removeSkippedBlocks_spec hrun
  exact ⟨hspec, fun id _ => hlengths id⟩

lemma cacheBlocks_sameLengths {request : Request} {n : Int}
    (hrun : m.cacheBlocks p request n = .ok (m', p')) : SameLengths Set.univ m m' := by
  unfold cacheBlocks at hrun
  split at hrun
  · cases hrun
  · split at hrun
    · cases hrun
    · obtain ⟨q, -, hret⟩ := bind_eq_ok.mp hrun
      obtain ⟨rfl, -⟩ := Prod.mk.inj (Except.ok.inj hret)
      exact ⟨rfl, fun _ _ => rfl⟩

lemma free_sameLengths (m : SingleTypeManager) (p : BlockPool) (requestId : String) :
    SameLengths {requestId}ᶜ m (m.free p requestId).1 := by
  refine ⟨rfl, fun id hid => ?_⟩
  show ((m.reqToBlocks.erase requestId).get? id |>.getD []).length = _
  rw [Dict.get?_erase_of_ne (Ne.symm hid)]
  rfl

lemma saveNewComputedBlocks_sameLengths {hits : List BlockId}
    (hrun : m.saveNewComputedBlocks requestId hits = .ok m') :
    SameLengths {requestId}ᶜ m m' ∧
      (m'.blocksOf requestId).length = (m.blocksOf requestId).length + hits.length ∧
      (m.blocksOf requestId = [] ∨ hits = []) := by
  rcases saveNewComputedBlocks_cases hrun with ⟨rfl, rfl⟩ | ⟨hempty, rfl⟩
  · exact ⟨.refl _ _, rfl, .inr rfl⟩
  · have hset : SameLengths {requestId}ᶜ m (m.setBlocks requestId hits) :=
      setBlocks_sameLengths hits
    have hself : (m.setBlocks requestId hits).blocksOf requestId = hits := by
      rw [blocksOf_setBlocks, if_pos rfl]
    refine ⟨⟨hset.spec, hset.lengths⟩, ?_, .inl hempty⟩
    rw [hempty, List.length_nil, Nat.zero_add]
    exact congrArg List.length hself

lemma allocateNewBlocks_sameLengths {numTokens : Int} {new : List BlockId}
    (hrun : m.allocateNewBlocks p requestId numTokens = .ok (new, m', p')) :
    SameLengths {requestId}ᶜ m m' ∧ (m'.blocksOf requestId).length =
      max (m.blocksOf requestId).length (m.numRequiredBlocks numTokens).toNat := by
  simp only [allocateNewBlocks] at hrun
  split_ifs at hrun with hnone
  · obtain ⟨-, rfl, -⟩ : [] = new ∧ m = m' ∧ p = p' := by simpa using hrun
    exact ⟨.refl _ _, by omega⟩
  · obtain ⟨⟨fresh, q⟩, hget, hret⟩ := bind_eq_ok.mp hrun
    obtain ⟨-, rfl, -⟩ : fresh = new ∧
        m.setBlocks requestId (m.blocksOf requestId ++ fresh) = m' ∧ q = p' := by
      simpa using hret
    have hfresh : (fresh.length : Int) =
        m.numRequiredBlocks numTokens - (m.blocksOf requestId).length := by
      unfold BlockPool.getNewBlocks at hget
      split_ifs at hget with hroom
      obtain ⟨_, -, hret⟩ := bind_eq_ok.mp hget
      obtain ⟨rfl, -⟩ := Prod.mk.inj (Except.ok.inj hret)
      rw [List.length_take]
      unfold BlockPool.getNumFreeBlocks at hroom
      omega
    refine ⟨setBlocks_sameLengths _, ?_⟩
    rw [blocksOf_setBlocks, if_pos rfl, List.length_append]
    omega

end SingleTypeManager

namespace KVCacheManager

open SingleTypeManager (SameLengths)

variable {ids ids' : Set String} {ms ms' : List SingleTypeManager} {p p' : BlockPool}
  {requestId : String} {α : Type}

lemma forManagers_forall₂ {R : SingleTypeManager → SingleTypeManager → Prop}
    {f : SingleTypeManager → BlockPool → Except PyError (α × SingleTypeManager × BlockPool)}
    {as : List α} (hf : ∀ m p a m' p', f m p = .ok (a, m', p') → R m m')
    (hrun : forManagers f ms p = .ok (as, ms', p')) : List.Forall₂ R ms ms' := by
  induction ms generalizing p as ms' p' with
  | nil =>
    obtain ⟨-, rfl, -⟩ : [] = as ∧ [] = ms' ∧ p = p' := by simpa [forManagers] using hrun
    exact .nil
  | cons m ms ih =>
    obtain ⟨⟨a, m₁, p₁⟩, hm, hrun⟩ := bind_eq_ok.mp hrun
    obtain ⟨⟨as', ms₁, p₂⟩, hms, hret⟩ := bind_eq_ok.mp hrun
    obtain ⟨-, rfl, -⟩ : a :: as' = as ∧ m₁ :: ms₁ = ms' ∧ p₂ = p' := by simpa using hret
    exact .cons (hf m p a m₁ p₁ hm) (ih hms)

lemma saveNewComputedBlocks_forall₂ {hits : List (List BlockId)}
    (hrun : saveNewComputedBlocks requestId ms hits = .ok ms') :
    List.Forall₂ (SameLengths {requestId}ᶜ) ms ms' := by
  induction ms generalizing hits ms' with
  | nil =>
    obtain rfl := Except.ok.inj hrun
    exact .nil
  | cons m ms ih =>
    cases hits with
    | nil => cases hrun
    | cons c hits =>
      obtain ⟨m₁, hm, hrun⟩ := bind_eq_ok.mp hrun
      obtain ⟨ms₁, hms, hret⟩ := bind_eq_ok.mp hrun
      obtain rfl := Except.ok.inj hret
      exact .cons (SingleTypeManager.saveNewComputedBlocks_sameLengths hm).1 (ih hms)

lemma freeLoop_forall₂ :
    List.Forall₂ (SameLengths {requestId}ᶜ) ms (freeLoop requestId ms p).1 := by
  induction ms generalizing p with
  | nil => exact .nil
  | cons m ms ih => exact .cons (m.free_sameLengths p requestId) ih

/-- The manager is made as before, and the tables of the requests `ids` are as long. -/
structure KeepsLengths (ids : Set String) (s s' : KVCacheManager) : Prop where
  config : s'.config = s.config
  coordinator : s'.coordinator = s.coordinator
  managers : List.Forall₂ (SameLengths ids) s.singleTypeManagers s'.singleTypeManagers

variable {s s' s'' : KVCacheManager} {request : Request}

lemma KeepsLengths.refl (ids : Set String) (s : KVCacheManager) : KeepsLengths ids s s :=
  ⟨rfl, rfl, List.forall₂_same.mpr fun m _ => .refl ids m⟩

lemma KeepsLengths.trans (h : KeepsLengths ids s s') (h' : KeepsLengths ids s' s'') :
    KeepsLengths ids s s'' where
  config := h'.config.trans h.config
  coordinator := h'.coordinator.trans h.coordinator
  managers := by
    have hrel : ∀ {ms ms' ms'' : List SingleTypeManager}, List.Forall₂ (SameLengths ids) ms ms' →
        List.Forall₂ (SameLengths ids) ms' ms'' → List.Forall₂ (SameLengths ids) ms ms'' := by
      intro ms ms' ms'' hleft hright
      induction hleft generalizing ms'' with
      | nil =>
        cases hright
        exact .nil
      | cons hm _ ih =>
        cases hright with
        | cons hm' hms' => exact .cons (hm.trans hm') (ih hms')
    exact hrel h.managers h'.managers

lemma KeepsLengths.mono (h : KeepsLengths ids s s') (hle : ids' ⊆ ids) : KeepsLengths ids' s s' :=
  ⟨h.config, h.coordinator, h.managers.imp fun _ _ hm => hm.mono hle⟩

lemma removeSkippedBlocks_keepsLengths {n : Int}
    (hrun : s.removeSkippedBlocks requestId n = .ok s') : KeepsLengths Set.univ s s' := by
  obtain ⟨⟨us, ms, p⟩, hloop, hret⟩ := bind_eq_ok.mp hrun
  obtain rfl := Except.ok.inj hret
  exact ⟨rfl, rfl, forManagers_forall₂ (fun m p u m' p' hcall =>
    SingleTypeManager.removeSkippedBlocks_sameLengths (withUnit_eq_ok hcall)) hloop⟩

lemma coordinatorCacheBlocks_keepsLengths {n : Int}
    (hrun : s.coordinatorCacheBlocks request n = .ok s') : KeepsLengths Set.univ s s' := by
  obtain ⟨⟨us, ms, p⟩, hloop, hret⟩ := bind_eq_ok.mp hrun
  obtain rfl := Except.ok.inj hret
  exact ⟨rfl, rfl, forManagers_forall₂ (fun m p u m' p' hcall =>
    SingleTypeManager.cacheBlocks_sameLengths (withUnit_eq_ok hcall)) hloop⟩

lemma cacheBlocks_keepsLengths {n : Int} (hrun : s.cacheBlocks request n = .ok s') :
    KeepsLengths Set.univ s s' := by
  unfold cacheBlocks at hrun
  split_ifs at hrun
  · exact coordinatorCacheBlocks_keepsLengths hrun
  · obtain rfl := Except.ok.inj hrun
    exact .refl _ _

lemma free_keepsLengths (s : KVCacheManager) (requestId : String) :
    KeepsLengths {requestId}ᶜ s (s.free requestId) := ⟨rfl, rfl, freeLoop_forall₂⟩

lemma allocateGroups_keepsLengths {a : AllocArgs} {hits new : List (List BlockId)}
    (hrun : s.allocateGroups request a hits = .ok (new, s')) :
    KeepsLengths {request.requestId}ᶜ s s' := by
  obtain ⟨pool, -, hrun⟩ := bind_eq_ok.mp hrun
  obtain ⟨ms, hsave, hrun⟩ := bind_eq_ok.mp hrun
  obtain ⟨⟨new', ms₂, pool₂⟩, halloc, hret⟩ := bind_eq_ok.mp hrun
  obtain ⟨-, rfl⟩ := Prod.mk.inj (Except.ok.inj hret)
  have hsaved : KeepsLengths {request.requestId}ᶜ s { s with singleTypeManagers := ms } :=
    ⟨rfl, rfl, saveNewComputedBlocks_forall₂ hsave⟩
  exact hsaved.trans ⟨rfl, rfl, forManagers_forall₂ (fun m p new m' p' hcall =>
    (SingleTypeManager.allocateNewBlocks_sameLengths hcall).1) halloc⟩

lemma allocateChecked_keepsLengths {a : AllocArgs} {hits new : List (List BlockId)}
    (hrun : s.allocateChecked request a hits = .ok (new, s')) :
    ∃ s₁, s.allocateGroups request a hits = .ok (new, s₁) ∧ KeepsLengths Set.univ s₁ s' := by
  obtain ⟨⟨new', s₁⟩, hgroups, hrun⟩ := bind_eq_ok.mp hrun
  simp only at hrun
  split_ifs at hrun
  · obtain ⟨rfl, rfl⟩ := Prod.mk.inj (Except.ok.inj hrun)
    exact ⟨s₁, hgroups, .refl _ _⟩
  · obtain ⟨s₂, hcache, hret⟩ := bind_eq_ok.mp hrun
    obtain ⟨rfl, rfl⟩ := Prod.mk.inj (Except.ok.inj hret)
    exact ⟨s₁, hgroups, coordinatorCacheBlocks_keepsLengths hcache⟩

lemma allocateSlots_cases {a : AllocArgs} {new : Option (List (List BlockId))}
    (hrun : s.allocateSlots request a = .ok (new, s')) :
    ∃ s₁, KeepsLengths Set.univ s s₁ ∧ (new = none ∧ s' = s₁ ∨ ∃ blocks s₂, new = some blocks ∧
      s₁.allocateGroups request a (a.newComputedBlocks.getD s.createEmptyBlockList) =
        .ok (blocks, s₂) ∧ KeepsLengths Set.univ s₂ s') := by
  unfold allocateSlots at hrun
  split_ifs at hrun
  obtain ⟨s₁, hremove, hrun⟩ := bind_eq_ok.mp hrun
  refine ⟨s₁, removeSkippedBlocks_keepsLengths hremove, ?_⟩
  simp only at hrun
  split_ifs at hrun
  · obtain ⟨rfl, rfl⟩ := Prod.mk.inj (Except.ok.inj hrun)
    exact .inl ⟨rfl, rfl⟩
  · obtain ⟨⟨blocks, s₃⟩, hchecked, hret⟩ := bind_eq_ok.mp hrun
    obtain ⟨rfl, rfl⟩ := Prod.mk.inj (Except.ok.inj hret)
    obtain ⟨s₂, hgroups, htables⟩ := allocateChecked_keepsLengths hchecked
    exact .inr ⟨blocks, s₂, rfl, hgroups, htables⟩

lemma allocateSlots_none_keepsLengths {a : AllocArgs} (hrun : s.allocateSlots request a = .ok (none, s')) :
    KeepsLengths Set.univ s s' := by
  obtain ⟨s₁, htables, ⟨-, rfl⟩ | ⟨blocks, s₂, hnew, -⟩⟩ := allocateSlots_cases hrun
  · exact htables
  · cases hnew

lemma allocateSlots_keepsLengths {a : AllocArgs} {new : Option (List (List BlockId))}
    (hrun : s.allocateSlots request a = .ok (new, s')) :
    KeepsLengths {request.requestId}ᶜ s s' := by
  obtain ⟨s₁, htables, ⟨-, rfl⟩ | ⟨blocks, s₂, -, hgroups, hlast⟩⟩ := allocateSlots_cases hrun
  · exact htables.mono (Set.subset_univ _)
  · exact ((htables.mono (Set.subset_univ _)).trans (allocateGroups_keepsLengths hgroups)).trans
      (hlast.mono (Set.subset_univ _))

lemma KeepsLengths.only {m : SingleTypeManager} (h : KeepsLengths ids s s')
    (hm : s.singleTypeManagers = [m]) :
    ∃ m', s'.singleTypeManagers = [m'] ∧ SameLengths ids m m' := by
  have hms := h.managers
  rw [hm] at hms
  obtain ⟨m', rest, hsame, hrest, hms'⟩ := List.forall₂_cons_left_iff.mp hms
  cases hrest
  exact ⟨m', hms', hsame⟩

/-- A manager that was made for one group. -/
structure OneGroup (spec : KVCacheSpec) (s : KVCacheManager) : Prop where
  groups : s.config.kvCacheGroups = [spec]
  coordinator : getKvCacheCoordinator s.config = .ok s.coordinator
  manager : ∃ m, s.singleTypeManagers = [m] ∧
    m.shape = (SingleTypeManager.init spec 0 s.config.dcpWorldSize).shape

variable {spec : KVCacheSpec}

lemma init_oneGroup {config : KVCacheConfig} (hgroups : config.kvCacheGroups = [spec])
    (h : init config = .ok s) : OneGroup spec s := by
  obtain ⟨pool, coordinator, -, hcoordinator, rfl⟩ := init_eq h
  exact ⟨hgroups, hcoordinator, SingleTypeManager.init spec 0 config.dcpWorldSize,
    by rw [hgroups]; rfl, rfl⟩

lemma OneGroup.keeps (h : OneGroup spec s) (hkeeps : KeepsLengths ids s s') : OneGroup spec s' := by
  obtain ⟨hgroups, hcoordinator, m, hm, hshape⟩ := h
  obtain ⟨m', hm', hsame⟩ := hkeeps.only hm
  refine ⟨by rw [hkeeps.config, hgroups], ?_, m', hm', ?_⟩
  · rw [hkeeps.config, hkeeps.coordinator, hcoordinator]
  · rw [hkeeps.config, hsame.spec, hshape]

lemma OneGroup.getComputedBlocks (h : OneGroup spec s) {hits : List (List BlockId)} {n : Int}
    (hrun : s.getComputedBlocks request = .ok (hits, n)) :
    n = ((hits.head?.getD []).length : Int) *
      (SingleTypeManager.init spec 0 s.config.dcpWorldSize).blockSize := by
  unfold KVCacheManager.getComputedBlocks at hrun
  split_ifs at hrun with hskip
  · obtain ⟨rfl, rfl⟩ := Prod.mk.inj (Except.ok.inj hrun)
    rw [createEmptyBlockList, h.groups]
    simp
  · have hcaching : ¬ s.config.enableCaching = false := fun hoff => hskip (.inl hoff)
    have hunitary := h.coordinator
    rw [getKvCacheCoordinator, if_neg hcaching, h.groups] at hunitary
    unfold findLongestCacheHit at hrun
    rw [← Except.ok.inj hunitary] at hrun
    obtain ⟨hits', -, hret⟩ := bind_eq_ok.mp hrun
    obtain ⟨rfl, rfl⟩ := Prod.mk.inj (Except.ok.inj hret)
    rfl

/-- The table of a request that got its slots: the hits come behind the blocks it had, and it
has all required blocks. -/
lemma allocateSlots_length {a : AllocArgs} {m : SingleTypeManager} {hits new : List (List BlockId)}
    (hm : s.singleTypeManagers = [m]) (hkind : m.kvCacheSpec.kind ≠ .cross)
    (hhits : a.newComputedBlocks = some hits)
    (hrun : s.allocateSlots request a = .ok (some new, s')) :
    ∃ c rest m', hits = c :: rest ∧ s'.singleTypeManagers = [m'] ∧ m.SameSpec m' ∧
      (m.blocksOf request.requestId = [] ∨ c = []) ∧
      (m'.blocksOf request.requestId).length =
        max ((m.blocksOf request.requestId).length + c.length)
          (m.numRequiredBlocks (s.numTokensNeedSlot request a)).toNat := by
  obtain ⟨s₁, htables, ⟨hnone, -⟩ | ⟨blocks, s₂, -, hgroups, hlast⟩⟩ := allocateSlots_cases hrun
  · cases hnone
  obtain ⟨m₁, hm₁, hsame₁⟩ := htables.only hm
  have hlen₁ := hsame₁.lengths request.requestId (Set.mem_univ _)
  rw [hhits, Option.getD_some] at hgroups
  obtain ⟨pool, -, hgroups⟩ := bind_eq_ok.mp hgroups
  obtain ⟨ms, hsave, hgroups⟩ := bind_eq_ok.mp hgroups
  obtain ⟨⟨new', ms₂, pool₂⟩, halloc, hret⟩ := bind_eq_ok.mp hgroups
  obtain ⟨-, rfl⟩ := Prod.mk.inj (Except.ok.inj hret)
  rw [hm₁] at hsave
  obtain ⟨c, rest, m₂, rfl, rfl, hsaved⟩ := saveNewComputedBlocks_single hsave
  obtain ⟨fresh, m₃, -, rfl, htaken⟩ := forManagers_single halloc
  obtain ⟨hsame₂, hlen₂, hempty⟩ := SingleTypeManager.saveNewComputedBlocks_sameLengths hsaved
  have hspec₂ : m.SameSpec m₂ := hsame₂.spec.trans hsame₁.spec
  have htokens : tokensFor m₂ (s₁.numTokensNeedSlot request a) a.numEncoderTokens =
      s.numTokensNeedSlot request a := by
    rw [tokensFor, if_neg (by rwa [(Prod.mk.inj hspec₂).1]), numTokensNeedSlot,
      numTokensNeedSlot, htables.config]
  rw [htokens] at htaken
  obtain ⟨hsame₃, hlen₃⟩ := SingleTypeManager.allocateNewBlocks_sameLengths htaken
  obtain ⟨m₄, hm₄, hsame₄⟩ := hlast.only (m := m₃) rfl
  refine ⟨c, rest, m₄, rfl, hm₄, hsame₄.spec.trans (hsame₃.spec.trans hspec₂), ?_, ?_⟩
  · refine hempty.imp_left fun hnil => List.length_eq_zero_iff.mp ?_
    rw [← hlen₁, hnil, List.length_nil]
  · rw [hsame₄.lengths _ (Set.mem_univ _), hlen₃, hlen₂, hlen₁,
      SingleTypeManager.numRequiredBlocks_sameSpec hspec₂]

end KVCacheManager

namespace BlockPool

variable {p p' : BlockPool} {b : BlockId}

lemma cacheBlocksLoop_changed {g : Nat} {blocks : List BlockId} {hashes : List BlockHash}
    (hrun : cacheBlocksLoop g p blocks hashes = .ok p') (hb : p'.blockHash b ≠ p.blockHash b) :
    b ∈ blocks := by
  induction blocks generalizing p hashes with
  | nil =>
    obtain rfl := Except.ok.inj hrun
    exact absurd rfl hb
  | cons c blocks ih =>
    cases hashes with
    | nil => simp [cacheBlocksLoop] at hrun
    | cons hash hashes =>
      obtain ⟨_, -, htail⟩ := bind_eq_ok.mp hrun
      by_cases hbc : b = c
      · exact hbc ▸ List.mem_cons_self
      · refine List.mem_cons_of_mem c (ih htail fun hsame => hb (hsame.trans ?_))
        exact if_neg hbc

end BlockPool

namespace KVCacheManager

variable {s s' : KVCacheManager} {request : Request} {m : SingleTypeManager} {b : BlockId}

lemma cacheBlocks_changed {n : Int} (hm : s.singleTypeManagers = [m]) (hsize : 0 < m.blockSize)
    (hn : 0 ≤ n) (hrun : s.cacheBlocks request n = .ok s')
    (hb : s'.blockPool.blockHash b ≠ s.blockPool.blockHash b) :
    ∃ j : Nat, (m.blocksOf request.requestId)[j]? = some b ∧ ((j : Int) + 1) * m.blockSize ≤ n := by
  unfold cacheBlocks at hrun
  split_ifs at hrun
  · obtain ⟨m', hcall, -⟩ := coordinatorCacheBlocks_single hm hrun
    unfold SingleTypeManager.cacheBlocks at hcall
    split at hcall
    · cases hcall
    · split at hcall
      · cases hcall
      · obtain ⟨p, hcache, hret⟩ := bind_eq_ok.mp hcall
        obtain ⟨-, rfl⟩ := Prod.mk.inj (Except.ok.inj hret)
        rcases BlockPool.cacheFullBlocks_cases hcache with ⟨-, hsame⟩ | ⟨-, -, q, hloop, hevents⟩
        · rw [hsame] at hb
          exact absurd rfl hb
        have hq : q.blockHash b ≠ s.blockPool.blockHash b := by
          rcases hevents with ⟨-, heq⟩ | ⟨-, parent, -, heq⟩ <;> rwa [heq] at hb
        have hfull : 0 ≤ n.fdiv m.blockSize := Int.fdiv_nonneg hn hsize.le
        obtain ⟨j, hj, hlt⟩ :=
          exists_of_mem_pySlice hfull (BlockPool.cacheBlocksLoop_changed hloop hq)
        refine ⟨j, hj, ?_⟩
        rw [Int.fdiv_eq_ediv_of_nonneg _ hsize.le] at hlt
        exact (Int.le_ediv_iff_mul_le hsize).mp hlt
  · obtain rfl := Except.ok.inj hrun
    exact absurd rfl hb

end KVCacheManager

end VllmV1
