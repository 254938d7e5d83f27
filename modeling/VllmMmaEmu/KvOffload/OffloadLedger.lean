import Mathlib.Algebra.Order.Group.Multiset
import VllmMmaEmu.KvOffload.LruManager
import VllmMmaEmu.Library.Recency

/-!
# What the offloading manager keeps

A ledger says which blocks are being stored and how many loads of a block are outstanding.
The reference count of an entry is read off it, and the block ids of the entries and the
free list are those that were handed out.
-/

namespace VllmV1.KvOffload

open Python Recency

lemma toInt32_of_range {n : Int} (hlow : -2 ^ 31 ≤ n) (hhigh : n < 2 ^ 31) : toInt32 n = n := by
  unfold toInt32
  rw [Int.bmod_eq_of_le_mul_two] <;> omega

lemma toInt64_of_range {n : Int} (hlow : 0 ≤ n) (hhigh : n < 2 ^ 63) : toInt64 n = n := by
  unfold toInt64
  rw [Int.bmod_eq_of_le_mul_two] <;> omega

lemma BlockStatus.init_blockId {i : Int} (hlow : 0 ≤ i) (hhigh : i < 2 ^ 63) :
    (BlockStatus.init i).blockId = i := by
  rw [BlockStatus.init, toInt64_of_range hlow hhigh]

namespace CPUBackend

variable {c c' : CPUBackend} {blocks : List BlockStatus}

/-- Blocks as they come from the backend. -/
def Fresh (blocks : List BlockStatus) : Prop := ∀ b ∈ blocks, b.refCnt = -1

lemma allocateFresh_spec (c : CPUBackend) (n : Nat) (hsmall : c.numAllocatedBlocks + n ≤ 2 ^ 63) :
    Fresh (c.allocateFresh n).1 ∧
      (c.allocateFresh n).1.map BlockStatus.blockId =
        (List.range' c.numAllocatedBlocks n).map (fun i : Nat => (i : Int)) ∧
      (c.allocateFresh n).2 = { c with numAllocatedBlocks := c.numAllocatedBlocks + n } := by
  induction n generalizing c with
  | zero => exact ⟨by simp [Fresh, allocateFresh], rfl, rfl⟩
  | succ n ih =>
    obtain ⟨hfresh, hids, hc⟩ :=
      ih { c with numAllocatedBlocks := c.numAllocatedBlocks + 1 } (by simp only; omega)
    refine ⟨List.forall_mem_cons.mpr ⟨rfl, hfresh⟩, ?_, ?_⟩
    · have hid := BlockStatus.init_blockId (i := (c.numAllocatedBlocks : Int)) (by omega) (by omega)
      simp only [allocateFresh, List.map_cons, hid, hids, List.range'_succ]
    · show (allocateFresh { c with numAllocatedBlocks := c.numAllocatedBlocks + 1 } n).2 = _
      rw [hc]
      simp only [CPUBackend.mk.injEq, true_and, and_true]
      omega

lemma allocateReused_spec {n : Nat} (hn : n ≤ c.allocatedBlocksFreeList.length)
    (hids : ∀ i ∈ c.allocatedBlocksFreeList, 0 ≤ i ∧ i < 2 ^ 63) :
    ∃ blocks freeList, c.allocateReused n =
        .ok (blocks, { c with allocatedBlocksFreeList := freeList }) ∧
      Fresh blocks ∧ blocks.length = n ∧
      (freeList ++ blocks.map BlockStatus.blockId).Perm c.allocatedBlocksFreeList := by
  induction n generalizing c with
  | zero => exact ⟨[], c.allocatedBlocksFreeList, rfl, by simp [Fresh], rfl, by simp⟩
  | succ n ih =>
    have hne : c.allocatedBlocksFreeList ≠ [] := by
      intro hnil
      rw [hnil] at hn
      simp at hn
    have hlast := List.getLast?_eq_some_getLast hne
    have hsplit := List.dropLast_append_getLast hne
    have hmem := hids _ (List.getLast_mem hne)
    obtain ⟨blocks, freeList, hrun, hfresh, hlen, hperm⟩ := ih
      (c := { c with allocatedBlocksFreeList := c.allocatedBlocksFreeList.dropLast })
      (by simp only [List.length_dropLast]; omega)
      fun i hi => hids i (List.dropLast_subset _ hi)
    refine ⟨.init (c.allocatedBlocksFreeList.getLast hne) :: blocks, freeList, ?_,
      List.forall_mem_cons.mpr ⟨rfl, hfresh⟩, by simp [hlen], ?_⟩
    · simp only [allocateReused, hlast]
      exact bind_eq_ok.mpr ⟨_, hrun, rfl⟩
    · have hid : (BlockStatus.init (c.allocatedBlocksFreeList.getLast hne)).blockId =
          c.allocatedBlocksFreeList.getLast hne := BlockStatus.init_blockId hmem.1 hmem.2
      rw [List.map_cons, hid]
      refine List.Perm.trans List.perm_middle ?_
      refine (List.Perm.cons _ hperm).trans ?_
      conv_rhs => rw [← hsplit]
      exact (List.perm_append_singleton _ _).symm

lemma allocateBlocks_spec {blockHashes : List BlockHash}
    (hroom : (blockHashes.length : Int) ≤ c.getNumFreeBlocks)
    (hle : c.numAllocatedBlocks ≤ c.numBlocks) (hsmall : c.numBlocks ≤ 2 ^ 63)
    (hids : ∀ i ∈ c.allocatedBlocksFreeList, 0 ≤ i ∧ i < 2 ^ 63) :
    ∃ blocks c' n, c.allocateBlocks blockHashes = .ok (blocks, c') ∧ Fresh blocks ∧
      blocks.length = blockHashes.length ∧ c'.numBlocks = c.numBlocks ∧
      c'.numAllocatedBlocks = c.numAllocatedBlocks + n ∧ c'.numAllocatedBlocks ≤ c.numBlocks ∧
      (c'.allocatedBlocksFreeList ++ blocks.map BlockStatus.blockId).Perm
        (c.allocatedBlocksFreeList ++
          (List.range' c.numAllocatedBlocks n).map (fun i : Nat => (i : Int))) := by
  set n := min blockHashes.length (c.numBlocks - c.numAllocatedBlocks) with hn
  have hfresh : min (blockHashes.length : Int) ((c.numBlocks : Int) - c.numAllocatedBlocks) = n := by
    omega
  have hreused : ((blockHashes.length : Int) - n).toNat = blockHashes.length - n := by omega
  have henough : blockHashes.length - n ≤ c.allocatedBlocksFreeList.length := by
    unfold getNumFreeBlocks at hroom
    omega
  obtain ⟨hf, hfids, hfc⟩ := c.allocateFresh_spec n (by omega)
  obtain ⟨fresh, c₁, hcase⟩ : ∃ fresh c₁, c.allocateFresh n = (fresh, c₁) := ⟨_, _, rfl⟩
  rw [hcase] at hf hfids hfc
  simp only at hf hfids hfc
  subst hfc
  obtain ⟨reused, freeList, hrun, hr, hrlen, hperm⟩ :=
    allocateReused_spec (c := { c with numAllocatedBlocks := c.numAllocatedBlocks + n }) henough hids
  have hflen := congrArg List.length hfids
  simp only [List.length_map, List.length_range'] at hflen
  refine ⟨fresh ++ reused, { c with
      numAllocatedBlocks := c.numAllocatedBlocks + n, allocatedBlocksFreeList := freeList }, n,
    ?_, ?_, ?_, rfl, rfl, ?_, ?_⟩
  · unfold allocateBlocks
    refine bind_eq_ok.mpr ⟨(), pyAssert_eq_ok.mpr ?_, ?_⟩
    · rw [hfresh]
      omega
    · rw [hfresh, hreused, Int.toNat_natCast, hcase]
      exact bind_eq_ok.mpr ⟨_, hrun, rfl⟩
  · intro b hb
    exact (List.mem_append.mp hb).elim (hf b) (hr b)
  · rw [List.length_append]
    omega
  · simp only
    omega
  · rw [List.map_append, hfids]
    simp only
    refine (List.perm_append_comm_assoc _ _ _).trans ?_
    refine ((List.Perm.append_left _ hperm)).trans ?_
    exact List.perm_append_comm

end CPUBackend

namespace LRUOffloadingManager

variable {m m' : LRUOffloadingManager} {loads u : BlockHash → Nat}
  {storing w : BlockHash → Bool} {k : BlockHash} {b : BlockStatus}

/-- A block that `lookup` counts. -/
def ready (m : LRUOffloadingManager) (h : BlockHash) : Bool :=
  (m.blocks.get? h).any BlockStatus.isReady

/-- The block ids of the entries and of the free list. -/
def ids (m : LRUOffloadingManager) : Multiset Int :=
  m.blocks.sumBy (fun b => {b.blockId}) + (m.backend.allocatedBlocksFreeList : Multiset Int)

/-- The block ids that were handed out. -/
def handedOut (m : LRUOffloadingManager) : List Int :=
  (List.range m.backend.numAllocatedBlocks).map fun i : Nat => (i : Int)

/-- The manager agrees with the stores in progress and the outstanding loads. -/
structure Ledger (m : LRUOffloadingManager) (loads : BlockHash → Nat)
    (storing : BlockHash → Bool) : Prop where
  ids : m.ids = m.handedOut
  allocated_le : m.backend.numAllocatedBlocks ≤ m.backend.numBlocks
  numBlocks_le : m.backend.numBlocks ≤ 2 ^ 63
  status : ∀ h b, m.blocks.get? h = some b → b.refCnt = if storing h then -1 else (loads h : Int)
  present : ∀ h, storing h = true ∨ loads h ≠ 0 → h ∈ m.blocks.keys
  apart : ∀ h, storing h = true → loads h = 0
  loads_lt : ∀ h, loads h < 2 ^ 31

lemma Ledger.ready_iff (h : m.Ledger loads storing) (hk : k ∈ m.blocks.keys) :
    m.ready k = !storing k := by
  obtain ⟨b, hb⟩ := Dict.mem_keys_iff.mp hk
  have := h.status k b hb
  unfold ready
  rw [hb, Option.any_some, BlockStatus.isReady, this]
  cases storing k <;> simp

lemma Ledger.get_isReady (h : m.Ledger loads storing) (hb : m.blocks.get? k = some b) :
    b.isReady = !storing k := by
  rw [← h.ready_iff (Dict.mem_keys_iff.mpr ⟨b, hb⟩), ready, hb, Option.any_some]

lemma Ledger.freeList_range (h : m.Ledger loads storing) {i : Int}
    (hi : i ∈ m.backend.allocatedBlocksFreeList) : 0 ≤ i ∧ i < 2 ^ 63 := by
  have hmem : i ∈ m.ids := Multiset.mem_add.mpr (Or.inr (Multiset.mem_coe.mpr hi))
  rw [h.ids, Multiset.mem_coe] at hmem
  obtain ⟨n, hn, rfl⟩ := List.mem_map.mp hmem
  have := List.mem_range.mp hn
  have := h.allocated_le
  have := h.numBlocks_le
  omega

lemma Ledger.setRefCnt (h : m.Ledger loads storing) (hb : m.blocks.get? k = some b) {n : Int}
    (hself : n = if w k then -1 else (u k : Int))
    (hapart : w k = true → u k = 0) (hlt : u k < 2 ^ 31)
    (hrest : ∀ k', k' ≠ k → u k' = loads k' ∧ w k' = storing k') :
    { m with blocks := m.blocks.set k (b.setRefCnt n) }.Ledger u w where
  ids := by
    have hset := m.blocks.sumBy_set (fun b => ({b.blockId} : Multiset Int)) k (b.setRefCnt n)
    have hpart : m.blocks.part (fun b => ({b.blockId} : Multiset Int)) k = {b.blockId} := by
      rw [Dict.part, hb]
      rfl
    rw [hpart] at hset
    have hsame := add_right_cancel hset
    have hids := h.ids
    unfold LRUOffloadingManager.ids at hids ⊢
    rw [hsame]
    exact hids
  allocated_le := h.allocated_le
  numBlocks_le := h.numBlocks_le
  status k' b' hget := by
    rw [Dict.get?_set] at hget
    split_ifs at hget with hk
    · obtain rfl := Option.some.inj hget
      have hrange : -2 ^ 31 ≤ n ∧ n < 2 ^ 31 := by
        rw [hself]
        split_ifs <;> omega
      rw [← hk, BlockStatus.setRefCnt, toInt32_of_range hrange.1 hrange.2]
      exact hself
    · obtain ⟨hl, hs⟩ := hrest k' (Ne.symm hk)
      rw [hl, hs]
      exact h.status k' b' hget
  present k' hk' := by
    rw [Dict.mem_keys_set]
    by_cases hk : k' = k
    · exact Or.inl hk
    · obtain ⟨hl, hs⟩ := hrest k' hk
      rw [hl, hs] at hk'
      exact Or.inr (h.present k' hk')
  apart k' := by
    by_cases hk : k' = k
    · exact hk ▸ hapart
    · obtain ⟨hl, hs⟩ := hrest k' hk
      rw [hl, hs]
      exact h.apart k'
  loads_lt k' := by
    by_cases hk : k' = k
    · exact hk ▸ hlt
    · rw [(hrest k' hk).1]
      exact h.loads_lt k'

lemma Ledger.remove (h : m.Ledger loads storing) (hb : m.blocks.get? k = some b)
    (hself : w k = false ∧ u k = 0)
    (hrest : ∀ k', k' ≠ k → u k' = loads k' ∧ w k' = storing k') :
    { m with blocks := m.blocks.erase k, backend := m.backend.free b }.Ledger u w where
  ids := by
    have herase := m.blocks.sumBy_erase (fun b => ({b.blockId} : Multiset Int)) k
    have hpart : m.blocks.part (fun b => ({b.blockId} : Multiset Int)) k = {b.blockId} := by
      rw [Dict.part, hb]
      rfl
    rw [hpart] at herase
    have hids := h.ids
    unfold LRUOffloadingManager.ids at hids ⊢
    rw [← herase] at hids
    show _ + ((m.backend.allocatedBlocksFreeList ++ [b.blockId] : List Int) : Multiset Int) = _
    rw [← Multiset.coe_add, Multiset.coe_singleton, ← add_assoc, add_right_comm]
    exact hids
  allocated_le := h.allocated_le
  numBlocks_le := h.numBlocks_le
  status k' b' hget := by
    rw [Dict.get?_erase] at hget
    split_ifs at hget with hk
    obtain ⟨hl, hs⟩ := hrest k' (Ne.symm hk)
    rw [hl, hs]
    exact h.status k' b' hget
  present k' hk' := by
    by_cases hk : k' = k
    · rw [hk, hself.1, hself.2] at hk'
      simp at hk'
    · obtain ⟨hl, hs⟩ := hrest k' hk
      rw [hl, hs] at hk'
      exact Dict.mem_keys_erase.mpr ⟨hk, h.present k' hk'⟩
  apart k' hs' := by
    by_cases hk : k' = k
    · rw [hk, hself.2]
    · obtain ⟨hl, hs⟩ := hrest k' hk
      rw [hl, h.apart k' (hs ▸ hs')]
  loads_lt k' := by
    by_cases hk : k' = k
    · rw [hk, hself.2]
      omega
    · rw [(hrest k' hk).1]
      exact h.loads_lt k'

lemma touchBlock_spec (m : LRUOffloadingManager) (k : BlockHash) :
    (∀ h, (m.touchBlock k).blocks.get? h = m.blocks.get? h) ∧ (m.touchBlock k).ids = m.ids ∧
      (m.touchBlock k).backend = m.backend ∧ (m.touchBlock k).events = m.events ∧
      (m.touchBlock k).blocks.keys =
        if k ∈ m.blocks.keys then (m.blocks.erase k).keys ++ [k] else m.blocks.keys := by
  unfold touchBlock
  cases hb : m.blocks.get? k with
  | none =>
    rw [if_neg (Dict.get?_eq_none_iff.mp hb)]
    exact ⟨fun _ => rfl, rfl, rfl, rfl, rfl⟩
  | some b =>
    have hmem : k ∈ m.blocks.keys := Dict.mem_keys_iff.mpr ⟨b, hb⟩
    refine ⟨fun h => ?_, ?_, rfl, rfl, ?_⟩
    · rw [Dict.get?_set]
      split_ifs with hk
      · rw [← hk, hb]
      · exact Dict.get?_erase_of_ne hk _
    · have herase := m.blocks.sumBy_erase (fun b => ({b.blockId} : Multiset Int)) k
      have hset := (m.blocks.erase k).sumBy_set (fun b => ({b.blockId} : Multiset Int)) k b
      have hpart : m.blocks.part (fun b => ({b.blockId} : Multiset Int)) k = {b.blockId} := by
        rw [Dict.part, hb]
        rfl
      have hnone : (m.blocks.erase k).part (fun b => ({b.blockId} : Multiset Int)) k = 0 := by
        rw [Dict.part, Dict.get?_erase_self]
        rfl
      rw [hnone, add_zero] at hset
      rw [hpart] at herase
      unfold ids
      rw [hset, herase]
    · have hnot : k ∉ (m.blocks.erase k).keys := by simp
      rw [if_pos hmem, Dict.keys_set, if_neg hnot]

/-- The ledger only reads the statuses, the ids and the backend. -/
lemma Ledger.of_same (h : m.Ledger loads storing)
    (hget : ∀ k, m'.blocks.get? k = m.blocks.get? k) (hids : m'.ids = m.ids)
    (hbackend : m'.backend = m.backend) : m'.Ledger loads storing where
  ids := by
    rw [hids, h.ids, handedOut, handedOut, hbackend]
  allocated_le := hbackend ▸ h.allocated_le
  numBlocks_le := hbackend ▸ h.numBlocks_le
  status k b hb := h.status k b (hget k ▸ hb)
  present k hk := by
    obtain ⟨b, hb⟩ := Dict.mem_keys_iff.mp (h.present k hk)
    exact Dict.mem_keys_iff.mpr ⟨b, (hget k).trans hb⟩
  apart := h.apart
  loads_lt := h.loads_lt

lemma foldl_touchBlock_spec (l : List BlockHash) (m : LRUOffloadingManager) :
    (∀ h, (l.foldl touchBlock m).blocks.get? h = m.blocks.get? h) ∧
      (l.foldl touchBlock m).ids = m.ids ∧ (l.foldl touchBlock m).backend = m.backend ∧
      (l.foldl touchBlock m).events = m.events ∧
      ∀ uses, InOrder uses m.blocks.keys → InOrder (uses ++ l) (l.foldl touchBlock m).blocks.keys := by
  induction l generalizing m with
  | nil => exact ⟨fun _ => rfl, rfl, rfl, rfl, fun uses h => by rwa [List.append_nil]⟩
  | cons k l ih =>
    obtain ⟨hget, hids, hbackend, hevents, hkeys⟩ := m.touchBlock_spec k
    obtain ⟨hget', hids', hbackend', hevents', horder⟩ := ih (m.touchBlock k)
    refine ⟨fun h => (hget' h).trans (hget h), hids'.trans hids, hbackend'.trans hbackend,
      hevents'.trans hevents, fun uses h => ?_⟩
    rw [List.append_cons, List.foldl_cons]
    refine horder (uses ++ [k]) ?_
    rw [hkeys]
    split_ifs with hk
    · rw [Dict.keys_erase]
      exact h.touch hk
    · exact h.touch_absent hk

lemma Ledger.prepareLoad {hs : List BlockHash} {out : List Int} (h : m.Ledger loads storing)
    (hroom : ∀ k ∈ hs, loads k + hs.count k < 2 ^ 31) (hrun : m.prepareLoad hs = .ok (out, m')) :
    m'.Ledger (fun k => loads k + hs.count k) storing ∧ m'.blocks.keys = m.blocks.keys ∧
      m'.backend = m.backend ∧ m'.events = m.events := by
  induction hs generalizing m loads out with
  | nil =>
    obtain ⟨-, rfl⟩ := Prod.mk.inj (Except.ok.inj hrun)
    exact ⟨h, rfl, rfl, rfl⟩
  | cons k hs ih =>
    obtain ⟨b, hb, hrun⟩ := bind_eq_ok.mp hrun
    obtain ⟨_, hready, hrun⟩ := bind_eq_ok.mp hrun
    obtain ⟨⟨out', m₁⟩, hrest, hrun⟩ := bind_eq_ok.mp hrun
    obtain ⟨-, rfl⟩ := Prod.mk.inj (Except.ok.inj hrun)
    rw [Dict.getItem_eq_ok] at hb
    rw [pyAssert_eq_ok, h.get_isReady hb, Bool.not_eq_true'] at hready
    have hcnt := h.status k b hb
    rw [hready, if_neg Bool.false_ne_true] at hcnt
    have hk := hroom k (List.mem_cons_self)
    rw [List.count_cons_self] at hk
    have hset := h.setRefCnt (n := b.refCnt + 1) hb
      (u := fun k' => loads k' + if k = k' then 1 else 0) (w := storing)
      (by simp [hready, hcnt]) (by simp [hready]) (by simp only [if_true]; omega)
      (fun k' hk' => by simp [Ne.symm hk'])
    obtain ⟨hl, hkeys, hbackend, hevents⟩ := ih hset (fun k' hk' => by
      have := hroom k' (List.mem_cons_of_mem _ hk')
      rw [List.count_cons] at this
      simp only [beq_iff_eq] at this
      omega) hrest
    refine ⟨?_, ?_, hbackend, hevents⟩
    · convert hl using 2 with k'
      rw [List.count_cons]
      simp only [beq_iff_eq]
      omega
    · rw [hkeys, Dict.keys_set, if_pos (Dict.mem_keys_iff.mpr ⟨b, hb⟩)]

lemma Ledger.completeLoad {hs : List BlockHash} (h : m.Ledger loads storing)
    (hrun : m.completeLoad hs = .ok m') :
    m'.Ledger (fun k => loads k - hs.count k) storing ∧ m'.blocks.keys = m.blocks.keys ∧
      m'.backend = m.backend ∧ m'.events = m.events := by
  induction hs generalizing m loads with
  | nil =>
    obtain rfl := Except.ok.inj hrun
    exact ⟨h, rfl, rfl, rfl⟩
  | cons k hs ih =>
    unfold LRUOffloadingManager.completeLoad at hrun ih
    rw [List.foldlM_cons] at hrun
    obtain ⟨m₁, hone, hrest⟩ := bind_eq_ok.mp hrun
    obtain ⟨b, hb, hone⟩ := bind_eq_ok.mp hone
    obtain ⟨_, hpos, hone⟩ := bind_eq_ok.mp hone
    obtain rfl := Except.ok.inj hone
    rw [Dict.getItem_eq_ok] at hb
    rw [pyAssert_eq_ok] at hpos
    have hcnt := h.status k b hb
    have hready : storing k = false := by
      by_contra hne
      rw [Bool.not_eq_false] at hne
      rw [hne, if_pos rfl] at hcnt
      omega
    rw [hready, if_neg Bool.false_ne_true] at hcnt
    have hlt := h.loads_lt k
    have hset := h.setRefCnt (n := b.refCnt - 1) hb
      (u := fun k' => loads k' - if k = k' then 1 else 0) (w := storing)
      (by simp only [hready, Bool.false_eq_true, if_false, if_true]; omega) (by simp [hready]) (by simp only [if_true]; omega)
      (fun k' hk' => by simp [Ne.symm hk'])
    obtain ⟨hl, hkeys, hbackend, hevents⟩ := ih hset hrest
    refine ⟨?_, ?_, hbackend, hevents⟩
    · convert hl using 2 with k'
      rw [List.count_cons]
      simp only [beq_iff_eq]
      omega
    · rw [hkeys, Dict.keys_set, if_pos (Dict.mem_keys_iff.mpr ⟨b, hb⟩)]

/-- The blocks that are dropped or evicted give their ids back. -/
lemma Ledger.evict {evicted : List BlockHash} (h : m.Ledger loads storing)
    (hidle : ∀ k ∈ evicted, k ∈ m.blocks.keys ∧ storing k = false ∧ loads k = 0)
    (hnodup : evicted.Nodup) :
    ∃ m', evicted.foldlM evictBlock m = .ok m' ∧ m'.Ledger loads storing ∧
      m'.blocks.keys = m.blocks.keys.filter (· ∉ evicted) ∧ m'.events = m.events ∧
      m'.backend.numBlocks = m.backend.numBlocks ∧
      m'.backend.getNumFreeBlocks = m.backend.getNumFreeBlocks + evicted.length := by
  induction evicted generalizing m with
  | nil => exact ⟨m, rfl, h, by simp, rfl, rfl, by simp⟩
  | cons k evicted ih =>
    obtain ⟨hk, hrest⟩ := List.nodup_cons.mp hnodup
    obtain ⟨hmem, hself⟩ := hidle k List.mem_cons_self
    obtain ⟨b, hb⟩ := Dict.mem_keys_iff.mp hmem
    have hremove := h.remove hb hself fun k' _ => ⟨rfl, rfl⟩
    obtain ⟨m', hrun, hl, hkeys, hevents, hblocks, hfree⟩ := ih hremove (fun k' hk' => by
      obtain ⟨hmem', hself'⟩ := hidle k' (List.mem_cons_of_mem _ hk')
      exact ⟨Dict.mem_keys_erase.mpr ⟨fun he => hk (he ▸ hk'), hmem'⟩, hself'⟩) hrest
    refine ⟨m', ?_, hl, ?_, hevents, hblocks, ?_⟩
    · rw [List.foldlM_cons]
      exact bind_eq_ok.mpr ⟨_, bind_eq_ok.mpr ⟨b, Dict.getItem_eq_ok.mpr hb, rfl⟩, hrun⟩
    · rw [hkeys, Dict.keys_erase_eq_filter, List.filter_filter]
      refine List.filter_congr fun a _ => ?_
      simp [Bool.and_comm]
    · rw [hfree]
      simp only [CPUBackend.getNumFreeBlocks, CPUBackend.free, List.length_append,
        List.length_cons, List.length_nil]
      omega

lemma addBlocks_spec {d : Dict BlockHash BlockStatus} {hs : List BlockHash}
    {blocks : List BlockStatus} (hlen : blocks.length = hs.length) (hnodup : hs.Nodup)
    (habsent : ∀ k ∈ hs, k ∉ d.keys) :
    (addBlocks d hs blocks).keys = d.keys ++ hs ∧
      (∀ k b, (addBlocks d hs blocks).get? k = some b → k ∈ hs ∧ b ∈ blocks ∨ k ∉ hs ∧ d.get? k = some b) ∧
      (addBlocks d hs blocks).sumBy (fun b => ({b.blockId} : Multiset Int)) =
        d.sumBy (fun b => ({b.blockId} : Multiset Int)) +
          (blocks.map BlockStatus.blockId : Multiset Int) := by
  induction hs generalizing d blocks with
  | nil =>
    obtain rfl := List.length_eq_zero_iff.mp hlen
    exact ⟨by simp [addBlocks], fun k b hb => Or.inr ⟨by simp, hb⟩, by simp [addBlocks]⟩
  | cons k hs ih =>
    obtain ⟨b, blocks, rfl⟩ := List.exists_cons_of_length_eq_add_one hlen
    obtain ⟨hk, hrest⟩ := List.nodup_cons.mp hnodup
    have hknew := habsent k List.mem_cons_self
    have hmem : ∀ k' ∈ hs, k' ∉ (d.set k b).keys := fun k' hk' he =>
      (Dict.mem_keys_set.mp he).elim (fun e => hk (e ▸ hk'))
        (habsent k' (List.mem_cons_of_mem _ hk'))
    obtain ⟨hkeys, hget, hsum⟩ := ih (by simpa using hlen) hrest hmem
    have hstep : addBlocks d (k :: hs) (b :: blocks) = addBlocks (d.set k b) hs blocks := rfl
    rw [hstep]
    refine ⟨?_, fun k' b' hb' => ?_, ?_⟩
    · rw [hkeys, Dict.keys_set, if_neg hknew, List.append_assoc]
      rfl
    · rcases hget k' b' hb' with ⟨hk', hb'⟩ | ⟨hk', hb'⟩
      · exact Or.inl ⟨List.mem_cons_of_mem _ hk', List.mem_cons_of_mem _ hb'⟩
      · rw [Dict.get?_set] at hb'
        split_ifs at hb' with he
        · obtain rfl := Option.some.inj hb'
          exact Or.inl ⟨he ▸ List.mem_cons_self, List.mem_cons_self⟩
        · exact Or.inr ⟨by simp [hk', Ne.symm he], hb'⟩
    · have hset := d.sumBy_set (fun b => ({b.blockId} : Multiset Int)) k b
      rw [Dict.part, Dict.get?_eq_none_iff.mpr hknew] at hset
      simp only [Option.map_none, Option.getD_none, add_zero] at hset
      rw [hsum, hset, add_assoc, List.map_cons, ← Multiset.cons_coe, ← Multiset.singleton_add]

lemma Ledger.allocate {s : List BlockHash} (h : m.Ledger loads storing) (hnodup : s.Nodup)
    (habsent : ∀ k ∈ s, k ∉ m.blocks.keys)
    (hroom : (s.length : Int) ≤ m.backend.getNumFreeBlocks) :
    ∃ blocks backend, m.backend.allocateBlocks s = .ok (blocks, backend) ∧
      blocks.length = s.length ∧
      { m with backend := backend, blocks := addBlocks m.blocks s blocks }.Ledger loads
        (fun k => storing k || k ∈ s) ∧
      (addBlocks m.blocks s blocks).keys = m.blocks.keys ++ s := by
  obtain ⟨blocks, backend, n, hrun, hfresh, hlen, hnum, halloc, hle, hperm⟩ :=
    CPUBackend.allocateBlocks_spec hroom h.allocated_le h.numBlocks_le
      fun i hi => h.freeList_range hi
  obtain ⟨hkeys, hget, hsum⟩ := addBlocks_spec hlen hnodup habsent
  refine ⟨blocks, backend, hrun, hlen, ?_, hkeys⟩
  exact {
    ids := by
      have hids := h.ids
      unfold LRUOffloadingManager.ids at hids ⊢
      unfold handedOut at hids ⊢
      simp only
      have hrange : (List.range (m.backend.numAllocatedBlocks + n)).map (fun i : Nat => (i : Int)) =
          (List.range m.backend.numAllocatedBlocks).map (fun i : Nat => (i : Int)) ++
            (List.range' m.backend.numAllocatedBlocks n).map (fun i : Nat => (i : Int)) := by
        have happend := List.range'_append_1 (s := 0) (m := m.backend.numAllocatedBlocks) (n := n)
        rw [Nat.zero_add] at happend
        rw [List.range_eq_range', List.range_eq_range', ← List.map_append, happend]
      rw [hsum, halloc, hrange, ← Multiset.coe_add, ← hids, add_assoc, add_assoc]
      refine congrArg _ ?_
      rw [add_comm, Multiset.coe_add, Multiset.coe_add]
      exact Multiset.coe_eq_coe.mpr hperm
    allocated_le := hnum ▸ hle
    numBlocks_le := hnum ▸ h.numBlocks_le
    status k b hb := by
      rcases hget k b hb with ⟨hk, hb⟩ | ⟨hk, hb⟩
      · simp [hk, hfresh b hb]
      · simpa [hk] using h.status k b hb
    present k hk := by
      simp only [hkeys, List.mem_append]
      by_cases hin : k ∈ s
      · exact Or.inr hin
      · exact Or.inl (h.present k (by simpa [hin] using hk))
    apart k hk := by
      by_cases hin : k ∈ s
      · by_contra hne
        exact habsent k hin (h.present k (Or.inr hne))
      · exact h.apart k (by simpa [hin] using hk)
    loads_lt := h.loads_lt }

lemma Ledger.markStored {hs stored : List BlockHash} (h : m.Ledger loads storing)
    (hrun : m.markStored hs = .ok (stored, m')) :
    m'.Ledger loads (fun k => storing k && k ∉ hs) ∧ m'.blocks.keys = m.blocks.keys ∧
      m'.backend = m.backend ∧ m'.events = m.events ∧
      ∀ k, k ∈ stored ↔ storing k = true ∧ k ∈ hs := by
  induction hs generalizing m storing stored with
  | nil =>
    obtain ⟨rfl, rfl⟩ := Prod.mk.inj (Except.ok.inj hrun)
    exact ⟨by simpa using h, rfl, rfl, rfl, by simp⟩
  | cons k hs ih =>
    obtain ⟨b, hb, hrun⟩ := bind_eq_ok.mp hrun
    rw [Dict.getItem_eq_ok] at hb
    have hready := h.get_isReady hb
    split_ifs at hrun with hcase
    · rw [hready, Bool.not_eq_true'] at hcase
      obtain ⟨hl, hkeys, hbackend, hevents, hmem⟩ := ih h hrun
      refine ⟨?_, hkeys, hbackend, hevents, fun k' => ?_⟩
      · convert hl using 2 with k'
        by_cases hk : k' = k
        · simp [hk, hcase]
        · simp [hk]
      · rw [hmem, List.mem_cons]
        by_cases hk : k' = k
        · simp [hk, hcase]
        · simp [hk]
    · have hstoring : storing k = true := by simpa [hready] using hcase
      obtain ⟨⟨stored', m₁⟩, hrest, hrun⟩ := bind_eq_ok.mp hrun
      obtain ⟨rfl, rfl⟩ := Prod.mk.inj (Except.ok.inj hrun)
      have hset := h.setRefCnt (n := 0) hb (u := loads)
        (w := fun k' => storing k' && k' ≠ k) (by simp [h.apart k hstoring]) (by simp)
        (h.loads_lt k) fun k' hk' => by simp [hk']
      obtain ⟨hl, hkeys, hbackend, hevents, hmem⟩ := ih hset hrest
      refine ⟨?_, ?_, hbackend, hevents, fun k' => ?_⟩
      · convert hl using 2 with k'
        simp [Bool.and_assoc]
      · rw [hkeys, Dict.keys_set, if_pos (Dict.mem_keys_iff.mpr ⟨b, hb⟩)]
      · rw [List.mem_cons, hmem, List.mem_cons]
        by_cases hk : k' = k
        · simp [hk, hstoring]
        · simp [hk]

lemma Ledger.dropBlocks {hs : List BlockHash} (h : m.Ledger loads storing)
    (hrun : hs.foldlM dropBlock m = .ok m') :
    m'.Ledger loads (fun k => storing k && k ∉ hs) ∧
      m'.blocks.keys = m.blocks.keys.filter (fun k => !(storing k && k ∈ hs)) ∧
      m'.events = m.events := by
  induction hs generalizing m storing with
  | nil =>
    obtain rfl := Except.ok.inj hrun
    exact ⟨by simpa using h, by simp, rfl⟩
  | cons k hs ih =>
    rw [List.foldlM_cons] at hrun
    obtain ⟨m₁, hone, hrest⟩ := bind_eq_ok.mp hrun
    obtain ⟨b, hb, hone⟩ := bind_eq_ok.mp hone
    rw [Dict.getItem_eq_ok] at hb
    have hready := h.get_isReady hb
    split_ifs at hone with hcase
    · obtain rfl := Except.ok.inj hone
      rw [hready, Bool.not_eq_true'] at hcase
      obtain ⟨hl, hkeys, hevents⟩ := ih h hrest
      refine ⟨?_, ?_, hevents⟩
      · convert hl using 2 with k'
        by_cases hk : k' = k
        · simp [hk, hcase]
        · simp [hk]
      · rw [hkeys]
        refine List.filter_congr fun k' _ => ?_
        by_cases hk : k' = k
        · simp [hk, hcase]
        · simp [hk]
    · obtain rfl := Except.ok.inj hone
      have hstoring : storing k = true := by simpa [hready] using hcase
      have hremove := h.remove hb (u := loads)
        (w := fun k' => storing k' && k' ≠ k) (by simp [h.apart k hstoring])
        fun k' hk' => by simp [hk']
      obtain ⟨hl, hkeys, hevents⟩ := ih hremove hrest
      refine ⟨?_, ?_, hevents⟩
      · convert hl using 2 with k'
        simp [Bool.and_assoc]
      · rw [hkeys, Dict.keys_erase_eq_filter, List.filter_filter]
        refine List.filter_congr fun k' _ => ?_
        by_cases hk : k' = k
        · simp [hk, hstoring]
        · simp [hk]

/-- Nothing loads or stores the block. -/
def idle (loads : BlockHash → Nat) (storing : BlockHash → Bool) (k : BlockHash) : Bool :=
  !storing k && loads k = 0

lemma toEvict_eq (l : List (BlockHash × BlockStatus)) (n : Nat) :
    toEvict l n =
      if n ≤ ((l.filter fun p => p.2.refCnt = 0).map Prod.fst).length then
        some (((l.filter fun p => p.2.refCnt = 0).map Prod.fst).take n)
      else none := by
  induction l, n using toEvict.induct with
  | case1 l => simp [toEvict]
  | case2 n => simp [toEvict]
  | case3 h b rest n hb ih =>
    rw [toEvict, if_pos hb, ih, List.filter_cons_of_pos (by simpa using hb)]
    simp only [List.map_cons, List.length_cons, Nat.succ_eq_add_one, Nat.add_le_add_iff_right,
      List.take_succ_cons]
    split_ifs <;> rfl
  | case4 h b rest n hb ih => rw [toEvict, if_neg hb, ih, List.filter_cons_of_neg (by simpa using hb)]

lemma Ledger.idle_entries (h : m.Ledger loads storing) :
    (m.blocks.entries.filter fun p => p.2.refCnt = 0).map Prod.fst =
      m.blocks.keys.filter (idle loads storing) := by
  rw [Dict.keys, List.filter_map]
  refine congrArg _ (List.filter_congr fun p hp => ?_)
  have hstatus := h.status p.1 p.2 (Dict.get?_eq_some_iff.mpr hp)
  rw [Function.comp_apply, idle, hstatus]
  cases storing p.1 <;> simp

end LRUOffloadingManager

end VllmV1.KvOffload
