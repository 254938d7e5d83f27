import VllmMmaEmu.KvOffload.OffloadLedger
import VllmMmaEmu.Library.Runs

/-!
# Runs of the offloading manager

A session is the manager with what its callers did: the loads and stores in progress, the
uses of the blocks and the events that were taken.
-/

namespace VllmV1.KvOffload

open Python Recency

structure Session where
  manager : LRUOffloadingManager
  loads : BlockHash → Nat
  storing : BlockHash → Bool
  uses : List BlockHash
  taken : List OffloadingEvent

inductive Op where
  | lookup (blockHashes : List BlockHash)
  | touch (blockHashes : List BlockHash)
  | prepareLoad (blockHashes : List BlockHash)
  | completeLoad (blockHashes : List BlockHash)
  | prepareStore (blockHashes : List BlockHash)
  | completeStore (blockHashes : List BlockHash) (success : Bool)
  | takeEvents

namespace Session

def init (blockSize numBlocks : Nat) (enableEvents : Bool) : Session where
  manager := .init { blockSize, numBlocks } enableEvents
  loads _ := 0
  storing _ := false
  uses := []
  taken := []

/-- A touch and the insertion of a block are its uses. -/
def step (s : Session) : Op → Except PyError Session
  | .lookup _ => .ok s
  | .touch hs =>
    .ok { s with manager := s.manager.touch hs, uses := s.uses ++ hs.reverse }
  | .prepareLoad hs => do
    let (_, m) ← s.manager.prepareLoad hs
    return { s with manager := m, loads := fun h => s.loads h + hs.count h }
  | .completeLoad hs => do
    let m ← s.manager.completeLoad hs
    return { s with manager := m, loads := fun h => s.loads h - hs.count h }
  | .prepareStore hs => do
    match ← s.manager.prepareStore hs with
    | (none, m) => return { s with manager := m }
    | (some out, m) => return { s with
        manager := m
        storing := fun h => s.storing h || h ∈ out.blockHashesToStore
        uses := s.uses ++ out.blockHashesToStore }
  | .completeStore hs success => do
    let m ← s.manager.completeStore hs success
    return { s with manager := m, storing := fun h => s.storing h && h ∉ hs }
  | .takeEvents =>
    let (events, m) := s.manager.takeEvents
    .ok { s with manager := m, taken := s.taken ++ events }

end Session

/-- The hashes of one `prepare_store` are distinct, and a load that completes was prepared. -/
def Op.Allowed (s : Session) : Op → Prop
  | .prepareStore hs => hs.Nodup
  | .completeLoad hs => ∀ h ∈ hs, hs.count h ≤ s.loads h
  | _ => True

/-- The loads of one block fit into its counter. -/
def Op.InRange (s : Session) : Op → Prop
  | .prepareLoad hs => ∀ h ∈ hs, s.loads h + hs.count h < 2 ^ 31
  | _ => True

instance (s : Session) (op : Op) : Decidable (op.Allowed s) := match op with
  | .prepareStore hs => inferInstanceAs (Decidable hs.Nodup)
  | .completeLoad hs => inferInstanceAs (Decidable (∀ h ∈ hs, hs.count h ≤ s.loads h))
  | .lookup _ | .touch _ | .prepareLoad _ | .completeStore _ _ | .takeEvents => .isTrue trivial

instance (s : Session) (op : Op) : Decidable (op.InRange s) := match op with
  | .prepareLoad hs => inferInstanceAs (Decidable (∀ h ∈ hs, s.loads h + hs.count h < 2 ^ 31))
  | .lookup _ | .touch _ | .completeLoad _ | .prepareStore _ | .completeStore _ _ | .takeEvents =>
    .isTrue trivial

def applyEvent (ready : BlockHash → Bool) (e : OffloadingEvent) (h : BlockHash) : Bool :=
  if h ∈ e.blockHashes then !e.removed else ready h

/-- The hashes that are ready according to the events. -/
def replay (events : List OffloadingEvent) : BlockHash → Bool :=
  events.foldl applyEvent fun _ => false

namespace LRUOffloadingManager

/-- The hashes that are not there yet. -/
def hashesToStore (m : LRUOffloadingManager) (hs : List BlockHash) : List BlockHash :=
  hs.filter (· ∉ m.blocks.keys)

/-- How many blocks are missing for a store. -/
def numToEvict (m : LRUOffloadingManager) (hs : List BlockHash) : Nat :=
  ((m.hashesToStore hs).length - m.backend.getNumFreeBlocks).toNat

end LRUOffloadingManager

/-- The hashes of ready entries that nothing uses, least recently used first. -/
def Session.evictable (s : Session) : List BlockHash :=
  (lastUsed s.uses).filter fun h =>
    s.manager.ready h && (s.manager.blocks.get? h).any (·.refCnt = 0) && !s.storing h &&
      s.loads h = 0

/-- What `prepare_store` answers: the blocks to evict are no more than needed and the least
recently used ones, and nothing happens when there are too few. -/
def Session.StoreAnswer (s : Session) (hs : List BlockHash) :
    Option PrepareStoreOutput × LRUOffloadingManager → Prop
  | (none, m) => m = s.manager ∧ s.evictable.length < s.manager.numToEvict hs
  | (some out, m) =>
    out.blockHashesToStore = s.manager.hashesToStore hs ∧
      out.blockHashesEvicted = s.evictable.take (s.manager.numToEvict hs) ∧
      out.blockHashesEvicted.length = s.manager.numToEvict hs ∧
      ∀ h, h ∈ m.blocks.keys ↔
        h ∈ s.manager.blocks.keys ∧ h ∉ out.blockHashesEvicted ∨ h ∈ out.blockHashesToStore

/-- The manager is right about a session. -/
structure Session.WellKept (s : Session) : Prop where
  ids : (s.manager.blocks.values.map BlockStatus.blockId ++
    s.manager.backend.allocatedBlocksFreeList).Perm s.manager.handedOut
  allocated_le : s.manager.backend.numAllocatedBlocks ≤ s.manager.backend.numBlocks
  in_use : ∀ h, s.storing h = true ∨ s.loads h ≠ 0 → h ∈ s.manager.blocks.keys
  stores : ∀ hs : List BlockHash, hs.Nodup →
    ∃ answer, s.manager.prepareStore hs = .ok answer ∧ s.StoreAnswer hs answer
  events : ∀ events, s.manager.events = some events →
    ∀ h, replay (s.taken ++ events) h = s.manager.ready h

structure Session.Consistent (s : Session) : Prop where
  ledger : s.manager.Ledger s.loads s.storing
  order : InOrder s.uses s.manager.blocks.keys
  events : ∀ events, s.manager.events = some events → replay (s.taken ++ events) = s.manager.ready

lemma Dict.sumBy_singleton (d : Dict BlockHash BlockStatus) :
    d.sumBy (fun b => ({b.blockId} : Multiset Int)) = d.values.map BlockStatus.blockId := by
  unfold Dict.sumBy Dict.values
  induction d.entries with
  | nil => rfl
  | cons p rest ih => rw [List.map_cons, List.sum_cons, ih, Multiset.singleton_add]; rfl

lemma replay_concat (events : List OffloadingEvent) (e : OffloadingEvent) :
    replay (events ++ [e]) = applyEvent (replay events) e := by
  rw [replay, List.foldl_append]
  rfl

namespace LRUOffloadingManager

variable {m m' : LRUOffloadingManager} {loads : BlockHash → Nat} {storing : BlockHash → Bool}

lemma Ledger.ready_eq (h : m.Ledger loads storing) (k : BlockHash) :
    m.ready k = (decide (k ∈ m.blocks.keys) && !storing k) := by
  by_cases hk : k ∈ m.blocks.keys
  · rw [h.ready_iff hk, decide_eq_true hk, Bool.true_and]
  · rw [ready, Dict.get?_eq_none_iff.mpr hk, decide_eq_false hk, Bool.false_and, Option.any_none]

lemma replay_appendEvent {taken : List OffloadingEvent} {hs : List BlockHash} {removed : Bool}
    (hold : ∀ events, m.events = some events → replay (taken ++ events) = m.ready)
    (hready : ∀ k, m'.ready k = if k ∈ hs then !removed else m.ready k)
    {n : LRUOffloadingManager} (hn : n.events = m.events)
    {events : List OffloadingEvent} (hevents : (n.appendEvent hs removed).events = some events) :
    replay (taken ++ events) = m'.ready := by
  unfold appendEvent at hevents
  split_ifs at hevents with hnil
  · rw [hold events (hn ▸ hevents)]
    funext k
    simp [hready, hnil]
  · obtain ⟨before, hbefore, rfl⟩ := Option.map_eq_some_iff.mp hevents
    rw [← List.append_assoc, replay_concat, hold before (hn ▸ hbefore)]
    funext k
    exact (hready k).symm

lemma appendEvent_ids (hs : List BlockHash) (removed : Bool) :
    (m.appendEvent hs removed).blocks = m.blocks ∧
      (m.appendEvent hs removed).backend = m.backend := by
  unfold appendEvent
  split_ifs
  · exact ⟨rfl, rfl⟩
  · exact ⟨rfl, rfl⟩

lemma Ledger.appendEvent (h : m.Ledger loads storing) (hs : List BlockHash) (removed : Bool) :
    (m.appendEvent hs removed).Ledger loads storing := by
  obtain ⟨hblocks, hbackend⟩ := m.appendEvent_ids hs removed
  refine h.of_same (fun k => by rw [hblocks]) ?_ hbackend
  unfold LRUOffloadingManager.ids
  rw [hblocks, hbackend]

/-- `prepare_store` evicts the first idle entries, or does nothing when they are too few. -/
lemma Ledger.prepareStore {hs : List BlockHash} (h : m.Ledger loads storing) (hnodup : hs.Nodup) :
    (m.blocks.keys.filter (idle loads storing)).length < m.numToEvict hs ∧
        m.prepareStore hs = .ok (none, m) ∨
      ∃ out m' evicted, m.prepareStore hs = .ok (some out, m') ∧
        evicted = (m.blocks.keys.filter (idle loads storing)).take (m.numToEvict hs) ∧
        evicted.length = m.numToEvict hs ∧
        out.blockHashesToStore = m.hashesToStore hs ∧ out.blockHashesEvicted = evicted ∧
        m'.Ledger loads (fun k => storing k || k ∈ m.hashesToStore hs) ∧
        m'.blocks.keys = m.blocks.keys.filter (· ∉ evicted) ++ m.hashesToStore hs ∧
        ∃ n : LRUOffloadingManager,
          n.events = m.events ∧ m'.events = (n.appendEvent evicted true).events := by
  have hcollect := toEvict_eq m.blocks.entries (m.numToEvict hs)
  rw [h.idle_entries] at hcollect
  simp only [LRUOffloadingManager.prepareStore]
  change toEvict m.blocks.entries (((hs.filter (· ∉ m.blocks.keys)).length : Int) -
    m.backend.getNumFreeBlocks).toNat = _ at hcollect
  split_ifs at hcollect with henough
  · set evicted := (m.blocks.keys.filter (idle loads storing)).take (m.numToEvict hs) with hevicted
    have hlen : evicted.length = m.numToEvict hs := by
      rw [hevicted, List.length_take]
      omega
    have hidle : ∀ k ∈ evicted, k ∈ m.blocks.keys ∧ storing k = false ∧ loads k = 0 := by
      intro k hk
      obtain ⟨hmem, hi⟩ := List.mem_filter.mp (List.mem_of_mem_take hk)
      simpa [idle, hmem] using hi
    have hnodupE : evicted.Nodup :=
      List.Nodup.sublist (List.take_sublist _ _) (m.blocks.keys_nodup.filter _)
    obtain ⟨m₁, hrun, hl, hkeys, hevents, -, hfree⟩ := h.evict hidle hnodupE
    have hl' := hl.appendEvent evicted true
    obtain ⟨hblocks, hbackend⟩ := m₁.appendEvent_ids evicted true
    have habsent : ∀ k ∈ m.hashesToStore hs, k ∉ (m₁.appendEvent evicted true).blocks.keys := by
      intro k hk hin
      rw [hblocks, hkeys] at hin
      have := (List.mem_filter.mp hk).2
      simp [(List.mem_filter.mp hin).1] at this
    obtain ⟨blocks, backend, halloc, hcount, hledger, hadded⟩ :=
      hl'.allocate (s := m.hashesToStore hs) (hnodup.filter _) habsent (by
        rw [hbackend, hfree, hlen, numToEvict]
        omega)
    refine Or.inr ⟨⟨m.hashesToStore hs, blocks.map BlockStatus.blockId, evicted⟩, _, evicted, ?_,
      rfl, hlen, rfl, rfl, hledger, by rw [hadded, hblocks, hkeys],
      m₁, hevents, rfl⟩
    · rw [hcollect]
      exact bind_eq_ok.mpr ⟨m₁, hrun, bind_eq_ok.mpr ⟨(blocks, backend), halloc,
        bind_eq_ok.mpr ⟨(), pyAssert_eq_ok.mpr hcount, rfl⟩⟩⟩
  · refine Or.inl ⟨by omega, ?_⟩
    rw [hcollect]

end LRUOffloadingManager

namespace Session

variable {s s' : Session}

open LRUOffloadingManager

lemma consistent_init {blockSize numBlocks : Nat} (enableEvents : Bool)
    (hsmall : numBlocks ≤ 2 ^ 63) : (init blockSize numBlocks enableEvents).Consistent where
  ledger := {
    ids := by simp [LRUOffloadingManager.ids, handedOut, init, LRUOffloadingManager.init]
    allocated_le := Nat.zero_le _
    numBlocks_le := hsmall
    status := by simp [init, LRUOffloadingManager.init]
    present := by simp [init]
    apart := by simp [init]
    loads_lt := by simp [init] }
  order := inOrder_nil
  events events hevents := by
    cases enableEvents with
    | false => simp [init, LRUOffloadingManager.init] at hevents
    | true =>
      obtain rfl : [] = events := by simpa [init, LRUOffloadingManager.init] using hevents
      rfl

/-- A step that keeps the keys, the stores and the events keeps the hashes that are ready. -/
lemma Consistent.of_keys (h : s.Consistent) (hl : s'.manager.Ledger s'.loads s'.storing)
    (horder : InOrder s'.uses s'.manager.blocks.keys)
    (hmem : ∀ k, k ∈ s'.manager.blocks.keys ↔ k ∈ s.manager.blocks.keys)
    (hstoring : s'.storing = s.storing) (htaken : s'.taken = s.taken)
    (hevents : s'.manager.events = s.manager.events) : s'.Consistent := by
  refine ⟨hl, horder, fun events he => ?_⟩
  rw [htaken, h.events events (hevents ▸ he)]
  funext k
  rw [h.ledger.ready_eq, hl.ready_eq, hstoring, decide_eq_decide.mpr (hmem k)]

lemma Consistent.prepareStore {hs : List BlockHash} (h : s.Consistent) (hnodup : hs.Nodup)
    (hrun : s.step (.prepareStore hs) = .ok s') : s'.Consistent := by
  obtain ⟨answer, hanswer, hrun⟩ := bind_eq_ok.mp hrun
  rcases h.ledger.prepareStore hnodup with ⟨-, hnone⟩ |
    ⟨out, m', evicted, hsome, hevicted, -, hstored, -, hl, hkeys, n, hn, hevents⟩
  · rw [hnone] at hanswer
    obtain rfl := Except.ok.inj hanswer
    obtain rfl := Except.ok.inj hrun
    exact h
  · rw [hsome] at hanswer
    obtain rfl := Except.ok.inj hanswer
    obtain rfl := Except.ok.inj hrun
    have habsent : ∀ k ∈ s.manager.hashesToStore hs, k ∉ s.manager.blocks.keys := fun k hk =>
      by simpa using (List.mem_filter.mp hk).2
    have hidle : ∀ k ∈ evicted, k ∈ s.manager.blocks.keys ∧ s.storing k = false := by
      intro k hk
      rw [hevicted] at hk
      obtain ⟨hmem, hi⟩ := List.mem_filter.mp (List.mem_of_mem_take hk)
      simp [idle] at hi
      exact ⟨hmem, hi.1⟩
    refine ⟨?_, ?_, fun events he => ?_⟩
    · simpa only [hstored] using hl
    · simp only [hkeys, hstored]
      exact (h.order.filter _).insert_list (hnodup.filter _) fun k hk hin =>
        habsent k hk (List.mem_filter.mp hin).1
    · refine replay_appendEvent h.events (fun k => ?_) hn (hevents ▸ he)
      rw [hl.ready_eq, h.ledger.ready_eq, hkeys]
      by_cases hin : k ∈ s.manager.hashesToStore hs
      · have hout : k ∉ evicted := fun he => habsent k hin (hidle k he).1
        simp [hin, hout, habsent k hin]
      · by_cases hout : k ∈ evicted
        · simp [hin, hout]
        · simp [hin, hout]

lemma Consistent.completeStore {hs : List BlockHash} {success : Bool} (h : s.Consistent)
    (hrun : s.step (.completeStore hs success) = .ok s') : s'.Consistent := by
  obtain ⟨m', hm, hrun⟩ := bind_eq_ok.mp hrun
  obtain rfl := Except.ok.inj hrun
  cases success with
  | true =>
    obtain ⟨⟨stored, m₁⟩, hmark, hm⟩ := bind_eq_ok.mp hm
    obtain rfl := Except.ok.inj hm
    obtain ⟨hl, hkeys, hbackend, hevents, hmem⟩ := h.ledger.markStored hmark
    have hl' := hl.appendEvent stored false
    obtain ⟨hblocks, -⟩ := m₁.appendEvent_ids stored false
    refine ⟨hl', ?_, fun events he => ?_⟩
    · simp only [hblocks, hkeys]
      exact h.order
    · refine replay_appendEvent h.events (fun k => ?_) hevents he
      rw [hl'.ready_eq, h.ledger.ready_eq, hblocks, hkeys]
      by_cases hin : k ∈ stored
      · have hk := (hmem k).mp hin
        simp [hin, hk.2, h.ledger.present k (Or.inl hk.1)]
      · have hk : ¬(s.storing k = true ∧ k ∈ hs) := fun hk => hin ((hmem k).mpr hk)
        by_cases hs' : k ∈ hs <;> simp_all
  | false =>
    obtain ⟨hl, hkeys, hevents⟩ := h.ledger.dropBlocks hm
    refine ⟨hl, ?_, fun events he => ?_⟩
    · simp only [hkeys]
      exact h.order.filter _
    · simp only at he ⊢
      rw [h.events events (hevents ▸ he)]
      funext k
      rw [h.ledger.ready_eq, hl.ready_eq, hkeys]
      by_cases hk : k ∈ hs
      · by_cases hst : s.storing k = true <;> simp [hk, hst]
      · simp [hk]

/-- Each step keeps the ledger, the order of last use and the events. -/
theorem Consistent.step {op : Op} (h : s.Consistent) (hallowed : op.Allowed s)
    (hrange : op.InRange s) (hrun : s.step op = .ok s') : s'.Consistent := by
  cases op with
  | lookup hs =>
    obtain rfl := Except.ok.inj hrun
    exact h
  | touch hs =>
    obtain rfl := Except.ok.inj hrun
    obtain ⟨hget, hids, hbackend, hevents, horder⟩ := foldl_touchBlock_spec hs.reverse s.manager
    refine h.of_keys (h.ledger.of_same hget hids hbackend) (horder _ h.order) (fun k => ?_) rfl rfl
      hevents
    rw [Dict.mem_keys_iff, Dict.mem_keys_iff]
    exact exists_congr fun b => by rw [← hget]; rfl
  | prepareLoad hs =>
    obtain ⟨⟨out, m'⟩, hm, hrun⟩ := bind_eq_ok.mp hrun
    obtain rfl := Except.ok.inj hrun
    obtain ⟨hl, hkeys, hbackend, hevents⟩ := h.ledger.prepareLoad hrange hm
    exact h.of_keys hl (hkeys ▸ h.order) (fun k => by simp only [hkeys]) rfl rfl hevents
  | completeLoad hs =>
    obtain ⟨m', hm, hrun⟩ := bind_eq_ok.mp hrun
    obtain rfl := Except.ok.inj hrun
    obtain ⟨hl, hkeys, hbackend, hevents⟩ := h.ledger.completeLoad hm
    exact h.of_keys hl (hkeys ▸ h.order) (fun k => by simp only [hkeys]) rfl rfl hevents
  | prepareStore hs => exact h.prepareStore hallowed hrun
  | completeStore hs success => exact h.completeStore hrun
  | takeEvents =>
    obtain rfl := Except.ok.inj hrun
    cases hevents : s.manager.events with
    | none =>
      rw [List.append_nil]
      exact h
    | some events =>
      refine ⟨h.ledger.of_same (fun _ => rfl) rfl rfl, h.order, fun rest hrest => ?_⟩
      obtain rfl := Option.some.inj hrest
      rw [List.append_nil]
      exact h.events events hevents

lemma Consistent.evictable_eq (h : s.Consistent) :
    s.evictable = s.manager.blocks.keys.filter (idle s.loads s.storing) := by
  conv_rhs => rw [h.order, List.filter_filter]
  refine List.filter_congr fun k _ => ?_
  rw [h.ledger.ready_eq]
  cases hget : s.manager.blocks.get? k with
  | none => simp [Dict.get?_eq_none_iff.mp hget]
  | some b =>
    have hstatus := h.ledger.status k b hget
    have hmem : k ∈ s.manager.blocks.keys := Dict.mem_keys_iff.mpr ⟨b, hget⟩
    cases hst : s.storing k <;> simp [idle, hst, hmem, hstatus]

lemma Consistent.wellKept (h : s.Consistent) : s.WellKept where
  ids := by
    have hids := h.ledger.ids
    rw [← Multiset.coe_eq_coe, ← hids, ← Multiset.coe_add, LRUOffloadingManager.ids]
    rw [Dict.sumBy_singleton]
  allocated_le := h.ledger.allocated_le
  in_use := h.ledger.present
  stores hs hnodup := by
    rcases h.ledger.prepareStore hnodup with ⟨hfew, hnone⟩ |
      ⟨out, m', evicted, hsome, hevicted, hlen, hstored, hout, hl, hkeys, -⟩
    · exact ⟨_, hnone, rfl, h.evictable_eq ▸ hfew⟩
    · refine ⟨_, hsome, hstored, ?_, hout ▸ hlen, fun k => ?_⟩
      · rw [hout, hevicted, h.evictable_eq]
      · rw [hkeys, hstored, hout]
        simp
  events events he k := by rw [h.events events he]

end Session

/-- A session starts with an empty store. -/
def Session.Started (s : Session) : Prop :=
  ∃ blockSize numBlocks enableEvents, s = .init blockSize numBlocks enableEvents

/-- While no block has more than `2 ^ 31 - 1` outstanding loads and the backend has no more
than `2 ^ 63` blocks, the manager keeps its promise. -/
theorem offloading_store_invariants {s : Session}
    (h : Runs.Reached (fun s => s.Started ∧ s.manager.backend.numBlocks ≤ 2 ^ 63)
      (fun s op => op.Allowed s ∧ op.InRange s) (fun s op s' => s.step op = .ok s') s) :
    s.WellKept := by
  refine (h.invariant (I := Session.Consistent) ?_ ?_).wellKept
  · rintro s ⟨⟨blockSize, numBlocks, enableEvents, rfl⟩, hsmall⟩
    exact Session.consistent_init enableEvents hsmall
  · intro s op s' hs hok hstep
    exact hs.step hok.1 hok.2 hstep

/-- A store, a load of it and a second store that has to wait for it. -/
theorem offloading_store_invariants_of_one_load : ∃ s : Session, s.WellKept ∧
    s.loads [7] = 1 ∧ s.taken.length = 1 := by
  have hrun : Runs.runAllowed (fun s op => op.Allowed s ∧ op.InRange s) Session.step
      (.init 16 1 true) [.prepareStore [[7]], .completeStore [[7]] true, .prepareLoad [[7]],
        .touch [[7]], .prepareStore [[8]], .takeEvents] = some _ := rfl
  exact ⟨_, offloading_store_invariants (.of_runAllowed (.start ⟨⟨16, 1, true, rfl⟩, by decide⟩) hrun),
    rfl, rfl⟩

/-- The only block of a store after `n` loads. -/
def loadedTimes (n : Int) : LRUOffloadingManager where
  backend := { blockSize := 16, numBlocks := 1, numAllocatedBlocks := 1 }
  blocks := ⟨[([7], ⟨n, 0⟩)], by simp⟩
  events := some [⟨[[7]], 16, "CPU", false⟩]

lemma loadedTimes_prepareLoad (n : Nat) :
    (loadedTimes n).prepareLoad [[7]] = .ok ([0], loadedTimes (toInt32 (n + 1))) := by
  have hready : BlockStatus.isReady ⟨n, 0⟩ = true := by simp [BlockStatus.isReady]
  unfold LRUOffloadingManager.prepareLoad
  refine bind_eq_ok.mpr ⟨⟨n, 0⟩, rfl, bind_eq_ok.mpr ⟨(), pyAssert_eq_ok.mpr hready, rfl⟩⟩

/-- The sessions with any number of loads. -/
def Session.Reachable : Session → Prop :=
  Runs.Reached Session.Started (fun s op => op.Allowed s) fun s op s' => s.step op = .ok s'

lemma exists_loaded_succ {n : Nat}
    (h : ∃ s : Session, s.Reachable ∧ s.manager = loadedTimes n ∧ s.taken = []) :
    ∃ s : Session, s.Reachable ∧ s.manager = loadedTimes (toInt32 (n + 1)) ∧ s.taken = [] := by
  obtain ⟨s, hs, hmanager, htaken⟩ := h
  have hload := loadedTimes_prepareLoad n
  rw [← hmanager] at hload
  refine ⟨_, .step (e := .prepareLoad [[7]]) hs trivial (bind_eq_ok.mpr ⟨_, hload, rfl⟩), rfl, htaken⟩

lemma exists_loaded {n : Nat} (hn : n < 2 ^ 31) :
    ∃ s : Session, s.Reachable ∧ s.manager = loadedTimes n ∧ s.taken = [] := by
  induction n with
  | zero =>
    have hrun : (Runs.runAllowed (fun s op => op.Allowed s) Session.step (.init 16 1 true)
        [.prepareStore [[7]], .completeStore [[7]] true]).map (fun s => (s.manager, s.taken)) =
          some (loadedTimes 0, []) := by decide +kernel
    obtain ⟨s, hs, heq⟩ := Option.map_eq_some_iff.mp hrun
    obtain ⟨hmanager, htaken⟩ := Prod.mk.inj heq
    exact ⟨s, .of_runAllowed (.start ⟨16, 1, true, rfl⟩) hs, hmanager, htaken⟩
  | succ n ih =>
    have hmore := exists_loaded_succ (ih (by omega))
    rwa [toInt32_of_range (by omega) (by omega)] at hmore

/-- After `2 ^ 31` loads of one block the manager takes it for a block that is being stored. -/
theorem offloading_load_counter_wraps : ¬∀ s : Session, s.Reachable → s.WellKept := by
  intro hall
  obtain ⟨s, hs, hmanager, htaken⟩ := exists_loaded_succ (exists_loaded (n := 2 ^ 31 - 1) (by omega))
  have hready := (hall s hs).events [⟨[[7]], 16, "CPU", false⟩] (by rw [hmanager]; rfl) [7]
  rw [htaken, hmanager] at hready
  exact absurd hready (by decide)

end VllmV1.KvOffload
