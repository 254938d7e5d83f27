import VllmMmaEmu.KvCache.FreeBlockQueue
import VllmMmaEmu.KvCache.PoolInvariant

/-!
# The free block queue is a plain list

The links of the queue spell the chain of its blocks between the fake head and the fake tail.
Every operation cuts a segment out of the chain and links another one in, and does to the
list of blocks what the operation of the same name does to a plain list.
-/

namespace VllmV1

open LinkChain Python FreeListNode

namespace FreeKVCacheBlockQueue

def chain (l : List BlockId) : List FreeListNode :=
  fakeFreeListHead :: l.map block ++ [fakeFreeListTail]

/-- The queue stands for the list. -/
structure Holds (q : FreeKVCacheBlockQueue) (l : List BlockId) : Prop where
  nodup : l.Nodup
  spells : Spells q.links (chain l)
  count : q.numFreeBlocks = l.length

lemma block_injective : Function.Injective block := fun _ _ h => FreeListNode.block.inj h

@[simp] lemma block_mem_chain {l : List BlockId} {b : BlockId} : block b ∈ chain l ↔ b ∈ l := by
  simp [chain]

lemma chain_nodup {l : List BlockId} (h : l.Nodup) : (chain l).Nodup := by
  have hmap : (l.map block).Nodup := h.map block_injective
  rw [chain, List.nodup_append, List.nodup_cons]
  refine ⟨⟨by simp, hmap⟩, by simp, ?_⟩
  intro a ha c hc
  obtain rfl := List.mem_singleton.mp hc
  rintro rfl
  simp at ha

lemma exists_neighbours (s t : List BlockId) : ∃ s' a y t',
    (∀ m, chain (s ++ m ++ t) = s' ++ a :: m.map block ++ y :: t') ∧
    (s = [] → s' = [] ∧ a = fakeFreeListHead) ∧ (t = [] → y = fakeFreeListTail ∧ t' = []) := by
  have hbefore : ∃ s' a, fakeFreeListHead :: s.map block = s' ++ [a] ∧
      (s = [] → s' = [] ∧ a = fakeFreeListHead) := by
    rcases List.eq_nil_or_concat s with rfl | ⟨s', b, rfl⟩
    · exact ⟨[], _, rfl, fun _ => ⟨rfl, rfl⟩⟩
    · exact ⟨fakeFreeListHead :: s'.map block, block b, by simp, by simp⟩
  have hafter : ∃ y t', t.map block ++ [fakeFreeListTail] = y :: t' ∧
      (t = [] → y = fakeFreeListTail ∧ t' = []) := by
    cases t with
    | nil => exact ⟨_, [], rfl, fun _ => ⟨rfl, rfl⟩⟩
    | cons b t => exact ⟨block b, t.map block ++ [fakeFreeListTail], rfl, by simp⟩
  obtain ⟨s', a, hs, hs0⟩ := hbefore
  obtain ⟨y, t', ht, ht0⟩ := hafter
  refine ⟨s', a, y, t', fun m => ?_, hs0, ht0⟩
  calc chain (s ++ m ++ t)
      = (fakeFreeListHead :: s.map block) ++ m.map block ++ (t.map block ++ [fakeFreeListTail]) := by
        simp [chain]
    _ = s' ++ a :: m.map block ++ y :: t' := by rw [hs, ht]; simp

lemma initLoop_some (a b : BlockId) (rest : List BlockId) (L : Links FreeListNode) :
    initLoop (some a) (b :: rest) (L.setNext (block a) (some (block b)))
      = L.connectAll ((a :: b :: rest).map block) := by
  induction rest generalizing a b L with
  | nil => rfl
  | cons c rest ih => exact ih b c (L.connect (block a) (block b))

lemma initLoop_none (blocks : List BlockId) (L : Links FreeListNode) :
    initLoop none blocks L = L.connectAll (blocks.map block) := by
  cases blocks with
  | nil => rfl
  | cons b rest =>
    cases rest with
    | nil => rfl
    | cons c rest => exact initLoop_some b c rest L

lemma init_holds {blocks : List BlockId} (h : blocks.Nodup) : (init blocks).Holds blocks := by
  refine ⟨h, ?_, rfl⟩
  have hfresh : Spells (⟨fun _ => none, fun _ => none⟩ : Links FreeListNode) [] :=
    ⟨fun _ => rfl, fun _ => rfl⟩
  have hnodup := chain_nodup h
  cases blocks with
  | nil => exact connectAll_spells hfresh (c := [fakeFreeListHead, fakeFreeListTail]) (by decide)
  | cons first rest =>
    obtain ⟨s, last, hlast⟩ : ∃ s last, first :: rest = s ++ [last] :=
      ⟨_, _, (List.dropLast_append_getLast (List.cons_ne_nil first rest)).symm⟩
    -- the blocks are connected first, then the head in front of them, then the tail behind
    have hblocks := connectAll_spells hfresh (h.map block_injective)
    have hhead := hblocks.cons (h := fakeFreeListHead) (by
      rw [chain] at hnodup
      exact (List.nodup_append.mp hnodup).1)
    have hchain : chain (first :: rest)
        = (fakeFreeListHead :: s.map block) ++ [block last, fakeFreeListTail] := by
      rw [chain, hlast]
      simp
    rw [show fakeFreeListHead :: block first :: rest.map block
      = (fakeFreeListHead :: s.map block) ++ [block last] by
        rw [← List.map_cons, hlast]; simp] at hhead
    have htail := hhead.concat (b := fakeFreeListTail) (hchain ▸ hnodup)
    have hgetLast : (first :: rest).getLast? = some last := by rw [hlast]; simp
    rw [hchain]
    simp only [init, hgetLast, List.head?_cons, initLoop_none]
    exact htail

variable {q : FreeKVCacheBlockQueue} {l : List BlockId}

lemma Holds.popleft_nil (h : q.Holds []) :
    q.popleft = (.error (.valueError "No free blocks available"), q) := by
  have hfirst : q.links.next fakeFreeListHead = some fakeFreeListTail := h.spells.next _
  have hcount : q.numFreeBlocks = 0 := h.count
  rw [popleft, hfirst]
  simp only [hcount, if_true]

lemma Holds.popleft_cons {b : BlockId} (h : q.Holds (b :: l)) :
    ∃ q', q.popleft = (.ok (block b), q') ∧ q'.Holds l := by
  obtain ⟨s, a, y, t, hchain, hs, -⟩ := exists_neighbours [] l
  obtain ⟨rfl, rfl⟩ := hs rfl
  have hspells := h.spells
  have hnodup := chain_nodup h.nodup
  rw [show chain (b :: l) = [] ++ fakeFreeListHead :: block b :: y :: t from hchain [b]]
    at hspells hnodup
  have hfirst : q.links.next fakeFreeListHead = some (block b) := h.spells.next _
  have hsecond : q.links.next (block b) = some y :=
    (hspells.inner (s := []) hnodup).2
  have hpop : q.popleft = (.ok (block b),
      ⟨((q.links.connect fakeFreeListHead y).setPrev (block b) none).setNext (block b) none,
        q.numFreeBlocks - 1⟩) := by
    rw [popleft, hfirst]
    simp only [hsecond]
    rfl
  refine ⟨_, hpop, h.nodup.of_cons, ?_, ?_⟩
  · rw [show chain l = [] ++ fakeFreeListHead :: y :: t from hchain []]
    exact unlink hspells hnodup
  · have hcount := h.count
    simp only [List.length_cons] at hcount ⊢
    omega

/-- The loop of `popleft_n` collects the nodes of the chain and resets their links. -/
lemma popLoop_eq {L : Links FreeListNode} {p : List FreeListNode} {y : FreeListNode}
    (hp : (p ++ [y]).Nodup) (hnext : ∀ x ∈ p, L.next x = succIn (p ++ [y]) x) :
    popLoop p.length L (p ++ [y]).head? = (.ok p, some y, L.clearAll p) := by
  induction p generalizing L with
  | nil => rw [List.length_nil, popLoop, Links.clearAll_nil]; rfl
  | cons x p ih =>
    rw [List.cons_append, List.nodup_cons] at hp
    have hx : L.next x = (p ++ [y]).head? := by
      rw [hnext x List.mem_cons_self]
      cases p <;> simp [succIn_cons_cons]
    have hrest : ∀ z ∈ p, ((L.setPrev x none).setNext x none).next z = succIn (p ++ [y]) z := by
      intro z hz
      have hzx : z ≠ x := fun h => hp.1 (h ▸ List.mem_append_left _ hz)
      rw [Links.setNext_next, if_neg hzx, Links.setPrev_next, hnext z (List.mem_cons_of_mem x hz)]
      cases p with
      | nil => cases hz
      | cons d p => simp [succIn_cons_cons, hzx]
    simp only [List.length_cons, List.cons_append, List.head?_cons, popLoop, hx, ih hp.2 hrest,
      Links.clearAll_cons]
    rfl

lemma Holds.popleftN {n : Nat} (h : q.Holds l) (hn : n ≤ l.length) :
    ∃ q', q.popleftN n = (.ok ((l.take n).map block), q') ∧ q'.Holds (l.drop n) := by
  by_cases hn0 : n = 0
  · subst hn0
    exact ⟨q, by simp [FreeKVCacheBlockQueue.popleftN], by simpa using h⟩
  obtain ⟨s, a, y, t, hchain, hs, -⟩ := exists_neighbours [] (l.drop n)
  obtain ⟨rfl, rfl⟩ := hs rfl
  have hl : chain l = [] ++ fakeFreeListHead :: (l.take n).map block ++ y :: t := by
    rw [← hchain (l.take n), List.nil_append, List.take_append_drop]
  have hrest : chain (l.drop n) = [] ++ fakeFreeListHead :: [] ++ y :: t := hchain []
  have hspells := h.spells
  have hnodup := chain_nodup h.nodup
  have hnodup' : (chain (l.drop n)).Nodup := chain_nodup (h.nodup.sublist (List.drop_sublist n l))
  rw [hl] at hspells hnodup
  rw [hrest] at hnodup'
  have hcut := splice hspells hnodup hnodup'
  have hlen : ((l.take n).map block).length = n := by simp [hn]
  have hfirst : q.links.next fakeFreeListHead = ((l.take n).map block ++ [y]).head? := by
    rw [hspells.next]
    cases (l.take n).map block <;> simp [succIn_cons_cons]
  have hinner : ∀ x ∈ (l.take n).map block,
      q.links.next x = succIn ((l.take n).map block ++ [y]) x := fun x hx =>
    Spells.next_segment (s := [fakeFreeListHead]) hspells hnodup hx
  have hloop : popLoop n q.links (q.links.next fakeFreeListHead)
      = (.ok ((l.take n).map block), some y, q.links.clearAll ((l.take n).map block)) := by
    have hpopped := popLoop_eq (by grind) hinner
    rwa [hlen, ← hfirst] at hpopped
  have hcount : q.numFreeBlocks ≥ n := by
    have := h.count
    omega
  have hpop : q.popleftN n = (.ok ((l.take n).map block),
      ⟨(q.links.clearAll ((l.take n).map block)).connect fakeFreeListHead y,
        q.numFreeBlocks - n⟩) := by
    rw [FreeKVCacheBlockQueue.popleftN, if_neg hn0, if_pos hcount, hloop]
    rfl
  refine ⟨_, hpop, h.nodup.sublist (List.drop_sublist n l), ?_, ?_⟩
  · rw [hrest]
    exact hcut
  · have := h.count
    simp only [List.length_drop]
    omega

lemma Holds.popleftN_fails {n : Nat} (h : q.Holds l) (hn : l.length < n) :
    q.popleftN n = (.error .assertionError, q) := by
  have hcount : ¬ q.numFreeBlocks ≥ n := by
    have := h.count
    omega
  rw [FreeKVCacheBlockQueue.popleftN, if_neg (by omega), if_neg hcount]

variable (blockRepr : BlockId → String) {b : BlockId}

lemma Holds.remove (h : q.Holds l) (hb : b ∈ l) :
    ∃ q', q.remove blockRepr b = (.ok (), q') ∧ q'.Holds (l.erase b) := by
  obtain ⟨s, t, rfl⟩ := List.append_of_mem hb
  obtain ⟨s', a, y, t', hchain, -, -⟩ := exists_neighbours s t
  have hl : chain (s ++ b :: t) = s' ++ a :: block b :: y :: t' := by simpa using hchain [b]
  have hrest : chain (s ++ t) = s' ++ a :: y :: t' := by simpa using hchain []
  have herase : (s ++ b :: t).erase b = s ++ t := by
    have hbs : b ∉ s := fun hmem => (List.nodup_append.mp h.nodup).2.2 b hmem b (by simp) rfl
    rw [List.erase_append_right _ hbs, List.erase_cons_head]
  have hspells := h.spells
  have hnodup := chain_nodup h.nodup
  rw [hl] at hspells hnodup
  obtain ⟨hprev, hnext⟩ := hspells.inner hnodup
  have hremove : q.remove blockRepr b = (.ok (),
      ⟨((q.links.connect a y).setPrev (block b) none).setNext (block b) none,
        q.numFreeBlocks - 1⟩) := by
    rw [FreeKVCacheBlockQueue.remove, hprev, hnext]
    rfl
  refine ⟨_, hremove, h.nodup.erase b, ?_, ?_⟩
  · rw [herase, hrest]
    exact unlink hspells hnodup
  · have := h.count
    rw [herase]
    simp only [List.length_append, List.length_cons] at this ⊢
    omega

lemma Holds.remove_fails (h : q.Holds l) (hb : b ∉ l) : q.remove blockRepr b =
    (.error (.runtimeError ("remove() called on an invalid block: " ++ blockRepr b)), q) := by
  obtain ⟨hprev, hnext⟩ := h.spells.isolated (mt block_mem_chain.mp hb)
  rw [FreeKVCacheBlockQueue.remove, hprev, hnext]

lemma appendLoop_eq (L : Links FreeListNode) (a : FreeListNode) (blocks : List BlockId) :
    ((appendLoop L a blocks).2.connect (appendLoop L a blocks).1 fakeFreeListTail)
      = L.connectAll (a :: blocks.map block ++ [fakeFreeListTail]) := by
  induction blocks generalizing L a with
  | nil => rfl
  | cons b blocks ih => exact ih (L.connect a (block b)) (block b)

lemma Holds.appendLinks {blocks : List BlockId} (h : q.Holds l) (hnew : (l ++ blocks).Nodup) :
    ∃ a, q.links.prev fakeFreeListTail = some a ∧
      Spells (q.links.connectAll (a :: blocks.map block ++ [fakeFreeListTail]))
        (chain (l ++ blocks)) := by
  obtain ⟨s, a, y, t, hchain, -, ht⟩ := exists_neighbours l []
  obtain ⟨rfl, rfl⟩ := ht rfl
  have hl : chain l = s ++ a :: [] ++ [fakeFreeListTail] := by simpa using hchain []
  have hl' : chain (l ++ blocks) = s ++ a :: blocks.map block ++ [fakeFreeListTail] := by
    simpa using hchain blocks
  have hspells := h.spells
  have hnodup := chain_nodup h.nodup
  have hnodup' := chain_nodup hnew
  rw [hl] at hspells hnodup
  rw [hl'] at hnodup' ⊢
  refine ⟨a, ?_, ?_⟩
  · rw [hspells.prev]
    simp [succIn_cons_cons]
  · have hlink := splice hspells hnodup hnodup'
    rwa [Links.clearAll_nil] at hlink

lemma Holds.append (h : q.Holds l) (hb : b ∉ l) :
    ∃ q', q.append b = (.ok (), q') ∧ q'.Holds (l ++ [b]) := by
  have hnew : (l ++ [b]).Nodup := by grind [h.nodup]
  obtain ⟨a, hprev, hspells⟩ := h.appendLinks hnew
  have happend : q.append b = (.ok (),
      ⟨q.links.connectAll [a, block b, fakeFreeListTail], q.numFreeBlocks + 1⟩) := by
    rw [FreeKVCacheBlockQueue.append, hprev]
    rfl
  refine ⟨_, happend, hnew, hspells, ?_⟩
  have := h.count
  simp only [List.length_append, List.length_singleton]
  omega

lemma Holds.appendN {blocks : List BlockId} (h : q.Holds l) (hnew : (l ++ blocks).Nodup) :
    ∃ q', q.appendN blocks = (.ok (), q') ∧ q'.Holds (l ++ blocks) := by
  cases blocks with
  | nil => exact ⟨q, rfl, by simpa using h⟩
  | cons b blocks =>
    obtain ⟨a, hprev, hspells⟩ := h.appendLinks hnew
    rw [← appendLoop_eq] at hspells
    have happend : q.appendN (b :: blocks) = (.ok (),
        ⟨(appendLoop q.links a (b :: blocks)).2.connect (appendLoop q.links a (b :: blocks)).1
          fakeFreeListTail, q.numFreeBlocks + (b :: blocks).length⟩) := by
      rw [FreeKVCacheBlockQueue.appendN, if_neg (by simp), hprev]
      rfl
    refine ⟨_, happend, hnew, hspells, ?_⟩
    have := h.count
    simp only [List.length_append]
    omega

/-- The walk from the first node of a chain to its last one. -/
lemma collectLoop_eq {L : Links FreeListNode} {p : List FreeListNode} {y first : FreeListNode}
    (hp : (p ++ [y]).Nodup) (hnext : ∀ x ∈ p, L.next x = succIn (p ++ [y]) x)
    (hlast : L.next y = none) (hfirst : (p ++ [y]).head? = some first) {fuel : Nat}
    (hfuel : p.length < fuel) : collectLoop L fuel first = .ok p := by
  induction p generalizing first fuel with
  | nil =>
    obtain rfl := Option.some.inj hfirst
    obtain ⟨fuel, rfl⟩ := Nat.exists_eq_succ_of_ne_zero (by omega : fuel ≠ 0)
    simp [collectLoop, hlast]
  | cons x p ih =>
    obtain rfl := Option.some.inj hfirst
    obtain ⟨fuel, rfl⟩ := Nat.exists_eq_succ_of_ne_zero (by omega : fuel ≠ 0)
    rw [List.cons_append, List.nodup_cons] at hp
    obtain ⟨second, hsecond⟩ : ∃ second, (p ++ [y]).head? = some second := by
      cases p <;> simp
    have hx : L.next x = some second := by
      rw [hnext x List.mem_cons_self, ← hsecond]
      cases p <;> simp [succIn_cons_cons]
    have hrest : ∀ z ∈ p, L.next z = succIn (p ++ [y]) z := by
      intro z hz
      have hzx : z ≠ x := fun h => hp.1 (h ▸ List.mem_append_left _ hz)
      rw [hnext z (List.mem_cons_of_mem x hz)]
      cases p with
      | nil => cases hz
      | cons d p => simp [succIn_cons_cons, hzx]
    rw [collectLoop, hx]
    simp only [ih hp.2 hrest hsecond (Nat.lt_of_succ_lt_succ hfuel), ok_bind, pure_eq]

lemma Holds.getAllFreeBlocks (h : q.Holds l) {fuel : Nat} (hfuel : l.length < fuel) :
    q.getAllFreeBlocks fuel = .ok (l.map block) := by
  have hnodup := chain_nodup h.nodup
  have hlast : q.links.next fakeFreeListTail = none := by
    rw [h.spells.next]
    exact succIn_last (by simp)
  have hinner : ∀ x ∈ l.map block,
      q.links.next x = succIn (l.map block ++ [fakeFreeListTail]) x := fun x hx =>
    Spells.next_segment (s := [fakeFreeListHead]) (t := []) h.spells hnodup hx
  obtain ⟨first, hfirst⟩ : ∃ first, (l.map block ++ [fakeFreeListTail]).head? = some first := by
    cases l <;> simp
  have hhead : q.links.next fakeFreeListHead = some first := by
    rw [h.spells.next, ← hfirst]
    cases l <;> simp [chain, succIn_cons_cons]
  rw [FreeKVCacheBlockQueue.getAllFreeBlocks, hhead]
  exact collectLoop_eq (by grind [chain]) hinner hlast hfirst (by simpa using hfuel)

/-- One operation on the queue is the operation on the list. -/
lemma Holds.perform (h : q.Holds l) {op : Operation} (hop : Allowed l op) :
    (q.perform blockRepr op).2.Holds (listAfter l op) ∧
    (q.perform blockRepr op).1.toOption = (listPerform l op).map (·.1.map block) ∧
    ((listPerform l op) = none → (q.perform blockRepr op).2 = q) := by
  cases op with
  | popleft =>
    cases l with
    | nil => simp [FreeKVCacheBlockQueue.perform, h.popleft_nil, listAfter, listPerform, h, Except.map,
        Except.toOption]
    | cons b l =>
      obtain ⟨q', hpop, hq'⟩ := h.popleft_cons
      simp [FreeKVCacheBlockQueue.perform, hpop, listAfter, listPerform, hq', Except.map,
        Except.toOption]
  | popleftN n =>
    by_cases hn : n ≤ l.length
    · obtain ⟨q', hpop, hq'⟩ := h.popleftN hn
      simp [FreeKVCacheBlockQueue.perform, hpop, listAfter, listPerform, hn, hq', Except.toOption]
    · have hpop := h.popleftN_fails (Nat.lt_of_not_le hn)
      simp [FreeKVCacheBlockQueue.perform, hpop, listAfter, listPerform, hn, h, Except.toOption]
  | remove b =>
    by_cases hb : b ∈ l
    · obtain ⟨q', hremove, hq'⟩ := h.remove blockRepr hb
      simp [FreeKVCacheBlockQueue.perform, hremove, listAfter, listPerform, hb, hq', Except.map,
        Except.toOption]
    · have hremove := h.remove_fails blockRepr hb
      simp [FreeKVCacheBlockQueue.perform, hremove, listAfter, listPerform, hb, h, Except.map,
        Except.toOption]
  | append b =>
    obtain ⟨q', happend, hq'⟩ := h.append hop
    simp [FreeKVCacheBlockQueue.perform, happend, listAfter, listPerform, hq', Except.map,
      Except.toOption]
  | appendN blocks =>
    have hnew : (l ++ blocks).Nodup := by grind [h.nodup, hop.1, hop.2]
    obtain ⟨q', happend, hq'⟩ := h.appendN hnew
    simp [FreeKVCacheBlockQueue.perform, happend, listAfter, listPerform, hq', Except.map,
      Except.toOption]

/-- The queue after a sequence of operations; one that raises is followed by the next. -/
def performAll (q : FreeKVCacheBlockQueue) (ops : List Operation) : FreeKVCacheBlockQueue :=
  ops.foldl (fun q op => (q.perform blockRepr op).2) q

def listAfterAll (l : List BlockId) (ops : List Operation) : List BlockId :=
  ops.foldl listAfter l

/-- Every operation is allowed where it comes. -/
def AllAllowed : List BlockId → List Operation → Prop
  | _, [] => True
  | l, op :: ops => Allowed l op ∧ AllAllowed (listAfter l op) ops

instance decidableAllAllowed : (l : List BlockId) → (ops : List Operation) →
    Decidable (AllAllowed l ops)
  | _, [] => inferInstanceAs (Decidable True)
  | l, op :: ops =>
    have := decidableAllAllowed (listAfter l op) ops
    inferInstanceAs (Decidable (Allowed l op ∧ AllAllowed (listAfter l op) ops))

lemma Holds.performAll {ops : List Operation} (h : q.Holds l) (hops : AllAllowed l ops) :
    (q.performAll blockRepr ops).Holds (listAfterAll l ops) := by
  induction ops generalizing q l with
  | nil => exact h
  | cons op ops ih => exact ih (h.perform blockRepr hops.1).1 hops.2

/-- All that can be seen of a queue is as for the plain list, and the next operation, whatever
it is, does what it does to the plain list. -/
structure Mirrors (q : FreeKVCacheBlockQueue) (l : List BlockId) : Prop where
  count : q.numFreeBlocks = l.length
  all : ∀ fuel, l.length < fuel → q.getAllFreeBlocks fuel = .ok (l.map block)
  linksAgree : ∀ x y, q.links.next x = some y ↔ q.links.prev y = some x
  isolated : ∀ b, b ∉ l → q.links.prev (block b) = none ∧ q.links.next (block b) = none
  returns : ∀ op, Allowed l op →
    (q.perform blockRepr op).1.toOption = (listPerform l op).map (·.1.map block)
  fails : ∀ op, Allowed l op →
    ((∃ e, (q.perform blockRepr op).1 = .error e) ↔ listPerform l op = none)
  unchanged : ∀ op, Allowed l op → ∀ e, (q.perform blockRepr op).1 = .error e →
    (q.perform blockRepr op).2 = q

lemma Holds.mirrors (h : q.Holds l) : q.Mirrors blockRepr l := by
  have hfails : ∀ op, Allowed l op →
      ((∃ e, (q.perform blockRepr op).1 = .error e) ↔ listPerform l op = none) := by
    intro op hop
    rw [← Option.map_eq_none_iff (f := (·.1.map block)), ← (h.perform blockRepr hop).2.1]
    cases (q.perform blockRepr op).1 <;> simp [Except.toOption]
  refine ⟨h.count, fun fuel hfuel => h.getAllFreeBlocks hfuel, ?_, ?_, ?_, hfails, ?_⟩
  · exact h.spells.next_iff_prev (chain_nodup h.nodup)
  · exact fun b hb => h.spells.isolated (mt block_mem_chain.mp hb)
  · exact fun op hop => (h.perform blockRepr hop).2.1
  · exact fun op hop e he => (h.perform blockRepr hop).2.2 ((hfails op hop).mp ⟨e, he⟩)

/-- The queue of any run of operations is the plain list of that run. -/
theorem queue_mirrors_list (blockRepr : BlockId → String) {blocks : List BlockId}
    (hblocks : blocks.Nodup) {ops : List Operation} (hops : AllAllowed blocks ops) :
    ((init blocks).performAll blockRepr ops).Mirrors blockRepr (listAfterAll blocks ops) :=
  ((init_holds hblocks).performAll blockRepr hops).mirrors blockRepr

theorem queue_mirrors_list_three :
    ((init [1, 2, 3]).performAll (fun _ => "") [.popleftN 2, .remove 7, .appendN [2, 1],
      .remove 2, .popleftN 3, .append 2, .popleft]).Mirrors (fun _ => "") [1, 2] :=
  queue_mirrors_list (fun _ => "") (by decide) (by decide)

section Pool

variable {p p' : BlockPool} {held : BlockId → Nat}

/-- `get_new_blocks` pops the blocks it returns. -/
theorem Holds.getNewBlocks (h : q.Holds p.freeBlockQueue) (hok : p.Ok held) {n : Int}
    {blocks : List BlockId} (hrun : p.getNewBlocks n = .ok (blocks, p')) :
    ∃ q', q.popleftN n.toNat = (.ok (blocks.map block), q') ∧ q'.Holds p'.freeBlockQueue := by
  obtain ⟨-, -, -, -, hlen, hfree⟩ := BlockPool.getNewBlocks_ok hok hrun
  unfold BlockPool.getNewBlocks at hrun
  split_ifs at hrun with hgt
  obtain ⟨_, -, hpair⟩ := bind_eq_ok.mp hrun
  obtain ⟨rfl, -⟩ := Prod.mk.inj (Except.ok.inj hpair)
  rw [hfree]
  exact h.popleftN (by rw [List.length_take] at hlen; omega)

/-- `touch` takes a free block out of the middle of the queue. -/
theorem Holds.touchBlock (h : q.Holds p.freeBlockQueue) (hrun : p.touchBlock b = .ok p') :
    if p.refCnt b = 0 ∧ b ≠ nullBlock then
      ∃ q', q.remove blockRepr b = (.ok (), q') ∧ q'.Holds p'.freeBlockQueue
    else q.Holds p'.freeBlockQueue := by
  unfold BlockPool.touchBlock at hrun
  by_cases hfree : p.refCnt b = 0 ∧ b ≠ nullBlock
  · rw [if_pos hfree] at hrun ⊢
    split_ifs at hrun with hmem
    obtain rfl := Except.ok.inj hrun
    exact h.remove blockRepr hmem
  · rw [if_neg hfree] at hrun ⊢
    obtain rfl := Except.ok.inj hrun
    exact h

/-- `free_blocks` appends distinct blocks that are not in the queue. -/
theorem Holds.freeBlocks {blocks : List BlockId} (h : q.Holds p.freeBlockQueue)
    (hok : p.Ok (fun b => held b + blocks.count b)) (hblocks : (blocks.filter (· ≠ 0)).Nodup) :
    ∃ released q', (p.freeBlocks blocks).freeBlockQueue = p.freeBlockQueue ++ released ∧
      q.appendN released = (.ok (), q') ∧ q'.Holds (p.freeBlocks blocks).freeBlockQueue := by
  have hnodup := (BlockPool.freeBlocks_ok hok hblocks).1.counted.nodup
  rw [BlockPool.freeBlocks_eq] at hnodup ⊢
  obtain ⟨q', happend, hq'⟩ := h.appendN hnodup
  exact ⟨_, q', rfl, happend, hq'⟩

end Pool

end FreeKVCacheBlockQueue

end VllmV1
