import Mathlib.Data.List.Nodup
import Mathlib.Data.List.Infix

/-!
# Doubly linked chains

Nodes carry two optional links, mutated one at a time. The links spell a chain of distinct
nodes when each node's next link is its successor there and its previous link its
predecessor. Cutting a segment out of a chain and linking another one in its place spells
the chain with the segment replaced: removal, popping and appending are all of this form.
-/

namespace LinkChain

variable {ν : Type*} [DecidableEq ν]

/-- The links of all nodes. -/
structure Links (ν : Type*) where
  prev : ν → Option ν
  next : ν → Option ν

namespace Links

def setPrev (L : Links ν) (x : ν) (p : Option ν) : Links ν :=
  { L with prev := fun z => if z = x then p else L.prev z }

def setNext (L : Links ν) (x : ν) (n : Option ν) : Links ν :=
  { L with next := fun z => if z = x then n else L.next z }

/-- Connect two nodes, in both directions. -/
def connect (L : Links ν) (a b : ν) : Links ν :=
  (L.setNext a (some b)).setPrev b (some a)

/-- Connect every node of a list with the one after it. -/
def connectAll (L : Links ν) : List ν → Links ν
  | a :: b :: rest => (L.connect a b).connectAll (b :: rest)
  | _ => L

/-- Reset both links of every node of a list. -/
def clearAll (L : Links ν) (nodes : List ν) : Links ν where
  prev z := if z ∈ nodes then none else L.prev z
  next z := if z ∈ nodes then none else L.next z

variable (L : Links ν)

@[simp] lemma setPrev_next (x : ν) (p : Option ν) : (L.setPrev x p).next = L.next := rfl

@[simp] lemma setNext_prev (x : ν) (n : Option ν) : (L.setNext x n).prev = L.prev := rfl

lemma setPrev_prev (x : ν) (p : Option ν) (z : ν) :
    (L.setPrev x p).prev z = if z = x then p else L.prev z := rfl

lemma setNext_next (x : ν) (n : Option ν) (z : ν) :
    (L.setNext x n).next z = if z = x then n else L.next z := rfl

lemma clearAll_nil : L.clearAll [] = L := by
  simp [clearAll]

lemma clearAll_cons (x : ν) (nodes : List ν) :
    L.clearAll (x :: nodes) = ((L.setPrev x none).setNext x none).clearAll nodes := by
  simp only [clearAll, setPrev, setNext, List.mem_cons]
  congr 1 <;> funext z <;> by_cases hz : z ∈ nodes <;> by_cases hx : z = x <;> simp [hz, hx]

end Links

/-- The node after a node's first occurrence. -/
def succIn : List ν → ν → Option ν
  | a :: b :: rest, x => if x = a then some b else succIn (b :: rest) x
  | _, _ => none

@[simp] lemma succIn_singleton (a x : ν) : succIn [a] x = none := rfl

lemma succIn_cons_cons (a b : ν) (rest : List ν) (x : ν) :
    succIn (a :: b :: rest) x = if x = a then some b else succIn (b :: rest) x := rfl

lemma succIn_of_notMem {c : List ν} {x : ν} (h : x ∉ c) : succIn c x = none := by
  fun_induction succIn c x with
  | case1 b rest => simp at h
  | case2 a b rest x _ ih => exact ih (fun hmem => h (List.mem_cons_of_mem _ hmem))
  | case3 => rfl

/-- A list is looked up piece by piece, the pieces sharing a node. -/
lemma succIn_append (s : List ν) (a : ν) (t : List ν) (x : ν) :
    succIn (s ++ a :: t) x = (succIn (s ++ [a]) x).or (succIn (a :: t) x) := by
  induction s with
  | nil => simp
  | cons b s ih =>
    cases s with
    | nil =>
      simp only [List.nil_append, List.cons_append, succIn_cons_cons, succIn_singleton]
      by_cases hx : x = b <;> simp [hx]
    | cons d s =>
      simp only [List.cons_append, succIn_cons_cons] at ih ⊢
      by_cases hx : x = b
      · simp [hx]
      · simp only [hx, if_false, ih]

/-- The last node of a list of distinct nodes has no successor. -/
lemma succIn_last {s : List ν} {a : ν} (h : a ∉ s) : succIn (s ++ [a]) a = none := by
  induction s with
  | nil => rfl
  | cons b s ih =>
    have hb : a ≠ b := fun hab => h (hab ▸ List.mem_cons_self)
    have hs : a ∉ s := fun hmem => h (List.mem_cons_of_mem b hmem)
    cases s with
    | nil => simp [succIn_cons_cons, hb]
    | cons d s => simpa [succIn_cons_cons, hb] using ih hs

/-- Successors are the adjacent nodes. -/
lemma succIn_eq_some {c : List ν} (hc : c.Nodup) {x y : ν} :
    succIn c x = some y ↔ ∃ s t, c = s ++ x :: y :: t := by
  constructor
  · intro h
    fun_induction succIn c x with
    | case1 b rest x =>
      obtain rfl := Option.some.inj h
      exact ⟨[], rest, rfl⟩
    | case2 a b rest x _ ih =>
      obtain ⟨s, t, ht⟩ := ih hc.of_cons h
      exact ⟨a :: s, t, by rw [ht, List.cons_append]⟩
    | case3 => cases h
  · rintro ⟨s, t, rfl⟩
    have hx : x ∉ s := fun hmem => (List.nodup_append.mp hc).2.2 x hmem x (by simp) rfl
    rw [succIn_append, succIn_last hx, succIn_cons_cons, if_pos rfl, Option.none_or]

/-- Predecessors are the successors backwards. -/
lemma succIn_reverse {c : List ν} (hc : c.Nodup) {x y : ν} :
    succIn c.reverse y = some x ↔ succIn c x = some y := by
  rw [succIn_eq_some hc, succIn_eq_some (List.nodup_reverse.mpr hc)]
  constructor
  · rintro ⟨s, t, hst⟩
    refine ⟨t.reverse, s.reverse, ?_⟩
    rw [← List.reverse_reverse c, hst]
    simp
  · rintro ⟨s, t, rfl⟩
    exact ⟨t.reverse, s.reverse, by simp⟩

/-- The next links are the successors in `c`, the previous links the predecessors. -/
structure Spells (L : Links ν) (c : List ν) : Prop where
  next : ∀ z, L.next z = succIn c z
  prev : ∀ z, L.prev z = succIn c.reverse z

lemma Spells.next_iff_prev {L : Links ν} {c : List ν} (h : Spells L c) (hc : c.Nodup) (x y : ν) :
    L.next x = some y ↔ L.prev y = some x := by
  rw [h.next, h.prev, succIn_reverse hc]

lemma Spells.isolated {L : Links ν} {c : List ν} (h : Spells L c) {x : ν} (hx : x ∉ c) :
    L.prev x = none ∧ L.next x = none :=
  ⟨(h.prev x).trans (succIn_of_notMem (by simpa using hx)), (h.next x).trans (succIn_of_notMem hx)⟩

/-- Both links of an inner node. -/
lemma Spells.inner {L : Links ν} {s : List ν} {a x b : ν} {t : List ν}
    (h : Spells L (s ++ a :: x :: b :: t)) (hc : (s ++ a :: x :: b :: t).Nodup) :
    L.prev x = some a ∧ L.next x = some b := by
  have hnext : L.next x = some b := by
    rw [h.next, succIn_eq_some hc]
    exact ⟨s ++ [a], t, by simp⟩
  have hprev : L.next a = some x := by
    rw [h.next, succIn_eq_some hc]
    exact ⟨s, b :: t, rfl⟩
  exact ⟨(h.next_iff_prev hc a x).mp hprev, hnext⟩

lemma connectAll_next (L : Links ν) {c : List ν} (hc : c.Nodup) (z : ν) :
    (L.connectAll c).next z = (succIn c z).or (L.next z) := by
  induction c generalizing L with
  | nil => rfl
  | cons a c ih =>
    cases c with
    | nil => rfl
    | cons b rest =>
      rw [Links.connectAll, ih _ hc.of_cons, succIn_cons_cons, Links.connect,
        Links.setPrev_next, Links.setNext_next]
      by_cases hz : z = a
      · have hna : z ∉ b :: rest := hz ▸ (List.nodup_cons.mp hc).1
        rw [if_pos hz, if_pos hz, succIn_of_notMem hna, Option.none_or, Option.some_or]
      · rw [if_neg hz, if_neg hz]

lemma connectAll_prev (L : Links ν) {c : List ν} (hc : c.Nodup) (z : ν) :
    (L.connectAll c).prev z = (succIn c.reverse z).or (L.prev z) := by
  induction c generalizing L with
  | nil => rfl
  | cons a c ih =>
    cases c with
    | nil => rfl
    | cons b rest =>
      have hrev : (a :: b :: rest).reverse = rest.reverse ++ b :: [a] := by simp
      have hlast : (b :: rest).reverse = rest.reverse ++ [b] := by simp
      rw [Links.connectAll, ih _ hc.of_cons, hrev, succIn_append, ← hlast, Option.or_assoc]
      congr 1
      rw [succIn_cons_cons, succIn_singleton, Links.connect, Links.setPrev_prev]
      by_cases hz : z = b <;> simp [hz]

/-- Fresh links, connected along a list, spell it. -/
theorem connectAll_spells {L : Links ν} (hL : Spells L []) {c : List ν} (hc : c.Nodup) :
    Spells (L.connectAll c) c where
  next z := by rw [connectAll_next L hc, hL.next]; simp [succIn]
  prev z := by rw [connectAll_prev L hc, hL.prev]; simp [succIn]

/-- A further node in front of the chain. -/
lemma Spells.cons {L : Links ν} {h a : ν} {t : List ν} (hL : Spells L (a :: t))
    (hc : (h :: a :: t).Nodup) : Spells (L.connect h a) (h :: a :: t) where
  next z := by
    rw [Links.connect, Links.setPrev_next, Links.setNext_next, succIn_cons_cons, hL.next]
  prev z := by
    have hrev : (h :: a :: t).reverse = t.reverse ++ a :: [h] := by simp
    rw [Links.connect, Links.setPrev_prev, Links.setNext_prev, hrev, succIn_append,
      succIn_cons_cons, succIn_singleton, hL.prev, List.reverse_cons]
    by_cases hz : z = a
    · rw [if_pos hz, if_pos hz, hz, succIn_last (by grind), Option.none_or]
    · rw [if_neg hz, if_neg hz, Option.or_none]

/-- A further node behind the chain. -/
lemma Spells.concat {L : Links ν} {s : List ν} {a b : ν} (hL : Spells L (s ++ [a]))
    (hc : (s ++ [a, b]).Nodup) : Spells (L.connect a b) (s ++ [a, b]) where
  next z := by
    rw [Links.connect, Links.setPrev_next, Links.setNext_next, succIn_append, succIn_cons_cons,
      succIn_singleton, hL.next]
    by_cases hz : z = a
    · rw [if_pos hz, if_pos hz, hz, succIn_last (by grind), Option.none_or]
    · rw [if_neg hz, if_neg hz, Option.or_none]
  prev z := by
    have hrev : (s ++ [a, b]).reverse = b :: a :: s.reverse := by simp
    have hrev' : (s ++ [a]).reverse = a :: s.reverse := by simp
    rw [Links.connect, Links.setPrev_prev, Links.setNext_prev, hrev, succIn_cons_cons, hL.prev,
      hrev']

/-- Every node but the last one has a successor. -/
lemma succIn_isSome {m : List ν} {x : ν} (h : x ∈ m) (b : ν) : (succIn (m ++ [b]) x).isSome := by
  induction m with
  | nil => cases h
  | cons a m ih =>
    cases m with
    | nil =>
      obtain rfl := List.mem_singleton.mp h
      simp [succIn_cons_cons]
    | cons d m =>
      by_cases hx : x = a
      · simp [succIn_cons_cons, hx]
      · simpa [succIn_cons_cons, hx] using ih ((List.mem_cons.mp h).resolve_left hx)

/-- Inside a segment the next links are the successors there. -/
lemma Spells.next_segment {L : Links ν} {s m : List ν} {b : ν} {t : List ν}
    (h : Spells L (s ++ m ++ b :: t)) (hc : (s ++ m ++ b :: t).Nodup) {x : ν} (hx : x ∈ m) :
    L.next x = succIn (m ++ [b]) x := by
  have hseg : (m ++ [b]).Nodup := by grind
  obtain ⟨y, hy⟩ := Option.isSome_iff_exists.mp (succIn_isSome hx b)
  obtain ⟨s', t', hst⟩ := (succIn_eq_some hseg).mp hy
  rw [hy, h.next, succIn_eq_some hc]
  refine ⟨s ++ s', t' ++ t, ?_⟩
  calc s ++ m ++ b :: t = s ++ (m ++ [b]) ++ t := by simp
    _ = (s ++ s') ++ x :: y :: (t' ++ t) := by rw [hst]; simp

/-- The successors after a segment is replaced, from those before. -/
lemma succIn_splice {s : List ν} {a : ν} {m m' : List ν} {b : ν} {t : List ν}
    (hold : (s ++ a :: m ++ b :: t).Nodup) (hnew : (s ++ a :: m' ++ b :: t).Nodup) (z : ν) :
    (succIn (a :: m' ++ [b]) z).or (if z ∈ m then none else succIn (s ++ a :: m ++ b :: t) z)
      = succIn (s ++ a :: m' ++ b :: t) z := by
  have hpieces : ∀ m, succIn (s ++ a :: m ++ b :: t) z
      = (succIn (s ++ [a]) z).or ((succIn (a :: m ++ [b]) z).or (succIn (b :: t) z)) := by
    intro m
    rw [List.append_assoc, List.cons_append, succIn_append s a, ← List.cons_append,
      succIn_append (a :: m) b]
  rw [hpieces m, hpieces m']
  by_cases hm' : z ∈ a :: m'
  · -- inside the new segment: before it nothing, and its own successor comes first
    have hbefore : succIn (s ++ [a]) z = none := by
      rcases List.mem_cons.mp hm' with rfl | hz
      · exact succIn_last (by grind)
      · exact succIn_of_notMem (by grind)
    obtain ⟨y, hy⟩ := Option.isSome_iff_exists.mp (succIn_isSome hm' b)
    rw [hbefore, hy, Option.some_or, Option.some_or, Option.none_or]
  · have hout : ∀ m, z ∉ a :: m → b ∉ a :: m → succIn (a :: m ++ [b]) z = none := by
      intro m hz hb
      by_cases hzb : z = b
      · rw [hzb, succIn_last hb]
      · exact succIn_of_notMem (by grind)
    rw [hout m' hm' (by grind), Option.none_or, Option.none_or]
    by_cases hm : z ∈ m
    · rw [if_pos hm, succIn_of_notMem (by grind), succIn_of_notMem (by grind), Option.none_or]
    · rw [if_neg hm, hout m (by grind) (by grind), Option.none_or]

/-- Cutting `m` out between `a` and `b` and linking `m'` in. -/
theorem splice {L : Links ν} {s : List ν} {a : ν} {m m' : List ν} {b : ν} {t : List ν}
    (h : Spells L (s ++ a :: m ++ b :: t)) (hold : (s ++ a :: m ++ b :: t).Nodup)
    (hnew : (s ++ a :: m' ++ b :: t).Nodup) :
    Spells ((L.clearAll m).connectAll (a :: m' ++ [b])) (s ++ a :: m' ++ b :: t) := by
  have hseg : (a :: m' ++ [b]).Nodup := by grind
  have hrev : ∀ m, (s ++ a :: m ++ b :: t).reverse
      = t.reverse ++ b :: m.reverse ++ a :: s.reverse := by simp
  refine ⟨fun z => ?_, fun z => ?_⟩
  · rw [connectAll_next _ hseg]
    simp only [Links.clearAll, h.next]
    exact succIn_splice hold hnew z
  · have hsegrev : (a :: m' ++ [b]).reverse = b :: m'.reverse ++ [a] := by simp
    rw [connectAll_prev _ hseg, hrev, hsegrev]
    rw [← List.nodup_reverse, hrev] at hold hnew
    simp only [Links.clearAll, h.prev, hrev, ← @List.mem_reverse _ _ m]
    exact succIn_splice hold hnew z

/-- Taking one inner node out, its neighbours being connected first. -/
theorem unlink {L : Links ν} {s : List ν} {a x b : ν} {t : List ν}
    (h : Spells L (s ++ a :: x :: b :: t)) (hc : (s ++ a :: x :: b :: t).Nodup) :
    Spells (((L.connect a b).setPrev x none).setNext x none) (s ++ a :: b :: t) := by
  have hax : a ≠ x := by grind
  have hbx : b ≠ x := by grind
  have hcut : Spells ((L.clearAll [x]).connectAll [a, b]) (s ++ a :: b :: t) := by
    simpa using @splice _ _ L s a [x] [] b t (by simpa using h) (by simpa using hc) (by grind)
  refine ⟨fun z => ?_, fun z => ?_⟩
  · rw [← hcut.next]
    simp only [Links.connectAll, Links.connect, Links.clearAll, Links.setNext, Links.setPrev,
      List.mem_singleton]
    grind
  · rw [← hcut.prev]
    simp only [Links.connectAll, Links.connect, Links.clearAll, Links.setNext, Links.setPrev,
      List.mem_singleton]
    grind

end LinkChain
