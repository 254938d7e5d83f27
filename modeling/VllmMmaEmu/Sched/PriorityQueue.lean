import Mathlib.Data.List.Pairwise
import Mathlib.Data.Multiset.Filter
import Mathlib.Data.Prod.Lex
import VllmMmaEmu.Library.Runs
import VllmMmaEmu.Sched.RequestQueue

/-!
# The priority queue of requests

A `PriorityRequestQueue` keeps its requests in a heap of tuples that end in the request, and
requests have no order: two different ones of the same priority and arrival time cannot be
compared. A queue in which no two tie yields its requests in order and never raises; a queue
in which two tie cannot be iterated over.
-/

namespace VllmV1

open Python Heapq

/-- What the requests of a queue are ordered by. -/
def HeapItem.rank (item : HeapItem) : Int ×ₗ Int := toLex (item.priority, item.arrivalTime)

/-- Two requests that `<` cannot tell apart. -/
def HeapItem.Tied (a b : HeapItem) : Prop :=
  a.priority = b.priority ∧ a.arrivalTime = b.arrivalTime ∧ a.request ≠ b.request

instance (a b : HeapItem) : Decidable (a.Tied b) :=
  inferInstanceAs (Decidable (_ ∧ _ ∧ _))

def NoTies (bag : Multiset HeapItem) : Prop := ∀ a ∈ bag, ∀ b ∈ bag, ¬ a.Tied b

instance (bag : Multiset HeapItem) : Decidable (NoTies bag) :=
  inferInstanceAs (Decidable (∀ a ∈ bag, ∀ b ∈ bag, ¬ a.Tied b))

namespace HeapItem

lemma rank_lt_iff {a b : HeapItem} : a.rank < b.rank ↔
    a.priority < b.priority ∨ a.priority = b.priority ∧ a.arrivalTime < b.arrivalTime :=
  Prod.Lex.toLex_lt_toLex

lemma lt_of_not_tied {a b : HeapItem} (h : ¬ a.Tied b) :
    HeapItem.lt a b = .ok (decide (a.rank < b.rank)) := by
  simp only [rank_lt_iff, HeapItem.lt, Tied] at h ⊢
  by_cases hp : a.priority = b.priority
  · by_cases ht : a.arrivalTime = b.arrivalTime
    · have hr : a.request = b.request := by tauto
      simp [hp, ht, hr]
    · simp [hp, ht]
  · simp [hp]

lemma lt_of_tied {a b : HeapItem} (h : a.Tied b) : HeapItem.lt a b = .error .typeError := by
  simp [HeapItem.lt, h.1, h.2.1, h.2.2]

/-- The order with ties broken by `tie`. -/
def rankBy (tie : Ref → Int) (item : HeapItem) : (Int ×ₗ Int) ×ₗ Int :=
  toLex (item.rank, tie item.request)

/-- Wherever `<` does not raise it is the order, however ties are broken. -/
lemma decides_rankBy (tie : Ref → Int) : Decides (rankBy tie) HeapItem.lt := by
  intro a b c h
  by_cases htied : a.Tied b
  · rw [lt_of_tied htied] at h
    cases h
  · rw [lt_of_not_tied htied] at h
    obtain rfl := Except.ok.inj h
    simp only [rankBy, Prod.Lex.toLex_lt_toLex, decide_eq_decide]
    constructor
    · exact Or.inl
    · rintro (hlt | ⟨heq, hlt⟩)
      · exact hlt
      · -- equal ranks of requests that are not tied: it is the same request
        obtain ⟨hp, ht⟩ := Prod.mk.inj (toLex.injective heq)
        have hr : a.request = b.request := by
          by_contra hne
          exact htied ⟨hp, ht, hne⟩
        rw [hr] at hlt
        exact absurd hlt (lt_irrefl _)

lemma rank_le_of_rankBy_le {tie : Ref → Int} {a b : HeapItem} (h : a.rankBy tie ≤ b.rankBy tie) :
    a.rank ≤ b.rank := by
  rcases Prod.Lex.toLex_le_toLex.mp h with hlt | ⟨heq, -⟩
  · exact hlt.le
  · exact heq.le

lemma Tied.tie_le {tie : Ref → Int} {a b : HeapItem} (h : a.Tied b)
    (hle : a.rankBy tie ≤ b.rankBy tie) : tie a.request ≤ tie b.request := by
  have hrank : a.rank = b.rank := by rw [rank, rank, h.1, h.2.1]
  rcases Prod.Lex.toLex_le_toLex.mp hle with hlt | ⟨-, htie⟩
  · exact absurd hlt (hrank ▸ lt_irrefl _)
  · exact htie

lemma Tied.symm {a b : HeapItem} (h : a.Tied b) : b.Tied a := ⟨h.1.symm, h.2.1.symm, h.2.2.symm⟩

end HeapItem

lemma NoTies.mono {bag bag' : Multiset HeapItem} (h : NoTies bag) (hle : bag' ≤ bag) : NoTies bag' :=
  fun a ha b hb => h a (Multiset.mem_of_le hle ha) b (Multiset.mem_of_le hle hb)

lemma NoTies.add {bag bag' : Multiset HeapItem} (h : NoTies bag) (h' : NoTies bag')
    (hcross : ∀ x ∈ bag, ∀ y ∈ bag', ¬ x.Tied y) : NoTies (bag' + bag) := by
  intro a ha b hb hab
  rcases Multiset.mem_add.mp ha with ha | ha <;> rcases Multiset.mem_add.mp hb with hb | hb
  · exact h' a ha b hb hab
  · exact hcross b hb a ha hab.symm
  · exact hcross a ha b hb hab
  · exact h a ha b hb hab

lemma NoTies.cons {bag : Multiset HeapItem} {item : HeapItem} (h : NoTies bag) (hitem : ∀ x ∈ bag, ¬ x.Tied item) :
    NoTies (item ::ₘ bag) := by
  rw [← Multiset.singleton_add]
  refine h.add ?_ fun x hx y hy => Multiset.mem_singleton.mp hy ▸ hitem x hx
  intro a ha b hb hab
  rw [Multiset.mem_singleton] at ha hb
  exact hab.2.2 (ha ▸ hb ▸ rfl)

/-- Priority queues, each with what was added to it and neither popped nor removed. -/
structure PriorityQueues where
  queues : Nat → RequestQueue
  contents : Nat → Multiset HeapItem

inductive QueueOp where
  | addRequest (i : Nat) (item : HeapItem)
  | prependRequest (i : Nat) (item : HeapItem)
  | prependRequests (i other : Nat)
  | removeRequest (i : Nat) (request : Ref)
  | removeRequests (i : Nat) (requests : List Ref)
  | peekRequest (i : Nat)
  | popRequest (i : Nat)
  | iterate (i : Nat)
  deriving DecidableEq, Repr

namespace PriorityQueues

def create : PriorityQueues where
  queues _ := RequestQueue.create .priority
  contents _ := 0

def put (s : PriorityQueues) (i : Nat) (q : RequestQueue) (bag : Multiset HeapItem) :
    PriorityQueues where
  queues j := if j = i then q else s.queues j
  contents j := if j = i then bag else s.contents j

def step (s : PriorityQueues) : QueueOp → Except PyError PriorityQueues
  | .addRequest i item => do
    return s.put i (← (s.queues i).addRequest item) (item ::ₘ s.contents i)
  | .prependRequest i item => do
    return s.put i (← (s.queues i).prependRequest item) (item ::ₘ s.contents i)
  | .prependRequests i other => do
    return s.put i (← (s.queues i).prependRequests (s.queues other))
      (s.contents other + s.contents i)
  | .removeRequest i request => do
    return s.put i (← (s.queues i).removeRequest request)
      ((s.contents i).filter fun item => item.request ≠ request)
  | .removeRequests i requests => do
    return s.put i (← (s.queues i).removeRequests requests)
      ((s.contents i).filter fun item => item.request ∉ requests)
  | .peekRequest i => do
    let _ ← (s.queues i).peekRequest
    return s
  | .popRequest i => do
    let (item, q) ← (s.queues i).popRequest
    return s.put i q ((s.contents i).erase item)
  | .iterate i => do
    let _ ← (s.queues i).iterate
    return s

/-- No request is added to a queue that holds another one it ties with. -/
def Untied (s : PriorityQueues) : QueueOp → Prop
  | .addRequest i item | .prependRequest i item => ∀ x ∈ (s.queues i).items, ¬ x.Tied item
  | .prependRequests i other =>
    ∀ x ∈ (s.queues i).items, ∀ item ∈ (s.queues other).items, ¬ x.Tied item
  | _ => True

instance (s : PriorityQueues) : (op : QueueOp) → Decidable (Untied s op)
  | .addRequest i item | .prependRequest i item =>
    inferInstanceAs (Decidable (∀ x ∈ (s.queues i).items, ¬ x.Tied item))
  | .prependRequests i other => inferInstanceAs
    (Decidable (∀ x ∈ (s.queues i).items, ∀ item ∈ (s.queues other).items, ¬ x.Tied item))
  | .removeRequest _ _ | .removeRequests _ _ | .peekRequest _ | .popRequest _ | .iterate _ =>
    inferInstanceAs (Decidable True)

end PriorityQueues

/-- The queue holds `bag`: pops and peeks give a least request of it, and fail only when there
is none; an iteration yields it in order; no addition without a tie and no removal raises. -/
structure TotalPriorityQueue (q : RequestQueue) (bag : Multiset HeapItem) : Prop where
  popRequest : (bag = 0 ∧ q.popRequest = .error .indexError) ∨
    ∃ item rest, q.popRequest = .ok (item, rest) ∧ item ∈ bag ∧ ∀ x ∈ bag, item.rank ≤ x.rank
  peekRequest : (bag = 0 ∧ q.peekRequest = .error .indexError) ∨
    ∃ item, q.peekRequest = .ok item ∧ item ∈ bag ∧ ∀ x ∈ bag, item.rank ≤ x.rank
  iterate : ∃ l : List HeapItem, q.iterate = .ok l ∧ (l : Multiset HeapItem) = bag ∧
    l.Pairwise fun a b => a.rank ≤ b.rank
  addRequest : ∀ item, (∀ x ∈ bag, ¬ x.Tied item) → ∃ q', q.addRequest item = .ok q'
  prependRequest : ∀ item, (∀ x ∈ bag, ¬ x.Tied item) → ∃ q', q.prependRequest item = .ok q'
  removeRequest : ∀ request, ∃ q', q.removeRequest request = .ok q'
  removeRequests : ∀ requests, ∃ q', q.removeRequests requests = .ok q'

namespace PriorityQueues

/-- The states of runs whose operations do not raise. -/
def ReachedBy (allowed : PriorityQueues → QueueOp → Prop) : PriorityQueues → Prop :=
  Runs.Reached (· = create) allowed fun s op s' => s.step op = .ok s'

/-- A heap of the items, however ties are broken. -/
def HeapOf (q : RequestQueue) (bag : Multiset HeapItem) : Prop :=
  ∃ heap, q = .priority heap ∧ (heap : Multiset HeapItem) = bag ∧
    ∀ tie, HeapFrom (HeapItem.rankBy tie) heap 0

variable {q q' : RequestQueue} {bag : Multiset HeapItem} {item : HeapItem}

lemma HeapOf.addRequest (h : HeapOf q bag) (hrun : q.addRequest item = .ok q') :
    HeapOf q' (item ::ₘ bag) := by
  obtain ⟨heap, rfl, rfl, hheap⟩ := h
  obtain ⟨heap', hpush, hret⟩ := bind_eq_ok.mp hrun
  obtain rfl := Except.ok.inj hret
  refine ⟨heap', rfl, Quot.sound (heappush_perm hpush), fun tie => ?_⟩
  exact heapFrom_of_heappush (HeapItem.decides_rankBy tie) (hheap tie) hpush

lemma HeapOf.addPopped {fuel : Nat} {other : List HeapItem} (h : HeapOf q bag)
    (hrun : RequestQueue.addPopped fuel q other = .ok q') (hfuel : other.length ≤ fuel) :
    HeapOf q' ((other : Multiset HeapItem) + bag) := by
  induction fuel generalizing q bag other with
  | zero =>
    obtain rfl := Except.ok.inj hrun
    obtain rfl := List.length_eq_zero_iff.mp (Nat.le_zero.mp hfuel)
    simpa using h
  | succ fuel ih =>
    simp only [RequestQueue.addPopped] at hrun
    split_ifs at hrun with hnil
    · obtain rfl := Except.ok.inj hrun
      subst hnil
      simpa using h
    · obtain ⟨⟨item, rest⟩, hpop, htail⟩ := bind_eq_ok.mp hrun
      obtain ⟨q₁, hadd, hloop⟩ := bind_eq_ok.mp htail
      obtain ⟨-, hperm⟩ := heappop_perm hpop
      have hlen : rest.length + 1 = other.length := hperm.length_eq
      have hsmall : rest.length ≤ fuel := by omega
      have hrest := ih (h.addRequest hadd) hloop hsmall
      have hbag : ((rest : Multiset HeapItem) + item ::ₘ bag) = other + bag := by
        rw [← Multiset.coe_eq_coe.mpr hperm, ← Multiset.cons_coe, Multiset.cons_add,
          Multiset.add_cons]
      rwa [hbag] at hrest

lemma HeapOf.filter {heap heap' : List HeapItem} {keep : HeapItem → Bool}
    (hbag : (heap : Multiset HeapItem) = bag)
    (hrun : heapify HeapItem.lt (heap.filter keep) = .ok heap') :
    HeapOf (.priority heap') (bag.filter fun item => keep item) := by
  refine ⟨heap', rfl, ?_, fun tie => heapFrom_of_heapify (HeapItem.decides_rankBy tie) hrun⟩
  rw [← hbag, Multiset.filter_coe]
  simpa using heapify_perm hrun

lemma HeapOf.popRequest (h : HeapOf q bag) (hrun : q.popRequest = .ok (item, q')) :
    HeapOf q' (bag.erase item) := by
  obtain ⟨heap, rfl, rfl, hheap⟩ := h
  obtain ⟨⟨popped, rest⟩, hpop, hret⟩ := bind_eq_ok.mp hrun
  obtain ⟨rfl, rfl⟩ := Prod.mk.inj (Except.ok.inj hret)
  obtain ⟨-, hperm⟩ := heappop_perm hpop
  refine ⟨rest, rfl, ?_, fun tie => ?_⟩
  · rw [← Multiset.coe_eq_coe.mpr hperm, ← Multiset.cons_coe, Multiset.erase_cons_head]
  · exact heapFrom_of_heappop (HeapItem.decides_rankBy tie) (hheap tie) hpop

variable {s s' : PriorityQueues} {op : QueueOp}

lemma heapOf_put {i : Nat} (h : ∀ j, HeapOf (s.queues j) (s.contents j)) (hq : HeapOf q bag) :
    ∀ j, HeapOf ((s.put i q bag).queues j) ((s.put i q bag).contents j) := by
  intro j
  simp only [put]
  split_ifs
  · exact hq
  · exact h j

lemma heapOf_step (h : ∀ i, HeapOf (s.queues i) (s.contents i)) (hstep : s.step op = .ok s') :
    ∀ i, HeapOf (s'.queues i) (s'.contents i) := by
  cases op with
  | addRequest i item =>
    obtain ⟨q, hq, hret⟩ := bind_eq_ok.mp hstep
    obtain rfl := Except.ok.inj hret
    exact heapOf_put h ((h i).addRequest hq)
  | prependRequest i item =>
    obtain ⟨q, hq, hret⟩ := bind_eq_ok.mp hstep
    obtain rfl := Except.ok.inj hret
    refine heapOf_put h ((h i).addRequest ?_)
    obtain ⟨heap, hheap, -⟩ := h i
    rwa [hheap] at hq ⊢
  | prependRequests i other =>
    obtain ⟨q, hq, hret⟩ := bind_eq_ok.mp hstep
    obtain rfl := Except.ok.inj hret
    refine heapOf_put h ?_
    obtain ⟨heap, hheap, -⟩ := h i
    obtain ⟨heap', hheap', hbag, -⟩ := h other
    rw [← hbag]
    have hi := h i
    rw [hheap] at hq hi
    rw [hheap'] at hq
    exact hi.addPopped hq le_rfl
  | removeRequest i request =>
    obtain ⟨q, hq, hret⟩ := bind_eq_ok.mp hstep
    obtain rfl := Except.ok.inj hret
    refine heapOf_put h ?_
    obtain ⟨heap, hheap, hbag, -⟩ := h i
    rw [hheap] at hq
    obtain ⟨heap', hrun, hret⟩ := bind_eq_ok.mp hq
    obtain rfl := Except.ok.inj hret
    simpa using HeapOf.filter hbag hrun
  | removeRequests i requests =>
    obtain ⟨q, hq, hret⟩ := bind_eq_ok.mp hstep
    obtain rfl := Except.ok.inj hret
    refine heapOf_put h ?_
    obtain ⟨heap, hheap, hbag, -⟩ := h i
    rw [hheap] at hq
    obtain ⟨heap', hrun, hret⟩ := bind_eq_ok.mp hq
    obtain rfl := Except.ok.inj hret
    simpa using HeapOf.filter hbag hrun
  | peekRequest i =>
    obtain ⟨_, -, hret⟩ := bind_eq_ok.mp hstep
    obtain rfl := Except.ok.inj hret
    exact h
  | popRequest i =>
    obtain ⟨⟨item, q⟩, hq, hret⟩ := bind_eq_ok.mp hstep
    obtain rfl := Except.ok.inj hret
    exact heapOf_put h ((h i).popRequest hq)
  | iterate i =>
    obtain ⟨_, -, hret⟩ := bind_eq_ok.mp hstep
    obtain rfl := Except.ok.inj hret
    exact h

lemma heapOf_create (i : Nat) : HeapOf (create.queues i) (create.contents i) := by
  refine ⟨[], rfl, rfl, fun tie j _ _ a b ha => ?_⟩
  simp at ha

lemma ReachedBy.heapOf {allowed : PriorityQueues → QueueOp → Prop} (h : ReachedBy allowed s) :
    ∀ i, HeapOf (s.queues i) (s.contents i) := by
  refine Runs.Reached.invariant (I := fun s : PriorityQueues =>
    ∀ i, HeapOf (s.queues i) (s.contents i)) ?_ (fun _ _ _ hs _ hstep => heapOf_step hs hstep) h
  rintro _ rfl
  exact heapOf_create

lemma HeapOf.agrees {heap : List HeapItem} (h : NoTies (heap : Multiset HeapItem)) :
    Agrees HeapItem.rank HeapItem.lt heap :=
  fun a ha b hb => HeapItem.lt_of_not_tied (h a ha b hb)

/-- A tie that `<` never saw has no place in an order that was made without raising. -/
lemma HeapOf.noTies (h : HeapOf q bag) {l : List HeapItem} (hl : q.iterate = .ok l) :
    NoTies bag := by
  obtain ⟨heap, rfl, rfl, hheap⟩ := h
  obtain ⟨hperm, hup⟩ := pairwise_of_popAll (HeapItem.decides_rankBy fun r => r) (hheap _) le_rfl hl
  obtain ⟨-, hdown⟩ := pairwise_of_popAll (HeapItem.decides_rankBy fun r => -r) (hheap _) le_rfl hl
  have hpair : l.Pairwise fun a b => ¬ a.Tied b := by
    refine (hup.and hdown).imp fun {a b} hab htied => htied.2.2 ?_
    have hle : (a.request : Int) ≤ b.request := htied.tie_le hab.1
    have hge : -(a.request : Int) ≤ -b.request := htied.tie_le hab.2
    exact Int.ofNat.inj (le_antisymm hle (Int.neg_le_neg_iff.mp hge))
  have : Std.Symm fun a b : HeapItem => ¬ a.Tied b := ⟨fun _ _ hab hba => hab hba.symm⟩
  have hall : ∀ a ∈ l, ∀ b ∈ l, ¬ a.Tied b := fun a ha b hb =>
    List.Pairwise.forall_of_forall (fun c _ hc => hc.2.2 rfl) hpair ha hb
  exact fun a ha b hb => hall a (hperm.mem_iff.mpr ha) b (hperm.mem_iff.mpr hb)

lemma HeapOf.total (h : HeapOf q bag) (hties : NoTies bag) : TotalPriorityQueue q bag := by
  obtain ⟨heap, rfl, rfl, hheap⟩ := h
  have hagrees := HeapOf.agrees hties
  have hrank : HeapFrom HeapItem.rank heap 0 := fun i hi0 hi a b ha hb =>
    HeapItem.rank_le_of_rankBy_le (hheap (fun r => r) i hi0 hi a b ha hb)
  have hpush : ∀ item, (∀ x ∈ (heap : Multiset HeapItem), ¬ x.Tied item) →
      ∃ q', (RequestQueue.priority heap).addRequest item = .ok q' := by
    intro item hitem
    have hnew : Agrees HeapItem.rank HeapItem.lt (item :: heap) := by
      intro a ha b hb
      refine HeapItem.lt_of_not_tied fun hab => ?_
      rcases List.mem_cons.mp ha with rfl | ha' <;> rcases List.mem_cons.mp hb with rfl | hb'
      · exact hab.2.2 rfl
      · exact hitem b hb' hab.symm
      · exact hitem a ha' hab
      · exact hties a ha' b hb' hab
    obtain ⟨heap', hrun, -⟩ := heappush_heapFrom hnew hrank
    exact ⟨.priority heap', by rw [RequestQueue.addRequest, hrun]; rfl⟩
  have hkeep : ∀ keep : HeapItem → Bool,
      ∃ heap', heapify HeapItem.lt (heap.filter keep) = .ok heap' := by
    intro keep
    obtain ⟨heap', hrun, -⟩ := heapify_heapFrom
      (fun a ha b hb => hagrees a (List.mem_of_mem_filter ha) b (List.mem_of_mem_filter hb))
    exact ⟨heap', hrun⟩
  refine ⟨?_, ?_, ?_, hpush, hpush, ?_, ?_⟩
  · by_cases hne : heap = []
    · subst hne
      exact .inl ⟨rfl, rfl⟩
    · obtain ⟨item, rest, hpop, -, hleast⟩ := heappop_heapFrom hagrees hrank hne
      refine .inr ⟨item, .priority rest, ?_, ?_, hleast⟩
      · rw [RequestQueue.popRequest, hpop]
        rfl
      · exact List.mem_of_mem_head? (heappop_perm hpop).1
  · cases heap with
    | nil => exact .inl ⟨rfl, rfl⟩
    | cons item heap => exact .inr ⟨item, rfl, List.mem_cons_self, hrank.head_le rfl⟩
  · obtain ⟨l, hl, hperm, hsorted⟩ := popAll_heapFrom hagrees hrank le_rfl
    exact ⟨l, hl, Multiset.coe_eq_coe.mpr hperm, hsorted⟩
  · intro request
    obtain ⟨heap', hrun⟩ := hkeep fun item => item.request ≠ request
    exact ⟨.priority heap', by rw [RequestQueue.removeRequest, hrun]; rfl⟩
  · intro requests
    obtain ⟨heap', hrun⟩ := hkeep fun item => item.request ∉ requests
    exact ⟨.priority heap', by rw [RequestQueue.removeRequests, hrun]; rfl⟩

/-- After any run, a queue is a total priority queue exactly when no two requests in it tie. -/
theorem total_iff_noTies {allowed : PriorityQueues → QueueOp → Prop} (h : ReachedBy allowed s)
    (i : Nat) : TotalPriorityQueue (s.queues i) (s.contents i) ↔ NoTies (s.contents i) := by
  constructor
  · intro htotal
    obtain ⟨l, hl, -⟩ := htotal.iterate
    exact (h.heapOf i).noTies hl
  · exact (h.heapOf i).total

lemma HeapOf.items (h : HeapOf q bag) : (q.items : Multiset HeapItem) = bag := by
  obtain ⟨heap, rfl, hbag, -⟩ := h
  exact hbag

lemma noTies_put {i : Nat} (h : ∀ j, NoTies (s.contents j)) (hbag : NoTies bag) :
    ∀ j, NoTies ((s.put i q bag).contents j) := by
  intro j
  simp only [put]
  split_ifs
  · exact hbag
  · exact h j

lemma noTies_step (hheap : ∀ i, HeapOf (s.queues i) (s.contents i))
    (h : ∀ i, NoTies (s.contents i)) (hop : Untied s op) (hstep : s.step op = .ok s') :
    ∀ i, NoTies (s'.contents i) := by
  have hmem : ∀ i x, x ∈ s.contents i → x ∈ (s.queues i).items := fun i x hx => by
    rwa [← (hheap i).items] at hx
  cases op with
  | addRequest i item | prependRequest i item =>
    obtain ⟨q, -, hret⟩ := bind_eq_ok.mp hstep
    obtain rfl := Except.ok.inj hret
    exact noTies_put h ((h i).cons fun x hx => hop x (hmem i x hx))
  | prependRequests i other =>
    obtain ⟨q, -, hret⟩ := bind_eq_ok.mp hstep
    obtain rfl := Except.ok.inj hret
    exact noTies_put h ((h i).add (h other) fun x hx y hy =>
      hop x (hmem i x hx) y (hmem other y hy))
  | removeRequest i _ | removeRequests i _ =>
    obtain ⟨q, -, hret⟩ := bind_eq_ok.mp hstep
    obtain rfl := Except.ok.inj hret
    exact noTies_put h ((h i).mono (Multiset.filter_le _ _))
  | popRequest i =>
    obtain ⟨⟨item, q⟩, -, hret⟩ := bind_eq_ok.mp hstep
    obtain rfl := Except.ok.inj hret
    exact noTies_put h ((h i).mono (Multiset.erase_le _ _))
  | peekRequest i | iterate i =>
    obtain ⟨_, -, hret⟩ := bind_eq_ok.mp hstep
    obtain rfl := Except.ok.inj hret
    exact h

lemma ReachedBy.noTies (h : ReachedBy Untied s) : ∀ i, NoTies (s.contents i) := by
  suffices hboth : (∀ i, HeapOf (s.queues i) (s.contents i)) ∧ ∀ i, NoTies (s.contents i) from
    hboth.2
  induction h with
  | start hs =>
    subst hs
    exact ⟨heapOf_create, fun _ _ ha => absurd ha (Multiset.notMem_zero _)⟩
  | step _ hop hstep ih => exact ⟨heapOf_step ih.1 hstep, noTies_step ih.1 ih.2 hop hstep⟩

/-- Adding all requests of another queue, when none ties with one that is there. -/
lemma addPopped_total (fuel : Nat) {other : List HeapItem} (h : HeapOf q bag)
    (hother : HeapFrom HeapItem.rank other 0)
    (hties : NoTies ((other : Multiset HeapItem) + bag)) :
    ∃ q', RequestQueue.addPopped fuel q other = .ok q' := by
  induction fuel generalizing q bag other with
  | zero => exact ⟨q, rfl⟩
  | succ fuel ih =>
    by_cases hnil : other = []
    · exact ⟨q, by rw [RequestQueue.addPopped, if_pos hnil]⟩
    · have hown := hties.mono (Multiset.le_add_right _ _)
      obtain ⟨item, rest, hpop, hrest, -⟩ := heappop_heapFrom (HeapOf.agrees hown) hother hnil
      have hbag : ((rest : Multiset HeapItem) + item ::ₘ bag) = other + bag := by
        rw [← Multiset.coe_eq_coe.mpr (heappop_perm hpop).2, ← Multiset.cons_coe,
          Multiset.cons_add, Multiset.add_cons]
      rw [← hbag] at hties
      have hmem : ∀ x ∈ bag, x ∈ (rest : Multiset HeapItem) + item ::ₘ bag := by
        intro x hx
        simp [hx]
      obtain ⟨q₁, hadd⟩ := (h.total (hties.mono
        ((Multiset.le_cons_self _ _).trans (Multiset.le_add_left _ _)))).addRequest item
          (fun x hx => hties x (hmem x hx) item (by simp))
      obtain ⟨q', hloop⟩ := ih (h.addRequest hadd) hrest hties
      refine ⟨q', ?_⟩
      rw [RequestQueue.addPopped, if_neg hnil, hpop, ok_bind]
      simp only [hadd, ok_bind, hloop]

lemma step_error {e : PyError} (hheap : ∀ i, HeapOf (s.queues i) (s.contents i))
    (h : ∀ i, NoTies (s.contents i)) (hop : Untied s op) (herr : s.step op = .error e) :
    e = .indexError ∧ ∃ i, (op = .popRequest i ∨ op = .peekRequest i) ∧ s.contents i = 0 := by
  have htotal := fun i => (hheap i).total (h i)
  have hitems : ∀ i x, x ∈ s.contents i → x ∈ (s.queues i).items := fun i x hx => by
    rwa [← (hheap i).items] at hx
  cases op with
  | addRequest i item =>
    obtain ⟨q, hq⟩ := (htotal i).addRequest item fun x hx => hop x (hitems i x hx)
    rw [step, hq] at herr
    cases herr
  | prependRequest i item =>
    obtain ⟨q, hq⟩ := (htotal i).prependRequest item fun x hx => hop x (hitems i x hx)
    rw [step, hq] at herr
    cases herr
  | prependRequests i other =>
    obtain ⟨heap, hqueue, hbag, -⟩ := hheap i
    obtain ⟨heap', hqueue', hbag', hrank⟩ := hheap other
    have hties : NoTies (heap' + s.contents i) := by
      rw [hbag']
      exact (h i).add (h other) fun x hx y hy => hop x (hitems i x hx) y (hitems other y hy)
    obtain ⟨q, hq⟩ := addPopped_total heap'.length (hheap i)
      (fun j hj0 hj a b ha hb =>
        HeapItem.rank_le_of_rankBy_le (hrank (fun r => r) j hj0 hj a b ha hb)) hties
    rw [hqueue] at hq
    rw [step, hqueue, hqueue', RequestQueue.prependRequests, RequestQueue.items, hq] at herr
    cases herr
  | removeRequest i request =>
    obtain ⟨q, hq⟩ := (htotal i).removeRequest request
    rw [step, hq] at herr
    cases herr
  | removeRequests i requests =>
    obtain ⟨q, hq⟩ := (htotal i).removeRequests requests
    rw [step, hq] at herr
    cases herr
  | peekRequest i =>
    rcases (htotal i).peekRequest with ⟨hempty, hq⟩ | ⟨item, hq, -⟩
    · rw [step, hq] at herr
      exact ⟨(Except.error.inj herr).symm, i, .inr rfl, hempty⟩
    · rw [step, hq] at herr
      cases herr
  | popRequest i =>
    rcases (htotal i).popRequest with ⟨hempty, hq⟩ | ⟨item, rest, hq, -⟩
    · rw [step, hq] at herr
      exact ⟨(Except.error.inj herr).symm, i, .inl rfl, hempty⟩
    · rw [step, hq] at herr
      cases herr
  | iterate i =>
    obtain ⟨l, hl, -⟩ := (htotal i).iterate
    rw [step, hl] at herr
    cases herr

/-- Runs in which no request is added to a queue that holds another one it ties with. -/
theorem untied_runs_total (h : ReachedBy Untied s) :
    (∀ i, TotalPriorityQueue (s.queues i) (s.contents i)) ∧
      ∀ op, Untied s op → ∀ e, s.step op = .error e →
        e = .indexError ∧ ∃ i, (op = .popRequest i ∨ op = .peekRequest i) ∧ s.contents i = 0 :=
  ⟨fun i => (total_iff_noTies h i).mpr (h.noTies i),
    fun _ hop _ herr => step_error h.heapOf h.noTies hop herr⟩

/-- Two queues of four requests, one request popped and one removed. -/
theorem untied_runs_total_two_queues :
    ∃ s : PriorityQueues, TotalPriorityQueue (s.queues 0) (s.contents 0) ∧
      s.contents 0 = {⟨1, 5, 7⟩, ⟨1, 6, 9⟩} := by
  obtain ⟨s, hrun, hcontents⟩ : ∃ s, Runs.runAllowed Untied step create
      [.addRequest 0 ⟨1, 5, 7⟩, .addRequest 0 ⟨0, 3, 8⟩, .addRequest 1 ⟨1, 6, 9⟩,
        .prependRequest 1 ⟨2, 0, 4⟩, .prependRequests 0 1, .popRequest 0,
        .removeRequests 0 [4], .iterate 0] = some s ∧ s.contents 0 = {⟨1, 5, 7⟩, ⟨1, 6, 9⟩} :=
    ⟨_, rfl, by decide⟩
  exact ⟨s, (untied_runs_total (.of_runAllowed (.start rfl) hrun)).1 0, hcontents⟩

/-- Two requests of equal priority and arrival time are enough for an addition to raise. -/
theorem tied_addRequest_raises : ¬ ∀ s : PriorityQueues, ReachedBy (fun _ _ => True) s →
    ∀ op e, s.step op = .error e → ∃ i, op = .popRequest i ∨ op = .peekRequest i := by
  intro hclaim
  have hone : ReachedBy (fun _ _ => True) (create.put 0 (.priority [⟨0, 0, 1⟩]) {⟨0, 0, 1⟩}) :=
    .step (.start rfl) trivial (e := .addRequest 0 ⟨0, 0, 1⟩) rfl
  obtain ⟨i, hi⟩ := hclaim _ hone (.addRequest 0 ⟨0, 0, 2⟩) .typeError rfl
  simp at hi

end PriorityQueues

end VllmV1
