import VllmMmaEmu.Library.Heapq

/-!
# Request queues of the scheduler

`vllm/v1/core/sched/request_queue.py`. Requests are objects: a queue holds references, and
two references are the same request exactly when they are equal.
-/

namespace VllmV1

open Python Heapq

/-- The identity of a `Request` object. -/
abbrev Ref := Nat

inductive SchedulingPolicy where
  | fcfs
  | priority
  deriving DecidableEq, Repr

/-- What the priority queue stores for a request. -/
structure HeapItem where
  priority : Int
  arrivalTime : Int
  request : Ref
  deriving DecidableEq, Repr

/-- `<` of the stored tuples. Requests have no order, so a tie of two of them raises. -/
def HeapItem.lt (a b : HeapItem) : Except PyError Bool :=
  if a.priority ≠ b.priority then .ok (decide (a.priority < b.priority))
  else if a.arrivalTime ≠ b.arrivalTime then .ok (decide (a.arrivalTime < b.arrivalTime))
  else if a.request = b.request then .ok false
  else .error .typeError

/-- `FCFSRequestQueue` and `PriorityRequestQueue`. -/
inductive RequestQueue where
  | fcfs (items : List HeapItem)
  | priority (heap : List HeapItem)
  deriving DecidableEq, Repr

namespace RequestQueue

/-- `create_request_queue`. -/
def create : SchedulingPolicy → RequestQueue
  | .fcfs => .fcfs []
  | .priority => .priority []

/-- The items in the order of the underlying list. -/
def items : RequestQueue → List HeapItem
  | .fcfs l => l
  | .priority heap => heap

/-- The requests in the queue. -/
def refs (q : RequestQueue) : List Ref := q.items.map HeapItem.request

def isEmpty (q : RequestQueue) : Bool := q.items.isEmpty

def addRequest (q : RequestQueue) (item : HeapItem) : Except PyError RequestQueue :=
  match q with
  | fcfs l => .ok (fcfs (l ++ [item]))
  | priority heap => do return priority (← heappush HeapItem.lt heap item)

def popRequest : RequestQueue → Except PyError (HeapItem × RequestQueue)
  | fcfs [] => .error .indexError
  | fcfs (item :: l) => .ok (item, fcfs l)
  | priority heap => do
    let (item, heap) ← heappop HeapItem.lt heap
    return (item, priority heap)

def peekRequest (q : RequestQueue) : Except PyError HeapItem :=
  match q.items.head? with
  | none => .error .indexError
  | some item => .ok item

/-- `prepend_request`; a priority queue has no front. -/
def prependRequest (q : RequestQueue) (item : HeapItem) : Except PyError RequestQueue :=
  match q with
  | fcfs l => .ok (fcfs (item :: l))
  | priority heap => (priority heap).addRequest item

/-- The loop that adds the items of another priority queue in the order in which that
queue pops them. -/
def addPopped : (fuel : Nat) → RequestQueue → (other : List HeapItem) → Except PyError RequestQueue
  | 0, q, _ => .ok q
  | fuel + 1, q, other =>
    if other = [] then .ok q
    else do
      let (item, rest) ← heappop HeapItem.lt other
      let q ← q.addRequest item
      addPopped fuel q rest

def prependRequests (q other : RequestQueue) : Except PyError RequestQueue :=
  match q with
  | fcfs l => .ok (fcfs (other.items ++ l))
  | priority heap => addPopped other.items.length (priority heap) other.items

def removeRequests (q : RequestQueue) (requests : List Ref) : Except PyError RequestQueue :=
  match q with
  | fcfs l => .ok (fcfs (l.filter fun item => item.request ∉ requests))
  | priority heap => do
    return priority (← heapify HeapItem.lt (heap.filter fun item => item.request ∉ requests))

def removeRequest (q : RequestQueue) (request : Ref) : Except PyError RequestQueue :=
  match q with
  | fcfs l =>
    if l.any (·.request = request) then .ok (fcfs (l.eraseP (·.request = request)))
    else .error (.valueError "deque.remove(x): x not in deque")
  | priority heap => do
    return priority (← heapify HeapItem.lt (heap.filter fun item => item.request ≠ request))

/-- `__iter__`: a priority queue pops a copy of its heap. -/
def iterate : RequestQueue → Except PyError (List HeapItem)
  | fcfs l => .ok l
  | priority heap => popAll HeapItem.lt heap.length heap

variable {q q' : RequestQueue} {item : HeapItem}

@[simp] lemma create_items (policy : SchedulingPolicy) : (create policy).items = [] := by
  cases policy <;> rfl

lemma addRequest_items (h : q.addRequest item = .ok q') : q'.items.Perm (item :: q.items) := by
  cases q with
  | fcfs l =>
    obtain rfl := Except.ok.inj h
    exact List.perm_append_singleton item l
  | priority heap =>
    obtain ⟨heap', hpush, hret⟩ := bind_eq_ok.mp h
    obtain rfl := Except.ok.inj hret
    exact heappush_perm hpush

lemma prependRequest_items (h : q.prependRequest item = .ok q') :
    q'.items.Perm (item :: q.items) := by
  cases q with
  | fcfs l =>
    obtain rfl := Except.ok.inj h
    exact .refl _
  | priority heap => exact addRequest_items h

lemma popRequest_items {rest : RequestQueue} (h : q.popRequest = .ok (item, rest)) :
    q.peekRequest = .ok item ∧ (item :: rest.items).Perm q.items := by
  cases q with
  | fcfs l =>
    cases l with
    | nil => cases h
    | cons first l =>
      obtain ⟨rfl, rfl⟩ := Prod.mk.inj (Except.ok.inj h)
      exact ⟨rfl, .refl _⟩
  | priority heap =>
    obtain ⟨⟨popped, heap'⟩, hpop, hret⟩ := bind_eq_ok.mp h
    obtain ⟨rfl, rfl⟩ := Prod.mk.inj (Except.ok.inj hret)
    obtain ⟨hhead, hperm⟩ := heappop_perm hpop
    refine ⟨?_, hperm⟩
    simp only [peekRequest, items, hhead]

lemma addPopped_items {fuel : Nat} {other : List HeapItem}
    (h : addPopped fuel q other = .ok q') (hfuel : other.length ≤ fuel) :
    q'.items.Perm (other ++ q.items) := by
  induction fuel generalizing q other with
  | zero =>
    obtain rfl := Except.ok.inj h
    obtain rfl := List.length_eq_zero_iff.mp (Nat.le_zero.mp hfuel)
    exact .refl _
  | succ fuel ih =>
    simp only [addPopped] at h
    split_ifs at h with hnil
    · obtain rfl := Except.ok.inj h
      rw [hnil]
      exact .refl _
    · obtain ⟨⟨popped, rest⟩, hpop, hrest⟩ := bind_eq_ok.mp h
      obtain ⟨q₁, hadd, hloop⟩ := bind_eq_ok.mp hrest
      obtain ⟨-, hperm⟩ := heappop_perm hpop
      have hlen : rest.length + 1 = other.length := hperm.length_eq
      have hsmall : rest.length ≤ fuel := by omega
      have hadded : (rest ++ q₁.items).Perm (rest ++ popped :: q.items) :=
        (addRequest_items hadd).append_left rest
      have hmoved : (rest ++ popped :: q.items).Perm (popped :: rest ++ q.items) :=
        List.perm_middle
      exact (ih hloop hsmall).trans (hadded.trans (hmoved.trans (hperm.append_right q.items)))

lemma prependRequests_items {other : RequestQueue} (h : q.prependRequests other = .ok q') :
    q'.items.Perm (other.items ++ q.items) := by
  cases q with
  | fcfs l =>
    obtain rfl := Except.ok.inj h
    exact .refl _
  | priority heap => exact addPopped_items h le_rfl

lemma removeRequests_items {requests : List Ref} (h : q.removeRequests requests = .ok q') :
    q'.items.Perm (q.items.filter fun item => item.request ∉ requests) := by
  cases q with
  | fcfs l =>
    obtain rfl := Except.ok.inj h
    exact .refl _
  | priority heap =>
    obtain ⟨heap', hheap, hret⟩ := bind_eq_ok.mp h
    obtain rfl := Except.ok.inj hret
    exact heapify_perm hheap

end RequestQueue

end VllmV1
