import Mathlib.Data.List.Sort
import Mathlib.Order.Basic
import VllmMmaEmu.Library.Python

/-!
# Python's heapq

The binary heap of the standard library over a comparison that may raise, as `<` does on
objects without an order. A hole that moves through the heap is a sequence of swaps.

As long as the comparison agrees with a key into a linear order, no operation raises, every one
leaves a heap, and popping gives a least item. Both sifts carry a hole: the item at one position
may be out of order with its parent, or with its children, and the parent of the hole is in order
with the children of the hole.
-/

namespace Heapq

open Python

section

variable {α : Type} (lt : α → α → Except PyError Bool)

def swap (heap : List α) (i j : Nat) : List α :=
  match heap[i]?, heap[j]? with
  | some a, some b => (heap.set i b).set j a
  | _, _ => heap

/-- `_siftdown`: the item at `pos` moves towards the root until its parent is not larger. -/
def siftdown (startpos : Nat) : (fuel : Nat) → List α → (pos : Nat) → Except PyError (List α)
  | 0, heap, _ => .ok heap
  | fuel + 1, heap, pos =>
    if startpos < pos then
      match heap[pos]?, heap[(pos - 1) / 2]? with
      | some newitem, some parent => do
        let smaller ← lt newitem parent
        if smaller then siftdown startpos fuel (swap heap pos ((pos - 1) / 2)) ((pos - 1) / 2)
        else return heap
      | _, _ => .error .indexError
    else .ok heap

/-- The smaller child; the right one is only looked at when there is one. -/
def smallerChild (heap : List α) (childpos : Nat) : Except PyError Nat :=
  match heap[childpos]?, heap[childpos + 1]? with
  | some left, some right => do
    let smaller ← lt left right
    return if smaller then childpos else childpos + 1
  | _, _ => .ok childpos

/-- The loop of `_siftup`: the smaller child moves up until a leaf is reached. -/
def siftupLoop : (fuel : Nat) → List α → (pos : Nat) → Except PyError (List α × Nat)
  | 0, heap, pos => .ok (heap, pos)
  | fuel + 1, heap, pos =>
    if 2 * pos + 1 < heap.length then do
      let childpos ← smallerChild lt heap (2 * pos + 1)
      siftupLoop fuel (swap heap pos childpos) childpos
    else .ok (heap, pos)

def siftup (heap : List α) (pos : Nat) : Except PyError (List α) := do
  let (heap, leaf) ← siftupLoop lt heap.length heap pos
  siftdown lt pos heap.length heap leaf

def heappush (heap : List α) (item : α) : Except PyError (List α) :=
  siftdown lt 0 (heap.length + 1) (heap ++ [item]) heap.length

/-- `heappop`: the last item takes the place of the first. -/
def heappop (heap : List α) : Except PyError (α × List α) :=
  match heap.getLast?, heap.dropLast with
  | none, _ => .error .indexError
  | some lastelt, [] => .ok (lastelt, [])
  | some lastelt, returnitem :: rest => do
    let heap ← siftup lt (lastelt :: rest) 0
    return (returnitem, heap)

/-- The loop of `heapify` over the positions below `n`, from the right. -/
def heapifyLoop : (n : Nat) → List α → Except PyError (List α)
  | 0, heap => .ok heap
  | n + 1, heap => do
    let heap ← siftup lt heap n
    heapifyLoop n heap

def heapify (heap : List α) : Except PyError (List α) := heapifyLoop lt (heap.length / 2) heap

/-- The items in the order in which they are popped. -/
def popAll : (fuel : Nat) → List α → Except PyError (List α)
  | 0, _ => .ok []
  | fuel + 1, heap =>
    if heap = [] then .ok []
    else do
      let (item, heap) ← heappop lt heap
      return item :: (← popAll fuel heap)

variable {lt} {heap heap' : List α}

lemma swap_perm (heap : List α) (i j : Nat) : (swap heap i j).Perm heap := by
  unfold swap
  split
  · rename_i a b ha hb
    obtain ⟨hi, rfl⟩ := List.getElem?_eq_some_iff.mp ha
    obtain ⟨hj, rfl⟩ := List.getElem?_eq_some_iff.mp hb
    exact List.set_set_perm hi hj
  · exact .refl heap

lemma siftdown_perm {startpos fuel pos : Nat} (h : siftdown lt startpos fuel heap pos = .ok heap') :
    heap'.Perm heap := by
  induction fuel generalizing heap pos with
  | zero =>
    obtain rfl := Except.ok.inj h
    exact .refl heap
  | succ fuel ih =>
    simp only [siftdown] at h
    split_ifs at h
    · split at h
      · obtain ⟨smaller, -, hrest⟩ := bind_eq_ok.mp h
        split_ifs at hrest
        · exact (ih hrest).trans (swap_perm heap _ _)
        · obtain rfl := Except.ok.inj hrest
          exact .refl heap
      · cases h
    · obtain rfl := Except.ok.inj h
      exact .refl heap

lemma siftupLoop_perm {fuel pos leaf : Nat}
    (h : siftupLoop lt fuel heap pos = .ok (heap', leaf)) : heap'.Perm heap := by
  induction fuel generalizing heap pos with
  | zero =>
    obtain ⟨rfl, -⟩ := Prod.mk.inj (Except.ok.inj h)
    exact .refl heap
  | succ fuel ih =>
    simp only [siftupLoop] at h
    split_ifs at h
    · obtain ⟨childpos, -, hrest⟩ := bind_eq_ok.mp h
      exact (ih hrest).trans (swap_perm heap _ _)
    · obtain ⟨rfl, -⟩ := Prod.mk.inj (Except.ok.inj h)
      exact .refl heap

lemma siftup_perm {pos : Nat} (h : siftup lt heap pos = .ok heap') : heap'.Perm heap := by
  obtain ⟨⟨moved, leaf⟩, hloop, hdown⟩ := bind_eq_ok.mp h
  exact (siftdown_perm hdown).trans (siftupLoop_perm hloop)

lemma heappush_perm {item : α} (h : heappush lt heap item = .ok heap') :
    heap'.Perm (item :: heap) :=
  (siftdown_perm h).trans (List.perm_append_singleton item heap)

lemma heappop_perm {item : α} (h : heappop lt heap = .ok (item, heap')) :
    heap.head? = some item ∧ (item :: heap').Perm heap := by
  unfold heappop at h
  split at h
  · cases h
  · rename_i lastelt hlast hinit
    obtain ⟨rfl, rfl⟩ := Prod.mk.inj (Except.ok.inj h)
    have hheap : heap = [lastelt] := by
      have := List.dropLast_append_getLast? lastelt hlast
      rw [hinit] at this
      exact this.symm
    subst hheap
    exact ⟨rfl, .refl _⟩
  · rename_i lastelt returnitem rest hlast hinit
    obtain ⟨moved, hup, hret⟩ := bind_eq_ok.mp h
    obtain ⟨rfl, rfl⟩ := Prod.mk.inj (Except.ok.inj hret)
    have hheap : heap = returnitem :: rest ++ [lastelt] := by
      have := List.dropLast_append_getLast? lastelt hlast
      rw [hinit] at this
      exact this.symm
    subst hheap
    refine ⟨rfl, ?_⟩
    exact ((siftup_perm hup).trans (List.perm_append_singleton lastelt rest).symm).cons returnitem

lemma heapifyLoop_perm {n : Nat} (h : heapifyLoop lt n heap = .ok heap') : heap'.Perm heap := by
  induction n generalizing heap with
  | zero =>
    obtain rfl := Except.ok.inj h
    exact .refl heap
  | succ n ih =>
    obtain ⟨moved, hup, hrest⟩ := bind_eq_ok.mp h
    exact (ih hrest).trans (siftup_perm hup)

lemma heapify_perm (h : heapify lt heap = .ok heap') : heap'.Perm heap := heapifyLoop_perm h

end

variable {α : Type} {κ : Type*} [LinearOrder κ] {lt : α → α → Except PyError Bool} (key : α → κ)
  {heap heap' : List α}

/-- The comparison of the items is that of their keys. -/
def Agrees (lt : α → α → Except PyError Bool) (heap : List α) : Prop :=
  ∀ a ∈ heap, ∀ b ∈ heap, lt a b = .ok (decide (key a < key b))

/-- The item at `i` is not larger than the one at `j`, when there are two. -/
def LeAt (heap : List α) (i j : Nat) : Prop :=
  ∀ a b, heap[i]? = some a → heap[j]? = some b → key a ≤ key b

/-- Every item from a parent at `n` on is not larger than its children. -/
def HeapFrom (heap : List α) (n : Nat) : Prop :=
  ∀ i, 0 < i → n ≤ (i - 1) / 2 → LeAt key heap ((i - 1) / 2) i

/-- Positions of the tree below `start`. -/
inductive InSubtree (start : Nat) : Nat → Prop where
  | root : InSubtree start start
  | child {c : Nat} (hc : 0 < c) (h : InSubtree start ((c - 1) / 2)) : InSubtree start c

/-- The item at `pos` may be smaller than its parent, all else is in order. -/
structure UpReady (start : Nat) (heap : List α) (pos : Nat) : Prop where
  below : InSubtree start pos
  ordered : ∀ i, 0 < i → i ≠ pos → start ≤ (i - 1) / 2 → LeAt key heap ((i - 1) / 2) i
  grand : start < pos → ∀ c, 0 < c → (c - 1) / 2 = pos → LeAt key heap ((pos - 1) / 2) c

/-- The item at `pos` may be in any order with its parent and its children. -/
structure DownReady (start : Nat) (heap : List α) (pos : Nat) : Prop where
  below : InSubtree start pos
  ordered : ∀ i, 0 < i → i ≠ pos → (i - 1) / 2 ≠ pos → start ≤ (i - 1) / 2 →
    LeAt key heap ((i - 1) / 2) i
  grand : start < pos → ∀ c, 0 < c → (c - 1) / 2 = pos → LeAt key heap ((pos - 1) / 2) c

variable {key}

lemma Agrees.of_perm (h : Agrees key lt heap) (hp : heap'.Perm heap) : Agrees key lt heap' :=
  fun a ha b hb => h a (hp.mem_iff.mp ha) b (hp.mem_iff.mp hb)

lemma InSubtree.le {start pos : Nat} (h : InSubtree start pos) : start ≤ pos := by
  induction h with
  | root => exact le_rfl
  | child hc _ ih => omega

lemma InSubtree.parent {start pos : Nat} (h : InSubtree start pos) (hlt : start < pos) :
    InSubtree start ((pos - 1) / 2) := by
  cases h with
  | root => exact absurd hlt (lt_irrefl _)
  | child _ h => exact h

lemma swap_getElem? {i j : Nat} (hi : i < heap.length) (hj : j < heap.length) (k : Nat) :
    (swap heap i j)[k]? = if k = j then heap[i]? else if k = i then heap[j]? else heap[k]? := by
  unfold swap
  rw [List.getElem?_eq_getElem hi, List.getElem?_eq_getElem hj]
  simp only [List.getElem?_set, List.length_set]
  grind

lemma swap_length (heap : List α) (i j : Nat) : (swap heap i j).length = heap.length :=
  (swap_perm heap i j).length_eq

/-- The item moves one step up. -/
lemma UpReady.move {start pos : Nat} (h : UpReady key start heap pos) (hlt : start < pos)
    {new par : α} (hnew : heap[pos]? = some new) (hpar : heap[(pos - 1) / 2]? = some par)
    (hsmaller : key new < key par) :
    UpReady key start (swap heap pos ((pos - 1) / 2)) ((pos - 1) / 2) := by
  have hpos : pos < heap.length := (List.getElem?_eq_some_iff.mp hnew).1
  have hat := @swap_getElem? _ heap _ _ hpos (show (pos - 1) / 2 < heap.length by omega)
  have hpp := (h.below.parent hlt).le
  refine ⟨h.below.parent hlt, ?_, ?_⟩
  · intro i hi0 hi hstart a b ha hb
    rw [hat] at ha hb
    have hold := h.ordered i hi0
    by_cases hip : i = pos
    · -- the old parent below the new item
      subst hip
      grind
    · by_cases hparent : (i - 1) / 2 = pos
      · have hgrand := h.grand hlt i hi0 hparent par b hpar
        grind
      · by_cases hsib : (i - 1) / 2 = (pos - 1) / 2
        · have := hold hip hstart par b
          grind
        · have := hold hip hstart a b
          grind
  · intro hlt' c hc0 hc a b ha hb
    rw [hat] at ha hb
    have hup := h.ordered ((pos - 1) / 2) (by omega) (by omega) (by
      have := (h.below.parent hlt).parent hlt'
      exact this.le)
    have hgp : key a ≤ key par := by
      apply hup a par _ hpar
      grind
    by_cases hcp : c = pos
    · grind
    · have := h.ordered c hc0 hcp (by omega) par b
      grind

lemma siftdown_heapFrom {start fuel pos : Nat} (hagrees : Agrees key lt heap)
    (h : UpReady key start heap pos) (hpos : pos < heap.length) (hfuel : pos ≤ fuel) :
    ∃ heap', siftdown lt start fuel heap pos = .ok heap' ∧ HeapFrom key heap' start := by
  induction fuel generalizing heap pos with
  | zero =>
    refine ⟨heap, rfl, fun i hi0 hstart => h.ordered i hi0 ?_ hstart⟩
    omega
  | succ fuel ih =>
    by_cases hlt : start < pos
    · have hnew := List.getElem?_eq_getElem hpos
      have hpar := List.getElem?_eq_getElem (show (pos - 1) / 2 < heap.length by omega)
      rw [siftdown, if_pos hlt, hnew, hpar]
      simp only [hagrees _ (List.getElem_mem hpos) _ (List.getElem_mem _), ok_bind, decide_eq_true_eq]
      split_ifs with hsmaller
      · exact ih (hagrees.of_perm (swap_perm _ _ _)) (h.move hlt hnew hpar hsmaller)
          (by rw [swap_length]; omega) (by omega)
      · refine ⟨heap, rfl, fun i hi0 hstart => ?_⟩
        by_cases hip : i = pos
        · subst hip
          intro a b ha hb
          rw [hpar] at ha
          rw [hnew] at hb
          cases ha
          cases hb
          exact not_lt.mp hsmaller
        · exact h.ordered i hi0 hip hstart
    · refine ⟨heap, by rw [siftdown, if_neg hlt], fun i hi0 hstart => h.ordered i hi0 ?_ hstart⟩
      have := h.below.le
      omega

/-- The child that is chosen is not larger than the other one. -/
lemma smallerChild_eq {pos : Nat} (hagrees : Agrees key lt heap)
    (hchild : 2 * pos + 1 < heap.length) :
    ∃ c, smallerChild lt heap (2 * pos + 1) = .ok c ∧ (c - 1) / 2 = pos ∧ 0 < c ∧
      c < heap.length ∧ ∀ c', 0 < c' → (c' - 1) / 2 = pos → LeAt key heap c c' := by
  unfold smallerChild
  have hleft := List.getElem?_eq_getElem hchild
  by_cases hright : 2 * pos + 2 < heap.length
  · have hr := List.getElem?_eq_getElem hright
    rw [hleft, show 2 * pos + 1 + 1 = 2 * pos + 2 from rfl, hr]
    simp only [hagrees _ (List.getElem_mem hchild) _ (List.getElem_mem hright), ok_bind]
    by_cases hsmaller : key heap[2 * pos + 1] < key heap[2 * pos + 2]
    · refine ⟨2 * pos + 1, by simp [hsmaller], by omega, by omega, hchild, ?_⟩
      intro c' hc0 hc' a b ha hb
      obtain rfl | rfl : c' = 2 * pos + 1 ∨ c' = 2 * pos + 2 := by omega
      · grind
      · grind
    · refine ⟨2 * pos + 2, by simp [hsmaller], by omega, by omega, hright, ?_⟩
      intro c' hc0 hc' a b ha hb
      obtain rfl | rfl : c' = 2 * pos + 1 ∨ c' = 2 * pos + 2 := by omega
      · grind
      · grind
  · rw [hleft, List.getElem?_eq_none (by omega : heap.length ≤ 2 * pos + 1 + 1)]
    refine ⟨2 * pos + 1, rfl, by omega, by omega, hchild, ?_⟩
    intro c' hc0 hc' a b ha hb
    obtain rfl | rfl : c' = 2 * pos + 1 ∨ c' = 2 * pos + 2 := by omega
    · grind
    · grind

/-- The smaller child moves one step up. -/
lemma DownReady.move {start pos c : Nat} (h : DownReady key start heap pos)
    (hpos : pos < heap.length) (hc : (c - 1) / 2 = pos) (hc0 : 0 < c) (hclen : c < heap.length)
    (hleast : ∀ c', 0 < c' → (c' - 1) / 2 = pos → LeAt key heap c c') :
    DownReady key start (swap heap pos c) c := by
  have hat := swap_getElem? hpos hclen
  have hstart := h.below.le
  refine ⟨.child hc0 (hc ▸ h.below), ?_, ?_⟩
  · intro i hi0 hi hic hi' a b ha hb
    rw [hat] at ha hb
    by_cases hip : i = pos
    · -- the child below the parent of the hole
      subst hip
      have := h.grand (by omega) c hc0 hc a b
      grind
    · by_cases hparent : (i - 1) / 2 = pos
      · have := hleast i hi0 hparent a b
        grind
      · have := h.ordered i hi0 hip hparent hi' a b
        grind
  · intro _ d hd0 hd a b ha hb
    rw [hat] at ha hb
    have := h.ordered d hd0 (by omega) (by omega) (by omega) a b
    grind

/-- The hole reaches a leaf. -/
lemma siftupLoop_upReady {start fuel pos : Nat} (hagrees : Agrees key lt heap)
    (h : DownReady key start heap pos) (hpos : pos < heap.length)
    (hfuel : heap.length ≤ pos + fuel) :
    ∃ heap' leaf, siftupLoop lt fuel heap pos = .ok (heap', leaf) ∧
      UpReady key start heap' leaf ∧ leaf < heap.length := by
  induction fuel generalizing heap pos with
  | zero => omega
  | succ fuel ih =>
    by_cases hchild : 2 * pos + 1 < heap.length
    · obtain ⟨c, hsmaller, hc, hc0, hclen, hleast⟩ := smallerChild_eq hagrees hchild
      have hlen := swap_length heap pos c
      obtain ⟨heap', leaf, hrun, hready, hleaf⟩ := ih (hagrees.of_perm (swap_perm heap pos c))
        (h.move hpos hc hc0 hclen hleast) (by omega) (by omega)
      refine ⟨heap', leaf, ?_, hready, by omega⟩
      rw [siftupLoop, if_pos hchild, hsmaller, ok_bind, hrun]
    · refine ⟨heap, pos, by rw [siftupLoop, if_neg hchild], ⟨h.below, ?_, h.grand⟩, hpos⟩
      intro i hi0 hi hstart a b ha hb
      have hilen : i < heap.length := (List.getElem?_eq_some_iff.mp hb).1
      exact h.ordered i hi0 hi (by omega) hstart a b ha hb

lemma siftup_heapFrom {n : Nat} (hagrees : Agrees key lt heap) (h : HeapFrom key heap (n + 1))
    (hn : n < heap.length) : ∃ heap', siftup lt heap n = .ok heap' ∧ HeapFrom key heap' n := by
  have hready : DownReady key n heap n :=
    ⟨.root, fun i hi0 _ hin hstart => h i hi0 (by omega), fun hlt => absurd hlt (lt_irrefl n)⟩
  obtain ⟨moved, leaf, hloop, hup, hleaf⟩ := siftupLoop_upReady hagrees hready hn
    (show heap.length ≤ n + heap.length by omega)
  have hperm := siftupLoop_perm hloop
  have hleaf' : leaf < moved.length := hperm.length_eq ▸ hleaf
  obtain ⟨heap', hdown, hheap⟩ :=
    siftdown_heapFrom (hagrees.of_perm hperm) hup hleaf' hleaf'.le
  exact ⟨heap', by rw [siftup, hloop, ok_bind]; exact hdown, hheap⟩

/-- The heap grows at its end. -/
lemma heappush_heapFrom {item : α} (hagrees : Agrees key lt (item :: heap))
    (h : HeapFrom key heap 0) :
    ∃ heap', heappush lt heap item = .ok heap' ∧ HeapFrom key heap' 0 := by
  have hperm : (heap ++ [item]).Perm (item :: heap) := List.perm_append_singleton item heap
  have hsub : ∀ n : Nat, InSubtree 0 n := by
    intro n
    induction n using Nat.strong_induction_on with
    | _ n ih =>
      rcases Nat.eq_zero_or_pos n with rfl | hn
      · exact .root
      · exact .child hn (ih _ (by omega))
  refine siftdown_heapFrom (hagrees.of_perm hperm) ⟨hsub _, ?_, ?_⟩ (by simp) (by omega)
  · intro i hi0 hi _ a b ha hb
    have hilen : i < heap.length := by
      have := (List.getElem?_eq_some_iff.mp hb).1
      rw [List.length_append, List.length_singleton] at this
      omega
    rw [List.getElem?_append_left (by omega)] at ha
    rw [List.getElem?_append_left hilen] at hb
    exact h i hi0 (Nat.zero_le _) a b ha hb
  · intro _ c hc0 hc a b _ hb
    have := (List.getElem?_eq_some_iff.mp hb).1
    rw [List.length_append, List.length_singleton] at this
    omega

/-- The first item of a heap is a least one. -/
lemma HeapFrom.head_le (h : HeapFrom key heap 0) {item : α} (hitem : heap.head? = some item) :
    ∀ x ∈ heap, key item ≤ key x := by
  have hall : ∀ (i : Nat) (x : α), heap[i]? = some x → key item ≤ key x := by
    intro i
    induction i using Nat.strong_induction_on with
    | _ i ih =>
      intro x hx
      rcases Nat.eq_zero_or_pos i with rfl | hi
      · rw [List.head?_eq_getElem?, hx] at hitem
        rw [Option.some.inj hitem]
      · have hilen : i < heap.length := (List.getElem?_eq_some_iff.mp hx).1
        have hparent := List.getElem?_eq_getElem (show (i - 1) / 2 < heap.length by omega)
        exact (ih _ (by omega) _ hparent).trans (h i hi (Nat.zero_le _) _ _ hparent hx)
  intro x hx
  obtain ⟨i, hi⟩ := List.mem_iff_getElem?.mp hx
  exact hall i x hi

/-- Popping takes a least item and leaves a heap. -/
lemma heappop_heapFrom (hagrees : Agrees key lt heap) (h : HeapFrom key heap 0)
    (hne : heap ≠ []) : ∃ item heap', heappop lt heap = .ok (item, heap') ∧
      HeapFrom key heap' 0 ∧ ∀ x ∈ heap, key item ≤ key x := by
  obtain ⟨init, lastelt, rfl⟩ := (List.eq_nil_or_concat heap).resolve_left hne
  rw [List.concat_eq_append] at hagrees h ⊢
  cases init with
  | nil =>
    refine ⟨lastelt, [], by simp [heappop], ?_, by simp⟩
    intro i _ _ a b ha
    simp at ha
  | cons returnitem rest =>
    have hsub : ∀ x ∈ lastelt :: rest, x ∈ returnitem :: rest ++ [lastelt] := by
      intro x hx
      rcases List.mem_cons.mp hx with rfl | hx <;> simp_all
    have hmoved : HeapFrom key (lastelt :: rest) 1 := by
      intro i hi0 hstart a b ha hb
      have hilen := (List.getElem?_eq_some_iff.mp hb).1
      rw [List.length_cons] at hilen
      have hsame : ∀ j, 0 < j → j < rest.length + 1 →
          (returnitem :: rest ++ [lastelt])[j]? = (lastelt :: rest)[j]? := by
        intro j hj0 hj
        obtain ⟨j, rfl⟩ := Nat.exists_eq_succ_of_ne_zero (by omega : j ≠ 0)
        rw [List.cons_append, List.getElem?_cons_succ, List.getElem?_cons_succ,
          List.getElem?_append_left (by omega)]
      refine h i hi0 (Nat.zero_le _) a b ?_ ?_
      · rw [hsame _ (by omega) (by omega), ha]
      · rw [hsame i hi0 (by omega), hb]
    obtain ⟨heap', hup, hheap⟩ := siftup_heapFrom
      (fun a ha b hb => hagrees a (hsub a ha) b (hsub b hb)) hmoved (by simp)
    refine ⟨returnitem, heap', ?_, hheap, h.head_le rfl⟩
    have hlast : (returnitem :: rest ++ [lastelt]).getLast? = some lastelt :=
      List.getLast?_concat
    have hinit : (returnitem :: rest ++ [lastelt]).dropLast = returnitem :: rest :=
      List.dropLast_concat
    rw [heappop, hlast, hinit]
    simp only [hup, ok_bind, pure_eq]

lemma heapifyLoop_heapFrom {n : Nat} (hagrees : Agrees key lt heap) (h : HeapFrom key heap n)
    (hn : n ≤ heap.length) :
    ∃ heap', heapifyLoop lt n heap = .ok heap' ∧ HeapFrom key heap' 0 := by
  induction n generalizing heap with
  | zero => exact ⟨heap, rfl, h⟩
  | succ n ih =>
    obtain ⟨moved, hup, hmoved⟩ := siftup_heapFrom hagrees h (by omega)
    have hperm := siftup_perm hup
    obtain ⟨heap', hrun, hheap⟩ := ih (hagrees.of_perm hperm) hmoved
      (by rw [hperm.length_eq]; omega)
    exact ⟨heap', by rw [heapifyLoop, hup, ok_bind, hrun], hheap⟩

lemma heapify_heapFrom (hagrees : Agrees key lt heap) :
    ∃ heap', heapify lt heap = .ok heap' ∧ HeapFrom key heap' 0 := by
  refine heapifyLoop_heapFrom hagrees ?_ (by omega)
  intro i hi0 hstart a b _ hb
  have := (List.getElem?_eq_some_iff.mp hb).1
  omega

/-- All items come out, least first. -/
lemma popAll_heapFrom {fuel : Nat} (hagrees : Agrees key lt heap) (h : HeapFrom key heap 0)
    (hfuel : heap.length ≤ fuel) : ∃ l, popAll lt fuel heap = .ok l ∧ l.Perm heap ∧
      l.Pairwise fun a b => key a ≤ key b := by
  induction fuel generalizing heap with
  | zero =>
    obtain rfl := List.length_eq_zero_iff.mp (Nat.le_zero.mp hfuel)
    exact ⟨[], rfl, .refl _, .nil⟩
  | succ fuel ih =>
    by_cases hne : heap = []
    · subst hne
      exact ⟨[], by simp [popAll], .refl _, .nil⟩
    · obtain ⟨item, rest, hpop, hrest, hleast⟩ := heappop_heapFrom hagrees h hne
      obtain ⟨-, hperm⟩ := heappop_perm hpop
      have hmem : ∀ x ∈ rest, x ∈ heap := fun x hx => hperm.mem_iff.mp (List.mem_cons_of_mem _ hx)
      have hlen := hperm.length_eq
      rw [List.length_cons] at hlen
      obtain ⟨l, hl, hlperm, hsorted⟩ := ih
        (fun a ha b hb => hagrees a (hmem a ha) b (hmem b hb)) hrest (by omega)
      refine ⟨item :: l, ?_, (hlperm.cons item).trans hperm, List.pairwise_cons.mpr ⟨?_, hsorted⟩⟩
      · rw [popAll, if_neg hne, hpop, ok_bind]
        simp only [hl, ok_bind, pure_eq]
      · exact fun x hx => hleast x (hmem x (hlperm.mem_iff.mp hx))

/-- Where the comparison does not raise it is that of the keys. -/
def Decides (key : α → κ) (lt : α → α → Except PyError Bool) : Prop :=
  ∀ a b c, lt a b = .ok c → c = decide (key a < key b)

/-- The comparison of the keys. -/
def byKey (key : α → κ) (a b : α) : Except PyError Bool := .ok (decide (key a < key b))

lemma agrees_byKey (heap : List α) : Agrees key (byKey key) heap := fun _ _ _ _ => rfl

section Decides

variable (hlt : Decides key lt)

include hlt

lemma siftdown_byKey {start fuel pos : Nat} (h : siftdown lt start fuel heap pos = .ok heap') :
    siftdown (byKey key) start fuel heap pos = .ok heap' := by
  induction fuel generalizing heap pos with
  | zero => exact h
  | succ fuel ih =>
    simp only [siftdown] at h ⊢
    split_ifs at h ⊢ with hpos
    · split at h
      · obtain ⟨smaller, hsmaller, hrest⟩ := bind_eq_ok.mp h
        simp only [byKey, ok_bind, ← hlt _ _ _ hsmaller]
        split_ifs at hrest ⊢
        · exact ih hrest
        · exact hrest
      · cases h
    · exact h

lemma smallerChild_byKey {pos c : Nat} (h : smallerChild lt heap pos = .ok c) :
    smallerChild (byKey key) heap pos = .ok c := by
  unfold smallerChild at h ⊢
  split at h
  · obtain ⟨smaller, hsmaller, hrest⟩ := bind_eq_ok.mp h
    simp only [byKey, ok_bind, ← hlt _ _ _ hsmaller]
    exact hrest
  · exact h

lemma siftupLoop_byKey {fuel pos leaf : Nat}
    (h : siftupLoop lt fuel heap pos = .ok (heap', leaf)) :
    siftupLoop (byKey key) fuel heap pos = .ok (heap', leaf) := by
  induction fuel generalizing heap pos with
  | zero => exact h
  | succ fuel ih =>
    simp only [siftupLoop] at h ⊢
    split_ifs at h ⊢
    · obtain ⟨c, hc, hrest⟩ := bind_eq_ok.mp h
      rw [smallerChild_byKey hlt hc, ok_bind]
      exact ih hrest
    · exact h

lemma siftup_byKey {pos : Nat} (h : siftup lt heap pos = .ok heap') :
    siftup (byKey key) heap pos = .ok heap' := by
  obtain ⟨⟨moved, leaf⟩, hloop, hdown⟩ := bind_eq_ok.mp h
  rw [siftup, siftupLoop_byKey hlt hloop, ok_bind]
  exact siftdown_byKey hlt hdown

lemma heappop_byKey {item : α} (h : heappop lt heap = .ok (item, heap')) :
    heappop (byKey key) heap = .ok (item, heap') := by
  unfold heappop at h ⊢
  split at h
  · cases h
  · exact h
  · obtain ⟨moved, hup, hrest⟩ := bind_eq_ok.mp h
    simp only [siftup_byKey hlt hup, ok_bind]
    exact hrest

lemma heapifyLoop_byKey {n : Nat} (h : heapifyLoop lt n heap = .ok heap') :
    heapifyLoop (byKey key) n heap = .ok heap' := by
  induction n generalizing heap with
  | zero => exact h
  | succ n ih =>
    obtain ⟨moved, hup, hrest⟩ := bind_eq_ok.mp h
    rw [heapifyLoop, siftup_byKey hlt hup, ok_bind]
    exact ih hrest

lemma popAll_byKey {fuel : Nat} {l : List α} (h : popAll lt fuel heap = .ok l) :
    popAll (byKey key) fuel heap = .ok l := by
  induction fuel generalizing heap l with
  | zero => exact h
  | succ fuel ih =>
    simp only [popAll] at h ⊢
    split_ifs at h ⊢
    · exact h
    · obtain ⟨⟨item, rest⟩, hpop, hrest⟩ := bind_eq_ok.mp h
      obtain ⟨tail, htail, hret⟩ := bind_eq_ok.mp hrest
      rw [heappop_byKey hlt hpop, ok_bind]
      simp only [ih htail, ok_bind]
      exact hret

/-- Whatever was pushed without raising is in order. -/
lemma heapFrom_of_heappush {item : α} (h : HeapFrom key heap 0)
    (hrun : heappush lt heap item = .ok heap') : HeapFrom key heap' 0 := by
  obtain ⟨_, hpush, hheap⟩ := heappush_heapFrom (agrees_byKey (item :: heap)) h
  obtain rfl := Except.ok.inj (hpush.symm.trans (siftdown_byKey hlt hrun))
  exact hheap

lemma heapFrom_of_heappop {item : α} (h : HeapFrom key heap 0)
    (hrun : heappop lt heap = .ok (item, heap')) : HeapFrom key heap' 0 := by
  have hne : heap ≠ [] := by
    rintro rfl
    cases hrun
  obtain ⟨_, _, hpop, hheap, -⟩ := heappop_heapFrom (agrees_byKey heap) h hne
  obtain ⟨-, rfl⟩ := Prod.mk.inj (Except.ok.inj (hpop.symm.trans (heappop_byKey hlt hrun)))
  exact hheap

lemma heapFrom_of_heapify (hrun : heapify lt heap = .ok heap') : HeapFrom key heap' 0 := by
  obtain ⟨_, hheapify, hheap⟩ := heapify_heapFrom (@agrees_byKey _ _ _ key heap)
  obtain rfl := Except.ok.inj (hheapify.symm.trans (heapifyLoop_byKey hlt hrun))
  exact hheap

/-- Whatever was popped without raising came out in order. -/
lemma pairwise_of_popAll {fuel : Nat} {l : List α} (h : HeapFrom key heap 0)
    (hfuel : heap.length ≤ fuel) (hrun : popAll lt fuel heap = .ok l) :
    l.Perm heap ∧ l.Pairwise fun a b => key a ≤ key b := by
  obtain ⟨_, hpop, hperm, hsorted⟩ := popAll_heapFrom (agrees_byKey heap) h hfuel
  obtain rfl := Except.ok.inj (hpop.symm.trans (popAll_byKey hlt hrun))
  exact ⟨hperm, hsorted⟩

end Decides

end Heapq
