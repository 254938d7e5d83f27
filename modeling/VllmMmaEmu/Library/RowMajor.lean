import Mathlib.Data.List.Forall2
import Mathlib.Data.List.GetD
import Mathlib.Algebra.BigOperators.Group.List.Basic
import Mathlib.Tactic.Ring
import Mathlib.Tactic.Linarith

/-!
# Row-major tensors

A contiguous tensor is a shape and a flat memory. Reshaping keeps the memory;
permuting axes rewrites it. Multi-indices are lists, and `ravel` and `unravel`
translate between them and flat positions.
-/

namespace RowMajor

/-- Flat position of a multi-index. -/
def ravel : List ℕ → List ℕ → ℕ
  | _ :: shape, i :: idx => i * shape.prod + ravel shape idx
  | _, _ => 0

/-- Multi-index of a flat position. -/
def unravel : List ℕ → ℕ → List ℕ
  | [], _ => []
  | _ :: shape, k => k / shape.prod :: unravel shape (k % shape.prod)

/-- Every index is below the size of its axis. -/
def InBounds (shape idx : List ℕ) : Prop := List.Forall₂ (fun n i => i < n) shape idx

instance (shape idx : List ℕ) : Decidable (InBounds shape idx) :=
  inferInstanceAs (Decidable (List.Forall₂ _ _ _))

lemma ravel_lt {shape idx : List ℕ} (h : InBounds shape idx) : ravel shape idx < shape.prod := by
  induction h with
  | nil => simp [ravel]
  | @cons n i shape idx hi _ ih =>
    rw [ravel, List.prod_cons]
    calc i * shape.prod + ravel shape idx < (i + 1) * shape.prod := by linarith
      _ ≤ n * shape.prod := Nat.mul_le_mul_right _ hi

lemma unravel_ravel {shape idx : List ℕ} (h : InBounds shape idx) :
    unravel shape (ravel shape idx) = idx := by
  induction h with
  | nil => rfl
  | @cons n i shape idx hi ht ih =>
    have hlt := ravel_lt ht
    have hpos : 0 < shape.prod := by omega
    have hdiv : (i * shape.prod + ravel shape idx) / shape.prod = i := by
      rw [Nat.add_comm, Nat.add_mul_div_right _ _ hpos, Nat.div_eq_of_lt hlt, Nat.zero_add]
    have hmod : (i * shape.prod + ravel shape idx) % shape.prod = ravel shape idx := by
      rw [Nat.add_comm, Nat.add_mul_mod_self_right, Nat.mod_eq_of_lt hlt]
    rw [ravel, unravel, hdiv, hmod, ih]

/-- Distinct multi-indices have distinct positions. -/
lemma ravel_injective {shape idx idx' : List ℕ} (h : InBounds shape idx) (h' : InBounds shape idx')
    (heq : ravel shape idx = ravel shape idx') : idx = idx' := by
  rw [← unravel_ravel h, heq, unravel_ravel h']

structure Tensor (α : Type*) where
  shape : List ℕ
  data : ℕ → α

namespace Tensor

variable {α β γ : Type*}

def get (t : Tensor α) (idx : List ℕ) : α := t.data (ravel t.shape idx)

def full (shape : List ℕ) (x : α) : Tensor α := ⟨shape, fun _ => x⟩

def reshape (t : Tensor α) (shape : List ℕ) : Tensor α := ⟨shape, t.data⟩

/-- `reshape`, which raises unless both shapes have the same number of elements. -/
def tryReshape (t : Tensor α) (shape : List ℕ) : Option (Tensor α) :=
  if shape.prod = t.shape.prod then some (t.reshape shape) else none

def map (f : α → β) (t : Tensor α) : Tensor β := ⟨t.shape, fun k => f (t.data k)⟩

/-- `t[0:n₀, 0:n₁, ...]`; a bound past the end of its axis keeps the axis. -/
def take (t : Tensor α) (bounds : List ℕ) : Tensor α where
  shape := List.zipWith min bounds t.shape
  data k := t.get (unravel (List.zipWith min bounds t.shape) k)

/-- `t[:n₀, :n₁, ...] = src`, with the slice bounds taken from the shape of `src`. -/
def assignSlice (t src : Tensor α) : Tensor α where
  shape := t.shape
  data k :=
    if InBounds src.shape (unravel t.shape k) then src.get (unravel t.shape k) else t.data k

/-- `permute` followed by `contiguous`: axis `p` of the result is axis `perm[p]` of `t`. -/
def permute (t : Tensor α) (perm : List ℕ) : Tensor α where
  shape := perm.map (t.shape.getD · 0)
  data k :=
    let idx := unravel (perm.map (t.shape.getD · 0)) k
    t.get ((List.range t.shape.length).map fun axis => idx.getD (perm.idxOf axis) 0)

/-- Two axes broadcast if they are equal or one of them has size 1. -/
def broadcastAxis (n n' : ℕ) : Option ℕ :=
  if n = n' then some n else if n = 1 then some n' else if n' = 1 then some n else none

/-- Shape of an elementwise operation on two tensors with the same number of axes. -/
def broadcastShape : List ℕ → List ℕ → Option (List ℕ)
  | [], [] => some []
  | n :: shape, n' :: shape' => do
    let axis ← broadcastAxis n n'
    let rest ← broadcastShape shape shape'
    return axis :: rest
  | _, _ => none

/-- The index that a stretched tensor is read at. -/
def stretch (shape idx : List ℕ) : List ℕ :=
  List.zipWith (fun n i => if n = 1 then 0 else i) shape idx

/-- An elementwise operation with broadcasting; it raises if an axis does not broadcast. -/
def zipBroadcast (f : α → β → γ) (t : Tensor α) (u : Tensor β) : Option (Tensor γ) :=
  (broadcastShape t.shape u.shape).map fun shape =>
    ⟨shape, fun k => f (t.get (stretch t.shape (unravel shape k)))
      (u.get (stretch u.shape (unravel shape k)))⟩

/-- The same shape and the same elements, whatever lies past the end of the memory. -/
def Same (t u : Tensor α) : Prop :=
  t.shape = u.shape ∧ ∀ idx, InBounds t.shape idx → t.get idx = u.get idx

lemma tryReshape_eq {t : Tensor α} {shape : List ℕ} (h : shape.prod = t.shape.prod) :
    t.tryReshape shape = some (t.reshape shape) := if_pos h

lemma get_take (t : Tensor α) (bounds : List ℕ) {idx : List ℕ}
    (h : InBounds (t.take bounds).shape idx) : (t.take bounds).get idx = t.get idx := by
  have hback : unravel (t.take bounds).shape (ravel (t.take bounds).shape idx) = idx :=
    unravel_ravel h
  exact congrArg t.get hback

lemma get_map (f : α → β) (t : Tensor α) (idx : List ℕ) : (t.map f).get idx = f (t.get idx) := rfl

/-- An axis of size 1 has no other index, so indices in bounds are read where they point. -/
lemma stretch_of_inBounds {shape idx : List ℕ} (h : InBounds shape idx) :
    stretch shape idx = idx := by
  induction h with
  | nil => rfl
  | @cons n i shape idx hi _ ih =>
    have hread : (if n = 1 then 0 else i) = i := by
      split
      · omega
      · rfl
    rw [stretch, List.zipWith_cons_cons, hread]
    exact congrArg (i :: ·) ih

/-- Reading the result of an elementwise operation. -/
lemma zipBroadcast_eq (f : α → β → γ) {t : Tensor α} {u : Tensor β} {shape : List ℕ}
    (hshape : broadcastShape t.shape u.shape = some shape) :
    ∃ out, zipBroadcast f t u = some out ∧ out.shape = shape ∧ ∀ idx, InBounds shape idx →
      out.get idx = f (t.get (stretch t.shape idx)) (u.get (stretch u.shape idx)) := by
  refine ⟨_, by rw [zipBroadcast, hshape, Option.map_some], rfl, fun idx hidx => ?_⟩
  simp only [get, unravel_ravel hidx]

/-- An operation of every block of a row with one element. -/
lemma zipBroadcast_blocks (f : α → β → γ) {t : Tensor α} {u : Tensor β} {m blocks size : ℕ}
    (ht : t.shape = [m, blocks * size]) (hu : u.shape = [m, blocks]) :
    ∃ out, zipBroadcast f (t.reshape [m, blocks, size]) (u.reshape [m, blocks, 1]) = some out ∧
      out.shape = [m, blocks, size] ∧ ∀ i < m, ∀ j < blocks * size,
        (out.reshape [m, blocks * size]).get [i, j] = f (t.get [i, j]) (u.get [i, j / size]) := by
  have hshape : broadcastShape [m, blocks, size] [m, blocks, 1] = some [m, blocks, size] := by
    simp [broadcastShape, broadcastAxis]
    split <;> simp_all
  obtain ⟨out, hout, hshape', hget⟩ :=
    zipBroadcast_eq f (t := t.reshape [m, blocks, size]) (u := u.reshape [m, blocks, 1]) hshape
  refine ⟨out, hout, hshape', fun i hi j hj => ?_⟩
  have hblock : j / size < blocks := Nat.div_lt_of_lt_mul (by rwa [Nat.mul_comm])
  have hsize : 0 < size := Nat.pos_of_ne_zero fun h => by simp [h] at hj
  -- element `j` of a row is element `j % size` of its block
  have hflat : ravel [m, blocks, size] [i, j / size, j % size] = ravel [m, blocks * size] [i, j] := by
    have hj := Nat.div_add_mod' j size
    simp only [ravel, List.prod_cons, List.prod_nil, Nat.mul_one, Nat.add_zero, hj]
  have hidx : InBounds [m, blocks, size] [i, j / size, j % size] :=
    .cons hi (.cons hblock (.cons (Nat.mod_lt j hsize) .nil))
  have hfirst : InBounds [m, blocks, 1] [i, j / size, 0] :=
    .cons hi (.cons hblock (.cons Nat.one_pos .nil))
  have hscale : stretch [m, blocks, 1] [i, j / size, j % size] = [i, j / size, 0] :=
    stretch_of_inBounds hfirst
  calc (out.reshape [m, blocks * size]).get [i, j]
      = out.get [i, j / size, j % size] := by
        rw [get, get, hshape', hflat]
        rfl
    _ = f (t.data (ravel [m, blocks, size] [i, j / size, j % size]))
          (u.data (ravel [m, blocks, 1] [i, j / size, 0])) := by
        rw [hget _ hidx]
        change f (t.data (ravel _ (stretch [m, blocks, size] _)))
          (u.data (ravel _ (stretch [m, blocks, 1] _))) = _
        rw [stretch_of_inBounds hidx, hscale]
        rfl
    _ = f (t.get [i, j]) (u.get [i, j / size]) := by
        rw [hflat, get, get, ht, hu]
        simp [ravel]

lemma get_assignSlice (t src : Tensor α) (idx : List ℕ) (ht : InBounds t.shape idx)
    (hsrc : InBounds src.shape idx) : (t.assignSlice src).get idx = src.get idx := by
  simp only [get, assignSlice, unravel_ravel ht]
  rw [if_pos hsrc]

lemma map_range_getD {idx : List ℕ} {n : ℕ} (hn : idx.length = n) :
    (List.range n).map (fun axis => idx.getD axis 0) = idx := by
  apply List.ext_getElem
  · simp [hn]
  · intro i h₁ h₂
    rw [List.getElem_map, List.getElem_range, List.getD_eq_getElem _ _ h₂]

/-- Reading a permuted tensor at permuted indices. -/
lemma get_permute {t : Tensor α} {perm idx : List ℕ} (hidx : InBounds t.shape idx)
    (hperm : perm.Perm (List.range t.shape.length)) :
    (t.permute perm).get (perm.map (idx.getD · 0)) = t.get idx := by
  have hlen : idx.length = t.shape.length := hidx.length_eq.symm
  have hbounds : InBounds (perm.map (t.shape.getD · 0)) (perm.map (idx.getD · 0)) := by
    rw [InBounds, List.forall₂_map_left_iff, List.forall₂_map_right_iff, List.forall₂_same]
    intro axis haxis
    have hlt : axis < t.shape.length := List.mem_range.mp (hperm.mem_iff.mp haxis)
    rw [List.getD_eq_getElem _ _ hlt, List.getD_eq_getElem _ _ (hlen ▸ hlt)]
    exact List.Forall₂.get hidx hlt (hlen ▸ hlt)
  have hback : (List.range t.shape.length).map
      (fun axis => (perm.map (idx.getD · 0)).getD (perm.idxOf axis) 0) = idx := by
    rw [← map_range_getD hlen]
    apply List.map_congr_left
    intro axis haxis
    have hpos : perm.idxOf axis < perm.length := List.idxOf_lt_length_of_mem (hperm.mem_iff.mpr haxis)
    rw [List.getD_eq_getElem _ _ (by simpa using hpos), List.getElem_map, List.getElem_idxOf,
      map_range_getD hlen]
  simp only [get, permute, unravel_ravel hbounds]
  rw [hback]

end Tensor

end RowMajor
