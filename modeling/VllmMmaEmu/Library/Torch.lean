import Mathlib.Data.List.GetD
import Mathlib.Tactic.Ring
import VllmMmaEmu.Library.Python

/-!
# Two-dimensional tensors

A tensor is its shape and its entries in row-major order. An operation checks its shapes
and indexes as it runs and raises where they do not fit.
-/

namespace Torch

open Python

structure Tensor (α : Type) where
  rows : Nat
  cols : Nat
  data : List α
  size : data.length = rows * cols

namespace Tensor

variable {α β : Type} {rows cols : Nat}

@[ext] lemma ext {t t' : Tensor α} (hr : t.rows = t'.rows) (hc : t.cols = t'.cols)
    (hd : t.data = t'.data) : t = t' := by
  cases t
  cases t'
  simp only at hr hc hd
  subst hr hc hd
  rfl

/-- The tensor with the entry `f i j` in row `i` and column `j`. -/
def ofFn (rows cols : Nat) (f : Nat → Nat → α) : Tensor α where
  rows := rows
  cols := cols
  data := (List.range (rows * cols)).map fun q => f (q / cols) (q % cols)
  size := by simp

@[simp] lemma ofFn_rows (f : Nat → Nat → α) : (ofFn rows cols f).rows = rows := rfl

@[simp] lemma ofFn_cols (f : Nat → Nat → α) : (ofFn rows cols f).cols = cols := rfl

lemma ofFn_congr {f g : Nat → Nat → α} (h : ∀ i < rows, ∀ j < cols, f i j = g i j) :
    ofFn rows cols f = ofFn rows cols g := by
  ext1
  · rfl
  · rfl
  · refine List.map_congr_left fun q hq => ?_
    have hq := List.mem_range.mp hq
    refine h _ (Nat.div_lt_of_lt_mul (by rwa [Nat.mul_comm])) _ (Nat.mod_lt _ ?_)
    exact Nat.pos_of_lt_mul_left hq

lemma mem_data_ofFn {f : Nat → Nat → α} {x : α} (h : x ∈ (ofFn rows cols f).data) :
    ∃ i < rows, ∃ j < cols, f i j = x := by
  obtain ⟨q, hq, rfl⟩ := List.mem_map.mp h
  have hq := List.mem_range.mp hq
  exact ⟨_, Nat.div_lt_of_lt_mul (by rwa [Nat.mul_comm]), _,
    Nat.mod_lt _ (Nat.pos_of_lt_mul_left hq), rfl⟩

/-- `t.view(rows, cols)`, also for more axes than two: the entries stay where they are. -/
def view (t : Tensor α) (rows cols : Nat) : Except PyError (Tensor α) :=
  if h : rows * cols = t.rows * t.cols then
    .ok ⟨rows, cols, t.data, by rw [t.size, h]⟩
  else .error (.runtimeError "shape is invalid for input")

lemma view_ofFn {f : Nat → Nat → α} {r c : Nat} (h : r * c = rows * cols) :
    (ofFn rows cols f).view r c =
      .ok (ofFn r c fun i j => f ((i * c + j) / cols) ((i * c + j) % cols)) := by
  rw [view, dif_pos (by exact h)]
  refine congrArg Except.ok ?_
  ext1
  · rfl
  · rfl
  · simp only [ofFn, ← h]
    refine List.map_congr_left fun q _ => ?_
    rw [Nat.mul_comm (q / c), Nat.div_add_mod]

/-- `t.view(-1, cols)`. -/
def viewCols (t : Tensor α) (cols : Nat) : Except PyError (Tensor α) :=
  if cols = 0 then .error (.runtimeError "the unspecified dimension size -1 can be any value")
  else t.view (t.rows * t.cols / cols) cols

/-- `t.view(rows, -1)`. -/
def viewRows (t : Tensor α) (rows : Nat) : Except PyError (Tensor α) :=
  if rows = 0 then .error (.runtimeError "the unspecified dimension size -1 can be any value")
  else t.view rows (t.rows * t.cols / rows)

/-- Every row of `n * c` entries is split into `n` rows. -/
lemma viewCols_split {f : Nat → Nat → α} {n c : Nat} (hc : 0 < c) (hcols : cols = n * c) :
    (ofFn rows cols f).viewCols c =
      .ok (ofFn (rows * n) c fun i j => f (i / n) (i % n * c + j)) := by
  have hsize : rows * cols = rows * n * c := by rw [hcols, Nat.mul_assoc]
  rw [viewCols, if_neg hc.ne', ofFn_rows, ofFn_cols, hsize, Nat.mul_div_cancel _ hc,
    view_ofFn hsize.symm]
  refine congrArg Except.ok (ofFn_congr fun i _ j hj => ?_)
  have hq : i * c + j = (i / n) * (n * c) + (i % n * c + j) := by
    conv_lhs => rw [← Nat.div_add_mod i n]
    ring
  have hn : 0 < n ∨ n = 0 := by omega
  rcases hn with hn | rfl
  · have hlt : i % n * c + j < n * c :=
      calc i % n * c + j < (i % n + 1) * c := by rw [Nat.succ_mul]; omega
        _ ≤ n * c := Nat.mul_le_mul_right _ (Nat.mod_lt _ hn)
    rw [hq, hcols, Nat.add_comm, Nat.add_mul_div_right _ _ (Nat.zero_lt_of_lt hlt),
      Nat.div_eq_of_lt hlt, Nat.zero_add, Nat.add_mul_mod_self_right, Nat.mod_eq_of_lt hlt]
  · omega

/-- Every `n` rows are joined to one. -/
lemma viewRows_join {f : Nat → Nat → α} {r n : Nat} (hr : 0 < r) (hrows : rows = r * n) :
    (ofFn rows cols f).viewRows r =
      .ok (ofFn r (n * cols) fun i j => f (i * n + j / cols) (j % cols)) := by
  have hsize : rows * cols = r * (n * cols) := by rw [hrows, Nat.mul_assoc]
  rw [viewRows, if_neg hr.ne', ofFn_rows, ofFn_cols, hsize, Nat.mul_div_cancel_left _ hr,
    view_ofFn hsize.symm]
  refine congrArg Except.ok (ofFn_congr fun i _ j hj => ?_)
  have hcols : 0 < cols := Nat.pos_of_lt_mul_left hj
  have hq : i * (n * cols) + j = j + (i * n) * cols := by ring
  rw [hq, Nat.add_mul_div_right _ _ hcols, Nat.add_mul_mod_self_right, Nat.add_comm (j / cols)]

variable [Inhabited α]

/-- The entry in row `i` and column `j`. -/
def get (t : Tensor α) (i j : Nat) : α := t.data.getD (i * t.cols + j) default

lemma get_ofFn {f : Nat → Nat → α} {i j : Nat} (hi : i < rows) (hj : j < cols) :
    (ofFn rows cols f).get i j = f i j := by
  have hlt : i * cols + j < rows * cols :=
    calc i * cols + j < (i + 1) * cols := by rw [Nat.succ_mul]; omega
      _ ≤ rows * cols := Nat.mul_le_mul_right _ hi
  have hdiv : (i * cols + j) / cols = i := by
    rw [Nat.add_comm, Nat.add_mul_div_right _ _ (Nat.zero_lt_of_lt hj), Nat.div_eq_of_lt hj,
      Nat.zero_add]
  have hmod : (i * cols + j) % cols = j := by
    rw [Nat.add_comm, Nat.add_mul_mod_self_right, Nat.mod_eq_of_lt hj]
  simp [get, ofFn, List.getD_eq_getElem?_getD, hlt, hdiv, hmod]

/-- A tensor is its entries. -/
lemma eq_ofFn (t : Tensor α) : t = ofFn t.rows t.cols t.get := by
  ext1
  · rfl
  · rfl
  · refine List.ext_getElem ?_ ?_
    · simp [ofFn, t.size]
    · intro q hq _
      simp only [ofFn, List.getElem_map, List.getElem_range, get]
      rw [Nat.mul_comm, Nat.div_add_mod, List.getD_eq_getElem _ _ hq]

def row (t : Tensor α) (i : Nat) : List α := (List.range t.cols).map (t.get i)

/-- The tensor with these rows. -/
def ofRows (cols : Nat) (l : List (List α)) : Tensor α :=
  ofFn l.length cols fun i j => (l.getD i []).getD j default

/-- `t.gather(-1, index)`. -/
def gather (t : Tensor α) (index : Tensor Int) : Except PyError (Tensor α) :=
  if index.rows ≤ t.rows ∧ ∀ x ∈ index.data, 0 ≤ x ∧ x < t.cols then
    .ok (ofFn index.rows index.cols fun i j => t.get i (index.get i j).toNat)
  else .error (.runtimeError "index out of bounds")

/-- The entry of row `i` of the index that names place `k`. Of several it is the first;
torch leaves open which. -/
def source? (index : Tensor Int) (i k : Nat) : Option Nat :=
  (List.range index.cols).find? fun j => i < index.rows ∧ index.get i j = k

/-- `t.scatter_(-1, index, src)`, where `src` has the shape of `index`. -/
def scatter (t : Tensor α) (index : Tensor Int) (src : Nat → Nat → α) :
    Except PyError (Tensor α) :=
  if index.rows ≤ t.rows ∧ ∀ x ∈ index.data, 0 ≤ x ∧ x < t.cols then
    .ok (ofFn t.rows t.cols fun i k =>
      match index.source? i k with
      | some j => src i j
      | none => t.get i k)
  else .error (.runtimeError "index out of bounds")

/-- The indexes of a tensor of numbers below `bound` are in range. -/
lemma data_inRange {g : Nat → Nat → Nat} {bound : Nat}
    (h : ∀ i < rows, ∀ j < cols, g i j < bound) :
    ∀ x ∈ (ofFn rows cols fun i j => (g i j : Int)).data, 0 ≤ x ∧ x < bound := by
  intro x hx
  obtain ⟨i, hi, j, hj, rfl⟩ := mem_data_ofFn hx
  exact ⟨Int.natCast_nonneg _, Int.ofNat_lt.mpr (h i hi j hj)⟩

lemma gather_ofFn {f : Nat → Nat → α} {g : Nat → Nat → Nat} {k : Nat}
    (h : ∀ i < rows, ∀ j < k, g i j < cols) :
    (ofFn rows cols f).gather (ofFn rows k fun i j => (g i j : Int)) =
      .ok (ofFn rows k fun i j => f i (g i j)) := by
  rw [gather, if_pos ⟨Nat.le_refl _, data_inRange h⟩]
  simp only [ofFn_rows, ofFn_cols]
  refine congrArg Except.ok (ofFn_congr fun i hi j hj => ?_)
  rw [get_ofFn hi hj, Int.toNat_natCast, get_ofFn hi (h i hi j hj)]

lemma source?_eq_some {g : Nat → Nat → Nat} {i j : Nat} (hi : i < rows) (hj : j < cols)
    (hinj : ∀ j' < cols, g i j' = g i j → j' = j) :
    (ofFn rows cols fun i j => (g i j : Int)).source? i (g i j) = some j := by
  rw [source?, List.find?_eq_some_iff_getElem]
  refine ⟨by simp [hi, get_ofFn hi hj], j, by simpa using hj, by simp, ?_⟩
  intro j' hj'
  have hlt : j' < cols := hj'.trans hj
  have hne : g i j' ≠ g i j := fun heq => hj'.ne (hinj j' hlt heq)
  simp [get_ofFn hi hlt, hne]

lemma source?_eq_none {g : Nat → Nat → Nat} {i q : Nat} (hno : ∀ j < cols, g i j ≠ q) :
    (ofFn rows cols fun i j => (g i j : Int)).source? i q = none := by
  rw [source?, List.find?_eq_none]
  intro j hj
  have hj : j < cols := List.mem_range.mp hj
  by_cases hi : i < rows
  · simp [get_ofFn hi hj, hno j hj]
  · simp [hi]

/-- Every place that one index names takes its entry, the others stay. -/
lemma scatter_ofFn (f src : Nat → Nat → α) {g : Nat → Nat → Nat} {k : Nat}
    (h : ∀ i < rows, ∀ j < k, g i j < cols)
    (hinj : ∀ i < rows, ∀ j < k, ∀ j' < k, g i j = g i j' → j = j') :
    ∃ out : Nat → Nat → α,
      (ofFn rows cols f).scatter (ofFn rows k fun i j => (g i j : Int)) src =
        .ok (ofFn rows cols out) ∧
      (∀ i < rows, ∀ j < k, out i (g i j) = src i j) ∧
      ∀ i < rows, ∀ q < cols, (∀ j < k, g i j ≠ q) → out i q = f i q := by
  refine ⟨_, by rw [scatter, if_pos ⟨Nat.le_refl _, data_inRange h⟩]; rfl, ?_, ?_⟩
  · intro i hi j hj
    simp only [source?_eq_some hi hj fun j' hj' heq => hinj i hi j' hj' j hj heq]
  · intro i hi q hq hno
    simp only [source?_eq_none hno, get_ofFn hi hq]

end Tensor

end Torch
