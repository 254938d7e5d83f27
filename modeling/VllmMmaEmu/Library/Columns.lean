import Mathlib.Data.List.Perm.Basic
import Mathlib.Data.List.Range
import Mathlib.Data.Nat.ModEq

/-!
# Splitting lists and reading them by columns

A list is split by the classes of its elements, or by the residues of their positions; rows of
unequal length are read column by column. Neither loses or repeats an element.
-/

namespace Columns

variable {A : Type*} {n : ℕ}

/-- What lies below `n` comes up once. -/
lemma flatMap_range_ite {k : ℕ} (hk : k < n) (a : A) :
    (List.range n).flatMap (fun i => if k = i then [a] else []) = [a] := by
  induction n with
  | zero => exact absurd hk (Nat.not_lt_zero k)
  | succ n ih =>
    rw [List.range_succ, List.flatMap_append, List.flatMap_singleton]
    rcases (Nat.lt_succ_iff_lt_or_eq.mp hk) with hlt | rfl
    · rw [ih hlt, if_neg hlt.ne, List.append_nil]
    · have hnone : (List.range k).flatMap (fun i => if k = i then [a] else []) = [] := by
        refine List.flatMap_eq_nil_iff.mpr fun i hi => if_neg ?_
        exact (List.mem_range.mp hi).ne'
      rw [hnone, if_pos rfl, List.nil_append]

/-- The classes below `n` make up the list. -/
theorem flatMap_filter_perm (f : A → ℕ) {l : List A} (hf : ∀ a ∈ l, f a < n) :
    ((List.range n).flatMap fun i => l.filter (f · = i)).Perm l := by
  induction l with
  | nil => exact List.Perm.of_eq (List.flatMap_eq_nil_iff.mpr fun _ _ => rfl)
  | cons a l ih =>
    have hsplit : (fun i => (a :: l).filter (f · = i)) =
        fun i => (if f a = i then [a] else []) ++ l.filter (f · = i) := by
      funext i
      by_cases hi : f a = i
      · simp [hi]
      · simp [hi]
    rw [hsplit]
    refine (List.flatMap_append_perm _ _ _).symm.trans ?_
    rw [flatMap_range_ite (hf a List.mem_cons_self), List.singleton_append]
    exact (ih fun b hb => hf b (List.mem_cons_of_mem a hb)).cons a

/-- `layers[i::n]`. -/
def stride (l : List A) (i n : ℕ) : List A :=
  ((l.drop i).zipIdx.filter fun x => x.2 % n = 0).map Prod.fst

/-- Nothing before position `i` has residue `i`. -/
lemma filter_take (l : List A) {i : ℕ} (hi : i < n) :
    (l.take i).zipIdx.filter (fun x => x.2 % n = i) = [] := by
  refine List.filter_eq_nil_iff.mpr fun x hx => ?_
  have hlt : x.2 < i := by
    have := List.snd_lt_of_mem_zipIdx hx
    rw [List.length_take] at this
    omega
  rw [decide_eq_true_eq, Nat.mod_eq_of_lt (hlt.trans hi)]
  exact hlt.ne

/-- The elements from `i` on, every `n`-th of them, are those at the positions of residue `i`. -/
lemma stride_eq (l : List A) {i : ℕ} (hi : i < n) :
    stride l i n = (l.zipIdx.filter fun x => x.2 % n = i).map Prod.fst := by
  rcases Nat.lt_or_ge l.length i with hshort | hlong
  · have hall := filter_take l hi
    rw [List.take_of_length_le hshort.le] at hall
    rw [hall, stride, List.drop_of_length_le hshort.le]
    rfl
  · have hresidue : ∀ j, (i + j) % n = i ↔ j % n = 0 := by
      intro j
      have hdvd : (i + j) % n = i % n ↔ j % n = 0 % n :=
        ⟨fun h => Nat.ModEq.add_left_cancel' (b := 0) i h, fun h => Nat.ModEq.add_left i h⟩
      rwa [Nat.mod_eq_of_lt hi, Nat.zero_mod] at hdvd
    have hlength : (l.take i).length = i := List.length_take_of_le hlong
    conv_rhs => rw [← List.take_append_drop i l]
    rw [List.zipIdx_append, List.filter_append, filter_take l hi, List.nil_append, hlength,
      Nat.zero_add, List.zipIdx_eq_map_add, List.filter_map, List.map_map, stride]
    refine congrArg (List.map Prod.fst) (List.filter_congr fun x _ => ?_)
    exact decide_eq_decide.mpr (hresidue x.2).symm

/-- The strides make up the list. -/
theorem flatMap_stride_perm (l : List A) (hn : 0 < n) :
    ((List.range n).flatMap fun i => stride l i n).Perm l := by
  have hstride : ((List.range n).flatMap fun i => stride l i n) =
      ((List.range n).flatMap fun i => l.zipIdx.filter (·.2 % n = i)).map Prod.fst := by
    rw [List.map_flatMap]
    exact List.flatMap_congr fun i hi => stride_eq l (List.mem_range.mp hi)
  rw [hstride]
  refine ((flatMap_filter_perm (fun x : A × ℕ => x.2 % n) fun x _ => Nat.mod_lt _ hn).map
    Prod.fst).trans (.of_eq ?_)
  exact List.zipIdx_map_fst 0 l

/-- One row, column by column. -/
lemma flatMap_getElem? {row : List A} (hn : row.length ≤ n) :
    (List.range n).flatMap (fun i => row[i]?.toList) = row := by
  induction row generalizing n with
  | nil => exact List.flatMap_eq_nil_iff.mpr fun _ _ => rfl
  | cons a row ih =>
    obtain ⟨m, rfl⟩ := Nat.exists_eq_add_of_le' (Nat.one_le_of_lt hn)
    rw [List.range_succ_eq_map, List.flatMap_cons, List.flatMap_map]
    exact congrArg (a :: ·) (ih (Nat.le_of_succ_le_succ hn))

/-- The rows as far as column `n`, column by column. -/
theorem columns_perm {rows : List (List A)} (hn : ∀ row ∈ rows, row.length ≤ n) :
    ((List.range n).flatMap fun i => rows.filterMap fun row => row[i]?).Perm rows.flatten := by
  induction rows with
  | nil => exact List.Perm.of_eq (List.flatMap_eq_nil_iff.mpr fun _ _ => rfl)
  | cons row rows ih =>
    have hsplit : (fun i : ℕ => (row :: rows).filterMap fun row => row[i]?) =
        fun i => row[i]?.toList ++ rows.filterMap fun row => row[i]? := by
      funext i
      cases hi : row[i]? with
      | none => simp [hi]
      | some a => simp [hi]
    rw [hsplit]
    refine (List.flatMap_append_perm _ _ _).symm.trans ?_
    rw [List.flatten_cons]
    exact List.Perm.append (.of_eq (flatMap_getElem? (hn row List.mem_cons_self)))
      (ih fun r hr => hn r (List.mem_cons_of_mem row hr))

end Columns
