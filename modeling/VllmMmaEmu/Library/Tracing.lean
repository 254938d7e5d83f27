import Mathlib.Algebra.Order.Group.Multiset
import Mathlib.Control.Monad.Writer
import Mathlib.Data.List.Basic
import Mathlib.Tactic.Lemma

/-!
# Computations that record events

A writer of events is a program annotated with what it does on the way. Its
result forgets the annotation; a property of all its events is proved along the
structure of the program, with loops handled one prefix at a time.
-/

namespace Tracing

variable {ε α β : Type}

/-- What the program returns. -/
def result (x : Writer (List ε) α) : α := (WriterT.run x).1

/-- Every event that the program records satisfies `P`. -/
def All (P : ε → Prop) (x : Writer (List ε) α) : Prop := ∀ e ∈ (WriterT.run x).2, P e

@[simp] lemma result_pure (a : α) : result (pure a : Writer (List ε) α) = a := rfl

@[simp] lemma result_bind (x : Writer (List ε) α) (f : α → Writer (List ε) β) :
    result (x >>= f) = result (f (result x)) := rfl

lemma result_ite (c : Prop) [Decidable c] (x y : Writer (List ε) α) :
    result (if c then x else y) = if c then result x else result y := apply_ite _ _ _ _

section
variable {P : ε → Prop}

@[simp] lemma all_pure (a : α) : All P (pure a : Writer (List ε) α) :=
  fun e he => absurd he (List.not_mem_nil (a := e))

@[simp] lemma all_tell (events : List ε) :
    All P (tell events : Writer (List ε) PUnit) ↔ ∀ e ∈ events, P e := Iff.rfl

@[simp] lemma all_bind (x : Writer (List ε) α) (f : α → Writer (List ε) β) :
    All P (x >>= f) ↔ All P x ∧ All P (f (result x)) :=
  List.forall_mem_append

end

lemma result_foldlM (f : β → α → Writer (List ε) β) (loop : List α) (b : β) :
    result (loop.foldlM f b) = loop.foldl (fun b x => result (f b x)) b := by
  induction loop generalizing b with
  | nil => rfl
  | cons x loop ih => exact ih (result (f b x))

/-- A loop is safe if each step is, from the state that the steps before it leave. -/
lemma all_foldlM {P : ε → Prop} {f : β → α → Writer (List ε) β} {loop : List α} {b : β}
    (h : ∀ before x after, loop = before ++ x :: after →
      All P (f (before.foldl (fun b x => result (f b x)) b) x)) :
    All P (loop.foldlM f b) := by
  induction loop generalizing b with
  | nil => exact all_pure b
  | cons x loop ih =>
    refine (all_bind (f b x) fun b => loop.foldlM f b).mpr ⟨h [] x loop rfl, ih ?_⟩
    intro before y after heq
    exact h (x :: before) y after (by rw [heq, List.cons_append])

/-- The steps before step `i` of a counted loop are those below `i`. -/
lemma all_foldlM_range {P : ε → Prop} {f : β → ℕ → Writer (List ε) β} {n : ℕ} {b : β}
    (h : ∀ i < n, All P (f ((List.range i).foldl (fun b j => result (f b j)) b) i)) :
    All P ((List.range n).foldlM f b) := by
  refine all_foldlM fun before i after heq => ?_
  have hlen : before.length < n := by
    have hlength := congrArg List.length heq
    simp only [List.length_range, List.length_append, List.length_cons] at hlength
    omega
  have hi : i = before.length := by
    have hread := congrArg (·[before.length]?) heq
    simpa [List.getElem?_range hlen, eq_comm] using hread
  have hbefore : before = List.range before.length := by
    have htake := congrArg (List.take before.length) heq
    rwa [List.take_left, List.take_range, Nat.min_eq_left (Nat.le_of_lt hlen), eq_comm] at htake
  rw [hi, hbefore, List.length_range]
  exact h before.length hlen

lemma result_mapM' (f : α → Writer (List ε) β) (loop : List α) :
    result (loop.mapM' f) = loop.map fun x => result (f x) := by
  induction loop with
  | nil => rfl
  | cons x loop ih => exact congrArg (result (f x) :: ·) ih

lemma all_mapM' {P : ε → Prop} {f : α → Writer (List ε) β} {loop : List α}
    (h : ∀ x ∈ loop, All P (f x)) : All P (loop.mapM' f) := by
  induction loop with
  | nil => exact all_pure []
  | cons x loop ih =>
    simp only [List.mapM', all_bind, all_pure, and_true]
    exact ⟨h x List.mem_cons_self, ih fun y hy => h y (List.mem_cons_of_mem x hy)⟩

end Tracing
