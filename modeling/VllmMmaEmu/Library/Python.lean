import Mathlib.Algebra.Order.Ring.Int
import Mathlib.Data.List.Basic
import Mathlib.Tactic.Linarith

/-!
# Exceptions of a Python program

A function that may raise returns in `Except PyError`. A loop whose end Lean cannot
see takes fuel and raises `outOfFuel`, which is none of Python's own exceptions.
-/

namespace Python

universe v

inductive PyError where
  | assertionError
  | valueError (message : String)
  | keyError
  | indexError
  | typeError
  | runtimeError (message : String)
  | notImplementedError
  | zeroDivisionError
  | overflowError
  | attributeError
  | outOfFuel
  deriving DecidableEq, Repr

/-- The `assert` statement. -/
def pyAssert (p : Prop) [Decidable p] : Except PyError Unit :=
  if p then .ok () else .error .assertionError

section Except

variable {ε : Type*} {α β : Type v}

@[simp] lemma bind_eq_ok {x : Except ε α} {f : α → Except ε β} {b : β} :
    (x >>= f) = .ok b ↔ ∃ a, x = .ok a ∧ f a = .ok b := by
  cases x with
  | error e => simp [bind, Except.bind]
  | ok a => simp [bind, Except.bind]

@[simp] lemma ok_bind (a : α) (f : α → Except ε β) : (Except.ok a >>= f) = f a := rfl

@[simp] lemma error_bind (e : ε) (f : α → Except ε β) :
    ((Except.error e : Except ε α) >>= f) = .error e := rfl

/-- A computation raises what one of its parts raises. -/
lemma bind_ne_error {x : Except ε α} {f : α → Except ε β} {e : ε} (hx : x ≠ .error e)
    (hf : ∀ a, x = .ok a → f a ≠ .error e) : (x >>= f) ≠ .error e := by
  cases x with
  | error e' => exact fun h => hx (congrArg Except.error (Except.error.inj h))
  | ok a => exact hf a rfl

@[simp] lemma pure_eq (a : α) : (pure a : Except ε α) = .ok a := rfl

/-- A loop whose every pass succeeds and keeps the invariant succeeds with it. -/
lemma foldlM_of_step {γ : Type*} {step : α → γ → Except ε α} {P : List γ → α → Prop}
    {xs : List γ} (hstep : ∀ done x rest a, xs = done ++ x :: rest → P done a →
      ∃ a', step a x = .ok a' ∧ P (done ++ [x]) a') {a : α} (h : P [] a) :
    ∃ a', xs.foldlM step a = .ok a' ∧ P xs a' := by
  have hrest : ∀ rest done a, xs = done ++ rest → P done a →
      ∃ a', rest.foldlM step a = .ok a' ∧ P xs a' := by
    intro rest
    induction rest with
    | nil =>
      intro done a hxs ha
      rw [List.append_nil] at hxs
      exact ⟨a, rfl, hxs ▸ ha⟩
    | cons x rest ih =>
      intro done a hxs ha
      obtain ⟨a', hstep', ha'⟩ := hstep done x rest a hxs ha
      obtain ⟨b, hrun, hb⟩ := ih (done ++ [x]) a' (by rw [hxs, List.append_assoc]; rfl) ha'
      exact ⟨b, by rw [List.foldlM_cons, hstep', ok_bind, hrun], hb⟩
  exact hrest xs [] a rfl h

/-- What every pass keeps holds after the loop. -/
lemma foldlM_invariant {γ : Type*} {step : α → γ → Except ε α} {P : α → Prop} {xs : List γ}
    {a a' : α} (hstep : ∀ x ∈ xs, ∀ b b', P b → step b x = .ok b' → P b') (h : P a)
    (hrun : xs.foldlM step a = .ok a') : P a' := by
  induction xs generalizing a with
  | nil =>
    obtain rfl := Except.ok.inj hrun
    exact h
  | cons x rest ih =>
    rw [List.foldlM_cons] at hrun
    obtain ⟨b, hb, hrest⟩ := bind_eq_ok.mp hrun
    exact ih (fun y hy => hstep y (List.mem_cons_of_mem x hy)) (hstep x List.mem_cons_self a b h hb)
      hrest

/-- A comprehension whose every pass succeeds collects the results. -/
lemma mapM_of_forall {γ : Type*} {l : List γ} {f : γ → Except ε α} {g : γ → α}
    (h : ∀ x ∈ l, f x = .ok (g x)) : l.mapM f = .ok (l.map g) := by
  induction l with
  | nil => rfl
  | cons x l ih =>
    rw [List.mapM_cons, h x List.mem_cons_self, ih fun y hy => h y (List.mem_cons_of_mem _ hy)]
    rfl

lemma mapM_range_of_forall {n : Nat} {f : Nat → Except ε α} {g : Nat → α}
    (h : ∀ i < n, f i = .ok (g i)) : (List.range n).mapM f = .ok ((List.range n).map g) :=
  mapM_of_forall fun i hi => h i (List.mem_range.mp hi)

/-- What a comprehension collects. -/
lemma forall₂_of_mapM {γ : Type*} {f : γ → Except ε α} {l : List γ} {ys : List α}
    (h : l.mapM f = .ok ys) : List.Forall₂ (fun x y => f x = .ok y) l ys := by
  induction l generalizing ys with
  | nil =>
    obtain rfl := Except.ok.inj h
    exact .nil
  | cons x l ih =>
    rw [List.mapM_cons] at h
    obtain ⟨y, hy, hrest⟩ := bind_eq_ok.mp h
    obtain ⟨rest, hmap, hret⟩ := bind_eq_ok.mp hrest
    obtain rfl := Except.ok.inj hret
    exact .cons hy (ih hmap)

lemma eq_ok_of_toOption {x : Except ε α} {a : α} (h : x.toOption = some a) : x = .ok a := by
  cases x with
  | error e => cases h
  | ok b => exact congrArg Except.ok (Option.some.inj h)

end Except

@[simp] lemma pyAssert_eq_ok {p : Prop} [Decidable p] {u : Unit} :
    pyAssert p = .ok u ↔ p := by
  by_cases hp : p <;> simp [pyAssert, hp]

/-- `xs[start:stop]` for bounds that are not negative. -/
def slice {α : Type*} (xs : List α) (start stop : Nat) : List α :=
  (xs.drop start).take (stop - start)

lemma slice_append_left {α : Type*} (xs ys : List α) {start stop : Nat}
    (h : stop ≤ xs.length) : slice (xs ++ ys) start stop = slice xs start stop := by
  unfold slice
  rcases Nat.le_total start stop with hs | hs
  · rw [List.drop_append_of_le_length (by omega), List.take_append_of_le_length]
    rw [List.length_drop]
    omega
  · simp [Nat.sub_eq_zero_of_le hs]

/-- An index of a slice as Python reads it: negative ones count from the end. -/
def clampIndex (len : Nat) (i : Int) : Nat :=
  if i < 0 then (len + i).toNat else min i.toNat len

/-- `xs[start:stop]`. -/
def pySlice {α : Type*} (xs : List α) (start stop : Int) : List α :=
  slice xs (clampIndex xs.length start) (clampIndex xs.length stop)

/-- `xs[start:]`. -/
def pyFrom {α : Type*} (xs : List α) (start : Int) : List α :=
  xs.drop (clampIndex xs.length start)

lemma clampIndex_of_nonneg {i : Int} (h : 0 ≤ i) (len : Nat) :
    clampIndex len i = min i.toNat len := if_neg (not_lt.mpr h)

/-- A slice has only items before its end. -/
lemma exists_of_mem_pySlice {α : Type*} {xs : List α} {start stop : Int} {a : α}
    (hstop : 0 ≤ stop) (h : a ∈ pySlice xs start stop) :
    ∃ j : Nat, xs[j]? = some a ∧ (j : Int) < stop := by
  obtain ⟨i, hi⟩ := List.mem_iff_getElem?.mp h
  rw [pySlice, slice, List.getElem?_take, clampIndex_of_nonneg hstop] at hi
  split_ifs at hi with hlt
  rw [List.getElem?_drop] at hi
  exact ⟨_, hi, by omega⟩

lemma pyFrom_of_nonneg {α : Type*} {start : Int} (h : 0 ≤ start) (xs : List α) :
    pyFrom xs start = xs.drop start.toNat := by
  rw [pyFrom, clampIndex_of_nonneg h]
  rcases Nat.le_total start.toNat xs.length with hle | hle
  · rw [min_eq_left hle]
  · rw [min_eq_right hle, List.drop_length, List.drop_eq_nil_of_le hle]

lemma getElem?_pyFrom {α : Type*} {xs : List α} {start : Int} (h : 0 ≤ start) {i : Nat} {x : α}
    (hx : (pyFrom xs start)[i]? = some x) : xs[start.toNat + i]? = some x := by
  rw [pyFrom, List.getElem?_drop, clampIndex_of_nonneg h] at hx
  obtain ⟨hlt, -⟩ := List.getElem?_eq_some_iff.mp hx
  rwa [min_eq_left (by omega)] at hx

lemma getElem?_pySlice {α : Type*} {xs : List α} {start stop : Int} (h : 0 ≤ start)
    (h' : 0 ≤ stop) {i : Nat} {x : α} (hx : (pySlice xs start stop)[i]? = some x) :
    xs[start.toNat + i]? = some x ∧ start.toNat + i < stop.toNat := by
  rw [pySlice, slice, List.getElem?_take] at hx
  split_ifs at hx with hi
  refine ⟨getElem?_pyFrom h hx, ?_⟩
  rw [List.getElem?_drop, clampIndex_of_nonneg h] at hx
  obtain ⟨hlt, -⟩ := List.getElem?_eq_some_iff.mp hx
  rw [clampIndex_of_nonneg h, clampIndex_of_nonneg h'] at hi
  omega

/-- `xs[i]` for an index that is not negative. -/
def pyIndex {α : Type v} (xs : List α) (i : Nat) : Except PyError α :=
  match xs[i]? with
  | none => .error .indexError
  | some x => .ok x

@[simp] lemma pyIndex_eq_ok {α : Type v} {xs : List α} {i : Nat} {x : α} :
    pyIndex xs i = .ok x ↔ xs[i]? = some x := by
  unfold pyIndex
  cases xs[i]? <;> simp

/-- `xs[i] = x` for an index that is not negative. -/
def pySetItem {α : Type v} (xs : List α) (i : Nat) (x : α) : Except PyError (List α) :=
  if i < xs.length then .ok (xs.set i x) else .error .indexError

lemma pySetItem_of_lt {α : Type v} {xs : List α} {i : Nat} (h : i < xs.length) (x : α) :
    pySetItem xs i x = .ok (xs.set i x) := if_pos h

/-- `a % b`. -/
def pyMod (a b : Nat) : Except PyError Nat :=
  if b = 0 then .error .zeroDivisionError else .ok (a % b)

lemma pyMod_of_dvd {a b : Nat} (hb : 0 < b) (h : b ∣ a) : pyMod a b = .ok 0 := by
  rw [pyMod, if_neg hb.ne', Nat.mod_eq_zero_of_dvd h]

/-- `a // b`. -/
def pyFloorDiv (a b : Nat) : Except PyError Nat :=
  if b = 0 then .error .zeroDivisionError else .ok (a / b)

lemma pyFloorDiv_of_pos (a : Nat) {b : Nat} (hb : 0 < b) : pyFloorDiv a b = .ok (a / b) :=
  if_neg hb.ne'

/-- `xs.index(x)`. -/
def pyListIndex {α : Type*} [DecidableEq α] (xs : List α) (x : α) : Except PyError Nat :=
  if x ∈ xs then .ok (xs.idxOf x) else .error (.valueError "x not in list")

/-- `min(xs, key=key)`: the first of the items whose key none is below, for an order `lt`. -/
def pyMin {α β : Type v} (lt : β → β → Bool) (key : α → β) : List α → Except PyError α
  | [] => .error (.valueError "min() iterable argument is empty")
  | x :: xs => .ok (xs.foldl (fun best y => if lt (key y) (key best) then y else best) x)

lemma pyMin_of_mem {α β : Type v} (lt : β → β → Bool) (key : α → β) {xs : List α} {x : α}
    (h : x ∈ xs) : ∃ y ∈ xs, pyMin lt key xs = .ok y := by
  have hfold : ∀ (ys : List α) (best : α),
      ys.foldl (fun best y => if lt (key y) (key best) then y else best) best ∈ best :: ys := by
    intro ys
    induction ys with
    | nil => simp
    | cons y ys ih =>
      intro best
      rw [List.foldl_cons]
      rcases List.mem_cons.mp (ih (if lt (key y) (key best) then y else best)) with heq | hmem
      · rw [heq]
        split_ifs <;> simp
      · exact List.mem_cons_of_mem _ (List.mem_cons_of_mem _ hmem)
  cases xs with
  | nil => simp at h
  | cons a as => exact ⟨_, hfold as a, rfl⟩

/-- Ceiling division, `-(a // -b)`. -/
def cdiv (a b : Int) : Int := -(a.fdiv (-b))

lemma cdiv_eq {a b : Int} (hb : 0 < b) : cdiv a b = -(-a / b) := by
  have h : a.fdiv (-b) = (-a).fdiv b := by rw [← Int.neg_fdiv_neg, neg_neg]
  rw [cdiv, h, Int.fdiv_eq_ediv_of_nonneg _ hb.le]

lemma le_cdiv_mul {a b : Int} (hb : 0 < b) : a ≤ cdiv a b * b := by
  rw [cdiv_eq hb]
  have := Int.ediv_mul_le (-a) hb.ne'
  linarith

/-- Rounding up leaves a multiple as it is. -/
lemma cdiv_mul_le_iff {a b : Int} (hb : 0 < b) : cdiv a b * b ≤ a ↔ b ∣ a := by
  refine ⟨fun h => ?_, ?_⟩
  · have heq := le_antisymm h (le_cdiv_mul hb)
    exact ⟨cdiv a b, by rw [mul_comm, heq]⟩
  · rintro ⟨k, rfl⟩
    rw [cdiv_eq hb, ← mul_neg, Int.mul_ediv_cancel_left _ hb.ne', neg_neg, mul_comm]

end Python
