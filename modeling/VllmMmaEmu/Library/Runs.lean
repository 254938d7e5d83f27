import Mathlib.Data.List.Basic
import Mathlib.Logic.Function.Basic

/-!
# Runs of a state machine

States are reached from a start state by steps, each of which meets a condition on the state
before it and on the event. An invariant is shown for the start states and for one step.
-/

namespace Runs

universe u v

variable {S : Type u} {E : Type v}

/-- The states reached by steps `next` that all meet `allowed`. -/
inductive Reached (start : S → Prop) (allowed : S → E → Prop) (next : S → E → S → Prop) :
    S → Prop where
  | start {s : S} (h : start s) : Reached start allowed next s
  | step {s s' : S} {e : E} (before : Reached start allowed next s) (ok : allowed s e)
      (h : next s e s') : Reached start allowed next s'

variable {start : S → Prop} {allowed : S → E → Prop} {next : S → E → S → Prop}

theorem Reached.invariant {I : S → Prop} (hstart : ∀ s, start s → I s)
    (hstep : ∀ s e s', I s → allowed s e → next s e s' → I s') {s : S}
    (h : Reached start allowed next s) : I s := by
  induction h with
  | start h => exact hstart _ h
  | step _ ok h ih => exact hstep _ _ _ ih ok h

/-- The events of a list in order, for a machine whose next state is computed. -/
def runEvents (step : S → E → Option S) : S → List E → Option S
  | s, [] => some s
  | s, e :: rest => (step s e).bind (runEvents step · rest)

/-- A computed run is a run when its events are allowed in every state. -/
theorem Reached.of_runEvents {step : S → E → Option S} {s s' : S} {events : List E}
    (hs : Reached start allowed (fun s e s' => step s e = some s') s)
    (hall : ∀ e ∈ events, ∀ s, allowed s e) (h : runEvents step s events = some s') :
    Reached start allowed (fun s e s' => step s e = some s') s' := by
  induction events generalizing s with
  | nil =>
    obtain rfl := Option.some.inj h
    exact hs
  | cons e rest ih =>
    obtain ⟨s₁, h₁, hrest⟩ := Option.bind_eq_some_iff.mp h
    exact ih (.step hs (hall e (by simp) s) h₁) (fun e' he' => hall e' (by simp [he'])) hrest

/-- The same for a machine whose steps may raise. -/
theorem Reached.of_foldlM {ε : Type u} {step : S → E → Except ε S} {s s' : S} {events : List E}
    (hs : Reached start allowed (fun s e s' => step s e = .ok s') s)
    (hall : ∀ e ∈ events, ∀ s, allowed s e) (h : events.foldlM step s = .ok s') :
    Reached start allowed (fun s e s' => step s e = .ok s') s' := by
  induction events generalizing s with
  | nil =>
    obtain rfl := Except.ok.inj h
    exact hs
  | cons e rest ih =>
    rw [List.foldlM_cons] at h
    cases hstep : step s e with
    | error err =>
      rw [hstep] at h
      cases h
    | ok s₁ =>
      rw [hstep] at h
      exact ih (.step hs (hall e (by simp) s) hstep) (fun e' he' => hall e' (by simp [he'])) h

/-- The events of a list in order, as long as each is allowed and none raises. -/
def runAllowed {ε : Type u} (allowed : S → E → Prop) [∀ s e, Decidable (allowed s e)]
    (step : S → E → Except ε S) : S → List E → Option S
  | s, [] => some s
  | s, e :: rest =>
    if allowed s e then match step s e with
      | .error _ => none
      | .ok s' => runAllowed allowed step s' rest
    else none

/-- A computed run under one condition is a run under another that its events meet then. -/
theorem Reached.of_runAllowed_imp {ε : Type u} {checked : S → E → Prop}
    [∀ s e, Decidable (checked s e)] {step : S → E → Except ε S} {s s' : S} {events : List E}
    (hs : Reached start allowed (fun s e s' => step s e = .ok s') s)
    (himp : ∀ e ∈ events, ∀ s, checked s e → allowed s e)
    (h : runAllowed checked step s events = some s') :
    Reached start allowed (fun s e s' => step s e = .ok s') s' := by
  induction events generalizing s with
  | nil =>
    obtain rfl := Option.some.inj h
    exact hs
  | cons e rest ih =>
    simp only [runAllowed] at h
    split_ifs at h with hok
    cases hstep : step s e with
    | error err =>
      rw [hstep] at h
      cases h
    | ok s₁ =>
      rw [hstep] at h
      exact ih (.step hs (himp e (by simp) s hok) hstep) (fun e' he' => himp e' (by simp [he'])) h

theorem Reached.of_runAllowed {ε : Type u} [∀ s e, Decidable (allowed s e)]
    {step : S → E → Except ε S} {s s' : S} {events : List E}
    (hs : Reached start allowed (fun s e s' => step s e = .ok s') s)
    (h : runAllowed allowed step s events = some s') :
    Reached start allowed (fun s e s' => step s e = .ok s') s' :=
  hs.of_runAllowed_imp (fun _ _ _ hok => hok) h

end Runs
