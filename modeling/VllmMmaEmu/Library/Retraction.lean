import VllmMmaEmu.Library.Runs

/-!
# Failed operations that leave no trace

Parties call operations, take steps in them and may fail in them. While an operation can still
fail it has no effect that another party could see, so its events may be retracted: the same
state is reached by the run without the events of the operations that fail.
-/

namespace Retraction

open Runs

universe u v w

variable {S : Type u} {E : Type v} {P : Type w} [DecidableEq P]

/-- What an event is for the operation of its party. -/
inductive Stage where
  | call
  | inside
  | failure
  deriving DecidableEq

section Events

variable (party : E → P) (stage : E → Stage)

/-- The events without those of the operations that fail, and the parties whose operation, in
progress before these events, fails. -/
def prune : List E → List E × (P → Bool)
  | [] => ([], fun _ => false)
  | e :: rest =>
    let (kept, failing) := prune rest
    match stage e with
    | .failure => (kept, Function.update failing (party e) true)
    | .call =>
      if failing (party e) then (kept, Function.update failing (party e) false)
      else (e :: kept, failing)
    | .inside => if failing (party e) then (kept, failing) else (e :: kept, failing)

def withoutFailed (events : List E) : List E := (prune party stage events).1

lemma prune_subset (events : List E) : ∀ e ∈ (prune party stage events).1,
    e ∈ events ∧ stage e ≠ .failure := by
  induction events with
  | nil => simp [prune]
  | cons a rest ih =>
    have hkept : ∀ e ∈ (prune party stage rest).1, e ∈ a :: rest ∧ stage e ≠ .failure :=
      fun e he => ⟨List.mem_cons_of_mem a (ih e he).1, (ih e he).2⟩
    have hcons : stage a ≠ .failure → ∀ e ∈ a :: (prune party stage rest).1,
        e ∈ a :: rest ∧ stage e ≠ .failure := by
      intro ha e he
      rcases List.mem_cons.mp he with rfl | he
      · exact ⟨List.mem_cons_self, ha⟩
      · exact hkept e he
    cases hstage : stage a with
    | failure => simpa only [prune, hstage] using hkept
    | call =>
      simp only [prune, hstage]
      split_ifs
      · exact hkept
      · exact hcons (by simp [hstage])
    | inside =>
      simp only [prune, hstage]
      split_ifs
      · exact hkept
      · exact hcons (by simp [hstage])

end Events

/-- Operations that fail, if by allowed events, fail early: `undo failing` takes the early
operations of the parties `failing` back, and no event of another party depends on it. -/
structure Retractable (step : S → E → Option S) (party : E → P) (stage : E → Stage)
    (allowed : E → Prop) (early : P → S → Prop) (undo : (P → Bool) → S → S) : Prop where
  undo_none : ∀ s, undo (fun _ => false) s = s
  /-- A failed operation was early and is taken back. -/
  failure : ∀ s e s' failing, allowed e → step s e = some s' → stage e = .failure →
    failing (party e) = false →
    early (party e) s ∧ ¬ early (party e) s' ∧
      undo (Function.update failing (party e) true) s = undo failing s'
  /-- A call that is taken back has not happened. -/
  call : ∀ s e s' failing, step s e = some s' → stage e = .call → early (party e) s' →
    failing (party e) = true →
    undo (Function.update failing (party e) false) s = undo failing s'
  /-- Nor has a step of it. -/
  inside : ∀ s e s' failing, step s e = some s' → stage e = .inside → early (party e) s' →
    failing (party e) = true → early (party e) s ∧ undo failing s = undo failing s'
  /-- The other parties do not see it. -/
  other : ∀ s e s' failing, step s e = some s' → stage e ≠ .failure →
    failing (party e) = false → step (undo failing s) e = some (undo failing s')
  /-- They neither begin it nor go on with it. -/
  early_other : ∀ s e s' p, step s e = some s' → p ≠ party e → early p s' → early p s

variable {step : S → E → Option S} {party : E → P} {stage : E → Stage} {allowed : E → Prop}
  {early : P → S → Prop} {undo : (P → Bool) → S → S} {s s' : S} {events : List E}

lemma Retractable.run_prune (h : Retractable step party stage allowed early undo)
    (hallowed : ∀ e ∈ events, allowed e) (hrun : runEvents step s events = some s') :
    (∀ p, (prune party stage events).2 p = true → early p s) ∧
      runEvents step (undo (prune party stage events).2 s) (prune party stage events).1 =
        some s' := by
  induction events generalizing s with
  | nil =>
    obtain rfl := Option.some.inj hrun
    refine ⟨fun p hp => Bool.noConfusion hp, ?_⟩
    exact congrArg some (h.undo_none s)
  | cons e rest ih =>
    obtain ⟨s₁, hstep, hrest⟩ := Option.bind_eq_some_iff.mp hrun
    obtain ⟨hearly, hkept⟩ := ih (fun e' he' => hallowed e' (List.mem_cons_of_mem e he')) hrest
    have hothers : ∀ p, p ≠ party e → (prune party stage rest).2 p = true → early p s :=
      fun p hne hp => h.early_other s e s₁ p hstep hne (hearly p hp)
    -- an event that is kept is taken from the state without the operations that fail
    have hkeep : stage e ≠ .failure → (prune party stage rest).2 (party e) = false →
        (∀ p, (prune party stage rest).2 p = true → early p s) ∧
          runEvents step (undo (prune party stage rest).2 s) (e :: (prune party stage rest).1) =
            some s' := by
      intro hstage hnot
      refine ⟨fun p hp => hothers p (fun heq => ?_) hp, ?_⟩
      · rw [heq, hnot] at hp
        cases hp
      · rw [runEvents, h.other s e s₁ _ hstep hstage hnot]
        exact hkept
    cases hstage : stage e with
    | failure =>
      have hnot : (prune party stage rest).2 (party e) = false := by
        refine Bool.eq_false_iff.mpr fun hp => ?_
        exact (h.failure s e s₁ (fun _ => false) (hallowed e List.mem_cons_self) hstep hstage
          rfl).2.1 (hearly _ hp)
      obtain ⟨hat, -, hundo⟩ := h.failure s e s₁ _ (hallowed e List.mem_cons_self) hstep hstage hnot
      simp only [prune, hstage]
      refine ⟨fun p hp => ?_, hundo ▸ hkept⟩
      by_cases hpe : p = party e
      · exact hpe ▸ hat
      · rw [Function.update_of_ne hpe] at hp
        exact hothers p hpe hp
    | call =>
      simp only [prune, hstage]
      cases hfails : (prune party stage rest).2 (party e) with
      | true =>
        rw [if_pos rfl]
        refine ⟨fun p hp => ?_, h.call s e s₁ _ hstep hstage (hearly _ hfails) hfails ▸ hkept⟩
        dsimp only at hp
        have hpe : p ≠ party e := by
          rintro rfl
          rw [Function.update_self] at hp
          cases hp
        rw [Function.update_of_ne hpe] at hp
        exact hothers p hpe hp
      | false => exact hkeep (by simp [hstage]) hfails
    | inside =>
      simp only [prune, hstage]
      cases hfails : (prune party stage rest).2 (party e) with
      | true =>
        obtain ⟨hat, hundo⟩ := h.inside s e s₁ _ hstep hstage (hearly _ hfails) hfails
        rw [if_pos rfl]
        refine ⟨fun p hp => ?_, hundo ▸ hkept⟩
        by_cases hpe : p = party e
        · exact hpe ▸ hat
        · exact hothers p hpe hp
      | false => exact hkeep (by simp [hstage]) hfails

/-- From a state without early operations, the same state is reached without the operations
that fail. -/
theorem Retractable.run_withoutFailed (h : Retractable step party stage allowed early undo)
    (hidle : ∀ p, ¬ early p s) (hallowed : ∀ e ∈ events, allowed e)
    (hrun : runEvents step s events = some s') :
    runEvents step s (withoutFailed party stage events) = some s' := by
  obtain ⟨hearly, hkept⟩ := h.run_prune hallowed hrun
  have hnone : (prune party stage events).2 = fun _ => false :=
    funext fun p => Bool.eq_false_iff.mpr fun hp => hidle p (hearly p hp)
  rwa [hnone, h.undo_none] at hkept

end Retraction
