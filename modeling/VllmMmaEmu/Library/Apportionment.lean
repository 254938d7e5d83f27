import Mathlib.Algebra.BigOperators.Group.Finset.Basic
import Mathlib.Algebra.Order.BigOperators.Group.Finset
import Mathlib.Algebra.Order.Field.Basic
import Mathlib.Data.Finset.Lattice.Fold
import Mathlib.Order.WithBot

/-!
# Copies shared out among items

Copies are handed out one by one, each to an item whose weight per copy is greatest. The greatest
weight per copy is then as small as any allocation of as many copies makes it.
-/

namespace Apportionment

variable {ι K : Type*} [Field K] [LinearOrder K] {s : Finset ι} {w : ι → K} {c c' : ι → ℕ}

/-- The weight per copy. -/
def share (w : ι → K) (c : ι → ℕ) (e : ι) : K := w e / c e

/-- Every item has a copy, and there are `total` of them. -/
structure IsAllocation (s : Finset ι) (total : ℕ) (c : ι → ℕ) : Prop where
  pos : ∀ e ∈ s, 0 < c e
  sum : ∑ e ∈ s, c e = total

/-- Whoever has more than one copy had the greatest weight per copy before the last. -/
def Greedy (s : Finset ι) (w : ι → K) (c : ι → ℕ) : Prop :=
  ∀ e ∈ s, 1 < c e → ∀ e' ∈ s, share w c e' ≤ w e / (c e - 1 : ℕ)

lemma greedy_one : Greedy s w fun _ => 1 := fun _ _ h => absurd h (lt_irrefl 1)

/-- Only weights and counts of the items matter. -/
lemma Greedy.congr {w' : ι → K} (h : Greedy s w c) (hw : ∀ e ∈ s, w e = w' e)
    (hc : ∀ e ∈ s, c e = c' e) : Greedy s w' c' := by
  intro e he hmany e' he'
  have hle := h e he (hc e he ▸ hmany) e' he'
  rwa [share, hw e he, hw e' he', hc e he, hc e' he'] at hle

/-- The greatest share; `⊥` when there are no items. -/
def maxShare (s : Finset ι) (w : ι → K) (c : ι → ℕ) : WithBot K :=
  s.sup fun e => ((share w c e : K) : WithBot K)

variable [IsStrictOrderedRing K]

/-- More copies make the share smaller. -/
lemma share_anti {e : ι} (hw : 0 ≤ w e) (hpos : 0 < c e) (hle : c e ≤ c' e) :
    share w c' e ≤ share w c e :=
  div_le_div_of_nonneg_left hw (Nat.cast_pos.mpr hpos) (Nat.cast_le.mpr hle)

/-- One more copy for an item of the greatest share. -/
lemma Greedy.add [DecidableEq ι] (h : Greedy s w c) (hw : ∀ e ∈ s, 0 ≤ w e)
    (hpos : ∀ e ∈ s, 0 < c e) {m : ι} (hmax : ∀ e ∈ s, share w c e ≤ share w c m) :
    Greedy s w (Function.update c m (c m + 1)) := by
  have hgrow : ∀ e, c e ≤ Function.update c m (c m + 1) e := by
    intro e
    by_cases heq : e = m
    · subst heq
      simp
    · rw [Function.update_of_ne heq]
  intro e he hmany e' he'
  refine (share_anti (hw e' he') (hpos e' he') (hgrow e')).trans ?_
  by_cases heq : e = m
  · subst heq
    rw [Function.update_self, Nat.add_sub_cancel]
    exact hmax e' he'
  · rw [Function.update_of_ne heq] at hmany ⊢
    exact h e he hmany e' he'

/-- The exchange argument: an allocation that beats the greedy one on some item gives another
item fewer copies, and that one's share is no smaller. -/
theorem Greedy.exists_share_le (h : Greedy s w c) (hw : ∀ e ∈ s, 0 ≤ w e) {total : ℕ}
    (hc : IsAllocation s total c) (hc' : IsAllocation s total c') {e : ι} (he : e ∈ s) :
    ∃ m ∈ s, share w c e ≤ share w c' m := by
  have hsum : ∑ e ∈ s, c' e = ∑ e ∈ s, c e := hc'.sum.trans hc.sum.symm
  by_cases hle : c' e ≤ c e
  · exact ⟨e, he, share_anti (hw e he) (hc'.pos e he) hle⟩
  · obtain ⟨m, hm, hlt⟩ : ∃ m ∈ s, c' m < c m := by
      by_contra hall
      have hge : ∀ m ∈ s, c m ≤ c' m := fun m hm => not_lt.mp fun hlt => hall ⟨m, hm, hlt⟩
      exact absurd hsum (Finset.sum_lt_sum hge ⟨e, he, not_le.mp hle⟩).ne'
    have hm' := hc'.pos m hm
    have hshare : share w c e ≤ w m / (c m - 1 : ℕ) := h m hm (by omega) e he
    have hfewer : w m / (c m - 1 : ℕ) ≤ share w c' m :=
      div_le_div_of_nonneg_left (hw m hm) (Nat.cast_pos.mpr hm')
        (Nat.cast_le.mpr (Nat.le_sub_one_of_lt hlt))
    exact ⟨m, hm, hshare.trans hfewer⟩

/-- A greedy allocation minimises the greatest share. -/
theorem Greedy.maxShare_le (h : Greedy s w c) (hw : ∀ e ∈ s, 0 ≤ w e) {total : ℕ}
    (hc : IsAllocation s total c) (hc' : IsAllocation s total c') :
    maxShare s w c ≤ maxShare s w c' := by
  refine Finset.sup_le fun e he => ?_
  obtain ⟨m, hm, hle⟩ := h.exists_share_le hw hc hc' he
  exact (WithBot.coe_le_coe.mpr hle).trans
    (Finset.le_sup (f := fun e => ((share w c' e : K) : WithBot K)) hm)

end Apportionment
