import Mathlib.Data.List.Nodup
import Mathlib.Data.List.TakeWhile
import Mathlib.Logic.Equiv.Basic
import VllmMmaEmu.Library.Rows

/-!
# Exchanging rows to the right side

Some of the first `n` rows are chosen, and the chosen ones are to be in front of the others. Only
chosen rows behind the boundary and other rows in front of it stand on the wrong side; there are as
many of the one kind as of the other, and they are exchanged in pairs.
-/

namespace Rows

universe u

variable {β : Type u}

/-- The rows of every pair are swapped, one pair after the other. -/
def swapAll (f : Nat → β) (pairs : List (Nat × Nat)) : Nat → β :=
  pairs.foldl (fun f pair => swap f pair.1 pair.2) f

lemma swapAll_cons (f : Nat → β) (pair : Nat × Nat) (pairs : List (Nat × Nat)) :
    swapAll f (pair :: pairs) = swapAll (swap f pair.1 pair.2) pairs := rfl

/-- Every row has what some row had. -/
lemma exists_swapAll_eq (f : Nat → β) (pairs : List (Nat × Nat)) (k : Nat) :
    ∃ l, swapAll f pairs k = f l := by
  induction pairs generalizing f with
  | nil => exact ⟨k, rfl⟩
  | cons pair pairs ih =>
    obtain ⟨l, hl⟩ := ih (swap f pair.1 pair.2)
    rw [swapAll_cons, hl, swap_apply]
    split_ifs
    · exact ⟨_, rfl⟩
    · exact ⟨_, rfl⟩
    · exact ⟨_, rfl⟩

/-- A row of no pair stays. -/
lemma swapAll_of_not_mem {pairs : List (Nat × Nat)} {k : Nat} (f : Nat → β)
    (h : ∀ pair ∈ pairs, k ≠ pair.1 ∧ k ≠ pair.2) : swapAll f pairs k = f k := by
  induction pairs generalizing f with
  | nil => rfl
  | cons pair pairs ih =>
    obtain ⟨hfst, hsnd⟩ := h pair List.mem_cons_self
    rw [swapAll_cons, ih _ fun pair' hpair' => h pair' (List.mem_cons_of_mem _ hpair'), swap_apply,
      if_neg hsnd, if_neg hfst]

/-- The rows of disjoint pairs are exchanged. -/
lemma swapAll_of_mem {pairs : List (Nat × Nat)} (f : Nat → β)
    (hdisjoint : pairs.Pairwise fun p q => p.1 ≠ q.1 ∧ p.1 ≠ q.2 ∧ p.2 ≠ q.1 ∧ p.2 ≠ q.2)
    {i j : Nat} (hne : i ≠ j) (h : (i, j) ∈ pairs) :
    swapAll f pairs i = f j ∧ swapAll f pairs j = f i := by
  induction pairs generalizing f with
  | nil => cases h
  | cons pair pairs ih =>
    obtain ⟨hpair, hpairs⟩ := List.pairwise_cons.mp hdisjoint
    rcases List.mem_cons.mp h with rfl | hmem
    · have hi := swapAll_of_not_mem (k := i) (swap f i j)
        fun q hq => ⟨(hpair q hq).1, (hpair q hq).2.1⟩
      have hj := swapAll_of_not_mem (k := j) (swap f i j)
        fun q hq => ⟨(hpair q hq).2.2.1, (hpair q hq).2.2.2⟩
      rw [swapAll_cons, hi, hj, swap_apply, swap_apply]
      simp [hne]
    · obtain ⟨hfirst, hsecond⟩ := ih (swap f pair.1 pair.2) hpairs hmem
      obtain ⟨h₁, h₂, h₃, h₄⟩ := hpair _ hmem
      rw [swapAll_cons, hfirst, hsecond, swap_apply, swap_apply]
      simp [Ne.symm h₁, Ne.symm h₂, Ne.symm h₃, Ne.symm h₄]

/-- A swap permutes the first rows. -/
lemma map_range_swap {n i j : Nat} (f : Nat → β) (hi : i < n) (hj : j < n) :
    ((List.range n).map (swap f i j)).Perm ((List.range n).map f) := by
  have hindex : ((List.range n).map (Equiv.swap i j)).Perm (List.range n) := by
    refine (List.perm_ext_iff_of_nodup (List.nodup_range.map (Equiv.injective _))
      List.nodup_range).mpr fun k => ?_
    have hlt : ∀ k < n, Equiv.swap i j k < n := fun k hk => by
      rw [Equiv.swap_apply_def]
      split_ifs <;> assumption
    rw [List.mem_map]
    constructor
    · rintro ⟨l, hl, rfl⟩
      exact List.mem_range.mpr (hlt l (List.mem_range.mp hl))
    · intro hk
      exact ⟨Equiv.swap i j k, List.mem_range.mpr (hlt k (List.mem_range.mp hk)),
        Equiv.swap_apply_self i j k⟩
  have hswap : swap f i j = f ∘ Equiv.swap i j := by
    funext k
    rw [swap_apply, Function.comp_apply, Equiv.swap_apply_def]
    split_ifs with hkj hki
    · rw [← hki, hkj]
    · rfl
    · rfl
    · rfl
  rw [hswap, ← List.map_map]
  exact hindex.map f

lemma map_range_swapAll {n : Nat} {pairs : List (Nat × Nat)} (f : Nat → β)
    (h : ∀ pair ∈ pairs, pair.1 < n ∧ pair.2 < n) :
    ((List.range n).map (swapAll f pairs)).Perm ((List.range n).map f) := by
  induction pairs generalizing f with
  | nil => exact List.Perm.refl _
  | cons pair pairs ih =>
    obtain ⟨hfst, hsnd⟩ := h pair List.mem_cons_self
    rw [swapAll_cons]
    exact (ih _ fun pair' hpair' => h pair' (List.mem_cons_of_mem _ hpair')).trans
      (map_range_swap f hfst hsnd)

variable (q : Nat → Bool) (n : Nat)

/-- The chosen rows in ascending order. -/
def chosen : List Nat := (List.range n).filter q

def others : List Nat := (List.range n).filter (!q ·)

/-- Where the chosen rows are to end. -/
def boundary : Nat := (chosen q n).length

/-- The other rows in front of the boundary. -/
def misplacedFront : List Nat := (List.range (boundary q n)).filter (!q ·)

/-- The chosen rows behind the boundary. -/
def misplacedBack : List Nat := (List.range' (boundary q n) (n - boundary q n)).filter q

/-- The exchanges that bring the chosen rows to the front. -/
def exchanges : List (Nat × Nat) := (misplacedFront q n).zip (misplacedBack q n).reverse

variable {q n} {i j : Nat}

lemma boundary_le : boundary q n ≤ n := by
  have hlen := List.length_filter_le q (List.range n)
  rw [List.length_range] at hlen
  exact hlen

lemma range_split : List.range n =
    List.range (boundary q n) ++ List.range' (boundary q n) (n - boundary q n) := by
  have hsplit := List.range'_append_1 (s := 0) (m := boundary q n) (n := n - boundary q n)
  rw [Nat.zero_add, Nat.add_sub_of_le boundary_le] at hsplit
  rw [List.range_eq_range', List.range_eq_range', hsplit]

lemma chosen_eq : chosen q n =
    (List.range (boundary q n)).filter q ++ misplacedBack q n := by
  conv_lhs => rw [chosen, range_split (q := q), List.filter_append]
  rfl

lemma others_eq : others q n = misplacedFront q n ++
    (List.range' (boundary q n) (n - boundary q n)).filter (!q ·) := by
  conv_lhs => rw [others, range_split (q := q), List.filter_append]
  rfl

/-- As many rows stand on the one wrong side as on the other. -/
lemma length_misplacedFront : (misplacedFront q n).length = (misplacedBack q n).length := by
  have hfront := List.length_eq_length_filter_add (l := List.range (boundary q n)) q
  have hchosen := congrArg List.length (chosen_eq (q := q) (n := n))
  rw [List.length_range] at hfront
  rw [List.length_append] at hchosen
  unfold misplacedFront
  unfold boundary at hfront hchosen ⊢
  omega

lemma length_exchanges : (exchanges q n).length = (misplacedBack q n).length := by
  rw [exchanges, List.length_zip, List.length_reverse, length_misplacedFront, Nat.min_self]

lemma mem_misplacedFront : i ∈ misplacedFront q n ↔ i < boundary q n ∧ q i = false := by
  simp [misplacedFront]

lemma mem_misplacedBack : i ∈ misplacedBack q n ↔ boundary q n ≤ i ∧ i < n ∧ q i = true := by
  have hle : boundary q n ≤ n := boundary_le
  rw [misplacedBack, List.mem_filter, List.mem_range'_1, Nat.add_sub_of_le hle, and_assoc]

/-- Every exchange crosses the boundary. -/
lemma crosses_of_mem (h : (i, j) ∈ exchanges q n) :
    (i < boundary q n ∧ q i = false) ∧ boundary q n ≤ j ∧ j < n ∧ q j = true := by
  obtain ⟨hi, hj⟩ := List.of_mem_zip h
  exact ⟨mem_misplacedFront.mp hi, mem_misplacedBack.mp (List.mem_reverse.mp hj)⟩

lemma exchanges_disjoint : (exchanges q n).Pairwise
    fun p r => p.1 ≠ r.1 ∧ p.1 ≠ r.2 ∧ p.2 ≠ r.1 ∧ p.2 ≠ r.2 := by
  have hfront : (misplacedFront q n).Nodup := List.nodup_range.filter _
  have hback : (misplacedBack q n).reverse.Nodup :=
    List.nodup_reverse.mpr ((List.nodup_range').filter _)
  have hlen : (misplacedFront q n).length = (misplacedBack q n).reverse.length := by
    rw [List.length_reverse, length_misplacedFront]
  have hfst : ((exchanges q n).map Prod.fst).Nodup := by
    rw [exchanges, List.map_fst_zip hlen.le]
    exact hfront
  have hsnd : ((exchanges q n).map Prod.snd).Nodup := by
    rw [exchanges, List.map_snd_zip hlen.ge]
    exact hback
  rw [List.Nodup, List.pairwise_map] at hfst hsnd
  refine (hfst.and hsnd).imp_of_mem fun {p r} hp hr hne => ?_
  have hpair := crosses_of_mem (i := p.1) (j := p.2) hp
  have hpair' := crosses_of_mem (i := r.1) (j := r.2) hr
  refine ⟨hne.1, ?_, ?_, hne.2⟩
  · omega
  · omega

/-- After the exchanges the chosen rows are the ones in front of the boundary. -/
theorem swapAll_exchanges (f : Nat → β) (p : β → Bool) (hp : ∀ i, p (f i) = q i) (hi : i < n) :
    p (swapAll f (exchanges q n) i) = true ↔ i < boundary q n := by
  have hlen : (misplacedFront q n).length = (misplacedBack q n).reverse.length := by
    rw [List.length_reverse, length_misplacedFront]
  by_cases hfront : i ∈ misplacedFront q n
  · obtain ⟨k, hk, rfl⟩ := List.getElem_of_mem hfront
    have hmem : ((misplacedFront q n)[k], (misplacedBack q n).reverse[k]) ∈ exchanges q n := by
      refine List.mem_iff_getElem.mpr ⟨k, ?_, List.getElem_zip⟩
      rw [length_exchanges, ← length_misplacedFront]
      exact hk
    obtain ⟨⟨hlt, hother⟩, hge, -, hchosen⟩ := crosses_of_mem hmem
    rw [(swapAll_of_mem f exchanges_disjoint (by omega) hmem).1, hp, hchosen]
    simp [hlt]
  · by_cases hback : i ∈ misplacedBack q n
    · obtain ⟨k, hk, rfl⟩ := List.getElem_of_mem (List.mem_reverse.mpr hback)
      have hmem : ((misplacedFront q n)[k], (misplacedBack q n).reverse[k]) ∈ exchanges q n := by
        refine List.mem_iff_getElem.mpr ⟨k, ?_, List.getElem_zip⟩
        rw [length_exchanges, ← List.length_reverse]
        exact hk
      obtain ⟨⟨hlt, hother⟩, hge, -, -⟩ := crosses_of_mem hmem
      rw [(swapAll_of_mem f exchanges_disjoint (by omega) hmem).2, hp, hother]
      simp only [Bool.false_eq_true, false_iff]
      omega
    · -- the row is on its side
      have hstays : swapAll f (exchanges q n) i = f i := by
        refine swapAll_of_not_mem f fun pair hpair => ?_
        obtain ⟨hfst, hsnd⟩ := List.of_mem_zip (a := pair.1) (b := pair.2) hpair
        exact ⟨fun heq => hfront (heq ▸ hfst), fun heq => hback (heq ▸ List.mem_reverse.mp hsnd)⟩
      rw [mem_misplacedFront, not_and, Bool.not_eq_false] at hfront
      rw [mem_misplacedBack, not_and, not_and] at hback
      rw [hstays, hp]
      constructor
      · intro hq
        by_contra hge
        exact hback (Nat.le_of_not_lt hge) hi hq
      · exact hfront

/-- Rows that are separated stay as they are. -/
lemma exchanges_eq_nil (h : ∀ i < n, q i = true ↔ i < boundary q n) : exchanges q n = [] := by
  have hback : misplacedBack q n = [] := by
    refine List.eq_nil_iff_forall_not_mem.mpr fun i hi => ?_
    obtain ⟨hge, hlt, hq⟩ := mem_misplacedBack.mp hi
    have hfront := (h i hlt).mp hq
    omega
  refine List.eq_nil_of_length_eq_zero ?_
  rw [length_exchanges, hback, List.length_nil]

/-- The pairs of the first others and the last chosen rows, up to the first chosen row that is in
front of the boundary. -/
lemma takeWhile_zip : ((others q n).zip (chosen q n).reverse).takeWhile
    (fun pair => decide (boundary q n ≤ pair.2)) = exchanges q n := by
  have hlen : (misplacedFront q n).length = (misplacedBack q n).reverse.length := by
    rw [List.length_reverse, length_misplacedFront]
  rw [others_eq, chosen_eq, List.reverse_append, List.zip_append hlen,
    List.takeWhile_append_of_pos ?_]
  · conv_rhs => rw [← List.append_nil (exchanges q n)]
    refine congrArg (exchanges q n ++ ·) ?_
    rw [List.takeWhile_eq_nil_iff]
    intro hpos
    simp only [decide_eq_true_eq, Nat.not_le]
    obtain ⟨-, hmem⟩ := List.of_mem_zip (List.get_mem _ ⟨0, hpos⟩)
    exact List.mem_range.mp (List.mem_filter.mp (List.mem_reverse.mp hmem)).1
  · intro pair hpair
    obtain ⟨-, hge, -⟩ := crosses_of_mem (i := pair.1) (j := pair.2) hpair
    exact decide_eq_true hge

end Rows
