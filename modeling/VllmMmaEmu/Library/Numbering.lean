import Mathlib.Algebra.BigOperators.Group.Finset.Sigma
import Mathlib.Algebra.Order.BigOperators.Group.Finset
import Mathlib.Data.Set.Function

/-!
# Copies numbered under their labels

Every element of a finite set carries a label and a rank. The numbering is exact when the
elements with one label have the ranks below its count, each rank once.
-/

namespace Numbering

variable {ι κ : Type*}

/-- The pairs of a label and a rank below its count. -/
def Slots (E : Finset κ) (cnt : κ → ℕ) : Set (κ × ℕ) := {x | x.1 ∈ E ∧ x.2 < cnt x.1}

/-- Label and rank number the elements of `P` without a gap or a repetition. -/
def Exact (P : Finset ι) (E : Finset κ) (label : ι → κ) (rank : ι → ℕ) (cnt : κ → ℕ) : Prop :=
  Set.BijOn (fun p => (label p, rank p)) P (Slots E cnt)

variable {P : Finset ι} {E : Finset κ} {label : ι → κ} {rank : ι → ℕ} {cnt : κ → ℕ}

namespace Exact

lemma label_mem (h : Exact P E label rank cnt) {p : ι} (hp : p ∈ P) : label p ∈ E :=
  (h.mapsTo hp).1

lemma rank_lt (h : Exact P E label rank cnt) {p : ι} (hp : p ∈ P) : rank p < cnt (label p) :=
  (h.mapsTo hp).2

lemma injective (h : Exact P E label rank cnt) {p q : ι} (hp : p ∈ P) (hq : q ∈ P)
    (hl : label p = label q) (hr : rank p = rank q) : p = q :=
  h.injOn hp hq (Prod.ext hl hr)

lemma exists_slot (h : Exact P E label rank cnt) {e : κ} {r : ℕ} (he : e ∈ E) (hr : r < cnt e) :
    ∃ p ∈ P, label p = e ∧ rank p = r := by
  obtain ⟨p, hp, heq⟩ := h.surjOn (show (e, r) ∈ Slots E cnt from ⟨he, hr⟩)
  exact ⟨p, hp, congrArg Prod.fst heq, congrArg Prod.snd heq⟩

/-- The elements with label `e` have the ranks below its count, each rank once. -/
lemma bijOn_rank (h : Exact P E label rank cnt) {e : κ} (he : e ∈ E) :
    Set.BijOn rank {p | p ∈ P ∧ label p = e} (Set.Iio (cnt e)) := by
  refine ⟨?_, ?_, ?_⟩
  · rintro p ⟨hp, rfl⟩
    exact h.rank_lt hp
  · rintro p ⟨hp, rfl⟩ q ⟨hq, hl⟩ hr
    exact h.injective hp hq hl.symm hr
  · intro r hr
    obtain ⟨p, hp, hl, hrank⟩ := h.exists_slot he hr
    exact ⟨p, ⟨hp, hl⟩, hrank⟩

/-- The four facts that make a numbering exact. -/
lemma mk (hmem : ∀ p ∈ P, label p ∈ E) (hlt : ∀ p ∈ P, rank p < cnt (label p))
    (hinj : ∀ p ∈ P, ∀ q ∈ P, label p = label q → rank p = rank q → p = q)
    (hsurj : ∀ e ∈ E, ∀ r < cnt e, ∃ p ∈ P, label p = e ∧ rank p = r) :
    Exact P E label rank cnt := by
  refine ⟨fun p hp => ⟨hmem p hp, hlt p hp⟩, ?_, ?_⟩
  · intro p hp q hq heq
    exact hinj p hp q hq (congrArg Prod.fst heq) (congrArg Prod.snd heq)
  · rintro ⟨e, r⟩ ⟨he, hr⟩
    obtain ⟨p, hp, hl, hk⟩ := hsurj e he r hr
    exact ⟨p, hp, Prod.ext hl hk⟩

lemma congr {label' : ι → κ} {rank' : ι → ℕ} {cnt' : κ → ℕ} (h : Exact P E label rank cnt)
    (hl : ∀ p ∈ P, label' p = label p) (hr : ∀ p ∈ P, rank' p = rank p)
    (hc : ∀ e ∈ E, cnt' e = cnt e) : Exact P E label' rank' cnt' := by
  refine mk ?_ ?_ ?_ ?_
  · intro p hp
    rw [hl p hp]
    exact h.label_mem hp
  · intro p hp
    rw [hl p hp, hr p hp, hc _ (h.label_mem hp)]
    exact h.rank_lt hp
  · intro p hp q hq hpq hrank
    rw [hl p hp, hl q hq] at hpq
    rw [hr p hp, hr q hq] at hrank
    exact h.injective hp hq hpq hrank
  · intro e he r hlt
    rw [hc e he] at hlt
    obtain ⟨p, hp, hlp, hrp⟩ := h.exists_slot he hlt
    exact ⟨p, hp, by rw [hl p hp, hlp], by rw [hr p hp, hrp]⟩

/-- Each label is its own only copy. -/
lemma identity (E : Finset κ) : Exact E E id (fun _ => 0) (fun _ => 1) := by
  refine mk (fun _ h => h) (fun _ _ => Nat.one_pos) (fun _ _ _ _ h _ => h) ?_
  intro e he r hr
  exact ⟨e, he, rfl, (Nat.lt_one_iff.mp hr).symm⟩

lemma empty (E : Finset κ) : Exact (∅ : Finset ι) E label rank (fun _ => 0) := by
  refine mk ?_ ?_ ?_ ?_ <;> simp

/-- A new element takes the next rank of its label. -/
lemma extend [DecidableEq ι] [DecidableEq κ] (h : Exact P E label rank cnt) {p : ι} {e : κ}
    (hp : p ∉ P) (he : e ∈ E) :
    Exact (insert p P) E (Function.update label p e) (Function.update rank p (cnt e))
      (Function.update cnt e (cnt e + 1)) := by
  have hne : ∀ {q}, q ∈ P → q ≠ p := fun hq heq => hp (heq ▸ hq)
  have hle : ∀ k, cnt k ≤ Function.update cnt e (cnt e + 1) k := by
    intro k
    by_cases hk : k = e
    · subst hk
      simp
    · rw [Function.update_of_ne hk]
  refine mk ?_ ?_ ?_ ?_
  · intro q hq
    rcases Finset.mem_insert.mp hq with rfl | hq
    · simpa using he
    · rw [Function.update_of_ne (hne hq)]
      exact h.label_mem hq
  · intro q hq
    rcases Finset.mem_insert.mp hq with rfl | hq
    · simp
    · rw [Function.update_of_ne (hne hq), Function.update_of_ne (hne hq)]
      exact (h.rank_lt hq).trans_le (hle _)
  · intro q hq q' hq' hl hr
    -- the rank of the new element is above those the label has given out
    have hfresh : ∀ x ∈ P, Function.update label p e p = Function.update label p e x →
        Function.update rank p (cnt e) p ≠ Function.update rank p (cnt e) x := by
      intro x hx hlx hrx
      rw [Function.update_self, Function.update_of_ne (hne hx)] at hlx hrx
      have := h.rank_lt hx
      rw [← hlx] at this
      omega
    rcases Finset.mem_insert.mp hq with hqp | hqP <;>
      rcases Finset.mem_insert.mp hq' with hqp' | hqP'
    · rw [hqp, hqp']
    · rw [hqp] at hl hr
      exact absurd hr (hfresh _ hqP' hl)
    · rw [hqp'] at hl hr
      exact absurd hr.symm (hfresh _ hqP hl.symm)
    · rw [Function.update_of_ne (hne hqP), Function.update_of_ne (hne hqP')] at hl hr
      exact h.injective hqP hqP' hl hr
  · intro k hk r hr
    by_cases hlt : r < cnt k
    · obtain ⟨q, hq, hl, hrank⟩ := h.exists_slot hk hlt
      refine ⟨q, Finset.mem_insert_of_mem hq, ?_, ?_⟩
      · rw [Function.update_of_ne (hne hq), hl]
      · rw [Function.update_of_ne (hne hq), hrank]
    · have hke : k = e := by
        by_contra hke
        rw [Function.update_of_ne hke] at hr
        exact hlt hr
      subst hke
      rw [Function.update_self] at hr
      refine ⟨p, Finset.mem_insert_self p P, Function.update_self .., ?_⟩
      rw [Function.update_self]
      omega

/-- The elements with one label are as many as its count. -/
lemma card_label [DecidableEq κ] (h : Exact P E label rank cnt) {e : κ} (he : e ∈ E) :
    (P.filter (label · = e)).card = cnt e := by
  rw [← Finset.card_range (cnt e)]
  apply Finset.card_nbij rank
  · intro p hp
    obtain ⟨hpP, hl⟩ := Finset.mem_filter.mp hp
    have := h.rank_lt hpP
    rw [hl] at this
    exact Finset.mem_range.mpr this
  · intro p hp q hq hr
    obtain ⟨hp, hlp⟩ := Finset.mem_filter.mp hp
    obtain ⟨hq, hlq⟩ := Finset.mem_filter.mp hq
    exact h.injective hp hq (hlp.trans hlq.symm) hr
  · intro r hr
    obtain ⟨p, hp, hl, hrank⟩ := h.exists_slot he (Finset.mem_range.mp hr)
    exact ⟨p, Finset.mem_filter.mpr ⟨hp, hl⟩, hrank⟩

/-- The counts sum to the number of elements. -/
lemma sum_cnt [DecidableEq κ] (h : Exact P E label rank cnt) : ∑ e ∈ E, cnt e = P.card := by
  rw [Finset.card_eq_sum_card_fiberwise (fun p hp => h.label_mem hp)]
  exact Finset.sum_congr rfl fun e he => (h.card_label he).symm

/-- Counts that fill their bound on average fill it everywhere. -/
lemma cnt_eq_of_full [DecidableEq κ] (h : Exact P E label rank cnt) {k : ℕ}
    (hle : ∀ e ∈ E, cnt e ≤ k) (hcard : P.card = E.card * k) {e : κ} (he : e ∈ E) :
    cnt e = k := by
  refine (Finset.sum_eq_sum_iff_of_le hle).mp ?_ e he
  rw [h.sum_cnt, Finset.sum_const_nat (fun _ _ => rfl), hcard]

/-- As long as the labels have room for more elements, one of them has. -/
lemma exists_room [DecidableEq κ] (h : Exact P E label rank cnt) {k : ℕ}
    (hcard : P.card < E.card * k) : ∃ e ∈ E, cnt e < k := by
  by_contra hall
  push Not at hall
  have : ∑ _e ∈ E, k ≤ ∑ e ∈ E, cnt e := Finset.sum_le_sum hall
  rw [h.sum_cnt, Finset.sum_const_nat (fun _ _ => rfl)] at this
  omega

/-- When every label has a copy, no count is above what the others leave. -/
lemma cnt_le [DecidableEq κ] (h : Exact P E label rank cnt) (hpos : ∀ e ∈ E, 0 < cnt e) {e : κ}
    (he : e ∈ E) : cnt e ≤ P.card - E.card + 1 := by
  have hsum := h.sum_cnt
  rw [← Finset.add_sum_erase E cnt he] at hsum
  have hrest : (E.erase e).card ≤ ∑ k ∈ E.erase e, cnt k := by
    rw [Finset.card_eq_sum_ones]
    exact Finset.sum_le_sum fun k hk => hpos k (Finset.mem_of_mem_erase hk)
  rw [Finset.card_erase_of_mem he] at hrest
  omega

/-- The elements may be renamed. -/
lemma comp {ι' : Type*} {Q : Finset ι'} {σ : ι' → ι} (h : Exact P E label rank cnt)
    (hσ : Set.BijOn σ Q P) : Exact Q E (label ∘ σ) (rank ∘ σ) cnt :=
  Set.BijOn.comp h hσ

/-- The labels may be renamed by a map that can be undone. -/
lemma relabel {κ' : Type*} {F : Finset κ'} {f : κ → κ'} {g : κ' → κ}
    (h : Exact P E label rank cnt) (hf : ∀ e ∈ E, f e ∈ F) (hg : ∀ e ∈ F, g e ∈ E)
    (hgf : ∀ e ∈ E, g (f e) = e) (hfg : ∀ e ∈ F, f (g e) = e) :
    Exact P F (f ∘ label) rank (cnt ∘ g) := by
  refine mk (fun p hp => hf _ (h.label_mem hp)) ?_ ?_ ?_
  · intro p hp
    simp only [Function.comp_apply, hgf _ (h.label_mem hp)]
    exact h.rank_lt hp
  · intro p hp q hq hl hr
    have : label p = label q := by
      rw [← hgf _ (h.label_mem hp), ← hgf _ (h.label_mem hq)]
      exact congrArg g hl
    exact h.injective hp hq this hr
  · intro e he r hr
    obtain ⟨p, hp, hl, hrank⟩ := h.exists_slot (hg e he) hr
    refine ⟨p, hp, ?_, hrank⟩
    rw [Function.comp_apply, hl, hfg e he]

end Exact

/-- A number of block `p` is below the end of the last block. -/
lemma block_lt {p r n k : ℕ} (hp : p < n) (hr : r < k) : p * k + r < n * k :=
  calc p * k + r < (p + 1) * k := by rw [Nat.succ_mul]; omega
    _ ≤ n * k := Nat.mul_le_mul_right _ hp

lemma block_div {p r k : ℕ} (hr : r < k) : (p * k + r) / k = p := by
  rw [Nat.add_comm, Nat.add_mul_div_right _ _ (Nat.zero_lt_of_lt hr), Nat.div_eq_of_lt hr,
    Nat.zero_add]

lemma block_mod {p r k : ℕ} (hr : r < k) : (p * k + r) % k = r := by
  rw [Nat.add_comm, Nat.add_mul_mod_self_right, Nat.mod_eq_of_lt hr]

lemma div_lt_blocks {q n k : ℕ} (h : q < n * k) : q / k < n :=
  Nat.div_lt_of_lt_mul (by rwa [Nat.mul_comm])

lemma mod_lt_block {q n k : ℕ} (h : q < n * k) : q % k < k :=
  Nat.mod_lt _ (Nat.pos_of_lt_mul_left h)

/-- Packs of one size place their items in consecutive numbers. -/
lemma Exact.bijOn_blocks {m n k : ℕ} {label rank : ℕ → ℕ}
    (h : Exact (Finset.range m) (Finset.range n) label rank (fun _ => k)) :
    Set.BijOn (fun g => label g * k + rank g) (Finset.range m) (Finset.range (n * k)) := by
  refine ⟨?_, ?_, ?_⟩
  · intro g hg
    exact Finset.mem_coe.mpr <| Finset.mem_range.mpr <|
      block_lt (Finset.mem_range.mp (h.label_mem hg)) (h.rank_lt hg)
  · intro g hg g' hg' heq
    have hr := h.rank_lt hg
    have hr' := h.rank_lt hg'
    refine h.injective hg hg' ?_ ?_
    · have := congrArg (· / k) heq
      simpa only [block_div hr, block_div hr'] using this
    · have := congrArg (· % k) heq
      simpa only [block_mod hr, block_mod hr'] using this
  · intro q hq
    have hq := Finset.mem_range.mp (Finset.mem_coe.mp hq)
    obtain ⟨g, hg, hl, hr⟩ := h.exists_slot (Finset.mem_range.mpr (div_lt_blocks hq))
      (mod_lt_block hq)
    refine ⟨g, hg, ?_⟩
    simp only [hl, hr]
    rw [Nat.mul_comm, Nat.div_add_mod]

/-- A bijection of the blocks moves the numbers with them. -/
lemma bijOn_expand {m n k : ℕ} {σ : ℕ → ℕ} (h : Set.BijOn σ (Finset.range m) (Finset.range n)) :
    Set.BijOn (fun q => σ (q / k) * k + q % k) (Finset.range (m * k)) (Finset.range (n * k)) := by
  refine ⟨?_, ?_, ?_⟩
  · intro q hq
    have hq := Finset.mem_range.mp (Finset.mem_coe.mp hq)
    have hσ := h.mapsTo (Finset.mem_coe.mpr (Finset.mem_range.mpr (div_lt_blocks hq)))
    exact Finset.mem_coe.mpr <| Finset.mem_range.mpr <|
      block_lt (Finset.mem_range.mp (Finset.mem_coe.mp hσ)) (mod_lt_block hq)
  · intro q hq q' hq' heq
    have hq := Finset.mem_range.mp (Finset.mem_coe.mp hq)
    have hq' := Finset.mem_range.mp (Finset.mem_coe.mp hq')
    have hdiv : q / k = q' / k := by
      refine h.injOn (Finset.mem_coe.mpr (Finset.mem_range.mpr (div_lt_blocks hq)))
        (Finset.mem_coe.mpr (Finset.mem_range.mpr (div_lt_blocks hq'))) ?_
      have := congrArg (· / k) heq
      simpa only [block_div (mod_lt_block hq), block_div (mod_lt_block hq')] using this
    have hmod : q % k = q' % k := by
      have := congrArg (· % k) heq
      simpa only [block_mod (mod_lt_block hq), block_mod (mod_lt_block hq')] using this
    rw [← Nat.div_add_mod q k, hdiv, hmod, Nat.div_add_mod]
  · intro q hq
    have hq := Finset.mem_range.mp (Finset.mem_coe.mp hq)
    obtain ⟨b, hb, hσ⟩ := h.surjOn (Finset.mem_coe.mpr (Finset.mem_range.mpr (div_lt_blocks hq)))
    refine ⟨b * k + q % k, ?_, ?_⟩
    · exact Finset.mem_coe.mpr <| Finset.mem_range.mpr <|
        block_lt (Finset.mem_range.mp (Finset.mem_coe.mp hb)) (mod_lt_block hq)
    · simp only [block_div (mod_lt_block hq), block_mod (mod_lt_block hq), hσ]
      rw [Nat.mul_comm, Nat.div_add_mod]

/-- Numberings of several blocks, side by side, number all of them. -/
lemma Exact.sideBySide {n K M : ℕ} {label rank cnt : ℕ → ℕ → ℕ}
    (h : ∀ b < n, Exact (Finset.range K) (Finset.range M) (label b) (rank b) (cnt b)) :
    Exact (Finset.range (n * K)) (Finset.range (n * M))
      (fun p => p / K * M + label (p / K) (p % K)) (fun p => rank (p / K) (p % K))
      (fun e => cnt (e / M) (e % M)) := by
  have hlabel : ∀ {p}, p < n * K → label (p / K) (p % K) < M := fun hp =>
    Finset.mem_range.mp
      ((h _ (div_lt_blocks hp)).label_mem (Finset.mem_range.mpr (mod_lt_block hp)))
  refine mk ?_ ?_ ?_ ?_
  · intro p hp
    have hp := Finset.mem_range.mp hp
    exact Finset.mem_range.mpr (block_lt (div_lt_blocks hp) (hlabel hp))
  · intro p hp
    have hp := Finset.mem_range.mp hp
    simp only [block_div (hlabel hp), block_mod (hlabel hp)]
    exact (h _ (div_lt_blocks hp)).rank_lt (Finset.mem_range.mpr (mod_lt_block hp))
  · intro p hp q hq hl hr
    have hp := Finset.mem_range.mp hp
    have hq := Finset.mem_range.mp hq
    have hb : p / K = q / K := by
      rw [← block_div (p := p / K) (hlabel hp), ← block_div (p := q / K) (hlabel hq), hl]
    have hlab : label (p / K) (p % K) = label (p / K) (q % K) := by
      rw [← block_mod (p := p / K) (hlabel hp), hl, block_mod (hlabel hq), hb]
    have hrank : rank (p / K) (p % K) = rank (p / K) (q % K) := by rw [hr, hb]
    have hmod := (h _ (div_lt_blocks hp)).injective (Finset.mem_range.mpr (mod_lt_block hp))
      (Finset.mem_range.mpr (mod_lt_block hq)) hlab hrank
    rw [← Nat.div_add_mod p K, hmod, hb, Nat.div_add_mod]
  · intro e he r hr
    have he := Finset.mem_range.mp he
    obtain ⟨q, hq, hl, hrank⟩ := (h _ (div_lt_blocks he)).exists_slot
      (Finset.mem_range.mpr (mod_lt_block he)) hr
    have hq := Finset.mem_range.mp hq
    refine ⟨e / M * K + q, Finset.mem_range.mpr (block_lt (div_lt_blocks he) hq), ?_, ?_⟩
    · simp only [block_div hq, block_mod hq, hl]
      rw [Nat.mul_comm, Nat.div_add_mod]
    · simp only [block_div hq, block_mod hq, hrank]

end Numbering
