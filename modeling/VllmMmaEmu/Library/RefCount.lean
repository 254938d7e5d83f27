import Mathlib.Data.List.Count
import Mathlib.Data.List.Nodup
import Mathlib.Data.List.Perm.Lattice
import Mathlib.Data.List.Range

/-!
# Reference-counted slots with a free list

Slots `1, …, size - 1` are counted, slot `0` is a placeholder that is never free. The
invariant ties the counts and the free list to a function `held` that says how many
references there should be; every operation moves `held` by what it takes or gives back.
-/

namespace RefCount

/-- The counts are those of `held`, and exactly the slots without references are free,
each once. -/
structure Counted (size : Nat) (refCnt : Nat → Int) (free : List Nat) (held : Nat → Nat) :
    Prop where
  refs : ∀ b, b ≠ 0 → b < size → refCnt b = held b
  outside : ∀ b, b ≠ 0 → size ≤ b → held b = 0
  free_iff : ∀ b, b ∈ free ↔ b ≠ 0 ∧ b < size ∧ held b = 0
  nodup : free.Nodup

variable {size : Nat} {refCnt refCnt' : Nat → Int} {free : List Nat} {held held' : Nat → Nat}

/-- What is held of the placeholder does not matter. -/
lemma Counted.congr (h : Counted size refCnt free held) (heq : ∀ b, b ≠ 0 → held b = held' b) :
    Counted size refCnt free held' where
  refs b hb hlt := by rw [h.refs b hb hlt, heq b hb]
  outside b hb hle := by rw [← heq b hb, h.outside b hb hle]
  free_iff b := by
    rw [h.free_iff]
    constructor
    · rintro ⟨hb, hlt, hzero⟩
      exact ⟨hb, hlt, heq b hb ▸ hzero⟩
    · rintro ⟨hb, hlt, hzero⟩
      exact ⟨hb, hlt, (heq b hb).trans hzero⟩
  nodup := h.nodup

lemma Counted.null_not_free (h : Counted size refCnt free held) : 0 ∉ free :=
  fun hmem => ((h.free_iff 0).mp hmem).1 rfl

lemma Counted.free_iff_refCnt (h : Counted size refCnt free held) {b : Nat} (hb : b ≠ 0)
    (hlt : b < size) : b ∈ free ↔ refCnt b = 0 := by
  rw [h.free_iff, h.refs b hb hlt]
  constructor
  · rintro ⟨-, -, hzero⟩
    exact_mod_cast hzero
  · intro hzero
    exact ⟨hb, hlt, by exact_mod_cast hzero⟩

lemma count_singleton_of_ne {b c : Nat} (h : c ≠ b) : [b].count c = 0 := by
  rw [List.count_eq_zero, List.mem_singleton]
  exact h

/-- One more reference to the placeholder. -/
lemma Counted.retain_null (h : Counted size refCnt free held) (refCnt' : Nat → Int)
    (hrest : ∀ b, b ≠ 0 → refCnt' b = refCnt b) : Counted size refCnt' free held :=
  ⟨fun b hb hlt => (hrest b hb).trans (h.refs b hb hlt), h.outside, h.free_iff, h.nodup⟩

/-- A reference to a free slot takes it out of the free list. -/
lemma Counted.retain_free (h : Counted size refCnt free held) {b : Nat} (hmem : b ∈ free)
    (hself : refCnt' b = refCnt b + 1) (hrest : ∀ c, c ≠ b → refCnt' c = refCnt c) :
    Counted size refCnt' (free.erase b) (fun c => held c + [b].count c) where
  refs c hc hlt := by
    by_cases hcb : c = b
    · subst hcb
      rw [hself, h.refs c hc hlt]
      simp
    · rw [hrest c hcb, h.refs c hc hlt, count_singleton_of_ne hcb]
      rfl
  outside c hc hle := by
    have hne : c ≠ b := by
      rintro rfl
      exact absurd ((h.free_iff c).mp hmem).2.1 (not_lt_of_ge hle)
    simp [h.outside c hc hle, count_singleton_of_ne hne]
  free_iff c := by
    rw [h.nodup.mem_erase_iff, h.free_iff]
    by_cases hcb : c = b
    · simp [hcb]
    · simp [hcb, count_singleton_of_ne hcb]
  nodup := h.nodup.erase b

/-- A further reference to a slot that is held. -/
lemma Counted.retain_held (h : Counted size refCnt free held) {b : Nat} (hlt : b < size)
    (hpos : held b ≠ 0) (hself : refCnt' b = refCnt b + 1)
    (hrest : ∀ c, c ≠ b → refCnt' c = refCnt c) :
    Counted size refCnt' free (fun c => held c + [b].count c) where
  refs c hc hlt := by
    by_cases hcb : c = b
    · subst hcb
      rw [hself, h.refs c hc hlt]
      simp
    · rw [hrest c hcb, h.refs c hc hlt, count_singleton_of_ne hcb]
      rfl
  outside c hc hle := by
    have hne : c ≠ b := by
      rintro rfl
      exact absurd hlt (not_lt_of_ge hle)
    simp [h.outside c hc hle, count_singleton_of_ne hne]
  free_iff c := by
    rw [h.free_iff]
    by_cases hcb : c = b
    · simp [hcb, hpos]
    · simp [count_singleton_of_ne hcb]
  nodup := h.nodup

/-- Giving back a list of references, each slot at most once: those that were the last one
are appended to the free list. -/
lemma Counted.release {bs : List Nat}
    (h : Counted size refCnt free (fun b => held b + bs.count b))
    (hbs : (bs.filter (· ≠ 0)).Nodup) (hcnt : ∀ b, refCnt' b = refCnt b - bs.count b) :
    Counted size refCnt' (free ++ bs.filter fun b => refCnt' b = 0 ∧ b ≠ 0) held := by
  have hrefs : ∀ b, b ≠ 0 → b < size → refCnt' b = held b := by
    intro b hb hlt
    rw [hcnt, h.refs b hb hlt]
    push_cast
    omega
  have hout : ∀ b, b ≠ 0 → size ≤ b → held b = 0 := by
    intro b hb hle
    have := h.outside b hb hle
    omega
  have hin : ∀ b ∈ bs, b ≠ 0 → b < size := by
    intro b hmem hb
    by_contra hlt
    have := h.outside b hb (not_lt.mp hlt)
    have hpos := List.count_pos_iff.mpr hmem
    omega
  refine ⟨hrefs, hout, ?_, ?_⟩
  · intro b
    rw [List.mem_append, h.free_iff, List.mem_filter, decide_eq_true_eq]
    constructor
    · rintro (⟨hb, hlt, hzero⟩ | ⟨hmem, hzero, hb⟩)
      · exact ⟨hb, hlt, by omega⟩
      · have hlt := hin b hmem hb
        have := hrefs b hb hlt
        exact ⟨hb, hlt, by omega⟩
    · rintro ⟨hb, hlt, hzero⟩
      by_cases hmem : b ∈ bs
      · right
        refine ⟨hmem, ?_, hb⟩
        rw [hrefs b hb hlt, hzero]
        rfl
      · left
        exact ⟨hb, hlt, by rw [hzero, List.count_eq_zero.mpr hmem]⟩
  · rw [List.nodup_append']
    refine ⟨h.nodup, ?_, ?_⟩
    · refine hbs.sublist (List.monotone_filter_right bs fun b hb => ?_)
      rw [decide_eq_true_eq] at hb ⊢
      exact hb.2
    · intro b hfree hmem
      rw [List.mem_filter] at hmem
      have hpos := List.count_pos_iff.mpr hmem.1
      have := ((h.free_iff b).mp hfree).2.2
      omega

/-- The slots that are held. -/
def heldSlots (size : Nat) (held : Nat → Nat) : List Nat :=
  (List.range size).filter fun b => b ≠ 0 ∧ held b ≠ 0

/-- Every slot is free, held or the placeholder. -/
theorem Counted.total (h : Counted size refCnt free held) (hsize : 0 < size) :
    free.length + (heldSlots size held).length + 1 = size := by
  have hperm : (free ++ heldSlots size held ++ [0]).Perm (List.range size) := by
    rw [List.perm_ext_iff_of_nodup]
    · intro b
      simp only [List.mem_append, h.free_iff, heldSlots, List.mem_filter, List.mem_range,
        decide_eq_true_eq, List.mem_singleton]
      constructor
      · rintro ((⟨-, hlt, -⟩ | ⟨hlt, -⟩) | rfl)
        · exact hlt
        · exact hlt
        · exact hsize
      · intro hlt
        by_cases hb : b = 0
        · exact Or.inr hb
        · by_cases hzero : held b = 0
          · exact Or.inl (Or.inl ⟨hb, hlt, hzero⟩)
          · exact Or.inl (Or.inr ⟨hlt, hb, hzero⟩)
    · rw [List.nodup_append', List.nodup_append']
      refine ⟨⟨h.nodup, List.nodup_range.filter _, ?_⟩, List.nodup_singleton 0, ?_⟩
      · intro b hfree hmem
        simp only [heldSlots, List.mem_filter, decide_eq_true_eq] at hmem
        exact hmem.2.2 ((h.free_iff b).mp hfree).2.2
      · rw [List.disjoint_singleton, List.mem_append]
        rintro (hfree | hmem)
        · exact h.null_not_free hfree
        · simp [heldSlots] at hmem
    · exact List.nodup_range
  have hlen := hperm.length_eq
  simp only [List.length_append, List.length_singleton, List.length_range] at hlen
  exact hlen

end RefCount
