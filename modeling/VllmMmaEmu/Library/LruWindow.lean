import VllmMmaEmu.Library.Recency

/-!
# What an LRU cache still holds

Keys have weights, and a new key evicts the least recently used ones until it fits. A key is
then there exactly when the keys used since its last use, itself included, fit together.
-/

namespace LruWindow

open Recency

variable {K : Type*} {w : K → ℕ} {cap n : ℕ} {keys uses : List K} {k : K}

def weight (w : K → ℕ) (l : List K) : ℕ := (l.map w).sum

@[simp] lemma weight_nil : weight w [] = 0 := rfl

@[simp] lemma weight_cons (k : K) (l : List K) : weight w (k :: l) = w k + weight w l := by
  simp [weight]

@[simp] lemma weight_append (l l' : List K) : weight w (l ++ l') = weight w l + weight w l' := by
  simp [weight]

lemma weight_le_of_sublist {l l' : List K} (h : l.Sublist l') : weight w l ≤ weight w l' := by
  induction h with
  | slnil => exact le_rfl
  | cons a _ ih => exact ih.trans (by simp)
  | cons_cons a _ ih => simpa using ih

/-- What is left when `n` has to fit. -/
def evict (w : K → ℕ) (cap n : ℕ) : List K → List K
  | [] => []
  | k :: rest => if weight w (k :: rest) + n > cap then evict w cap n rest else k :: rest

lemma evict_suffix (l : List K) : evict w cap n l <:+ l := by
  induction l with
  | nil => exact List.suffix_refl _
  | cons k rest ih =>
    rw [evict]
    split_ifs
    · exact ih.trans (List.suffix_cons k rest)
    · exact List.suffix_refl _

lemma evict_fits (hn : n ≤ cap) (l : List K) : weight w (evict w cap n l) + n ≤ cap := by
  induction l with
  | nil => simpa [evict] using hn
  | cons k rest ih =>
    rw [evict]
    split_ifs with h
    · exact ih
    · exact not_lt.mp h

/-- Nothing is evicted without need. -/
lemma suffix_evict {q l : List K} (hq : q <:+ l) (hfits : weight w q + n ≤ cap) :
    q <:+ evict w cap n l := by
  induction l with
  | nil => simpa [evict] using hq
  | cons k rest ih =>
    rw [evict]
    split_ifs with h
    · rcases List.suffix_cons_iff.mp hq with rfl | hq
      · omega
      · exact ih hq
    · exact hq

variable [DecidableEq K]

/-- The keys used since the last use of `k`, in order of last use, from `k` on. -/
def since (uses : List K) (k : K) : List K := (lastUsed uses).dropWhile (· ≠ k)

lemma mem_dropWhile {l : List K} (hk : k ∈ l) : k ∈ l.dropWhile (· ≠ k) := by
  induction l with
  | nil => exact hk
  | cons a l ih =>
    by_cases hak : a = k
    · simp [hak]
    · simpa [hak] using ih (List.mem_of_ne_of_mem (Ne.symm hak) hk)

lemma mem_since (hk : k ∈ uses) : k ∈ since uses k := mem_dropWhile (List.mem_dedup.mpr hk)

/-- The keys are the most recently used ones: as many as ever fitted. -/
structure Holds (w : K → ℕ) (cap : ℕ) (uses keys : List K) : Prop where
  suffix : keys <:+ lastUsed uses
  fits : weight w keys ≤ cap
  full : ∀ k ∈ uses, weight w (since uses k) ≤ cap → k ∈ keys

lemma Holds.start (hnodup : keys.Nodup) (hfits : weight w keys ≤ cap) : Holds w cap keys keys where
  suffix := ⟨[], (List.nil_append keys).trans hnodup.dedup.symm⟩
  fits := hfits
  full _ hk _ := hk

/-- From one of its keys on, a suffix is all of the list. -/
lemma dropWhile_of_mem_suffix {l : List K} (hnodup : l.Nodup) (hsuffix : keys <:+ l)
    (hk : k ∈ keys) : l.dropWhile (· ≠ k) = keys.dropWhile (· ≠ k) := by
  obtain ⟨p, rfl⟩ := hsuffix
  have hp : k ∉ p := fun hmem => (List.nodup_append'.mp hnodup).2.2 hmem hk
  rw [List.dropWhile_append_of_pos]
  exact fun a ha => decide_eq_true fun heq => hp (heq ▸ ha)

lemma Holds.since_suffix (h : Holds w cap uses keys) (hk : k ∈ keys) : since uses k <:+ keys := by
  rw [since, dropWhile_of_mem_suffix (lastUsed_nodup uses) h.suffix hk]
  exact List.dropWhile_suffix _

/-- A key is there exactly when the keys used since fit together with it. -/
theorem Holds.mem_iff (h : Holds w cap uses keys) (hk : k ∈ uses) :
    k ∈ keys ↔ weight w (since uses k) ≤ cap :=
  ⟨fun hmem => (weight_le_of_sublist (h.since_suffix hmem).sublist).trans h.fits, h.full k hk⟩

lemma weight_erase_of_mem {l : List K} (hk : k ∈ l) :
    weight w (l.erase k) + w k = weight w l := by
  rw [weight, weight, ((List.perm_cons_erase hk).map w).sum_eq, List.map_cons, List.sum_cons,
    Nat.add_comm]

lemma weight_le_erase (l : List K) (k : K) : weight w l ≤ weight w (l.erase k) + w k := by
  by_cases hk : k ∈ l
  · exact (weight_erase_of_mem hk).ge
  · rw [List.erase_of_not_mem hk]
    exact Nat.le_add_right _ _

lemma dropWhile_erase {l : List K} (hnodup : l.Nodup) {k' : K} (hne : k' ≠ k) :
    (l.erase k).dropWhile (· ≠ k') = (l.dropWhile (· ≠ k')).erase k := by
  induction l with
  | nil => rfl
  | cons a l ih =>
    obtain ⟨ha, hl⟩ := List.nodup_cons.mp hnodup
    by_cases hak : a = k
    · subst hak
      have hnotin : a ∉ l.dropWhile (· ≠ k') := fun hmem =>
        ha ((List.dropWhile_suffix _).subset hmem)
      rw [List.erase_cons_head, List.dropWhile_cons_of_pos (by simpa using hne.symm),
        List.erase_of_not_mem hnotin]
    · rw [List.erase_cons_tail (by simpa using hak)]
      by_cases hak' : a = k'
      · subst hak'
        simp [hak]
      · simpa [List.dropWhile_cons, hak'] using ih hl

/-- What was used since counts the new use last, and only there. -/
lemma since_concat {k' : K} (hk' : k' ∈ uses) (hne : k' ≠ k) :
    since (uses ++ [k]) k' = (since uses k').erase k ++ [k] := by
  have hmem : k' ∈ (lastUsed uses).erase k :=
    (List.mem_erase_of_ne hne).mpr (List.mem_dedup.mpr hk')
  have hstop : ((lastUsed uses).erase k).dropWhile (· ≠ k') ≠ [] :=
    List.ne_nil_of_mem (mem_dropWhile hmem)
  rw [since, lastUsed_concat, List.dropWhile_append, if_neg (by simpa using hstop),
    dropWhile_erase (lastUsed_nodup uses) hne]
  rfl

lemma weight_since_le {k' : K} (hk' : k' ∈ uses) (hne : k' ≠ k) :
    weight w (since uses k') ≤ weight w (since (uses ++ [k]) k') := by
  rw [since_concat hk' hne, weight_append, weight_cons, weight_nil, Nat.add_zero]
  exact weight_le_erase _ k

/-- A key that is there is used. -/
lemma Holds.hit (h : Holds w cap uses keys) (hk : k ∈ keys) :
    Holds w cap (uses ++ [k]) (keys.erase k ++ [k]) where
  suffix := by
    obtain ⟨p, hp⟩ := h.suffix
    have hnotin : k ∉ p := by
      intro hmem
      have hnodup := lastUsed_nodup uses
      rw [← hp] at hnodup
      exact (List.nodup_append'.mp hnodup).2.2 hmem hk
    rw [lastUsed_concat, ← hp, List.erase_append_right _ hnotin, List.append_assoc]
    exact List.suffix_append _ _
  fits := by
    rw [weight_append, weight_cons, weight_nil, Nat.add_zero, weight_erase_of_mem hk]
    exact h.fits
  full k' hk' hle := by
    by_cases hne : k' = k
    · simp [hne]
    · have hold : k' ∈ uses := by simpa [hne] using hk'
      have hmem := h.full k' hold ((weight_since_le hold hne).trans hle)
      exact List.mem_append_left _ ((List.mem_erase_of_ne hne).mpr hmem)

/-- A key that is not there takes the place of the least recently used ones. -/
lemma Holds.insert (h : Holds w cap uses keys) (hk : k ∉ keys) (hfits : w k ≤ cap) :
    Holds w cap (uses ++ [k]) (evict w cap (w k) keys ++ [k]) where
  suffix := by
    have hlast : evict w cap (w k) keys <:+ lastUsed uses := (evict_suffix keys).trans h.suffix
    obtain ⟨p, hp⟩ := hlast
    have hnotin : k ∉ evict w cap (w k) keys := fun hmem => hk ((evict_suffix keys).subset hmem)
    have herase : (lastUsed uses).erase k = p.erase k ++ evict w cap (w k) keys := by
      rw [← hp]
      by_cases hkp : k ∈ p
      · exact List.erase_append_left _ hkp
      · rw [List.erase_append_right _ hkp, List.erase_of_not_mem hkp, List.erase_of_not_mem hnotin]
    rw [lastUsed_concat, herase, List.append_assoc]
    exact List.suffix_append _ _
  fits := by
    rw [weight_append, weight_cons, weight_nil, Nat.add_zero]
    exact evict_fits hfits keys
  full k' hk' hle := by
    by_cases hne : k' = k
    · simp [hne]
    · have hold : k' ∈ uses := by simpa [hne] using hk'
      have hmem := h.full k' hold ((weight_since_le hold hne).trans hle)
      have hsuffix := h.since_suffix hmem
      have hnotin : k ∉ since uses k' := fun hin => hk (hsuffix.subset hin)
      rw [since_concat hold hne, List.erase_of_not_mem hnotin, weight_append, weight_cons,
        weight_nil, Nat.add_zero] at hle
      exact List.mem_append_left _ ((suffix_evict hsuffix hle).subset (mem_since hold))

end LruWindow
