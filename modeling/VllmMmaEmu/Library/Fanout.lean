import Mathlib.Data.List.Nodup
import VllmMmaEmu.Library.Python

/-!
# Receivers shared out among senders

Every sender serves a block of receivers of the same size, and the first ones serve one of the
remainder each. The two sides compute the assignment on their own: a sender its receivers, a
receiver its sender.
-/

namespace Fanout

open Python

variable {senders receivers i j : Nat}

/-- The receivers of sender `i`, by their positions. -/
def served (senders receivers i : Nat) : List Nat :=
  List.range' (i * (receivers / senders)) (receivers / senders) ++
    if senders * (receivers / senders) + i < receivers then
      [senders * (receivers / senders) + i] else []

/-- The sender of receiver `j`, by its position. -/
def server (senders receivers j : Nat) : Nat :=
  if j < senders * (receivers / senders) then j / (receivers / senders)
  else j - senders * (receivers / senders)

lemma block_end_le (hi : i < senders) (q : Nat) : i * q + q ≤ senders * q :=
  calc i * q + q = (i + 1) * q := (Nat.succ_mul i q).symm
    _ ≤ senders * q := Nat.mul_le_mul_right _ hi

/-- Both sides agree on who serves whom. -/
lemma mem_served (hi : i < senders) (hj : j < receivers) :
    j ∈ served senders receivers i ↔ server senders receivers j = i := by
  have hend := block_end_le hi (receivers / senders)
  unfold served server
  generalize receivers / senders = q at hend ⊢
  constructor
  · intro h
    rcases List.mem_append.mp h with h | h
    · obtain ⟨hlo, hhi⟩ := List.mem_range'_1.mp h
      rw [if_pos (hhi.trans_le hend)]
      refine Nat.div_eq_of_lt_le hlo ?_
      rwa [Nat.succ_mul]
    · split_ifs at h with hlt
      · rw [List.mem_singleton.mp h, if_neg (by omega)]
        omega
      · simp at h
  · intro h
    split_ifs at h with hlt
    · refine List.mem_append_left _ (List.mem_range'_1.mpr ?_)
      have hq : 0 < q := by
        rcases Nat.eq_zero_or_pos q with rfl | hq
        · simp at hlt
        · exact hq
      subst h
      refine ⟨Nat.div_mul_le_self j q, ?_⟩
      have hmod := Nat.mod_lt j hq
      have hdiv := Nat.div_add_mod j q
      rw [Nat.mul_comm] at hdiv
      omega
    · refine List.mem_append_right _ ?_
      have hj' : senders * q + i = j := by omega
      rw [if_pos (by omega), hj']
      exact List.mem_singleton_self j

lemma served_nodup (hi : i < senders) : (served senders receivers i).Nodup := by
  have hend := block_end_le hi (receivers / senders)
  refine List.Nodup.append List.nodup_range' ?_ ?_
  · split_ifs
    · exact List.nodup_singleton _
    · exact List.nodup_nil
  · intro k hk hk'
    have := (List.mem_range'_1.mp hk).2
    split_ifs at hk'
    · have := List.mem_singleton.mp hk'
      omega
    · simp at hk'

lemma server_lt (hsenders : 0 < senders) (hj : j < receivers) :
    server senders receivers j < senders := by
  unfold server
  split_ifs with hlt
  · exact Nat.div_lt_of_lt_mul (by rwa [Nat.mul_comm])
  · have hmod := Nat.mod_lt receivers hsenders
    have hdiv := Nat.div_add_mod receivers senders
    omega

variable {α : Type} [DecidableEq α] {S R : List α} {s r : α}

/-- The receivers that sender `s` finds for itself. -/
def receiversOf (S R : List α) (s : α) : List α :=
  (served S.length R.length (S.idxOf s)).filterMap fun j => R[j]?

/-- The sender that receiver `r` finds for itself. -/
def senderOf (S R : List α) (r : α) : Option α := S[server S.length R.length (R.idxOf r)]?

lemma mem_receiversOf (hS : S.Nodup) (hR : R.Nodup) (hs : s ∈ S) :
    r ∈ receiversOf S R s ↔ r ∈ R ∧ senderOf S R r = some s := by
  have hi := List.idxOf_lt_length_of_mem hs
  have hserver : ∀ {k}, (S[k]? = some s ↔ k = S.idxOf s) := by
    intro k
    constructor
    · intro h
      obtain ⟨hk, h⟩ := List.getElem?_eq_some_iff.mp h
      rw [← h, hS.idxOf_getElem]
    · rintro rfl
      rw [List.getElem?_eq_getElem hi, List.getElem_idxOf]
  constructor
  · intro h
    obtain ⟨j, hj, hr⟩ := List.mem_filterMap.mp h
    obtain ⟨hlt, rfl⟩ := List.getElem?_eq_some_iff.mp hr
    refine ⟨List.getElem_mem hlt, ?_⟩
    rw [senderOf, hR.idxOf_getElem, (mem_served hi hlt).mp hj, hserver]
  · rintro ⟨hr, h⟩
    have hlt := List.idxOf_lt_length_of_mem hr
    rw [senderOf, hserver] at h
    refine List.mem_filterMap.mpr ⟨R.idxOf r, (mem_served hi hlt).mpr h, ?_⟩
    rw [List.getElem?_eq_getElem hlt, List.getElem_idxOf]

lemma receiversOf_nodup (hR : R.Nodup) (hs : s ∈ S) : (receiversOf S R s).Nodup := by
  refine List.Nodup.filterMap ?_ (served_nodup (List.idxOf_lt_length_of_mem hs))
  intro j k x hj hk
  obtain ⟨hj, rfl⟩ := List.getElem?_eq_some_iff.mp hj
  obtain ⟨hk, heq⟩ := List.getElem?_eq_some_iff.mp hk
  exact (hR.getElem_inj_iff.mp heq).symm

lemma senderOf_mem (hS : S ≠ []) (hr : r ∈ R) : ∃ s ∈ S, senderOf S R r = some s := by
  have hlt := server_lt (List.length_pos_iff.mpr hS) (List.idxOf_lt_length_of_mem hr)
  exact ⟨_, List.getElem_mem hlt, List.getElem?_eq_getElem hlt⟩

end Fanout
