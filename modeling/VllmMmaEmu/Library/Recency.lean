import Mathlib.Algebra.BigOperators.Group.List.Basic
import Mathlib.Algebra.GroupWithZero.Nat
import Mathlib.Algebra.Order.Group.Nat
import Mathlib.Data.List.Dedup
import Mathlib.Data.List.Nodup

/-!
# Order of last use and LRU caches

The uses of some keys are logged in order. Keys are in order of last use when they are the
logged keys by their last occurrence, as far as they are still there.
-/

namespace Recency

variable {K : Type*} [DecidableEq K] {uses keys : List K} {k : K}

/-- The keys in the order in which they were used last, the least recently used one first. -/
def lastUsed (uses : List K) : List K := uses.dedup

/-- The keys that are there are in order of last use. -/
def InOrder (uses keys : List K) : Prop := keys = (lastUsed uses).filter (· ∈ keys)

lemma lastUsed_nodup (uses : List K) : (lastUsed uses).Nodup := List.nodup_dedup uses

/-- One more use puts a key at the end. -/
lemma lastUsed_concat (uses : List K) (k : K) :
    lastUsed (uses ++ [k]) = (lastUsed uses).erase k ++ [k] := by
  rw [(lastUsed_nodup uses).erase_eq_filter]
  unfold lastUsed
  induction uses with
  | nil => simp
  | cons a uses ih =>
    by_cases ha : a ∈ uses
    · rw [List.cons_append, List.dedup_cons_of_mem (by simp [ha]), List.dedup_cons_of_mem ha, ih]
    · by_cases hak : a = k
      · subst hak
        rw [List.cons_append, List.dedup_cons_of_mem (by simp), List.dedup_cons_of_notMem ha, ih]
        simp
      · rw [List.cons_append, List.dedup_cons_of_notMem (by simp [ha, hak]),
          List.dedup_cons_of_notMem ha, ih]
        simp [hak]

lemma InOrder.nodup (h : InOrder uses keys) : keys.Nodup := by
  rw [h]
  exact (lastUsed_nodup uses).filter _

lemma inOrder_nil : InOrder uses ([] : List K) := by
  simp [InOrder]

/-- A key that is there is used. -/
lemma InOrder.touch (h : InOrder uses keys) (hk : k ∈ keys) :
    InOrder (uses ++ [k]) (keys.erase k ++ [k]) := by
  have hmem : ∀ a, a ∈ keys.erase k ++ [k] ↔ a ∈ keys := by
    intro a
    rw [List.mem_append, List.mem_singleton, h.nodup.mem_erase_iff]
    by_cases ha : a = k
    · simp [ha, hk]
    · simp [ha]
  unfold InOrder
  rw [lastUsed_concat, List.filter_append]
  congr 1
  · rw [(lastUsed_nodup uses).erase_eq_filter, List.filter_filter]
    conv_lhs => rw [h.nodup.erase_eq_filter, h, List.filter_filter]
    refine List.filter_congr fun a _ => ?_
    rw [Bool.and_comm, decide_eq_decide.mpr (hmem a)]
  · simp

/-- The use of a key that is not there changes nothing. -/
lemma InOrder.touch_absent (h : InOrder uses keys) (hk : k ∉ keys) :
    InOrder (uses ++ [k]) keys := by
  unfold InOrder
  rw [lastUsed_concat, List.filter_append, (lastUsed_nodup uses).erase_eq_filter, List.filter_filter]
  have hlast : [k].filter (· ∈ keys) = [] := by simp [hk]
  rw [hlast, List.append_nil]
  conv_lhs => rw [h]
  refine List.filter_congr fun a _ => ?_
  by_cases ha : a = k
  · simp [ha, hk]
  · simp [ha]

/-- A new key comes with its first use. -/
lemma InOrder.insert (h : InOrder uses keys) (hk : k ∉ keys) :
    InOrder (uses ++ [k]) (keys ++ [k]) := by
  have htouch := h.touch_absent hk
  unfold InOrder at htouch ⊢
  rw [lastUsed_concat, List.filter_append, (lastUsed_nodup uses).erase_eq_filter,
    List.filter_filter] at htouch ⊢
  have hlast : [k].filter (· ∈ keys) = [] := by simp [hk]
  rw [hlast, List.append_nil] at htouch
  have hself : [k].filter (· ∈ keys ++ [k]) = [k] := by simp
  rw [hself]
  congr 1
  conv_lhs => rw [htouch]
  refine List.filter_congr fun a _ => ?_
  by_cases ha : a = k
  · simp [ha]
  · simp [ha]

lemma InOrder.insert_list {new : List K} (h : InOrder uses keys) (hnodup : new.Nodup)
    (habsent : ∀ a ∈ new, a ∉ keys) : InOrder (uses ++ new) (keys ++ new) := by
  induction new generalizing uses keys with
  | nil => simpa using h
  | cons a new ih =>
    obtain ⟨ha, hnew⟩ := List.nodup_cons.mp hnodup
    have hone := h.insert (habsent a List.mem_cons_self)
    have hmore := ih hone hnew fun b hb hmem => by
      rcases List.mem_append.mp hmem with hmem | hmem
      · exact habsent b (List.mem_cons_of_mem _ hb) hmem
      · exact ha (List.mem_singleton.mp hmem ▸ hb)
    simpa using hmore

/-- Dropping keys keeps the order of the others. -/
lemma InOrder.filter (h : InOrder uses keys) (q : K → Bool) : InOrder uses (keys.filter q) := by
  unfold InOrder
  conv_lhs => rw [h]
  rw [List.filter_filter]
  exact List.filter_congr fun a _ => by simp [List.mem_filter, Bool.and_comm]

end Recency
