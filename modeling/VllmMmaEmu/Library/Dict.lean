import Mathlib.Algebra.BigOperators.Group.List.Basic
import Mathlib.Data.List.Nodup
import VllmMmaEmu.Library.Python

/-!
# Python dictionaries

A dictionary is its entries in order of first insertion, with distinct keys as a field.
Assigning to a present key keeps its place.
-/

namespace Python

universe u v

structure Dict (K : Type u) (V : Type v) where
  entries : List (K × V)
  nodup : (entries.map Prod.fst).Nodup
  deriving DecidableEq

namespace Dict

variable {K : Type u} {V : Type v}

def empty : Dict K V := ⟨[], List.nodup_nil⟩

instance : Inhabited (Dict K V) := ⟨empty⟩

def keys (d : Dict K V) : List K := d.entries.map Prod.fst

def values (d : Dict K V) : List V := d.entries.map Prod.snd

lemma keys_nodup (d : Dict K V) : d.keys.Nodup := d.nodup

variable [DecidableEq K]

def lookupEntry : List (K × V) → K → Option V
  | [], _ => none
  | (a, w) :: rest, k => if a = k then some w else lookupEntry rest k

def get? (d : Dict K V) (k : K) : Option V := lookupEntry d.entries k

lemma lookupEntry_isSome (l : List (K × V)) (k : K) :
    (lookupEntry l k).isSome ↔ k ∈ l.map Prod.fst := by
  induction l with
  | nil => simp [lookupEntry]
  | cons p rest ih =>
    obtain ⟨a, w⟩ := p
    by_cases h : a = k
    · simp [lookupEntry, h]
    · simp only [lookupEntry, h, if_false, ih, List.map_cons, List.mem_cons, Ne.symm h, false_or]

lemma mem_keys_iff {d : Dict K V} {k : K} : k ∈ d.keys ↔ ∃ v, d.get? k = some v := by
  rw [← Option.isSome_iff_exists]
  exact (lookupEntry_isSome d.entries k).symm

lemma get?_eq_none_iff {d : Dict K V} {k : K} : d.get? k = none ↔ k ∉ d.keys := by
  rw [mem_keys_iff, Option.eq_none_iff_forall_ne_some]
  simp

lemma lookupEntry_eq_some {l : List (K × V)} (hl : (l.map Prod.fst).Nodup) {k : K} {v : V} :
    lookupEntry l k = some v ↔ (k, v) ∈ l := by
  induction l with
  | nil => simp [lookupEntry]
  | cons p rest ih =>
    obtain ⟨a, w⟩ := p
    obtain ⟨ha, hrest⟩ := List.nodup_cons.mp hl
    by_cases h : a = k
    · subst h
      have hnot : (a, v) ∉ rest := fun hm =>
        ha (List.mem_map.mpr ⟨(a, v), hm, rfl⟩)
      simp [lookupEntry, hnot, eq_comm]
    · simp [lookupEntry, h, ih hrest, Ne.symm h]

lemma get?_eq_some_iff {d : Dict K V} {k : K} {v : V} :
    d.get? k = some v ↔ (k, v) ∈ d.entries := lookupEntry_eq_some d.nodup

@[simp] lemma get?_empty (k : K) : (empty : Dict K V).get? k = none := rfl

def setEntry : List (K × V) → K → V → List (K × V)
  | [], k, v => [(k, v)]
  | (a, w) :: rest, k, v => if a = k then (k, v) :: rest else (a, w) :: setEntry rest k v

lemma setEntry_keys (l : List (K × V)) (k : K) (v : V) :
    (setEntry l k v).map Prod.fst =
      if k ∈ l.map Prod.fst then l.map Prod.fst else l.map Prod.fst ++ [k] := by
  induction l with
  | nil => simp [setEntry]
  | cons p rest ih =>
    obtain ⟨a, w⟩ := p
    by_cases h : a = k
    · simp [setEntry, h]
    · simp only [setEntry, h, if_false, List.map_cons, ih, List.mem_cons, Ne.symm h, false_or]
      split <;> rfl

lemma setEntry_absent {l : List (K × V)} {k : K} (h : k ∉ l.map Prod.fst) (v : V) :
    setEntry l k v = l ++ [(k, v)] := by
  induction l with
  | nil => rfl
  | cons p rest ih =>
    obtain ⟨a, w⟩ := p
    rw [List.map_cons, List.mem_cons, not_or] at h
    rw [setEntry, if_neg (Ne.symm h.1), ih h.2, List.cons_append]

/-- `d[k] = v`. -/
def set (d : Dict K V) (k : K) (v : V) : Dict K V where
  entries := setEntry d.entries k v
  nodup := by
    rw [setEntry_keys]
    split_ifs with h
    · exact d.nodup
    · exact List.nodup_append'.mpr ⟨d.nodup, List.nodup_singleton k,
        List.disjoint_singleton.mpr h⟩

lemma keys_set (d : Dict K V) (k : K) (v : V) :
    (d.set k v).keys = if k ∈ d.keys then d.keys else d.keys ++ [k] :=
  setEntry_keys d.entries k v

@[simp] lemma mem_keys_set {d : Dict K V} {k k' : K} {v : V} :
    k' ∈ (d.set k v).keys ↔ k' = k ∨ k' ∈ d.keys := by
  rw [keys_set]
  split_ifs with h
  · constructor
    · exact Or.inr
    · rintro (rfl | h')
      · exact h
      · exact h'
  · simp [or_comm]

lemma lookupEntry_setEntry (l : List (K × V)) (k k' : K) (v : V) :
    lookupEntry (setEntry l k v) k' = if k = k' then some v else lookupEntry l k' := by
  induction l with
  | nil => simp [setEntry, lookupEntry]
  | cons p rest ih =>
    obtain ⟨a, w⟩ := p
    by_cases h : a = k
    · by_cases hk : k = k' <;> simp [setEntry, lookupEntry, h, hk]
    · by_cases hk : k = k'
      · subst hk
        simp [setEntry, lookupEntry, h, ih]
      · simp only [setEntry, h, if_false, lookupEntry, ih, hk]

lemma get?_set (d : Dict K V) (k k' : K) (v : V) :
    (d.set k v).get? k' = if k = k' then some v else d.get? k' :=
  lookupEntry_setEntry d.entries k k' v

@[simp] lemma get?_set_self (d : Dict K V) (k : K) (v : V) : (d.set k v).get? k = some v := by
  simp [get?_set]

lemma get?_set_of_ne {k k' : K} (h : k ≠ k') (d : Dict K V) (v : V) :
    (d.set k v).get? k' = d.get? k' := by
  simp [get?_set, h]

/-- `d.pop(k, None)`, as far as the dictionary is concerned. -/
def erase (d : Dict K V) (k : K) : Dict K V where
  entries := d.entries.filter fun p => p.1 ≠ k
  nodup := d.nodup.sublist (List.filter_sublist.map Prod.fst)

lemma lookupEntry_filter (l : List (K × V)) (k k' : K) :
    lookupEntry (l.filter fun p => p.1 ≠ k) k' = if k = k' then none else lookupEntry l k' := by
  induction l with
  | nil => simp [lookupEntry]
  | cons p rest ih =>
    obtain ⟨a, w⟩ := p
    by_cases h : a = k
    · rw [List.filter_cons_of_neg (by simp [h]), ih]
      by_cases hk : k = k'
      · simp [hk]
      · simp [hk, lookupEntry, h]
    · rw [List.filter_cons_of_pos (by simp [h])]
      simp only [lookupEntry, ih]
      by_cases hk : k = k'
      · subst hk
        simp [h]
      · simp [hk]

lemma get?_erase (d : Dict K V) (k k' : K) :
    (d.erase k).get? k' = if k = k' then none else d.get? k' :=
  lookupEntry_filter d.entries k k'

@[simp] lemma get?_erase_self (d : Dict K V) (k : K) : (d.erase k).get? k = none := by
  simp [get?_erase]

lemma get?_erase_of_ne {k k' : K} (h : k ≠ k') (d : Dict K V) :
    (d.erase k).get? k' = d.get? k' := by
  simp [get?_erase, h]

@[simp] lemma mem_keys_erase {d : Dict K V} {k k' : K} :
    k' ∈ (d.erase k).keys ↔ k' ≠ k ∧ k' ∈ d.keys := by
  rw [mem_keys_iff, mem_keys_iff, get?_erase]
  by_cases h : k = k'
  · simp [h]
  · simp [h, Ne.symm h]

lemma keys_erase_eq_filter (d : Dict K V) (k : K) : (d.erase k).keys = d.keys.filter (· ≠ k) := by
  rw [keys, erase, keys, List.filter_map]
  rfl

lemma keys_erase (d : Dict K V) (k : K) : (d.erase k).keys = d.keys.erase k := by
  rw [keys_erase_eq_filter, d.keys_nodup.erase_eq_filter]
  refine List.filter_congr fun a _ => ?_
  by_cases h : a = k <;> simp [h]

lemma length_set_new {d : Dict K V} {k : K} (h : d.get? k = none) (v : V) :
    (d.set k v).entries.length = d.entries.length + 1 := by
  have hkeys := congrArg List.length (keys_set d k v)
  rw [if_neg (get?_eq_none_iff.mp h)] at hkeys
  simpa [keys] using hkeys

lemma length_set {d : Dict K V} {k : K} {w : V} (h : d.get? k = some w) (v : V) :
    (d.set k v).entries.length = d.entries.length := by
  have hkeys := congrArg List.length (keys_set d k v)
  rw [if_pos (mem_keys_iff.mpr ⟨w, h⟩)] at hkeys
  simpa [keys] using hkeys

lemma length_erase {d : Dict K V} {k : K} {w : V} (h : d.get? k = some w) :
    (d.erase k).entries.length + 1 = d.entries.length := by
  have hmem : k ∈ d.keys := mem_keys_iff.mpr ⟨w, h⟩
  have hperm := (List.perm_cons_erase hmem).length_eq
  rw [← keys_erase] at hperm
  simpa [keys] using hperm.symm

/-- `d[k]`. -/
def getItem (d : Dict K V) (k : K) : Except PyError V :=
  match d.get? k with
  | none => .error .keyError
  | some v => .ok v

@[simp] lemma getItem_eq_ok {d : Dict K V} {k : K} {v : V} :
    d.getItem k = .ok v ↔ d.get? k = some v := by
  unfold getItem
  cases d.get? k <;> simp

/-- `del d[k]`. -/
def delItem (d : Dict K V) (k : K) : Except PyError (Dict K V) :=
  if k ∈ d.keys then .ok (d.erase k) else .error .keyError

@[simp] lemma delItem_eq_ok {d d' : Dict K V} {k : K} :
    d.delItem k = .ok d' ↔ k ∈ d.keys ∧ d.erase k = d' := by
  unfold delItem
  split_ifs with h <;> simp [h]

/-- A dict comprehension: a repeated key keeps its last value. -/
def ofPairs (l : List (K × V)) : Dict K V := l.foldl (fun d p => d.set p.1 p.2) empty

lemma get?_foldl_set (l : List (K × V)) (d : Dict K V) (k : K) :
    (l.foldl (fun d p => d.set p.1 p.2) d).get? k =
      ((l.filter fun p => p.1 = k).getLast?.map Prod.snd).or (d.get? k) := by
  induction l generalizing d with
  | nil => simp
  | cons p rest ih =>
    rw [List.foldl_cons, ih, get?_set]
    by_cases h : p.1 = k
    · rw [List.filter_cons_of_pos (by simp [h]), List.getLast?_cons]
      cases (rest.filter fun p => p.1 = k).getLast? <;> simp [h]
    · rw [List.filter_cons_of_neg (by simp [h])]
      simp [h]

lemma get?_ofPairs (l : List (K × V)) (k : K) :
    (ofPairs l).get? k = (l.filter fun p => p.1 = k).getLast?.map Prod.snd := by
  rw [ofPairs, get?_foldl_set]
  simp

lemma mem_keys_ofPairs (l : List (K × V)) (k : K) :
    k ∈ (ofPairs l).keys ↔ k ∈ l.map Prod.fst := by
  rw [← not_iff_not, ← get?_eq_none_iff, get?_ofPairs, Option.map_eq_none_iff,
    List.getLast?_eq_none_iff, List.filter_eq_nil_iff]
  simp only [List.mem_map, decide_eq_true_eq, not_exists, not_and]

lemma entries_foldl_set (l : List (K × V)) (d : Dict K V)
    (h : ((d.entries ++ l).map Prod.fst).Nodup) :
    (l.foldl (fun d p => d.set p.1 p.2) d).entries = d.entries ++ l := by
  induction l generalizing d with
  | nil => simp
  | cons p rest ih =>
    have hset : (d.set p.1 p.2).entries = d.entries ++ [p] := by
      refine setEntry_absent (fun hmem => ?_) p.2
      rw [List.map_append, List.map_cons] at h
      exact (List.disjoint_of_nodup_append h) hmem List.mem_cons_self
    rw [List.foldl_cons, ih _ (by rw [hset]; simpa using h), hset]
    simp

/-- The entries of a dictionary build it again. -/
lemma ofPairs_entries (d : Dict K V) : ofPairs d.entries = d := by
  have hentries := entries_foldl_set d.entries empty d.nodup
  obtain ⟨entries, nodup⟩ := d
  exact Dict.mk.injEq .. ▸ hentries

section Sum

variable {M : Type*} [AddCommMonoid M]

/-- The sum of `f` over the values. -/
def sumBy (f : V → M) (d : Dict K V) : M := (d.entries.map fun p => f p.2).sum

/-- What the key `k` contributes to the sum. -/
def part (f : V → M) (d : Dict K V) (k : K) : M := ((d.get? k).map f).getD 0

omit [DecidableEq K] in
@[simp] lemma sumBy_empty (f : V → M) : sumBy f (empty : Dict K V) = 0 := rfl

lemma sum_setEntry (f : V → M) {l : List (K × V)} (k : K) (v : V) :
    ((setEntry l k v).map fun p => f p.2).sum + ((lookupEntry l k).map f).getD 0 =
      (l.map fun p => f p.2).sum + f v := by
  induction l with
  | nil => simp [setEntry, lookupEntry]
  | cons p rest ih =>
    obtain ⟨a, w⟩ := p
    by_cases h : a = k
    · simp [setEntry, lookupEntry, h, add_comm, add_left_comm]
    · simp only [setEntry, lookupEntry, h, if_false, List.map_cons, List.sum_cons, add_assoc, ih]

lemma sumBy_set (f : V → M) (d : Dict K V) (k : K) (v : V) :
    sumBy f (d.set k v) + d.part f k = sumBy f d + f v := sum_setEntry f k v

lemma sum_filter_entries (f : V → M) {l : List (K × V)} (hl : (l.map Prod.fst).Nodup) (k : K) :
    ((l.filter fun p => p.1 ≠ k).map fun p => f p.2).sum + ((lookupEntry l k).map f).getD 0 =
      (l.map fun p => f p.2).sum := by
  induction l with
  | nil => simp [lookupEntry]
  | cons p rest ih =>
    obtain ⟨a, w⟩ := p
    obtain ⟨ha, hrest⟩ := List.nodup_cons.mp hl
    by_cases h : a = k
    · subst h
      have hself : (rest.filter fun p => p.1 ≠ a) = rest := by
        rw [List.filter_eq_self]
        intro q hq
        have : q.1 ≠ a := fun hqa => ha (List.mem_map.mpr ⟨q, hq, hqa⟩)
        simp [this]
      rw [List.filter_cons_of_neg (by simp), hself]
      simp [lookupEntry, add_comm]
    · rw [List.filter_cons_of_pos (by simp [h])]
      simp only [lookupEntry, h, if_false, List.map_cons, List.sum_cons, add_assoc, ih hrest]

lemma sumBy_erase (f : V → M) (d : Dict K V) (k : K) :
    sumBy f (d.erase k) + d.part f k = sumBy f d := sum_filter_entries f d.nodup k

omit [DecidableEq K] in
lemma values_sum (d : Dict K M) : d.values.sum = sumBy id d := rfl

/-- The sum of `f` over the keys. -/
def sumKeys (f : K → M) (d : Dict K V) : M := (d.keys.map f).sum

omit [DecidableEq K] in
@[simp] lemma sumKeys_empty (f : K → M) : sumKeys f (empty : Dict K V) = 0 := rfl

lemma sumKeys_set_of_mem (f : K → M) {d : Dict K V} {k : K} (h : k ∈ d.keys) (v : V) :
    sumKeys f (d.set k v) = sumKeys f d := by
  rw [sumKeys, keys_set, if_pos h, sumKeys]

lemma sumKeys_set_of_not_mem (f : K → M) {d : Dict K V} {k : K} (h : k ∉ d.keys) (v : V) :
    sumKeys f (d.set k v) = sumKeys f d + f k := by
  rw [sumKeys, keys_set, if_neg h, List.map_append, List.sum_append, sumKeys]
  simp

lemma sumKeys_erase (f : K → M) {d : Dict K V} {k : K} (h : k ∈ d.keys) :
    f k + sumKeys f (d.erase k) = sumKeys f d := by
  rw [sumKeys, keys_erase]
  exact List.sum_map_erase f h

end Sum

end Dict

end Python
