import Mathlib.Algebra.BigOperators.Group.List.Basic
import Mathlib.Algebra.GroupWithZero.Nat
import Mathlib.Algebra.Order.Group.Nat
import Mathlib.Data.List.Dedup
import Mathlib.Data.List.Nodup
import VllmMmaEmu.Library.Dict
import VllmMmaEmu.Library.LruWindow

/-!
# LRU caches of bounded size

`LRUCache` of `cachetools`: every value has a size, and a new value evicts the least recently
used entries until it fits. What a cache evicts only depends on the keys and sizes it holds, so
caches of the same shape stay of the same shape under the same operations.
-/

namespace Python

universe u v w

/-- The entries, least recently used first. -/
structure LRUCache (K : Type u) (V : Type v) (size : V → Nat) where
  entries : Dict K V
  maxsize : Nat
  fits : entries.sumBy size ≤ maxsize

namespace LRUCache

variable {K : Type u} {V : Type v} {size : V → Nat}

def empty (maxsize : Nat) : LRUCache K V size := ⟨Dict.empty, maxsize, Nat.zero_le _⟩

/-- The loop of evictions that makes room for a value of size `n`. -/
def evictFrom (size : V → Nat) (maxsize n : Nat) : List (K × V) → List (K × V)
  | [] => []
  | p :: rest =>
    if ((p :: rest).map fun q => size q.2).sum + n > maxsize then evictFrom size maxsize n rest
    else p :: rest

lemma evictFrom_suffix (maxsize n : Nat) (l : List (K × V)) : evictFrom size maxsize n l <:+ l := by
  induction l with
  | nil => exact List.suffix_refl _
  | cons p rest ih =>
    rw [evictFrom]
    split_ifs
    · exact ih.trans (List.suffix_cons p rest)
    · exact List.suffix_refl _

lemma evictFrom_fits {maxsize n : Nat} (hn : n ≤ maxsize) (l : List (K × V)) :
    ((evictFrom size maxsize n l).map fun q => size q.2).sum + n ≤ maxsize := by
  induction l with
  | nil => simpa [evictFrom] using hn
  | cons p rest ih =>
    rw [evictFrom]
    split_ifs with h
    · exact ih
    · exact not_lt.mp h

/-- The entries after the evictions. -/
def evict (c : LRUCache K V size) (n : Nat) : Dict K V where
  entries := evictFrom size c.maxsize n c.entries.entries
  nodup := List.Nodup.sublist
    ((evictFrom_suffix c.maxsize n c.entries.entries).sublist.map Prod.fst) c.entries.nodup

variable [DecidableEq K]

lemma sumBy_moveToEnd (d : Dict K V) (f : V → Nat) (k : K) (v : V) :
    ((d.erase k).set k v).sumBy f + d.part f k = d.sumBy f + f v := by
  have hset := (d.erase k).sumBy_set f k v
  have herase := d.sumBy_erase f k
  have hnone : (d.erase k).part f k = 0 := by simp [Dict.part]
  omega

/-- `key in cache`, which uses nothing. -/
def contains (c : LRUCache K V size) (k : K) : Bool := k ∈ c.entries.keys

/-- `get`: the entry becomes the most recently used one. -/
def get (c : LRUCache K V size) (k : K) : Option V × LRUCache K V size :=
  match h : c.entries.get? k with
  | none => (none, c)
  | some v => (some v, {
      entries := (c.entries.erase k).set k v
      maxsize := c.maxsize
      fits := by
        have hmove := sumBy_moveToEnd c.entries size k v
        have hpart : c.entries.part size k = size v := by simp [Dict.part, h]
        have := c.fits
        omega })

/-- `cache[key] = value`. -/
def setItem (c : LRUCache K V size) (k : K) (v : V) : Except PyError (LRUCache K V size) :=
  if hsize : size v > c.maxsize then .error (.valueError "value too large")
  else if hold : (c.entries.get? k).any fun w => size v ≤ size w then
    .ok {
      entries := (c.entries.erase k).set k v
      maxsize := c.maxsize
      fits := by
        obtain ⟨w, hw, hle⟩ := (Option.any_eq_true _ _).mp hold
        have hmove := sumBy_moveToEnd c.entries size k v
        have hpart : c.entries.part size k = size w := by simp [Dict.part, hw]
        have hle := of_decide_eq_true hle
        have := c.fits
        omega }
  else
    .ok {
      entries := ((c.evict (size v)).erase k).set k v
      maxsize := c.maxsize
      fits := by
        have hmove := sumBy_moveToEnd (c.evict (size v)) size k v
        have hroom : (c.evict (size v)).sumBy size + size v ≤ c.maxsize :=
          evictFrom_fits (not_lt.mp hsize) c.entries.entries
        omega }

/-- The keys with the sizes of their values, least recently used first. -/
def shape (c : LRUCache K V size) : List (K × Nat) := c.entries.entries.map fun p => (p.1, size p.2)

variable {W : Type w} {size' : W → Nat} {c : LRUCache K V size} {c' : LRUCache K W size'}

/-- Two caches have the same entries, as far as keys and sizes go. -/
structure SameShape (c : LRUCache K V size) (c' : LRUCache K W size') : Prop where
  shape : c.shape = c'.shape
  maxsize : c.maxsize = c'.maxsize

omit [DecidableEq K] in
lemma SameShape.keys (h : SameShape c c') : c.entries.keys = c'.entries.keys := by
  have hkeys := congrArg (List.map Prod.fst) h.shape
  rw [LRUCache.shape, LRUCache.shape, List.map_map, List.map_map] at hkeys
  exact hkeys

lemma lookupEntry_shape (l : List (K × V)) (k : K) :
    Dict.lookupEntry (l.map fun p => (p.1, size p.2)) k = (Dict.lookupEntry l k).map size := by
  induction l with
  | nil => rfl
  | cons p rest ih =>
    simp only [List.map_cons, Dict.lookupEntry, ih]
    split_ifs <;> rfl

lemma SameShape.get? (h : SameShape c c') (k : K) :
    (c.entries.get? k).map size = (c'.entries.get? k).map size' := by
  have hshape := congrArg (Dict.lookupEntry · k) h.shape
  simp only [LRUCache.shape, lookupEntry_shape] at hshape
  exact hshape

lemma moveToEnd_entries (d : Dict K V) (k : K) (v : V) :
    ((d.erase k).set k v).entries = (d.entries.filter fun p => p.1 ≠ k) ++ [(k, v)] :=
  Dict.setEntry_absent (l := d.entries.filter fun p => p.1 ≠ k) (by simp) v

lemma keys_moveToEnd (d : Dict K V) (k : K) (v : V) :
    ((d.erase k).set k v).keys = d.keys.erase k ++ [k] := by
  rw [Dict.keys_set, if_neg (by simp), Dict.keys_erase]

lemma shape_moveToEnd (l : List (K × V)) (k : K) (v : V) :
    ((l.filter fun p => p.1 ≠ k) ++ [(k, v)]).map (fun p => (p.1, size p.2)) =
      ((l.map fun p => (p.1, size p.2)).filter fun p => p.1 ≠ k) ++ [(k, size v)] := by
  rw [List.map_append, List.filter_map]
  rfl

omit [DecidableEq K] in
lemma shape_evictFrom (maxsize n : Nat) (l : List (K × V)) :
    (evictFrom size maxsize n l).map (fun p => (p.1, size p.2)) =
      evictFrom id maxsize n (l.map fun p => (p.1, size p.2)) := by
  induction l with
  | nil => rfl
  | cons p rest ih =>
    rw [List.map_cons, evictFrom, evictFrom]
    simp only [List.map_cons, List.map_map, Function.comp_def, id]
    split_ifs
    · exact ih
    · rfl

lemma get_of_none {k : K} (h : c.entries.get? k = none) : c.get k = (none, c) := by
  unfold LRUCache.get
  split
  · rfl
  · simp_all

lemma get_of_some {k : K} {v : V} (h : c.entries.get? k = some v) :
    (c.get k).1 = some v ∧ (c.get k).2.entries = (c.entries.erase k).set k v ∧
      (c.get k).2.maxsize = c.maxsize := by
  unfold LRUCache.get
  split
  · simp_all
  · simp_all

/-- A lookup keeps two caches of the same shape. -/
lemma SameShape.get (h : SameShape c c') (k : K) :
    (c.get k).1.isSome = (c'.get k).1.isSome ∧ SameShape (c.get k).2 (c'.get k).2 := by
  have hget := h.get? k
  cases hv : c.entries.get? k with
  | none =>
    rw [hv, Option.map_none, eq_comm, Option.map_eq_none_iff] at hget
    rw [get_of_none hv, get_of_none hget]
    exact ⟨rfl, h⟩
  | some v =>
    rw [hv, Option.map_some, eq_comm, Option.map_eq_some_iff] at hget
    obtain ⟨w, hw, hsize⟩ := hget
    obtain ⟨hout, hentries, hmax⟩ := get_of_some hv
    obtain ⟨hout', hentries', hmax'⟩ := get_of_some hw
    refine ⟨by rw [hout, hout']; rfl, ⟨?_, by rw [hmax, hmax', h.maxsize]⟩⟩
    rw [LRUCache.shape, LRUCache.shape, hentries, hentries', moveToEnd_entries, moveToEnd_entries,
      shape_moveToEnd, shape_moveToEnd, hsize]
    exact congrArg (· ++ _) (congrArg _ h.shape)

lemma setItem_eq_error {k : K} {v : V} (h : size v > c.maxsize) :
    c.setItem k v = .error (.valueError "value too large") := dif_pos h

/-- The entries that are left when the value of a key is assigned. -/
def kept (c : LRUCache K V size) (k : K) (n : Nat) : Dict K V :=
  if (c.entries.get? k).any fun w => n ≤ size w then c.entries else c.evict n

lemma setItem_eq_ok {k : K} {v : V} (h : size v ≤ c.maxsize) :
    ∃ d, c.setItem k v = .ok d ∧ d.entries = ((c.kept k (size v)).erase k).set k v ∧
      d.maxsize = c.maxsize := by
  unfold LRUCache.setItem kept
  rw [dif_neg (not_lt.mpr h)]
  split_ifs with hold
  · exact ⟨_, rfl, rfl, rfl⟩
  · exact ⟨_, rfl, rfl, rfl⟩

lemma SameShape.kept (h : SameShape c c') (k : K) (n : Nat) :
    (c.kept k n).entries.map (fun p => (p.1, size p.2)) =
      (c'.kept k n).entries.map fun p => (p.1, size' p.2) := by
  have hany := congrArg (Option.any fun m => decide (n ≤ m)) (h.get? k)
  rw [Option.any_map, Option.any_map] at hany
  unfold LRUCache.kept
  rw [hany]
  split_ifs
  · exact h.shape
  · unfold LRUCache.evict
    simp only [shape_evictFrom, h.maxsize]
    exact congrArg _ h.shape

/-- So does an assignment of values of the same size, which fails in both or in none. -/
lemma SameShape.setItem (h : SameShape c c') (k : K) {v : V} {w : W} (hsize : size v = size' w)
    {d : LRUCache K V size} (hrun : c.setItem k v = .ok d) :
    ∃ d', c'.setItem k w = .ok d' ∧ SameShape d d' := by
  have hfit : size v ≤ c.maxsize := by
    by_contra htoo
    rw [setItem_eq_error (not_le.mp htoo)] at hrun
    cases hrun
  obtain ⟨e, he, hentries, hmax⟩ := setItem_eq_ok (k := k) hfit
  obtain rfl := Except.ok.inj (he.symm.trans hrun)
  obtain ⟨d', hd', hentries', hmax'⟩ := setItem_eq_ok (c := c') (k := k) (hsize ▸ h.maxsize ▸ hfit)
  refine ⟨d', hd', ⟨?_, by rw [hmax, hmax', h.maxsize]⟩⟩
  rw [LRUCache.shape, LRUCache.shape, hentries, hentries', moveToEnd_entries, moveToEnd_entries,
    shape_moveToEnd, shape_moveToEnd, hsize, h.kept]

end LRUCache

end Python
