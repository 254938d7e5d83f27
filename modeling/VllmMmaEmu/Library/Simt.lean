import Mathlib.Data.List.Nodup
import Mathlib.Data.List.Perm.Basic
import Mathlib.Data.List.Range
import Mathlib.Logic.Function.Basic
import Mathlib.Order.Basic
import Mathlib.Tactic.Ring
import Mathlib.Tactic.Linarith

/-!
# Barrier-separated phases of a thread block

Between two barriers the threads of a block store to a memory without reading
it. Their stores may happen in any order, which a `Schedule` picks; when no
address is stored to twice the order does not matter. Thread loops hand out the
indices of an array in strides.
-/

namespace Simt

variable {α β : Type}

/-- The order in which the stores of a phase take effect. -/
structure Schedule where
  order : {α : Type} → List α → List α
  perm : ∀ {α : Type} (l : List α), (order l).Perm l

def Schedule.inOrder : Schedule where
  order := fun l => l
  perm := List.Perm.refl

/-- Memory after a list of stores. -/
def storeAll (mem : ℕ → α) (stores : List (ℕ × α)) : ℕ → α :=
  stores.foldl (fun m s => Function.update m s.1 s.2) mem

/-- Memory after a phase. -/
def phase (sched : Schedule) (mem : ℕ → α) (stores : List (ℕ × α)) : ℕ → α :=
  storeAll mem (sched.order stores)

lemma storeAll_of_not_mem {stores : List (ℕ × α)} {address : ℕ}
    (h : address ∉ stores.map Prod.fst) (mem : ℕ → α) : storeAll mem stores address = mem address := by
  induction stores generalizing mem with
  | nil => rfl
  | cons s stores ih =>
    rw [List.map_cons, List.mem_cons, not_or] at h
    exact (ih h.2 _).trans (Function.update_of_ne h.1 _ _)

lemma storeAll_of_mem {stores : List (ℕ × α)} (hnodup : (stores.map Prod.fst).Nodup)
    {address : ℕ} {x : α} (h : (address, x) ∈ stores) (mem : ℕ → α) :
    storeAll mem stores address = x := by
  induction stores generalizing mem with
  | nil => cases h
  | cons s stores ih =>
    rw [List.map_cons, List.nodup_cons] at hnodup
    rcases List.mem_cons.mp h with rfl | h
    · exact (storeAll_of_not_mem hnodup.1 _).trans (Function.update_self _ _ _)
    · exact ih hnodup.2 h _

/-- Without two stores to one address every order of a phase stores the same values. -/
theorem phase_of_mem {stores : List (ℕ × α)} (hnodup : (stores.map Prod.fst).Nodup) {address : ℕ}
    {x : α} (h : (address, x) ∈ stores) (sched : Schedule) (mem : ℕ → α) :
    phase sched mem stores address = x := by
  have hperm := sched.perm stores
  exact storeAll_of_mem ((hperm.map Prod.fst).nodup_iff.mpr hnodup) (hperm.mem_iff.mpr h) mem

/-- `for (i = 0; i < ceil(S / T); i++) { idx = tid + i * T; if (idx < S) ... }` -/
def unrolledIndices (S T tid : ℕ) : List ℕ :=
  ((List.range ((S + T - 1) / T)).map fun i => tid + i * T).filter (· < S)

/-- `for (idx = tid; idx < S; idx += T) ...` -/
def strideIndices (S T tid : ℕ) : List ℕ := List.range' tid ((S - tid + T - 1) / T) T

/-- Work of all `T` threads of a block. -/
def perThread (T : ℕ) (indices : ℕ → List ℕ) (work : ℕ → List β) : List β :=
  (List.range T).flatMap fun tid => (indices tid).flatMap work

/-- Thread `tid` visits the indices below `S` of its own residue, each once. -/
structure Covers (S T : ℕ) (indices : ℕ → List ℕ) : Prop where
  pos : 0 < T
  mem_iff : ∀ tid < T, ∀ idx, idx ∈ indices tid ↔ idx < S ∧ idx % T = tid
  nodup : ∀ tid < T, (indices tid).Nodup

lemma covers_unrolledIndices (S : ℕ) {T : ℕ} (hT : 0 < T) : Covers S T (unrolledIndices S T) := by
  refine ⟨hT, ?_, ?_⟩
  · intro tid htid idx
    simp only [unrolledIndices, List.mem_filter, List.mem_map, List.mem_range, decide_eq_true_eq]
    constructor
    · rintro ⟨⟨i, -, rfl⟩, hlt⟩
      exact ⟨hlt, by rw [Nat.add_mul_mod_self_right, Nat.mod_eq_of_lt htid]⟩
    · rintro ⟨hlt, rfl⟩
      refine ⟨⟨idx / T, ?_, ?_⟩, hlt⟩
      · rw [Nat.lt_div_iff_mul_lt hT]
        have := Nat.div_mul_le_self idx T
        omega
      · rw [Nat.mul_comm, Nat.mod_add_div]
  · intro tid _
    apply List.Nodup.filter
    apply List.Nodup.map _ List.nodup_range
    intro i j hij
    have hmul : i * T = j * T := by simpa using hij
    exact Nat.eq_of_mul_eq_mul_right hT hmul

lemma covers_strideIndices (S : ℕ) {T : ℕ} (hT : 0 < T) : Covers S T (strideIndices S T) := by
  refine ⟨hT, ?_, fun tid _ => List.nodup_range' T hT⟩
  intro tid htid idx
  simp only [strideIndices, List.mem_range']
  constructor
  · rintro ⟨i, hi, rfl⟩
    rw [Nat.lt_div_iff_mul_lt hT] at hi
    refine ⟨?_, by rw [Nat.add_mul_mod_self_left, Nat.mod_eq_of_lt htid]⟩
    rw [Nat.mul_comm] at hi
    omega
  · rintro ⟨hlt, rfl⟩
    have hdiv := Nat.mod_add_div idx T
    refine ⟨idx / T, ?_, hdiv.symm⟩
    rw [Nat.lt_div_iff_mul_lt hT, Nat.mul_comm]
    omega

/-- Elements that remember the index they come from make a list without duplicates. -/
lemma nodup_flatMap_of_key {ι γ : Type*} {l : List ι} (hl : l.Nodup) {f : ι → List γ} (key : γ → ι)
    (hnodup : ∀ i ∈ l, (f i).Nodup) (hkey : ∀ i ∈ l, ∀ x ∈ f i, key x = i) :
    (l.flatMap f).Nodup := by
  rw [List.nodup_flatMap]
  refine ⟨hnodup, List.Nodup.pairwise_of_forall_ne hl ?_⟩
  intro i hi j hj hne x h h'
  have hfrom := hkey i hi x h
  have hfrom' := hkey j hj x h'
  exact hne (hfrom.symm.trans hfrom')

section Fill
variable {S T : ℕ} {indices : ℕ → List ℕ} (cover : Covers S T indices)
include cover

/-- Loops that visit the indices of one residue each visit every index once between them. -/
theorem perThread_perm (work : ℕ → List β) :
    (perThread T indices work).Perm ((List.range S).flatMap work) := by
  have hindices : ((List.range T).flatMap indices).Perm (List.range S) := by
    rw [List.perm_ext_iff_of_nodup _ List.nodup_range]
    · intro idx
      simp only [List.mem_flatMap, List.mem_range]
      constructor
      · rintro ⟨tid, htid, h⟩
        exact ((cover.mem_iff tid htid idx).mp h).1
      · intro h
        have htid := Nat.mod_lt idx cover.pos
        exact ⟨idx % T, htid, (cover.mem_iff _ htid idx).mpr ⟨h, rfl⟩⟩
    · exact nodup_flatMap_of_key List.nodup_range (· % T)
        (fun tid htid => cover.nodup tid (List.mem_range.mp htid))
        (fun tid htid idx h => ((cover.mem_iff tid (List.mem_range.mp htid) idx).mp h).2)
  rw [perThread, ← List.flatMap_assoc]
  exact hindices.flatMap_right work

lemma mem_perThread {work : ℕ → List β} {x : β} :
    x ∈ perThread T indices work ↔ ∃ idx < S, x ∈ work idx := by
  rw [(perThread_perm cover work).mem_iff, List.mem_flatMap]
  simp only [List.mem_range]

/-- After a phase in which threads share the work over `S` indices, every store is visible
when each address is stored to by one index, once. -/
theorem phase_perThread {work : ℕ → List (ℕ × α)} (key : ℕ → ℕ)
    (hnodup : ∀ idx < S, ((work idx).map Prod.fst).Nodup)
    (hkey : ∀ idx < S, ∀ s ∈ work idx, key s.1 = idx) {idx address : ℕ} {x : α} (hidx : idx < S)
    (h : (address, x) ∈ work idx) (sched : Schedule) (mem : ℕ → α) :
    phase sched mem (perThread T indices work) address = x := by
  have hperm := perThread_perm cover work
  apply phase_of_mem
  · rw [(hperm.map Prod.fst).nodup_iff, List.map_flatMap]
    refine nodup_flatMap_of_key List.nodup_range key ?_ ?_
    · exact fun idx hidx => hnodup idx (List.mem_range.mp hidx)
    · intro idx hidx address haddress
      obtain ⟨s, hs, rfl⟩ := List.mem_map.mp haddress
      exact hkey idx (List.mem_range.mp hidx) s hs
  · rw [hperm.mem_iff, List.mem_flatMap]
    exact ⟨idx, List.mem_range.mpr hidx, h⟩

/-- The common case of one store for each index. -/
theorem phase_perThread_single (store : ℕ → ℕ × α) (key : ℕ → ℕ)
    (hkey : ∀ idx < S, key (store idx).1 = idx) {idx : ℕ} (hidx : idx < S) (sched : Schedule)
    (mem : ℕ → α) :
    phase sched mem (perThread T indices fun idx => [store idx]) (store idx).1 = (store idx).2 := by
  refine phase_perThread cover key ?_ ?_ hidx List.mem_cons_self sched mem
  · exact fun _ _ => List.nodup_singleton _
  · intro idx hidx s hs
    rw [List.mem_singleton.mp hs]
    exact hkey idx hidx

end Fill

/-- `for (k = 0; k < bound; k += step)` -/
def stepLoop (bound step : ℕ) : List ℕ := List.range' 0 ((bound + step - 1) / step) step

lemma stepLoop_eq (bound step : ℕ) :
    stepLoop bound step = (List.range ((bound + step - 1) / step)).map (· * step) := by
  apply List.ext_getElem
  · simp [stepLoop]
  · intro i _ _
    simp [stepLoop, Nat.mul_comm step]

/-- Tiles of `q` chunks, the last one cut off, visit `n` chunks in order. -/
lemma flatMap_range_min (t q n : ℕ) :
    (List.range t).flatMap (fun i => (List.range (min q (n - i * q))).map (i * q + ·)) =
      List.range (min (t * q) n) := by
  induction t with
  | zero => simp
  | succ t ih =>
    have hsplit : min ((t + 1) * q) n = min (t * q) n + min q (n - t * q) := by
      rw [Nat.add_mul, Nat.one_mul]
      omega
    rw [List.range_succ, List.flatMap_append, ih, hsplit, List.range_add, List.flatMap_singleton]
    rcases Nat.le_total (t * q) n with h | h
    · rw [Nat.min_eq_left h]
    · rw [Nat.sub_eq_zero_of_le h, Nat.min_zero]
      rfl

lemma foldl_foldl_range {γ : Type*} (f : γ → ℕ → γ) (t q n : ℕ) (init : γ) :
    (List.range t).foldl
        (fun acc i => (List.range (min q (n - i * q))).foldl (fun acc j => f acc (i * q + j)) acc)
        init =
      (List.range (min (t * q) n)).foldl f init := by
  rw [← flatMap_range_min, List.foldl_flatMap]
  simp only [List.foldl_map]

/-- Rounding up is adjoint to multiplication. -/
lemma ceil_le_iff {c : ℕ} (hc : 0 < c) (x d : ℕ) : (x + c - 1) / c ≤ d ↔ x ≤ d * c := by
  rw [Nat.div_le_iff_le_mul_add_pred hc, Nat.mul_comm]
  omega

lemma div_lt_ceil {c x k : ℕ} (hc : 0 < c) (hk : k < x) : k / c < (x + c - 1) / c := by
  rw [← not_le, ceil_le_iff hc, not_le]
  exact lt_of_le_of_lt (Nat.div_mul_le_self k c) hk

lemma ceil_min_sub {c : ℕ} (hc : 0 < c) (q i K : ℕ) :
    (min (q * c) (K - i * (q * c)) + c - 1) / c = min q ((K + c - 1) / c - i * q) := by
  apply eq_of_forall_ge_iff
  intro d
  have hi : i * (q * c) = i * q * c := (Nat.mul_assoc i q c).symm
  rw [ceil_le_iff hc, min_le_iff, min_le_iff, Nat.sub_le_iff_le_add, Nat.sub_le_iff_le_add,
    ceil_le_iff hc, Nat.add_mul, hi, Nat.mul_le_mul_right_iff hc]

/-- A chunk loop inside a tile loop is one loop over the chunks. -/
theorem foldl_stepLoop {γ : Type*} {tile chunk : ℕ} (hchunk : 0 < chunk) (hdvd : chunk ∣ tile)
    (htile : 0 < tile) (f : γ → ℕ → γ) (K : ℕ) (init : γ) :
    (stepLoop K tile).foldl
        (fun acc k => (stepLoop (min tile (K - k)) chunk).foldl (fun acc s => f acc (k + s)) acc)
        init =
      (stepLoop K chunk).foldl f init := by
  obtain ⟨q, rfl⟩ := hdvd
  rw [Nat.mul_comm chunk q] at htile ⊢
  have hle : (K + chunk - 1) / chunk ≤ (K + q * chunk - 1) / (q * chunk) * q := by
    rw [ceil_le_iff hchunk, Nat.mul_assoc]
    exact (ceil_le_iff htile K _).mp le_rfl
  have hflat := foldl_foldl_range (fun acc j => f acc (j * chunk))
    ((K + q * chunk - 1) / (q * chunk)) q ((K + chunk - 1) / chunk) init
  rw [Nat.min_eq_right hle] at hflat
  simp only [stepLoop_eq, List.foldl_map]
  rw [← hflat]
  apply List.foldl_ext
  intro acc i _
  rw [ceil_min_sub hchunk]
  simp only [Nat.add_mul, Nat.mul_assoc]

lemma mem_stepLoop {bound step s : ℕ} (hstep : 0 < step) (h : s ∈ stepLoop bound step) :
    s < bound ∧ ∃ j, s = j * step := by
  rw [stepLoop_eq] at h
  obtain ⟨j, hj, rfl⟩ := List.mem_map.mp h
  refine ⟨?_, j, rfl⟩
  by_contra hle
  have := (ceil_le_iff hstep bound j).mpr (not_lt.mp hle)
  have := List.mem_range.mp hj
  omega

lemma div_mul_mem_stepLoop {bound step k : ℕ} (hstep : 0 < step) (hk : k < bound) :
    k / step * step ∈ stepLoop bound step := by
  rw [stepLoop_eq]
  exact List.mem_map.mpr ⟨k / step, List.mem_range.mpr (div_lt_ceil hstep hk), rfl⟩

/-- A chunk that starts in a tile ends in it. -/
lemma add_le_of_mem_stepLoop {bound tile chunk s : ℕ} (hchunk : 0 < chunk) (hdvd : chunk ∣ tile)
    (hle : bound ≤ tile) (h : s ∈ stepLoop bound chunk) : s + chunk ≤ tile := by
  obtain ⟨hlt, j, rfl⟩ := mem_stepLoop hchunk h
  obtain ⟨q, rfl⟩ := hdvd
  rw [Nat.mul_comm chunk q] at hle ⊢
  have hj : j < q := Nat.lt_of_mul_lt_mul_right (lt_of_lt_of_le hlt hle)
  calc j * chunk + chunk = (j + 1) * chunk := by ring
    _ ≤ q * chunk := Nat.mul_le_mul_right chunk hj

/-- A longer loop runs the shorter one first. -/
lemma stepLoop_append {K K' step : ℕ} (hstep : 0 < step) (hle : K ≤ K') :
    ∃ rest, stepLoop K' step = stepLoop K step ++ rest ∧ ∀ s ∈ rest, K ≤ s := by
  have hcount : (K + step - 1) / step ≤ (K' + step - 1) / step := Nat.div_le_div_right (by omega)
  obtain ⟨d, hd⟩ := Nat.exists_eq_add_of_le hcount
  refine ⟨((List.range d).map ((K + step - 1) / step + ·)).map (· * step), ?_, ?_⟩
  · rw [stepLoop_eq, stepLoop_eq, hd, List.range_add, List.map_append]
  · intro s hs
    simp only [List.mem_map, List.mem_range] at hs
    obtain ⟨j, ⟨i, -, rfl⟩, rfl⟩ := hs
    exact (ceil_le_iff hstep K _).mp (Nat.le_add_right _ _)

/-- With full chunk loops the last tile also runs chunks that start past the end. -/
theorem foldl_stepLoop_full {γ : Type*} {tile chunk : ℕ} (hchunk : 0 < chunk) (hdvd : chunk ∣ tile)
    (htile : 0 < tile) (f : γ → ℕ → γ) (K : ℕ) (init : γ) :
    ∃ rest : List ℕ, (∀ s ∈ rest, K ≤ s) ∧
    (stepLoop K tile).foldl
        (fun acc k => (stepLoop tile chunk).foldl (fun acc s => f acc (k + s)) acc) init =
      rest.foldl f ((stepLoop K chunk).foldl f init) := by
  set K' := (K + tile - 1) / tile * tile with hK'
  have hle : K ≤ K' := (ceil_le_iff htile K _).mp le_rfl
  have hceil : (K' + tile - 1) / tile = (K + tile - 1) / tile := by
    apply eq_of_forall_ge_iff
    intro d
    rw [ceil_le_iff htile, hK', Nat.mul_le_mul_right_iff htile]
  obtain ⟨rest, happend, hrest⟩ := stepLoop_append hchunk hle
  refine ⟨rest, hrest, ?_⟩
  rw [← List.foldl_append, ← happend, ← foldl_stepLoop hchunk hdvd htile, stepLoop_eq K tile,
    stepLoop_eq K' tile, hceil]
  apply List.foldl_ext
  intro acc k hk
  obtain ⟨i, hi, rfl⟩ := List.mem_map.mp hk
  have hfull : (i + 1) * tile ≤ K' := Nat.mul_le_mul_right tile (List.mem_range.mp hi)
  rw [Nat.min_eq_left (by rw [Nat.add_mul] at hfull; omega)]

end Simt
