import Mathlib.Data.List.Nodup
import VllmMmaEmu.Library.Dict
import VllmMmaEmu.Library.Rows

/-!
# Rows with holes

Occupants take rows below a bound. A row that is left becomes a hole, a hole is filled by a
new occupant, and at the end the occupants of the last rows move down into the holes that
remain, until the rows below the number of occupants are the occupied ones.

A list with empty entries is read as rows, and a dictionary that maps names to rows is the
inverse of the rows' names. Both follow the changes of the rows.
-/

namespace Rows

open Python

universe u v

section

variable {R : Type v}

/-- Below `stop` there are `n` occupants, and the empty rows there are among the holes. -/
structure Holes (rows : Nat → Option R) (stop n : Nat) (holes : List Nat) : Prop where
  nodup : holes.Nodup
  outside : ∀ i, stop ≤ i → rows i = none
  empty : ∀ i, i < stop → (rows i = none ↔ i ∈ holes)
  count : n + (holes.filter (· < stop)).length = stop

/-- Exactly the first `n` rows are taken. -/
def Full (rows : Nat → Option R) (n : Nat) : Prop := ∀ i, rows i = none ↔ n ≤ i

variable {rows : Nat → Option R} {stop n i e : Nat} {holes holes' : List Nat} {r : R}

lemma filter_lt_succ_of_not_mem (h : stop ∉ holes) :
    holes.filter (· < stop + 1) = holes.filter (· < stop) := by
  refine List.filter_congr fun i hi => ?_
  have hne : i ≠ stop := fun heq => h (heq ▸ hi)
  simp only [decide_eq_decide]
  omega

lemma length_filter_lt_succ_of_mem (hnodup : holes.Nodup) (h : stop ∈ holes) :
    (holes.filter (· < stop + 1)).length = (holes.filter (· < stop)).length + 1 := by
  obtain ⟨before, after, rfl⟩ := List.append_of_mem h
  have hsplit := List.nodup_middle.mp hnodup
  obtain ⟨hnot, -⟩ := List.nodup_cons.mp hsplit
  rw [List.mem_append, not_or] at hnot
  rw [List.filter_append, List.filter_append, List.filter_cons_of_pos (by simp),
    List.filter_cons_of_neg (by simp), filter_lt_succ_of_not_mem hnot.1,
    filter_lt_succ_of_not_mem hnot.2]
  simp only [List.length_append, List.length_cons]
  omega

lemma Full.isSome_iff (h : Full rows n) : (∃ r, rows i = some r) ↔ i < n := by
  rw [← Option.ne_none_iff_exists', ne_eq, h i, Nat.not_le]

lemma Full.unique {m : Nat} (h : Full rows m) (h' : Full rows n) : m = n := by
  have hm := h' m
  have hn := h n
  rw [h m] at hm
  rw [h' n] at hn
  omega

lemma Full.update_swap (h : Full rows n) {i j : Nat} (hi : i < n) (hj : j < n) :
    Full (swap rows i j) n := by
  intro k
  rw [swap_apply]
  split_ifs with hkj hki
  · rw [h i, hkj]
    omega
  · rw [h j, hki]
    omega
  · exact h k

/-- Some row is taken by the occupant. -/
def Seated (rows : Nat → Option R) (r : R) : Prop := ∃ i, rows i = some r

lemma seated_update_some {q : R} (h : rows i = none) :
    Seated (Function.update rows i (some q)) r ↔ r = q ∨ Seated rows r := by
  constructor
  · rintro ⟨k, hk⟩
    by_cases hki : k = i
    · subst hki
      rw [Function.update_self] at hk
      exact Or.inl (Option.some.inj hk).symm
    · rw [Function.update_of_ne hki] at hk
      exact Or.inr ⟨k, hk⟩
  · rintro (rfl | ⟨k, hk⟩)
    · exact ⟨i, Function.update_self ..⟩
    · have hki : k ≠ i := fun heq => by
        rw [heq, h] at hk
        cases hk
      exact ⟨k, by rwa [Function.update_of_ne hki]⟩

lemma seated_update_none {q : R} (h : rows i = some q)
    (hunique : ∀ k, rows k = some q → k = i) :
    Seated (Function.update rows i none) r ↔ r ≠ q ∧ Seated rows r := by
  constructor
  · rintro ⟨k, hk⟩
    have hki : k ≠ i := fun heq => by
      rw [heq, Function.update_self] at hk
      cases hk
    rw [Function.update_of_ne hki] at hk
    exact ⟨fun heq => hki (hunique k (heq ▸ hk)), k, hk⟩
  · rintro ⟨hne, k, hk⟩
    have hki : k ≠ i := fun heq => by
      rw [heq, h] at hk
      exact hne (Option.some.inj hk).symm
    exact ⟨k, by rwa [Function.update_of_ne hki]⟩

lemma seated_swap {i j : Nat} : Seated (swap rows i j) r ↔ Seated rows r := by
  constructor
  · rintro ⟨k, hk⟩
    rw [swap_apply] at hk
    split_ifs at hk
    · exact ⟨i, hk⟩
    · exact ⟨j, hk⟩
    · exact ⟨k, hk⟩
  · rintro ⟨k, hk⟩
    by_cases hki : k = i
    · exact ⟨j, by rw [swap_apply, if_pos rfl, ← hki, hk]⟩
    · by_cases hkj : k = j
      · by_cases hij : i = j
        · exact absurd (hkj.trans hij.symm) hki
        · exact ⟨i, by rw [swap_apply, if_neg hij, if_pos rfl, ← hkj, hk]⟩
      · exact ⟨k, by rw [swap_apply, if_neg hkj, if_neg hki, hk]⟩

lemma seated_moveOccupant {src tgt : Nat} (h : rows tgt = none) (hne : src ≠ tgt) :
    Seated (moveOccupant rows src tgt) r ↔ Seated rows r := by
  have hswap : moveOccupant rows src tgt = swap rows src tgt := by
    rw [moveOccupant, move, swap, h, Function.update_comm hne]
  rw [hswap, seated_swap]

namespace Holes

lemma empty_rows : Holes (fun _ => (none : Option R)) 0 0 [] :=
  ⟨List.nodup_nil, fun _ _ => rfl, fun _ hi => absurd hi (Nat.not_lt_zero _), rfl⟩

lemma perm (h : Holes rows stop n holes) (hperm : holes.Perm holes') :
    Holes rows stop n holes' :=
  ⟨hperm.nodup_iff.mp h.nodup, h.outside, fun i hi => (h.empty i hi).trans hperm.mem_iff,
    (hperm.filter _).length_eq ▸ h.count⟩

lemma lt_of_occupied (h : Holes rows stop n holes) (hi : rows i = some r) : i < stop := by
  by_contra hge
  rw [h.outside i (Nat.le_of_not_lt hge)] at hi
  cases hi

lemma not_mem_of_occupied (h : Holes rows stop n holes) (hi : rows i = some r) : i ∉ holes := by
  rw [← h.empty i (h.lt_of_occupied hi), hi]
  exact Option.some_ne_none r

/-- Another occupant takes a row over. -/
lemma replace {q : R} (h : Holes rows stop n holes) (hi : rows i = some q) :
    Holes (Function.update rows i (some r)) stop n holes := by
  have hlt := h.lt_of_occupied hi
  have hnot := h.not_mem_of_occupied hi
  refine ⟨h.nodup, fun k hk => ?_, fun k hk => ?_, h.count⟩
  · rw [Function.update_of_ne (by omega)]
    exact h.outside k hk
  · by_cases hki : k = i
    · simp [hki, hnot]
    · simp [hki, h.empty k hk]

/-- An occupant leaves its row. -/
lemma leave (h : Holes rows stop (n + 1) holes) (hi : rows i = some r) :
    Holes (Function.update rows i none) stop n (holes ++ [i]) := by
  have hlt := h.lt_of_occupied hi
  have hnot := h.not_mem_of_occupied hi
  refine ⟨?_, fun k hk => ?_, fun k hk => ?_, ?_⟩
  · exact List.nodup_append'.mpr ⟨h.nodup, List.nodup_singleton i,
      List.disjoint_singleton.mpr hnot⟩
  · rw [Function.update_of_ne (by omega)]
    exact h.outside k hk
  · by_cases hki : k = i
    · simp [hki]
    · simp [hki, h.empty k hk]
  · have hcount := h.count
    simp only [List.filter_append, List.filter_singleton, hlt, decide_true, List.length_append]
    simp only [cond_true, List.length_singleton]
    omega

/-- A hole is filled. -/
lemma fill (h : Holes rows stop n (e :: holes)) (he : e < stop) :
    Holes (Function.update rows e (some r)) stop (n + 1) holes := by
  obtain ⟨hnot, hnodup⟩ := List.nodup_cons.mp h.nodup
  refine ⟨hnodup, fun k hk => ?_, fun k hk => ?_, ?_⟩
  · rw [Function.update_of_ne (by omega)]
    exact h.outside k hk
  · by_cases hke : k = e
    · simp [hke, hnot]
    · simp [hke, h.empty k hk]
  · have hcount := h.count
    rw [List.filter_cons_of_pos (by simpa using he), List.length_cons] at hcount
    omega

/-- Without holes a new occupant takes the next row. -/
lemma extend (h : Holes rows stop n []) :
    Holes (Function.update rows stop (some r)) (stop + 1) (n + 1) [] := by
  refine ⟨List.nodup_nil, fun k hk => ?_, fun k hk => ?_, ?_⟩
  · rw [Function.update_of_ne (by omega)]
    exact h.outside k (by omega)
  · by_cases hks : k = stop
    · simp [hks]
    · simp [hks, h.empty k (by omega)]
  · simpa using h.count

/-- An empty row at the end is skipped. -/
lemma skip (h : Holes rows (stop + 1) n holes) (hmem : stop ∈ holes) :
    Holes rows stop n holes := by
  refine ⟨h.nodup, fun k hk => ?_, fun k hk => h.empty k (by omega), ?_⟩
  · rcases Nat.eq_or_lt_of_le hk with rfl | hk
    · exact (h.empty _ (Nat.lt_succ_self _)).mpr hmem
    · exact h.outside k hk
  · have hcount := h.count
    rw [length_filter_lt_succ_of_mem h.nodup hmem] at hcount
    omega

/-- The last occupant moves down into a hole. -/
lemma moveDown (h : Holes rows (stop + 1) n (e :: holes)) (he : e < stop)
    (hlast : stop ∉ holes) : Holes (moveOccupant rows stop e) stop n holes := by
  obtain ⟨hnot, hnodup⟩ := List.nodup_cons.mp h.nodup
  have hstop : stop ∉ e :: holes := by
    rw [List.mem_cons, not_or]
    exact ⟨by omega, hlast⟩
  have hoccupied : rows stop ≠ none := fun hnone =>
    hstop ((h.empty stop (Nat.lt_succ_self _)).mp hnone)
  unfold moveOccupant move
  refine ⟨hnodup, fun k hk => ?_, fun k hk => ?_, ?_⟩
  · by_cases hks : k = stop
    · simp [hks]
    · rw [Function.update_of_ne hks, Function.update_of_ne (by omega)]
      exact h.outside k (by omega)
  · rw [Function.update_of_ne (by omega)]
    by_cases hke : k = e
    · subst hke
      simp [hoccupied, hnot]
    · rw [Function.update_of_ne hke, h.empty k (by omega), List.mem_cons, or_iff_right hke]
  · have hcount := h.count
    rw [filter_lt_succ_of_not_mem hstop, List.filter_cons_of_pos (by simpa using he),
      List.length_cons] at hcount
    omega

/-- No hole is left below the bound. -/
lemma full (h : Holes rows stop n holes) (hle : ∀ k ∈ holes, stop ≤ k) :
    stop = n ∧ Full rows n := by
  have hnil : holes.filter (· < stop) = [] := by
    rw [List.filter_eq_nil_iff]
    intro k hk
    simpa using hle k hk
  have hn : n = stop := by simpa [hnil] using h.count
  subst hn
  refine ⟨rfl, fun i => ⟨fun hi => ?_, h.outside i⟩⟩
  by_contra hlt
  have hlt := Nat.lt_of_not_le hlt
  exact absurd (hle i ((h.empty i hlt).mp hi)) (by omega)

end Holes

lemma Full.to_holes (h : Full rows n) : Holes rows n n [] :=
  ⟨List.nodup_nil, fun i hi => (h i).mpr hi, fun i hi => by simp [h i, hi], rfl⟩

end

variable {α : Type u} {R : Type v}

section Comp

variable (g : R → α) (rows : Nat → Option R)

lemma map_update (i : Nat) (o : Option R) :
    Option.map g ∘ Function.update rows i o =
      Function.update (Option.map g ∘ rows) i (o.map g) := Function.comp_update ..

lemma map_swap (i j : Nat) : Option.map g ∘ swap rows i j = swap (Option.map g ∘ rows) i j := by
  simp only [swap, map_update, Function.comp_apply]

lemma map_moveOccupant (src tgt : Nat) :
    Option.map g ∘ moveOccupant rows src tgt = moveOccupant (Option.map g ∘ rows) src tgt := by
  simp only [moveOccupant, move, map_update, Function.comp_apply, Option.map_none]

end Comp

/-- The entries of a list; there is none beyond its end. -/
def entry (l : List (Option α)) (i : Nat) : Option α := l[i]?.join

variable {l : List (Option α)} {i j n : Nat} {o : Option α}

@[simp] lemma entry_nil : entry ([] : List (Option α)) = fun _ => none := rfl

lemma entry_eq_some {a : α} : entry l i = some a ↔ l[i]? = some (some a) := by
  rw [entry, Option.join_eq_some_iff]

lemma entry_of_lt (h : i < l.length) : entry l i = l[i] := by
  rw [entry, List.getElem?_eq_getElem h]
  rfl

lemma entry_of_le (h : l.length ≤ i) : entry l i = none := by
  rw [entry, List.getElem?_eq_none h]
  rfl

lemma entry_set (h : i < l.length) : entry (l.set i o) = Function.update (entry l) i o := by
  funext k
  by_cases hk : k = i
  · subst hk
    simp [entry, h]
  · simp [entry, hk, Ne.symm hk]

lemma entry_append : entry (l ++ [o]) = Function.update (entry l) l.length o := by
  funext k
  by_cases hk : k = l.length
  · subst hk
    simp [entry]
  · rw [Function.update_of_ne hk]
    rcases Nat.lt_or_gt_of_ne hk with hlt | hgt
    · rw [entry, entry, List.getElem?_append_left hlt]
    · rw [entry_of_le (by simpa [Nat.succ_le_iff] using hgt), entry_of_le hgt.le]

lemma entry_take (h : ∀ i, n ≤ i → entry l i = none) : entry (l.take n) = entry l := by
  funext k
  by_cases hk : k < n
  · rw [entry, entry, List.getElem?_take_of_lt hk]
  · rw [h k (Nat.le_of_not_lt hk)]
    exact entry_of_le ((List.length_take_le _ _).trans (Nat.le_of_not_lt hk))

lemma entry_moveOccupant (hi : i < l.length) (hj : j < l.length) :
    entry ((l.set j (l.getD i none)).set i none) = moveOccupant (entry l) i j := by
  rw [entry_set (by rwa [List.length_set]), entry_set hj, moveOccupant, move, entry_of_lt hi,
    List.getD_eq_getElem?_getD, List.getElem?_eq_getElem hi, Option.getD_some]

variable [DecidableEq α] {index : Dict α Nat} {names : Nat → Option α} {a b : α}

/-- The dictionary finds the row of every name. -/
def Inverse (index : Dict α Nat) (names : Nat → Option α) : Prop :=
  ∀ a i, index.get? a = some i ↔ names i = some a

namespace Inverse

lemma injective (h : Inverse index names) (hi : names i = some a) (hj : names j = some a) :
    i = j := Option.some.inj (((h a i).mpr hi).symm.trans ((h a j).mpr hj))

lemma empty : Inverse (Dict.empty : Dict α Nat) fun _ => none := by
  intro a i
  simp

lemma erase (h : Inverse index names) (hi : names i = some a) :
    Inverse (index.erase a) (Function.update names i none) := by
  intro b k
  rw [Dict.get?_erase, Function.update_apply]
  by_cases hk : k = i
  · subst hk
    simp only [if_true, reduceCtorEq, iff_false]
    split_ifs with hab
    · exact not_false
    · rw [h b k, hi]
      exact fun heq => hab (Option.some.inj heq)
  · simp only [hk, if_false]
    split_ifs with hab
    · subst hab
      simp only [false_iff]
      exact fun hk' => hk (h.injective hk' hi)
    · exact h b k

lemma set_new (h : Inverse index names) (ha : index.get? a = none) (hi : names i = none) :
    Inverse (index.set a i) (Function.update names i (some a)) := by
  intro b k
  rw [Dict.get?_set, Function.update_apply]
  by_cases hk : k = i
  · subst hk
    simp only [if_true, Option.some.injEq]
    split_ifs with hab
    · simp [hab]
    · rw [h b k, hi]
      simp [hab]
  · simp only [hk, if_false]
    split_ifs with hab
    · subst hab
      rw [← h, ha, Option.some.injEq]
      simp [Ne.symm hk]
    · exact h b k

/-- A present name that is set again is first taken from its row. -/
lemma set_again (h : Inverse (index.erase a) names) (hi : names i = none) :
    Inverse (index.set a i) (Function.update names i (some a)) := by
  intro b k
  rw [← h.set_new (Dict.get?_erase_self index a) hi b k, Dict.get?_set, Dict.get?_set,
    Dict.get?_erase]
  split_ifs with hab
  · rfl
  · rfl

lemma moveOccupant (h : Inverse index names) (hi : names i = some a) (hj : names j = none) :
    Inverse (index.set a j) (Rows.moveOccupant names i j) := by
  have hne : i ≠ j := fun heq => by
    rw [heq, hj] at hi
    cases hi
  have hmoved := (h.erase hi).set_again (i := j) (by rwa [Function.update_of_ne (Ne.symm hne)])
  rw [Rows.moveOccupant, Rows.move, hi, Function.update_comm hne.symm]
  exact hmoved

lemma swap (h : Inverse index names) (hi : names i = some a) (hj : names j = some b) :
    Inverse ((index.set a j).set b i) (Rows.swap names i j) := by
  intro c k
  have hinj := fun {k : Nat} (hk : names k = some a) => h.injective hk hi
  have hinj' := fun {k : Nat} (hk : names k = some b) => h.injective hk hj
  rw [Dict.get?_set, Dict.get?_set, swap_apply, hi, hj]
  by_cases hbc : b = c
  · subst hbc
    simp only [if_true, Option.some.injEq]
    split_ifs with hkj hki
    · subst hkj
      rw [Option.some.injEq]
      constructor
      · rintro rfl
        exact Option.some.inj (hi.symm.trans hj)
      · rintro rfl
        exact h.injective hi hj
    · simp [hki]
    · exact ⟨fun heq => absurd heq.symm hki, fun hk => absurd (hinj' hk) hkj⟩
  · simp only [hbc, if_false]
    by_cases hac : a = c
    · subst hac
      simp only [if_true, Option.some.injEq]
      split_ifs with hkj hki
      · simp [hkj]
      · refine ⟨fun heq => absurd heq.symm hkj, fun heq => absurd (Option.some.inj heq) hbc⟩
      · exact ⟨fun heq => absurd heq.symm hkj, fun hk => absurd (hinj hk) hki⟩
    · simp only [hac, if_false]
      split_ifs with hkj hki
      · rw [hkj, h c j, hj]
        simp [hbc, hac]
      · rw [hki, h c i, hi]
        simp [hbc, hac]
      · exact h c k

end Inverse

end Rows
