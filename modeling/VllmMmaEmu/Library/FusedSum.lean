import VllmMmaEmu.Library.FixedPoint

/-!
# Fused sums of labelled terms

A term is an exact rational with a label exponent. A fused sum aligns every
term to the largest label and truncates each one toward zero at `F` fractional
bits below it. A term that is exactly zero has no label of its own: it joins
the maximum with a fixed exponent and contributes nothing.
-/

namespace FusedSum

open FixedPoint

structure Term where
  value : ℚ
  label : ℤ

/-- Label of a term, `none` being a term that is exactly zero. -/
def labelOf (eZero : ℤ) : Option Term → ℤ
  | none => eZero
  | some t => t.label

/-- Contribution of a term, counted in multiples of `2^(-p)`. -/
def share (p : ℤ) : Option Term → ℤ
  | none => 0
  | some t => signedQuanta p t.value

def maxLabel (eZero : ℤ) (ts : List (Option Term)) : ℤ :=
  (ts.map (labelOf eZero)).max?.getD eZero

def total (F : ℕ) (emax : ℤ) (ts : List (Option Term)) : ℤ :=
  (ts.map (share (F - emax))).sum

/-- The rational a fused sum stands for before its final conversion. -/
def fused (F : ℕ) (eZero : ℤ) (ts : List (Option Term)) : ℚ :=
  total F (maxLabel eZero ts) ts * 2 ^ (maxLabel eZero ts - F)

@[simp] lemma labelOf_none (eZero : ℤ) : labelOf eZero none = eZero := rfl

@[simp] lemma labelOf_some (eZero : ℤ) (t : Term) : labelOf eZero (some t) = t.label := rfl

@[simp] lemma share_none (p : ℤ) : share p none = 0 := rfl

@[simp] lemma share_some (p : ℤ) (t : Term) : share p (some t) = signedQuanta p t.value := rfl

@[simp] lemma total_nil (F : ℕ) (emax : ℤ) : total F emax [] = 0 := rfl

@[simp] lemma total_cons (F : ℕ) (emax : ℤ) (t : Option Term) (ts : List (Option Term)) :
    total F emax (t :: ts) = share (F - emax) t + total F emax ts := by
  simp [total]

lemma total_eq_zero_of_none {F : ℕ} {emax : ℤ} {ts : List (Option Term)}
    (h : ∀ t ∈ ts, t = none) : total F emax ts = 0 := by
  induction ts with
  | nil => rfl
  | cons t ts ih =>
    have ht : t = none := h t List.mem_cons_self
    rw [total_cons, ih (fun u hu => h u (List.mem_cons_of_mem t hu)), ht, share_none, add_zero]

/-- The maximum is characterised by its two defining properties. -/
lemma maxLabel_eq {eZero e : ℤ} {ts : List (Option Term)}
    (attained : ∃ t ∈ ts, labelOf eZero t = e) (upper : ∀ t ∈ ts, labelOf eZero t ≤ e) :
    maxLabel eZero ts = e := by
  have h : (ts.map (labelOf eZero)).max? = some e := by
    rw [List.max?_eq_some_iff]
    obtain ⟨t, ht, he⟩ := attained
    refine ⟨List.mem_map.mpr ⟨t, ht, he⟩, ?_⟩
    intro b hb
    obtain ⟨u, hu, rfl⟩ := List.mem_map.mp hb
    exact upper u hu
  rw [maxLabel, h, Option.getD_some]

lemma maxLabel_spec {eZero : ℤ} {ts : List (Option Term)} (hne : ts ≠ []) :
    (∃ t ∈ ts, labelOf eZero t = maxLabel eZero ts) ∧
      ∀ t ∈ ts, labelOf eZero t ≤ maxLabel eZero ts := by
  cases h : (ts.map (labelOf eZero)).max? with
  | none => exact absurd (List.map_eq_nil_iff.mp (List.max?_eq_none_iff.mp h)) hne
  | some e =>
    have he : maxLabel eZero ts = e := by rw [maxLabel, h, Option.getD_some]
    obtain ⟨hmem, hupper⟩ := List.max?_eq_some_iff.mp h
    rw [he]
    refine ⟨List.mem_map.mp hmem, fun t ht => hupper _ (List.mem_map.mpr ⟨t, ht, rfl⟩)⟩

/-- Alignment to a larger label only shrinks a contribution. -/
lemma natAbs_share_le {F B : ℕ} {t : Term} (bound : quanta (F - t.label) |t.value| ≤ B) {e : ℤ}
    (he : t.label ≤ e) : (share (F - e) (some t)).natAbs ≤ B := by
  have hnonneg := quanta_nonneg (p := F - e) (abs_nonneg t.value)
  have hmono : quanta (F - e) |t.value| ≤ quanta (F - t.label) |t.value| := by
    apply Int.floor_mono
    apply mul_le_mul_of_nonneg_left _ (abs_nonneg _)
    exact zpow_le_zpow_right₀ (by norm_num) (by omega)
  have hsign : (signOf t.value).natAbs = 1 := by
    unfold signOf
    split <;> rfl
  rw [share_some, signedQuanta, Int.natAbs_mul, hsign, one_mul]
  omega

lemma natAbs_total_le {F B : ℕ} {e : ℤ} {ts : List (Option Term)}
    (bound : ∀ t ∈ ts, (share (F - e) t).natAbs ≤ B) :
    (total F e ts).natAbs ≤ ts.length * B := by
  induction ts with
  | nil => simp
  | cons t ts ih =>
    have htail := ih (fun u hu => bound u (List.mem_cons_of_mem _ hu))
    have hhead := bound t List.mem_cons_self
    have := Int.natAbs_add_le (share (F - e) t) (total F e ts)
    rw [total_cons, List.length_cons]
    linarith

/-- Largest label among the terms that are not zero. -/
def groupLabel (ts : List (Option Term)) : ℤ :=
  (ts.filterMap (Option.map Term.label)).max?.getD 0

/-- A sum aligned to its own terms only, with `G` fractional bits. -/
def groupSum (G : ℕ) (ts : List (Option Term)) : ℚ :=
  total G (groupLabel ts) ts * 2 ^ (groupLabel ts - G)

lemma groupLabel_eq {e : ℤ} {ts : List (Option Term)}
    (attained : ∃ t, some t ∈ ts ∧ t.label = e) (upper : ∀ t, some t ∈ ts → t.label ≤ e) :
    groupLabel ts = e := by
  have h : (ts.filterMap (Option.map Term.label)).max? = some e := by
    rw [List.max?_eq_some_iff]
    obtain ⟨t, ht, he⟩ := attained
    refine ⟨List.mem_filterMap.mpr ⟨some t, ht, by simp [he]⟩, ?_⟩
    intro b hb
    obtain ⟨u, hu, hub⟩ := List.mem_filterMap.mp hb
    cases u with
    | none => simp at hub
    | some u =>
      have : u.label = b := by simpa using hub
      exact this ▸ upper u hu
  rw [groupLabel, h, Option.getD_some]

lemma groupLabel_spec {ts : List (Option Term)} (hne : ¬ ∀ t ∈ ts, t = none) :
    (∃ t, some t ∈ ts ∧ t.label = groupLabel ts) ∧
      ∀ t, some t ∈ ts → t.label ≤ groupLabel ts := by
  cases h : (ts.filterMap (Option.map Term.label)).max? with
  | none =>
    exfalso
    apply hne
    intro t ht
    have hnil := List.filterMap_eq_nil_iff.mp (List.max?_eq_none_iff.mp h) t ht
    simpa using hnil
  | some e =>
    have he : groupLabel ts = e := by rw [groupLabel, h, Option.getD_some]
    obtain ⟨hmem, hupper⟩ := List.max?_eq_some_iff.mp h
    obtain ⟨t, ht, hlabel⟩ := List.mem_filterMap.mp hmem
    obtain ⟨u, rfl, hu⟩ := Option.map_eq_some_iff.mp hlabel
    rw [he]
    refine ⟨⟨u, ht, hu⟩, fun v hv => hupper _ (List.mem_filterMap.mpr ⟨some v, hv, rfl⟩)⟩

/-- A group as one term: it keeps its own label, and is a zero term when its sum is zero. -/
def groupTerm (G : ℕ) (ts : List (Option Term)) : Option Term :=
  if groupSum G ts = 0 then none else some ⟨groupSum G ts, groupLabel ts⟩

end FusedSum
