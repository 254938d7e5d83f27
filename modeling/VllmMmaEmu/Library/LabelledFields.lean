import Mathlib.Data.List.Basic
import Mathlib.Data.List.Lex
import Mathlib.Data.Nat.Basic
import Mathlib.Tactic.Ring

/-!
# Labelled fields

A row of fields, each behind a label that holds the separator. The row can be read back if all
fields but one are without separators.
-/

namespace LabelledFields

variable {α κ : Type*} {sep : α} {label : κ → List α} {fields fields' : List (κ × List α)}

/-- The fields one after the other, each behind its label. -/
def row (label : κ → List α) (fields : List (κ × List α)) : List α :=
  fields.flatMap fun f => label f.1 ++ f.2

@[simp] lemma row_nil : row label [] = [] := rfl

@[simp] lemma row_cons (f : κ × List α) (fields : List (κ × List α)) :
    row label (f :: fields) = label f.1 ++ (f.2 ++ row label fields) := by
  simp [row]

/-- Fields joined by the separator are a row, less the first separator. -/
lemma row_eq_intercalate (pre : κ → List α) (hfields : fields ≠ []) :
    row (fun k => sep :: pre k) fields =
      sep :: [sep].intercalate (fields.map fun f => pre f.1 ++ f.2) := by
  induction fields with
  | nil => exact absurd rfl hfields
  | cons f rest ih =>
    cases rest with
    | nil => simp
    | cons g rest =>
      rw [row_cons, ih (List.cons_ne_nil g rest), List.map_cons (l := g :: rest), List.map_cons,
        List.intercalate_cons_cons]
      simp

lemma prefix_eq {x y s t : List α} (hx : sep ∉ x) (hy : sep ∉ y)
    (h : x ++ sep :: s = y ++ sep :: t) : x = y ∧ s = t := by
  rcases List.append_eq_append_iff.mp h with ⟨a, rfl, hrest⟩ | ⟨a, rfl, hrest⟩
  all_goals
    cases a with
    | nil => simpa [eq_comm] using hrest
    | cons c a =>
      obtain ⟨rfl, -⟩ := List.cons.inj hrest
      simp at hx hy

/-- A field without separators ends where the label behind it begins. -/
lemma field_eq {x y m s t : List α} (hm : sep ∈ m) (hx : sep ∉ x) (hy : sep ∉ y)
    (h : x ++ (m ++ s) = y ++ (m ++ t)) : x = y ∧ s = t := by
  obtain ⟨p, q, rfl, hp⟩ := List.eq_append_cons_of_mem hm
  have hrow : (x ++ p) ++ sep :: (q ++ s) = (y ++ p) ++ sep :: (q ++ t) := by simpa using h
  obtain ⟨hleft, hright⟩ := prefix_eq (by simp [hx, hp]) (by simp [hy, hp]) hrow
  exact ⟨List.append_cancel_right hleft, List.append_cancel_left hright⟩

/-- A field without separators at the end begins where the label before it ends. -/
lemma lastField_eq {x y m s t : List α} (hm : sep ∈ m) (hs : sep ∉ s) (ht : sep ∉ t)
    (h : x ++ (m ++ s) = y ++ (m ++ t)) : x = y ∧ s = t := by
  have hrev := congrArg List.reverse h
  simp only [List.reverse_append, List.append_assoc] at hrev
  obtain ⟨hst, hxy⟩ := field_eq (List.mem_reverse.mpr hm) (by simpa using hs) (by simpa using ht) hrev
  exact ⟨List.reverse_injective hxy, List.reverse_injective hst⟩

/-- Plain fields can be read back from the end. -/
lemma row_inj_of_plain (hlabel : ∀ k, sep ∈ label k)
    (hkeys : fields.map Prod.fst = fields'.map Prod.fst) (hplain : ∀ f ∈ fields, sep ∉ f.2)
    (hplain' : ∀ f ∈ fields', sep ∉ f.2) {x y : List α}
    (h : x ++ row label fields = y ++ row label fields') : x = y ∧ fields = fields' := by
  induction fields generalizing fields' x y with
  | nil =>
    obtain rfl := List.map_eq_nil_iff.mp hkeys.symm
    simpa using h
  | cons f fields ih =>
    obtain ⟨f', fields', rfl, hkey, hrest⟩ := List.map_eq_cons_iff.mp hkeys.symm
    rw [List.forall_mem_cons] at hplain hplain'
    simp only [row_cons, ← List.append_assoc] at h
    obtain ⟨hxy, rfl⟩ := ih hrest.symm hplain.2 hplain'.2 h
    rw [hkey, List.append_assoc, List.append_assoc] at hxy
    obtain ⟨rfl, hfield⟩ := lastField_eq (hlabel f.1) hplain.1 hplain'.1 hxy
    exact ⟨rfl, congrArg (· :: _) (Prod.ext hkey.symm hfield)⟩

/-- A row can be read back if the fields of all keys but one are without separators. -/
theorem row_inj (hlabel : ∀ k, sep ∈ label k)
    (hkeys : fields.map Prod.fst = fields'.map Prod.fst) (hnodup : (fields.map Prod.fst).Nodup)
    {free : κ} (hplain : ∀ f ∈ fields, f.1 ≠ free → sep ∉ f.2)
    (hplain' : ∀ f ∈ fields', f.1 ≠ free → sep ∉ f.2)
    (h : row label fields = row label fields') : fields = fields' := by
  induction fields generalizing fields' with
  | nil => exact (List.map_eq_nil_iff.mp hkeys.symm).symm
  | cons f fields ih =>
    obtain ⟨f', fields', rfl, hkey, hrest⟩ := List.map_eq_cons_iff.mp hkeys.symm
    obtain ⟨hnotMem, hnodup⟩ := List.nodup_cons.mp hnodup
    rw [List.forall_mem_cons] at hplain hplain'
    rw [row_cons, row_cons, hkey] at h
    have hfields := List.append_cancel_left h
    by_cases hfree : f.1 = free
    · -- the fields behind the free one are plain
      have hne : ∀ {gs : List (κ × List α)}, gs.map Prod.fst = fields.map Prod.fst →
          ∀ g ∈ gs, g.1 ≠ free := by
        rintro gs hgs g hg rfl
        exact hnotMem (hfree ▸ hgs ▸ List.mem_map_of_mem hg)
      obtain ⟨hfield, rfl⟩ := row_inj_of_plain hlabel hrest.symm
        (fun g hg => hplain.2 g hg (hne rfl g hg)) (fun g hg => hplain'.2 g hg (hne hrest g hg)) hfields
      exact congrArg (· :: _) (Prod.ext hkey.symm hfield)
    · have hsplit : f.2 = f'.2 ∧ row label fields = row label fields' := by
        cases fields with
        | nil =>
          obtain rfl := List.map_eq_nil_iff.mp hrest
          simpa using hfields
        | cons g gs =>
          obtain ⟨g', gs', rfl, hkey', -⟩ := List.map_eq_cons_iff.mp hrest
          rw [row_cons, row_cons, hkey'] at hfields ⊢
          obtain ⟨hfield, hrow⟩ :=
            field_eq (hlabel g.1) (hplain.1 hfree) (hplain'.1 (hkey ▸ hfree)) hfields
          exact ⟨hfield, congrArg _ hrow⟩
      obtain rfl := ih hrest.symm hnodup hplain.2 hplain'.2 hsplit.2
      exact congrArg (· :: _) (Prod.ext hkey.symm hsplit.1)

end LabelledFields
