import VllmMmaEmu.Library.Compaction
import VllmMmaEmu.Worker.RowSteps

/-!
# Rows and requests

Which request sits on which row: the lists and the index of the batch name it, the adapters'
sets count it, and the row's data are its own. Each operation moves requests among the rows
and keeps this.
-/

namespace VllmV1.Worker

open Python

variable {F : Type} {fl : FloatOps F} {heap : Heap}

/-- The requests on the rows. -/
abbrev Seats (F : Type) := Nat → Option (CachedRequestState F)

/-- The lists and the index name the requests on the rows. -/
structure Linked (reqIds : List (Option String)) (outputs : List (Option ListRef))
    (index : Dict String Nat) (rows : Seats F) : Prop where
  ids_eq : Rows.entry reqIds = Option.map (·.reqId) ∘ rows
  outputs_eq : Rows.entry outputs = Option.map (·.outputTokenIds) ∘ rows
  lengths : outputs.length = reqIds.length
  inverse : Rows.Inverse index (Option.map (·.reqId) ∘ rows)

namespace Linked

variable {reqIds : List (Option String)} {outputs : List (Option ListRef)}
  {index : Dict String Nat} {rows : Seats F} {r r₁ r₂ : CachedRequestState F} {i j : Nat}

lemma empty : Linked [] [] Dict.empty fun _ => (none : Option (CachedRequestState F)) :=
  ⟨rfl, rfl, rfl, Rows.Inverse.empty⟩

lemma get?_eq_some (h : Linked reqIds outputs index rows) {id : String} :
    index.get? id = some i ↔ ∃ r, rows i = some r ∧ r.reqId = id := by
  rw [h.inverse id i, Function.comp_apply, Option.map_eq_some_iff]

lemma unique (h : Linked reqIds outputs index rows) (hi : rows i = some r₁) (hj : rows j = some r₂)
    (hid : r₁.reqId = r₂.reqId) : i = j := by
  refine h.inverse.injective (a := r₁.reqId) ?_ ?_
  · rw [Function.comp_apply, hi, Option.map_some]
  · rw [Function.comp_apply, hj, Option.map_some, hid]

lemma lt_length (h : Linked reqIds outputs index rows) (hi : rows i = some r) :
    i < reqIds.length := by
  by_contra hge
  have hnone := congrFun h.ids_eq i
  rw [Rows.entry_of_le (Nat.le_of_not_lt hge), Function.comp_apply, hi] at hnone
  cases hnone

lemma getElem?_reqIds (h : Linked reqIds outputs index rows) (hi : rows i = some r) :
    reqIds[i]? = some (some r.reqId) := by
  rw [← Rows.entry_eq_some, h.ids_eq, Function.comp_apply, hi, Option.map_some]

lemma getElem?_outputs (h : Linked reqIds outputs index rows) (hi : rows i = some r) :
    outputs[i]? = some (some r.outputTokenIds) := by
  rw [← Rows.entry_eq_some, h.outputs_eq, Function.comp_apply, hi, Option.map_some]

lemma exists_of_getElem? (h : Linked reqIds outputs index rows) {id : String}
    (hid : reqIds[i]? = some (some id)) : ∃ r, rows i = some r ∧ r.reqId = id := by
  rw [← Rows.entry_eq_some, h.ids_eq, Function.comp_apply, Option.map_eq_some_iff] at hid
  exact hid

lemma remove (h : Linked reqIds outputs index rows) (hi : rows i = some r) :
    Linked (reqIds.set i none) (outputs.set i none) (index.erase r.reqId)
      (Function.update rows i none) := by
  have hlt := h.lt_length hi
  refine ⟨?_, ?_, ?_, ?_⟩
  · rw [Rows.entry_set hlt, h.ids_eq, Rows.map_update, Option.map_none]
  · rw [Rows.entry_set (h.lengths ▸ hlt), h.outputs_eq, Rows.map_update, Option.map_none]
  · rw [List.length_set, List.length_set, h.lengths]
  · rw [Rows.map_update, Option.map_none]
    refine h.inverse.erase ?_
    rw [Function.comp_apply, hi, Option.map_some]

lemma fill (h : Linked reqIds outputs index rows) (hi : rows i = none) (hlt : i < reqIds.length)
    (hid : index.get? r.reqId = none) :
    Linked (reqIds.set i (some r.reqId)) (outputs.set i (some r.outputTokenIds))
      (index.set r.reqId i) (Function.update rows i (some r)) := by
  refine ⟨?_, ?_, ?_, ?_⟩
  · rw [Rows.entry_set hlt, h.ids_eq, Rows.map_update, Option.map_some]
  · rw [Rows.entry_set (h.lengths ▸ hlt), h.outputs_eq, Rows.map_update, Option.map_some]
  · rw [List.length_set, List.length_set, h.lengths]
  · rw [Rows.map_update, Option.map_some]
    refine h.inverse.set_new hid ?_
    rw [Function.comp_apply, hi, Option.map_none]

lemma extend (h : Linked reqIds outputs index rows) (hi : rows reqIds.length = none)
    (hid : index.get? r.reqId = none) :
    Linked (reqIds ++ [some r.reqId]) (outputs ++ [some r.outputTokenIds])
      (index.set r.reqId reqIds.length) (Function.update rows reqIds.length (some r)) := by
  refine ⟨?_, ?_, ?_, ?_⟩
  · rw [Rows.entry_append, h.ids_eq, Rows.map_update, Option.map_some]
  · rw [Rows.entry_append, h.outputs_eq, h.lengths, Rows.map_update, Option.map_some]
  · rw [List.length_append, List.length_append, h.lengths]
    rfl
  · rw [Rows.map_update, Option.map_some]
    refine h.inverse.set_new hid ?_
    rw [Function.comp_apply, hi, Option.map_none]

lemma moveDown (h : Linked reqIds outputs index rows) (hi : rows i = some r)
    (hj : rows j = none) (hlt : j < reqIds.length) :
    Linked ((reqIds.set j (some r.reqId)).set i none)
      ((outputs.set j (outputs.getD i none)).set i none) (index.set r.reqId j)
      (Rows.moveOccupant rows i j) := by
  have hilt := h.lt_length hi
  have hentry : reqIds.getD i none = some r.reqId := by
    rw [List.getD_eq_getElem?_getD, h.getElem?_reqIds hi, Option.getD_some]
  refine ⟨?_, ?_, ?_, ?_⟩
  · rw [← hentry, Rows.entry_moveOccupant hilt hlt, h.ids_eq, Rows.map_moveOccupant]
  · rw [Rows.entry_moveOccupant (h.lengths ▸ hilt) (h.lengths ▸ hlt), h.outputs_eq,
      Rows.map_moveOccupant]
  · simp only [List.length_set, h.lengths]
  · rw [Rows.map_moveOccupant]
    refine h.inverse.moveOccupant ?_ ?_
    · rw [Function.comp_apply, hi, Option.map_some]
    · rw [Function.comp_apply, hj, Option.map_none]

lemma swap (h : Linked reqIds outputs index rows) (hi : rows i = some r₁) (hj : rows j = some r₂) :
    Linked ((reqIds.set i (some r₂.reqId)).set j (some r₁.reqId))
      ((outputs.set i (some r₂.outputTokenIds)).set j (some r₁.outputTokenIds))
      ((index.set r₁.reqId j).set r₂.reqId i) (Rows.swap rows i j) := by
  have hlti := h.lt_length hi
  have hltj := h.lt_length hj
  refine ⟨?_, ?_, ?_, ?_⟩
  · rw [Rows.entry_set (by rwa [List.length_set]), Rows.entry_set hlti, h.ids_eq, Rows.map_swap,
      Rows.swap, Function.comp_apply, Function.comp_apply, hi, hj]
    rfl
  · rw [Rows.entry_set (by rwa [List.length_set, h.lengths]), Rows.entry_set (h.lengths ▸ hlti),
      h.outputs_eq, Rows.map_swap, Rows.swap, Function.comp_apply, Function.comp_apply, hi, hj]
    rfl
  · simp only [List.length_set, h.lengths]
  · rw [Rows.map_swap]
    refine h.inverse.swap ?_ ?_
    · rw [Function.comp_apply, hi, Option.map_some]
    · rw [Function.comp_apply, hj, Option.map_some]

lemma replace (h : Linked reqIds outputs index rows) (hi : rows i = some r₁)
    (hid : r₂.reqId = r₁.reqId) (hout : r₂.outputTokenIds = r₁.outputTokenIds) :
    Linked reqIds outputs index (Function.update rows i (some r₂)) := by
  have hids : Option.map (·.reqId) ∘ Function.update rows i (some r₂) =
      Option.map (·.reqId) ∘ rows := by
    rw [Rows.map_update, Option.map_some, hid, Function.update_eq_self_iff, Function.comp_apply, hi,
      Option.map_some]
  refine ⟨h.ids_eq.trans hids.symm, ?_, h.lengths, hids ▸ h.inverse⟩
  rw [h.outputs_eq, Rows.map_update, Option.map_some, hout, eq_comm, Function.update_eq_self_iff,
    Function.comp_apply, hi, Option.map_some]

lemma take (h : Linked reqIds outputs index rows) {n : Nat} (hfull : ∀ i, n ≤ i → rows i = none) :
    Linked (reqIds.take n) (outputs.take n) index rows := by
  refine ⟨?_, ?_, by rw [List.length_take, List.length_take, h.lengths], h.inverse⟩
  · rw [Rows.entry_take, h.ids_eq]
    intro i hi
    rw [h.ids_eq, Function.comp_apply, hfull i hi, Option.map_none]
  · rw [Rows.entry_take, h.outputs_eq]
    intro i hi
    rw [h.outputs_eq, Function.comp_apply, hfull i hi, Option.map_none]

end Linked

/-- An adapter's set has the ids of the requests on the rows that use it, and no set is
empty. -/
structure LoraLinked (loraIds : Dict Nat (Finset String)) (rows : Seats F) : Prop where
  ids : ∀ l id, id ∈ (loraIds.get? l).getD ∅ ↔
    ∃ r, Rows.Seated rows r ∧ r.reqId = id ∧ r.loraRequest.map (·.loraIntId) = some l
  nonempty : ∀ l, loraIds.get? l ≠ some ∅

namespace LoraLinked

variable {loraIds : Dict Nat (Finset String)} {rows rows' : Seats F} {r : CachedRequestState F}
  {i : Nat}

lemma empty : LoraLinked Dict.empty fun _ => (none : Option (CachedRequestState F)) := by
  refine ⟨fun l id => ?_, fun l => ?_⟩
  · simp [Rows.Seated]
  · simp

lemma rearrange (h : LoraLinked loraIds rows)
    (hseated : ∀ r, Rows.Seated rows' r ↔ Rows.Seated rows r) : LoraLinked loraIds rows' := by
  refine ⟨fun l id => ?_, h.nonempty⟩
  rw [h.ids l id]
  simp only [hseated]

lemma replace {r' : CachedRequestState F} (h : LoraLinked loraIds rows) (hi : rows i = some r)
    (hid : r'.reqId = r.reqId) (hlora : r'.loraRequest = r.loraRequest) :
    LoraLinked loraIds (Function.update rows i (some r')) := by
  refine ⟨fun l id => ?_, h.nonempty⟩
  rw [h.ids]
  constructor
  · rintro ⟨q, ⟨k, hk⟩, hq, hl⟩
    by_cases hki : k = i
    · subst hki
      obtain rfl := Option.some.inj (hi.symm.trans hk)
      exact ⟨r', ⟨k, Function.update_self ..⟩, hid.trans hq, hlora ▸ hl⟩
    · exact ⟨q, ⟨k, by rwa [Function.update_of_ne hki]⟩, hq, hl⟩
  · rintro ⟨q, ⟨k, hk⟩, hq, hl⟩
    by_cases hki : k = i
    · subst hki
      rw [Function.update_self] at hk
      obtain rfl := Option.some.inj hk
      exact ⟨r, ⟨k, hi⟩, hid.symm.trans hq, hlora ▸ hl⟩
    · rw [Function.update_of_ne hki] at hk
      exact ⟨q, ⟨k, hk⟩, hq, hl⟩

lemma add_some {lora : LoRARequest} (h : LoraLinked loraIds rows) (hi : rows i = none)
    (hlora : r.loraRequest = some lora) :
    LoraLinked (loraIds.set lora.loraIntId
        (insert r.reqId ((loraIds.get? lora.loraIntId).getD ∅)))
      (Function.update rows i (some r)) := by
  refine ⟨fun l id => ?_, fun l => ?_⟩
  · simp only [Rows.seated_update_some hi, Dict.get?_set]
    split_ifs with hl
    · subst hl
      rw [Option.getD_some, Finset.mem_insert, h.ids]
      constructor
      · rintro (rfl | ⟨r', hr', hid, hl⟩)
        · exact ⟨r, Or.inl rfl, rfl, by rw [hlora, Option.map_some]⟩
        · exact ⟨r', Or.inr hr', hid, hl⟩
      · rintro ⟨r', rfl | hr', hid, hl⟩
        · exact Or.inl hid.symm
        · exact Or.inr ⟨r', hr', hid, hl⟩
    · rw [h.ids]
      constructor
      · rintro ⟨r', hr', hid, hl'⟩
        exact ⟨r', Or.inr hr', hid, hl'⟩
      · rintro ⟨r', rfl | hr', hid, hl'⟩
        · rw [hlora, Option.map_some, Option.some.injEq] at hl'
          exact absurd hl' hl
        · exact ⟨r', hr', hid, hl'⟩
  · rw [Dict.get?_set]
    split_ifs with hl
    · rw [ne_eq, Option.some.injEq]
      exact Finset.insert_ne_empty _ _
    · exact h.nonempty l

lemma add_none (h : LoraLinked loraIds rows) (hi : rows i = none) (hlora : r.loraRequest = none) :
    LoraLinked loraIds (Function.update rows i (some r)) := by
  refine ⟨fun l id => ?_, h.nonempty⟩
  simp only [Rows.seated_update_some hi]
  rw [h.ids]
  constructor
  · rintro ⟨r', hr', hid, hl⟩
    exact ⟨r', Or.inr hr', hid, hl⟩
  · rintro ⟨r', rfl | hr', hid, hl⟩
    · rw [hlora] at hl
      cases hl
    · exact ⟨r', hr', hid, hl⟩

/-- The request on row `i` leaves, and with it its id in the set of its adapter. -/
lemma remove {loraIds' : Dict Nat (Finset String)} (h : LoraLinked loraIds rows)
    (hi : rows i = some r)
    (hunique : ∀ k r', rows k = some r' → r'.reqId = r.reqId → k = i)
    (hids : ∀ l id, id ∈ (loraIds'.get? l).getD ∅ ↔
      id ∈ (loraIds.get? l).getD ∅ ∧ (r.loraRequest.map (·.loraIntId) = some l → id ≠ r.reqId))
    (hnonempty : ∀ l, loraIds'.get? l ≠ some ∅) :
    LoraLinked loraIds' (Function.update rows i none) := by
  refine ⟨fun l id => ?_, hnonempty⟩
  have hseated := fun r' => Rows.seated_update_none (r := r') hi fun k hk => hunique k r hk rfl
  simp only [hids, hseated]
  rw [h.ids]
  constructor
  · rintro ⟨⟨r', hr', hid, hl⟩, hne⟩
    refine ⟨r', ⟨?_, hr'⟩, hid, hl⟩
    rintro rfl
    exact hne hl hid.symm
  · rintro ⟨r', ⟨hne, k, hk⟩, hid, hl⟩
    refine ⟨⟨r', ⟨k, hk⟩, hid, hl⟩, fun _ heq => hne ?_⟩
    obtain rfl := hunique k r' hk (hid.trans heq)
    exact Option.some.inj (hk.symm.trans hi)

end LoraLinked

end VllmV1.Worker
