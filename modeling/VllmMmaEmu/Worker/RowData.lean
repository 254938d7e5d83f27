import VllmMmaEmu.Worker.InputBatch

/-!
# The data of a row

The parallel arrays seen row by row: the data of a row is a record, and a row carries a
request when the record has what the request prescribes. Every operation of the batch is a
change of single rows in this view.
-/

namespace VllmV1.Worker

open Python

variable {F : Type}

namespace CachedRequestState

def numPromptTokens (r : CachedRequestState F) : Nat :=
  match r.promptTokenIds, r.promptEmbeds with
  | some ids, _ => ids.length
  | none, some embeds => embeds.length
  | none, none => 0

def numTokens (heap : Heap) (r : CachedRequestState F) : Nat :=
  r.numPromptTokens + (heap r.outputTokenIds).length

/-- The token id at a position; a prompt of embeddings has none. -/
def tokenAt (heap : Heap) (r : CachedRequestState F) (j : Nat) : Option Int :=
  if j < r.numPromptTokens then r.promptTokenIds.bind (·[j]?)
  else (heap r.outputTokenIds)[j - r.numPromptTokens]?

def loraId (r : CachedRequestState F) : Nat := (r.loraRequest.map (·.loraIntId)).getD 0

end CachedRequestState

lemma lengthFromPrompt_eq {r : CachedRequestState F} {n : Nat}
    (h : lengthFromPromptTokenIdsOrEmbeds r.promptTokenIds r.promptEmbeds = .ok n) :
    n = r.numPromptTokens := by
  unfold lengthFromPromptTokenIdsOrEmbeds at h
  unfold CachedRequestState.numPromptTokens
  cases hids : r.promptTokenIds with
  | none =>
    cases hembeds : r.promptEmbeds with
    | none => simp [hids, hembeds] at h
    | some embeds => simpa [hids, hembeds, eq_comm] using h
  | some ids =>
    cases hembeds : r.promptEmbeds with
    | none => simpa [hids, hembeds, eq_comm] using h
    | some embeds =>
      simp only [hids, hembeds] at h
      split_ifs at h
      exact (Except.ok.inj h).symm

/-- The row of one block table. -/
structure BlockRow where
  width : Nat
  count : Nat
  ids : Nat → Nat

/-- The row holds the block ids, as far as it reaches. -/
structure BlockRow.Carries (row : BlockRow) (blockIds : List Nat) : Prop where
  count : row.count = blockIds.length
  ids : ∀ j id, blockIds[j]? = some id → j < row.width → row.ids j = id

structure RowData where
  tokenIds : Nat → Int
  isTokenIds : Nat → Bool
  numTokens : Nat
  numTokensNoSpec : Nat
  numPromptTokens : Nat
  numComputedTokens : Nat
  loraId : Nat
  blocks : List BlockRow

def BlockTable.row (t : BlockTable) (i : Nat) : BlockRow :=
  ⟨t.maxNumBlocksPerReq, t.numBlocksPerRow i, t.blockTable i⟩

def InputBatch.rowData (b : InputBatch F) (i : Nat) : RowData where
  tokenIds := b.tokenIdsCpu i
  isTokenIds := b.isTokenIds i
  numTokens := b.numTokens i
  numTokensNoSpec := b.numTokensNoSpec i
  numPromptTokens := b.numPromptTokens i
  numComputedTokens := b.numComputedTokensCpu i
  loraId := b.requestLoraMapping i
  blocks := b.blockTable.map (·.row i)

/-- A row of `maxModelLen` positions holds the request: its tokens as far as it reaches, its
numbers, its adapter and its blocks in every group. -/
structure RowData.Carries (heap : Heap) (maxModelLen : Nat) (d : RowData)
    (r : CachedRequestState F) : Prop where
  tokenIds : ∀ j t, r.tokenAt heap j = some t → j < maxModelLen → d.tokenIds j = t
  isTokenIds : ∀ j < r.numTokens heap, j < maxModelLen →
    d.isTokenIds j = (r.tokenAt heap j).isSome
  numTokens : d.numTokens = r.numTokens heap
  numTokensNoSpec : d.numTokensNoSpec = r.numTokens heap
  numPromptTokens : d.numPromptTokens = r.numPromptTokens
  numComputedTokens : d.numComputedTokens = r.numComputedTokens
  loraId : d.loraId = r.loraId
  blocks : ∀ (g : Nat) (row : BlockRow), d.blocks[g]? = some row →
    ∃ ids, r.blockIds[g]? = some ids ∧ row.Carries ids

lemma CachedRequestState.lt_of_tokenAt {heap : Heap} {r : CachedRequestState F} {j : Nat} {t : Int}
    (h : r.tokenAt heap j = some t) : j < r.numTokens heap := by
  unfold CachedRequestState.tokenAt at h
  unfold CachedRequestState.numTokens
  split_ifs at h with hj
  · omega
  · have := (List.getElem?_eq_some_iff.mp h).1
    omega

lemma assignSlice_apply {β : Type} {width start stop : Nat} {row row' : Nat → β} {values : List β}
    (h : assignSlice width row start stop values = .ok row')
    (hstop : stop = start + values.length) {j : Nat} :
    (∀ v, values[j - start]? = some v → start ≤ j → j < width → row' j = v) ∧
      (j < start ∨ stop ≤ j → row' j = row j) := by
  unfold assignSlice at h
  split_ifs at h with hlength
  · obtain rfl := Except.ok.inj h
    refine ⟨fun v hv hstart hwidth => ?_, fun hout => if_neg (by omega)⟩
    have hlt := (List.getElem?_eq_some_iff.mp hv).1
    show (if _ then _ else _) = v
    rw [if_pos ⟨hstart, by omega⟩, List.getD_eq_getElem?_getD, hv, Option.getD_some]
  · split at h
    · rename_i v
      obtain rfl := Except.ok.inj h
      refine ⟨fun v' hv hstart hwidth => ?_, fun hout => if_neg ?_⟩
      · have hlt := (List.getElem?_eq_some_iff.mp hv).1
        simp only [List.length_singleton] at hlt hstop hlength
        have hzero : j - start = 0 := by omega
        rw [hzero] at hv
        show (if _ then _ else _) = v'
        rw [if_pos ⟨hstart, by omega⟩]
        exact Option.some.inj hv
      · omega
    · cases h

namespace BlockTable

lemma appendRow_row {t t' : BlockTable} {blockIds : List Nat} {i : Nat}
    (h : t.appendRow blockIds i = .ok t') :
    t'.row i = ⟨t.maxNumBlocksPerReq, t.numBlocksPerRow i + blockIds.length, t'.blockTable i⟩ ∧
      (∀ k ≠ i, t'.row k = t.row k) ∧
      (∀ j < t.numBlocksPerRow i, t'.blockTable i j = t.blockTable i j) ∧
      ∀ j id, blockIds[j]? = some id → t.numBlocksPerRow i + j < t.maxNumBlocksPerReq →
        t'.blockTable i (t.numBlocksPerRow i + j) = id := by
  unfold appendRow at h
  split_ifs at h with hnil
  · obtain rfl := Except.ok.inj h
    subst hnil
    exact ⟨rfl, fun _ _ => rfl, fun _ _ => rfl, fun _ _ hid => nomatch hid⟩
  · obtain ⟨row, hrow, hret⟩ := bind_eq_ok.mp h
    obtain rfl := Except.ok.inj hret
    refine ⟨?_, fun k hk => ?_, fun j hj => ?_, fun j id hid hwidth => ?_⟩
    · simp [BlockTable.row]
    · simp [BlockTable.row, hk]
    · simpa using (assignSlice_apply hrow rfl).2 (Or.inl hj)
    · have happly := (assignSlice_apply hrow rfl (j := t.numBlocksPerRow i + j)).1 id
      simpa using happly (by rwa [Nat.add_sub_cancel_left]) (Nat.le_add_right _ _) hwidth

lemma addRow_row {t t' : BlockTable} {blockIds : List Nat} {i : Nat}
    (h : t.addRow blockIds i = .ok t') :
    (t'.row i).Carries blockIds ∧ ∀ k ≠ i, t'.row k = t.row k := by
  obtain ⟨hrow, hothers, -, hids⟩ := appendRow_row h
  simp only [Function.update_self, Nat.zero_add] at hrow hids
  refine ⟨⟨by rw [hrow], fun j id hid hwidth => ?_⟩, fun k hk => ?_⟩
  · rw [hrow] at hwidth ⊢
    exact hids j id hid hwidth
  · rw [hothers k hk]
    simp [BlockTable.row, hk]

lemma appendRow_carries {t t' : BlockTable} {blockIds old : List Nat} {i : Nat}
    (h : t.appendRow blockIds i = .ok t') (hold : (t.row i).Carries old) :
    (t'.row i).Carries (old ++ blockIds) := by
  obtain ⟨hrow, -, hkept, hids⟩ := appendRow_row h
  have hcount : t.numBlocksPerRow i = old.length := hold.count
  rw [hrow]
  refine ⟨by rw [hcount, List.length_append], fun j id hid hwidth => ?_⟩
  rcases Nat.lt_or_ge j old.length with hlt | hge
  · rw [List.getElem?_append_left hlt] at hid
    exact (hkept j (hcount ▸ hlt)).trans (hold.ids j id hid hwidth)
  · rw [List.getElem?_append_right hge] at hid
    have happended := hids (j - old.length) id hid (by rw [hcount, Nat.add_sub_cancel' hge]; exact hwidth)
    rwa [hcount, Nat.add_sub_cancel' hge] at happended

lemma moveRow_row {t : BlockTable} {src tgt : Nat} :
    (∀ k ≠ tgt, (t.moveRow src tgt).row k = t.row k) ∧
      ∀ ids, (t.row src).Carries ids → ((t.moveRow src tgt).row tgt).Carries ids := by
  refine ⟨fun k hk => by simp [row, moveRow, hk], fun ids h => ⟨?_, fun j id hid hwidth => ?_⟩⟩
  · simpa [row, moveRow] using h.count
  · have hlt : j < t.numBlocksPerRow src := by
      rw [show t.numBlocksPerRow src = ids.length from h.count]
      exact (List.getElem?_eq_some_iff.mp hid).1
    simpa [row, moveRow, copyFirst, hlt] using h.ids j id hid hwidth

lemma swapRow_row (t : BlockTable) (i j : Nat) : (t.swapRow i j).row = Rows.swap t.row i j := by
  funext k
  simp only [row, swapRow, Rows.swap_apply]
  split_ifs
  · rfl
  · rfl
  · rfl

end BlockTable

namespace MultiGroupBlockTable

variable {tables tables' : MultiGroupBlockTable} {blockIds : List (List Nat)}

lemma eachGroup_ok {op : BlockTable → List Nat → Except PyError BlockTable}
    (h : eachGroup op tables blockIds = .ok tables') (g : Nat) :
    (tables'[g]? = none ↔ tables[g]? = none) ∧ ∀ t', tables'[g]? = some t' →
      ∃ t ids, tables[g]? = some t ∧ blockIds[g]? = some ids ∧ op t ids = .ok t' := by
  induction tables generalizing blockIds tables' g with
  | nil =>
    obtain rfl := Except.ok.inj h
    exact ⟨Iff.rfl, fun t' ht' => nomatch ht'⟩
  | cons t tables ih =>
    cases blockIds with
    | nil => cases h
    | cons ids blockIds =>
      obtain ⟨t₁, hop, hrest⟩ := bind_eq_ok.mp h
      obtain ⟨tables₁, htables, hret⟩ := bind_eq_ok.mp hrest
      obtain rfl := Except.ok.inj hret
      cases g with
      | zero =>
        refine ⟨by simp, fun t' ht' => ⟨t, ids, rfl, rfl, ?_⟩⟩
        obtain rfl : t₁ = t' := by simpa using ht'
        exact hop
      | succ g => simpa using ih htables g

lemma addRow_rows {i : Nat} (h : tables.addRow blockIds i = .ok tables') :
    (∀ k ≠ i, tables'.map (·.row k) = tables.map (·.row k)) ∧
      ∀ (g : Nat) (row : BlockRow), (tables'.map (·.row i))[g]? = some row →
        ∃ ids, blockIds[g]? = some ids ∧ row.Carries ids := by
  refine ⟨fun k hk => List.ext_getElem? fun g => ?_, fun g row hrow => ?_⟩
  · obtain ⟨hnone, hsome⟩ := eachGroup_ok h g
    rw [List.getElem?_map, List.getElem?_map]
    cases ht' : tables'[g]? with
    | none => rw [hnone.mp ht']
    | some t' =>
      obtain ⟨t, ids, ht, -, hop⟩ := hsome t' ht'
      rw [ht, Option.map_some, Option.map_some, (BlockTable.addRow_row hop).2 k hk]
  · rw [List.getElem?_map, Option.map_eq_some_iff] at hrow
    obtain ⟨t', ht', rfl⟩ := hrow
    obtain ⟨t, ids, -, hids, hop⟩ := (eachGroup_ok h g).2 t' ht'
    exact ⟨ids, hids, (BlockTable.addRow_row hop).1⟩

lemma appendRow_rows {i : Nat} (h : tables.appendRow blockIds i = .ok tables') :
    (∀ k ≠ i, tables'.map (·.row k) = tables.map (·.row k)) ∧
      ∀ (g : Nat) (row : BlockRow), (tables'.map (·.row i))[g]? = some row →
        ∃ row₀ ids, (tables.map (·.row i))[g]? = some row₀ ∧ blockIds[g]? = some ids ∧
          ∀ old, row₀.Carries old → row.Carries (old ++ ids) := by
  refine ⟨fun k hk => List.ext_getElem? fun g => ?_, fun g row hrow => ?_⟩
  · obtain ⟨hnone, hsome⟩ := eachGroup_ok h g
    rw [List.getElem?_map, List.getElem?_map]
    cases ht' : tables'[g]? with
    | none => rw [hnone.mp ht']
    | some t' =>
      obtain ⟨t, ids, ht, -, hop⟩ := hsome t' ht'
      rw [ht, Option.map_some, Option.map_some, (BlockTable.appendRow_row hop).2.1 k hk]
  · rw [List.getElem?_map, Option.map_eq_some_iff] at hrow
    obtain ⟨t', ht', rfl⟩ := hrow
    obtain ⟨t, ids, ht, hids, hop⟩ := (eachGroup_ok h g).2 t' ht'
    exact ⟨t.row i, ids, by rw [List.getElem?_map, ht]; rfl, hids,
      fun old => BlockTable.appendRow_carries hop⟩

lemma moveRow_rows (tables : MultiGroupBlockTable) (src tgt : Nat) :
    (∀ k ≠ tgt, (tables.moveRow src tgt).map (·.row k) = tables.map (·.row k)) ∧
      ∀ (g : Nat) (row : BlockRow), ((tables.moveRow src tgt).map (·.row tgt))[g]? = some row →
        ∃ row', (tables.map (·.row src))[g]? = some row' ∧
          ∀ ids, row'.Carries ids → row.Carries ids := by
  refine ⟨fun k hk => ?_, fun g row hrow => ?_⟩
  · rw [moveRow, List.map_map]
    exact List.map_congr_left fun t _ => BlockTable.moveRow_row.1 k hk
  · rw [moveRow, List.map_map, List.getElem?_map, Option.map_eq_some_iff] at hrow
    obtain ⟨t, ht, rfl⟩ := hrow
    exact ⟨t.row src, by rw [List.getElem?_map, ht]; rfl, BlockTable.moveRow_row.2⟩

lemma swapRow_rows (tables : MultiGroupBlockTable) (i j : Nat) :
    (fun k => (tables.swapRow i j).map (·.row k)) =
      Rows.swap (fun k => tables.map (·.row k)) i j := by
  funext k
  simp only [swapRow, List.map_map, Rows.swap_apply]
  have hrow : ∀ t : BlockTable, (t.swapRow i j).row k = Rows.swap t.row i j k := fun t => by
    rw [BlockTable.swapRow_row]
  simp only [Function.comp_def, hrow, Rows.swap_apply]
  split_ifs
  · rfl
  · rfl
  · rfl

end MultiGroupBlockTable

end VllmV1.Worker
