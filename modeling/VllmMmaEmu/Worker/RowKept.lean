import VllmMmaEmu.Worker.RowLinks

/-!
# Rows keep their requests

The invariant of the batch between two operations, and how an operation that removes, adds or
swaps keeps it.
-/

namespace VllmV1.Worker

open Python

variable {F : Type} {fl : FloatOps F} {heap : Heap}

namespace InputBatch

variable {b b' s : InputBatch F} {rows : Seats F} {r : CachedRequestState F} {i j : Nat}

/-- The requests on the rows are named, counted with their adapters, and have their data. -/
structure Kept (heap : Heap) (b : InputBatch F) (rows : Seats F) : Prop where
  linked : Linked b.reqIds b.reqOutputTokenIds b.reqIdToIndex rows
  lora : LoraLinked b.loraIdToRequestIds rows
  data : Rows.Agrees (Rows.Occupied (RowData.Carries heap b.maxModelLen)) rows b.rowData

/-- While requests are removed and added, the empty rows are the removed ones. -/
structure Open (heap : Heap) (b : InputBatch F) (rows : Seats F) : Prop extends
    Kept heap b rows where
  holes : Rows.Holes rows b.reqIds.length b.numReqs b.batchUpdateBuilder.removed
  lt : ∀ i ∈ b.batchUpdateBuilder.removed, i < b.reqIds.length
  descending : b.batchUpdateBuilder.Descending

/-- The requests are on the first rows. -/
structure Settled (heap : Heap) (b : InputBatch F) (rows : Seats F) : Prop extends
    Kept heap b rows where
  length : b.reqIds.length = b.numReqs
  full : Rows.Full rows b.numReqs

lemma Kept.withSampling (h : Kept heap b rows) : Kept heap (b.withSampling s) rows :=
  ⟨h.linked, h.lora, h.data⟩

lemma Open.withSampling (h : Open heap b rows) : Open heap (b.withSampling s) rows :=
  ⟨h.toKept.withSampling, h.holes, h.lt, h.descending⟩

lemma Settled.withSampling (h : Settled heap b rows) : Settled heap (b.withSampling s) rows :=
  ⟨h.toKept.withSampling, h.length, h.full⟩

lemma Kept.carries (h : Kept heap b rows) (hi : rows i = some r) :
    (b.rowData i).Carries heap b.maxModelLen r := h.data i r hi

lemma Kept.get?_reqId (h : Kept heap b rows) (hi : rows i = some r) :
    b.reqIdToIndex.get? r.reqId = some i := h.linked.get?_eq_some.mpr ⟨r, hi, rfl⟩

lemma loraId_eq_iff {l : Nat} (hl : l ≠ 0) :
    r.loraId = l ↔ r.loraRequest.map (·.loraIntId) = some l := by
  unfold CachedRequestState.loraId
  cases r.loraRequest.map (·.loraIntId) with
  | none => simp [Ne.symm hl]
  | some l' => simp

lemma Kept.lora_found (h : Kept heap b rows) (hi : rows i = some r)
    (hne : b.requestLoraMapping i ≠ 0) :
    ∃ ids, b.loraIdToRequestIds.get? (b.requestLoraMapping i) = some ids := by
  have hlora : b.requestLoraMapping i = r.loraId := (h.carries hi).loraId
  rw [hlora] at hne ⊢
  have hmem := (h.lora.ids r.loraId r.reqId).mpr
    ⟨r, ⟨i, hi⟩, rfl, (loraId_eq_iff hne).mp rfl⟩
  cases hget : b.loraIdToRequestIds.get? r.loraId with
  | none =>
    rw [hget] at hmem
    exact absurd hmem (Finset.notMem_empty _)
  | some ids => exact ⟨ids, rfl⟩

lemma Kept.withoutRow (h : Kept heap b rows) (hi : rows i = some r)
    {loraIds : Dict Nat (Finset String)}
    (hids : ∀ l id, id ∈ (loraIds.get? l).getD ∅ ↔ id ∈ (b.loraIdToRequestIds.get? l).getD ∅ ∧
      (b.requestLoraMapping i = l → l ≠ 0 → id ≠ r.reqId))
    (hnonempty : ∀ l, loraIds.get? l ≠ some ∅) :
    Kept heap (b.withoutRow i r.reqId loraIds) (Function.update rows i none) := by
  refine ⟨h.linked.remove hi, h.lora.remove hi ?_ (fun l id => ?_) hnonempty, ?_⟩
  · exact fun k r' hk hid => h.linked.unique hk hi hid
  · have hlora : b.requestLoraMapping i = r.loraId := (h.carries hi).loraId
    refine (hids l id).trans ?_
    rw [hlora]
    refine and_congr_right fun _ => ⟨fun himp hl => ?_, fun himp hl hne => ?_⟩
    · obtain ⟨lora, hlora', rfl⟩ := Option.map_eq_some_iff.mp hl
      have hne := lora.pos.ne'
      exact himp ((loraId_eq_iff hne).mpr hl) hne
    · exact himp ((loraId_eq_iff hne).mp hl)
  · refine h.data.of_update (fun k hk => ?_) Rows.Occupied.none
    simp [rowData, InputBatch.withoutRow, hk]

/-- A request of the batch is removed, and its row is empty. -/
lemma Open.remove (h : Open heap b rows) (hsorted : b.batchUpdateBuilder.isRemovedSorted = false)
    (hi : rows i = some r) :
    ∃ loraIds, b.removeRequest r.reqId =
        .ok (if b.isPoolingModel then b.withoutRow i r.reqId loraIds
          else (b.withoutRow i r.reqId loraIds).removeSampling i) ∧
      Open heap (b.withoutRow i r.reqId loraIds) (Function.update rows i none) := by
  have hget := h.get?_reqId hi
  obtain ⟨loraIds, hremove, hids, hnonempty⟩ :=
    removeRequest_ok hget hsorted h.lora.nonempty (h.lora_found hi)
  refine ⟨loraIds, hremove, h.toKept.withoutRow hi hids hnonempty, ?_, ?_, ?_⟩
  · show Rows.Holes _ (b.reqIds.set i none).length _ (b.batchUpdateBuilder.removed ++ [i])
    rw [List.length_set]
    refine Rows.Holes.leave ?_ hi
    rw [show (b.withoutRow i r.reqId loraIds).numReqs + 1 = b.numReqs from Dict.length_erase hget]
    exact h.holes
  · intro k hk
    show k < (b.reqIds.set i none).length
    rw [List.length_set]
    rcases List.mem_append.mp hk with hk | hk
    · exact h.lt k hk
    · rw [List.mem_singleton.mp hk]
      exact h.linked.lt_length hi
  · intro hs
    rw [show (b.withoutRow i r.reqId loraIds).batchUpdateBuilder.isRemovedSorted = false from hsorted]
      at hs
    cases hs

/-- The row that the next request takes. -/
def nextRow (b : InputBatch F) : Nat := b.batchUpdateBuilder.popRemoved.1.getD b.numReqs

lemma addLora_withSampling (lora : Option LoRARequest) (reqId : String) :
    (b.withSampling s).addLora i reqId lora = (b.addLora i reqId lora).withSampling s := by
  cases lora with
  | none => rfl
  | some lora => rfl

lemma addRequest_row (h : b.addRequest fl heap r = .ok b') :
    ∃ row isRow tables s, b.nextRow < b.maxNumReqs ∧
      (∀ j t, r.tokenAt heap j = some t → j < b.maxModelLen → row j = t) ∧
      (∀ j < r.numTokens heap, isRow j = (r.tokenAt heap j).isSome) ∧
      b.blockTable.addRow r.blockIds b.nextRow = .ok tables ∧
      b' = ((b.withRow heap b.nextRow r row isRow tables).addLora b.nextRow r.reqId
        r.loraRequest).withSampling s := by
  obtain ⟨i, row, isRow, tables, s, rfl, hlt, hrow, hisRow, htables, hparams, rfl⟩ :=
    addRequest_ok h
  refine ⟨row, isRow, tables, { s with
    numAcceptedTokensCpu := Function.update s.numAcceptedTokensCpu b.nextRow 1 },
    hlt, hrow, hisRow, htables, ?_⟩
  rw [← addLora_withSampling]
  congr 1
  rw [addParams_frame hparams]
  rfl

lemma withRow_rowData {row : Nat → Int} {isRow : Nat → Bool} {tables : MultiGroupBlockTable}
    (hrow : ∀ j t, r.tokenAt heap j = some t → j < b.maxModelLen → row j = t)
    (hisRow : ∀ j < r.numTokens heap, isRow j = (r.tokenAt heap j).isSome)
    (htables : b.blockTable.addRow r.blockIds i = .ok tables) :
    let b' := (b.withRow heap i r row isRow tables).addLora i r.reqId r.loraRequest
    (∀ k, k ≠ i → b'.rowData k = b.rowData k) ∧
      (b'.rowData i).Carries heap b.maxModelLen r := by
  obtain ⟨hothers, hblocks⟩ := MultiGroupBlockTable.addRow_rows htables
  have hlora : ((b.withRow heap i r row isRow tables).addLora i r.reqId
      r.loraRequest).requestLoraMapping = Function.update b.requestLoraMapping i r.loraId := by
    rw [CachedRequestState.loraId]
    cases r.loraRequest with
    | none => rfl
    | some lora => rfl
  have hrest : ∀ k, ((b.withRow heap i r row isRow tables).addLora i r.reqId
      r.loraRequest).rowData k = ⟨Function.update b.tokenIdsCpu i row k,
        Function.update b.isTokenIds i isRow k, Function.update b.numTokens i (r.numTokens heap) k,
        Function.update b.numTokensNoSpec i (r.numTokens heap) k,
        Function.update b.numPromptTokens i r.numPromptTokens k,
        Function.update b.numComputedTokensCpu i r.numComputedTokens k,
        Function.update b.requestLoraMapping i r.loraId k, tables.map (·.row k)⟩ := by
    intro k
    rw [← hlora]
    cases r.loraRequest with
    | none => rfl
    | some lora => rfl
  refine ⟨fun k hk => ?_, ?_⟩
  · rw [hrest]
    simp only [Function.update_of_ne hk, hothers k hk]
    rfl
  · rw [hrest]
    simp only [Function.update_self]
    exact ⟨hrow, fun j hj _ => hisRow j hj, rfl, rfl, rfl, rfl, rfl, hblocks⟩

lemma Kept.addRow (h : Kept heap b rows) (hempty : rows i = none) (hi : i ≤ b.reqIds.length)
    (hnew : b.reqIdToIndex.get? r.reqId = none)
    {row : Nat → Int} {isRow : Nat → Bool} {tables : MultiGroupBlockTable}
    (hrow : ∀ j t, r.tokenAt heap j = some t → j < b.maxModelLen → row j = t)
    (hisRow : ∀ j < r.numTokens heap, isRow j = (r.tokenAt heap j).isSome)
    (htables : b.blockTable.addRow r.blockIds i = .ok tables) :
    Kept heap ((b.withRow heap i r row isRow tables).addLora i r.reqId r.loraRequest)
      (Function.update rows i (some r)) := by
  obtain ⟨hothers, hcarries⟩ := withRow_rowData hrow hisRow htables
  refine ⟨?_, ?_, ?_⟩
  · have hlinked : Linked (b.addIds i r).reqIds (b.addIds i r).reqOutputTokenIds
        (b.reqIdToIndex.set r.reqId i) (Function.update rows i (some r)) := by
      simp only [addIds]
      split_ifs with hlast
      · subst hlast
        exact h.linked.extend hempty hnew
      · exact h.linked.fill hempty (by omega) hnew
    cases r.loraRequest with
    | none => exact hlinked
    | some lora => exact hlinked
  · cases hlora : r.loraRequest with
    | none => exact h.lora.add_none hempty hlora
    | some lora => exact h.lora.add_some hempty hlora
  · have hlen : ((b.withRow heap i r row isRow tables).addLora i r.reqId
        r.loraRequest).maxModelLen = b.maxModelLen := by
      cases r.loraRequest with
      | none => rfl
      | some lora => rfl
    rw [hlen]
    exact h.data.of_update hothers (Rows.Occupied.some hcarries)

lemma Open.nextRow_ok (h : Open heap b rows) :
    rows b.nextRow = none ∧ b.nextRow ≤ b.reqIds.length ∧
      b.batchUpdateBuilder.popRemoved.2.Descending ∧
      (∀ k ∈ b.batchUpdateBuilder.popRemoved.2.removed, k < b.reqIds.length) ∧
      ∀ r, Rows.Holes (Function.update rows b.nextRow (some r))
        (if b.nextRow = b.reqIds.length then b.reqIds.length + 1 else b.reqIds.length)
        (b.numReqs + 1) b.batchUpdateBuilder.popRemoved.2.removed := by
  unfold nextRow
  by_cases hnil : b.batchUpdateBuilder.removed = []
  · have hholes := h.holes
    rw [hnil] at hholes
    have hlen : b.numReqs = b.reqIds.length := by simpa using hholes.count
    rw [BatchUpdateBuilder.popRemoved_nil hnil, Option.getD_none, hlen, if_pos rfl, hnil]
    rw [hlen] at hholes
    exact ⟨hholes.outside _ le_rfl, le_rfl, h.descending, by simp, fun r => hholes.extend⟩
  · obtain ⟨e, l, hpop, hperm, -, hpairwise⟩ :=
      BatchUpdateBuilder.popRemoved_ok h.descending hnil
    have hlt : e < b.reqIds.length := h.lt e (hperm.symm.subset (List.mem_cons_self ..))
    have hholes := h.holes.perm hperm
    rw [hpop, Option.getD_some, if_neg hlt.ne]
    refine ⟨?_, hlt.le, fun _ => hpairwise, fun k hk => ?_, fun r => hholes.fill hlt⟩
    · exact (hholes.empty e hlt).mpr (List.mem_cons_self ..)
    · exact h.lt k (hperm.symm.subset (List.mem_cons_of_mem _ hk))

/-- The builder, the lists and the index that `addLora` leaves. -/
lemma addLora_frame (lora : Option LoRARequest) (reqId : String) :
    (b.addLora i reqId lora).batchUpdateBuilder = b.batchUpdateBuilder ∧
      (b.addLora i reqId lora).reqIds = b.reqIds ∧
      (b.addLora i reqId lora).reqIdToIndex = b.reqIdToIndex := by
  cases lora with
  | none => exact ⟨rfl, rfl, rfl⟩
  | some lora => exact ⟨rfl, rfl, rfl⟩

/-- A request that is not in the batch is added, on the next row. -/
lemma Open.add (h : Open heap b rows) (hnew : b.reqIdToIndex.get? r.reqId = none)
    (hadd : b.addRequest fl heap r = .ok b') :
    Open heap b' (Function.update rows b.nextRow (some r)) := by
  obtain ⟨row, isRow, tables, s, -, hrow, hisRow, htables, rfl⟩ := addRequest_row hadd
  obtain ⟨hempty, hle, hdescending, hlt, hholes⟩ := h.nextRow_ok
  obtain ⟨hbuilder, hids, hindex⟩ := addLora_frame (i := b.nextRow)
    (b := b.withRow heap b.nextRow r row isRow tables) r.loraRequest r.reqId
  have hlength : (b.addIds b.nextRow r).reqIds.length =
      if b.nextRow = b.reqIds.length then b.reqIds.length + 1 else b.reqIds.length := by
    simp only [addIds]
    split_ifs
    · exact List.length_append
    · exact List.length_set
  refine Open.withSampling ⟨h.toKept.addRow hempty hle hnew hrow hisRow htables, ?_, ?_, ?_⟩
  · rw [hbuilder, hids, numReqs, hindex]
    have hnum : (b.reqIdToIndex.set r.reqId b.nextRow).entries.length = b.numReqs + 1 :=
      Dict.length_set_new hnew b.nextRow
    show Rows.Holes _ (b.addIds b.nextRow r).reqIds.length
      (b.reqIdToIndex.set r.reqId b.nextRow).entries.length _
    rw [hnum, hlength]
    exact hholes r
  · rw [hbuilder, hids]
    intro k hk
    show k < (b.addIds b.nextRow r).reqIds.length
    have hk' := hlt k hk
    rw [hlength]
    split_ifs
    · omega
    · exact hk'
  · rw [hbuilder]
    exact hdescending

lemma rowData_withRowsSwapped (b : InputBatch F) (i j : Nat) :
    (b.withRowsSwapped i j).rowData = Rows.swap b.rowData i j := by
  have hblocks := congrFun (MultiGroupBlockTable.swapRow_rows b.blockTable i j)
  funext k
  simp only [Rows.swap_apply] at hblocks ⊢
  simp only [rowData, withRowsSwapped, Rows.swap_apply, hblocks]
  split_ifs
  · rfl
  · rfl
  · rfl

/-- The batch after the names of two rows were exchanged. -/
def withIdsSwapped (b : InputBatch F) (i j : Nat) (r₁ r₂ : CachedRequestState F) : InputBatch F :=
  { b with
    reqIds := (b.reqIds.set i (some r₂.reqId)).set j (some r₁.reqId)
    reqOutputTokenIds :=
      (b.reqOutputTokenIds.set i (some r₂.outputTokenIds)).set j (some r₁.outputTokenIds)
    reqIdToIndex := (b.reqIdToIndex.set r₁.reqId j).set r₂.reqId i }

lemma Kept.swapStates (h : Kept heap b rows) (hswap : b.swapStates i j = .ok b') :
    ∃ r₁ r₂, rows i = some r₁ ∧ rows j = some r₂ ∧
      b' = if b.isPoolingModel then (b.withIdsSwapped i j r₁ r₂).withRowsSwapped i j
        else ((b.withIdsSwapped i j r₁ r₂).withRowsSwapped i j).swapSampling i j := by
  obtain ⟨b₁, hids, hb'⟩ := swapStates_ok hswap
  obtain ⟨id₁, id₂, h₁, h₂⟩ := swapIds_error hids
  obtain ⟨r₁, hr₁, rfl⟩ := h.linked.exists_of_getElem? h₁
  obtain ⟨r₂, hr₂, rfl⟩ := h.linked.exists_of_getElem? h₂
  rw [swapIds_ok h₁ h₂ (h.linked.getElem?_outputs hr₁) (h.linked.getElem?_outputs hr₂)
    (h.get?_reqId hr₁) (h.get?_reqId hr₂)] at hids
  obtain rfl := Except.ok.inj hids
  exact ⟨r₁, r₂, hr₁, hr₂, hb'⟩

lemma Settled.swapRows (h : Settled heap b rows) {r₁ r₂ : CachedRequestState F}
    (hi : rows i = some r₁) (hj : rows j = some r₂) :
    Settled heap ((b.withIdsSwapped i j r₁ r₂).withRowsSwapped i j) (Rows.swap rows i j) := by
  have hnum : ((b.withIdsSwapped i j r₁ r₂).withRowsSwapped i j).numReqs = b.numReqs := by
    show ((b.reqIdToIndex.set r₁.reqId j).set r₂.reqId i).entries.length = _
    have hfirst := Dict.length_set (h.get?_reqId hi) j
    by_cases hid : r₁.reqId = r₂.reqId
    · rw [← hid, Dict.length_set (Dict.get?_set_self _ _ _), hfirst]
      rfl
    · rw [Dict.length_set (w := j) ?_, hfirst]
      · rfl
      · rw [Dict.get?_set_of_ne hid]
        exact h.get?_reqId hj
  refine ⟨⟨h.linked.swap hi hj, h.lora.rearrange fun r => Rows.seated_swap, ?_⟩, ?_, ?_⟩
  · rw [rowData_withRowsSwapped]
    exact h.data.swap i j
  · rw [hnum, ← h.length]
    show ((b.reqIds.set i _).set j _).length = _
    rw [List.length_set, List.length_set]
  · rw [hnum]
    exact h.full.update_swap (h.full.isSome_iff.mp ⟨r₁, hi⟩) (h.full.isSome_iff.mp ⟨r₂, hj⟩)

lemma Settled.swap (h : Settled heap b rows) (hswap : b.swapStates i j = .ok b') :
    Settled heap b' (Rows.swap rows i j) := by
  obtain ⟨r₁, r₂, hi, hj, rfl⟩ := h.toKept.swapStates hswap
  have hrows := h.swapRows hi hj
  split_ifs
  · exact hrows
  · rw [swapSampling_frame]
    exact hrows.withSampling

end InputBatch

end VllmV1.Worker
