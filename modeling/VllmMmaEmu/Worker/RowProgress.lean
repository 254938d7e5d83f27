import VllmMmaEmu.Worker.RowKept

/-!
# Steps of the model runner and the requests on their way

What `_update_states` and `_bookkeeping_sync` of `vllm/v1/worker/gpu_model_runner.py` do with
the batch, as a state machine: a step removes requests, brings running ones up to date, adds
requests, condenses, swaps rows, and refreshes. Sampled tokens and the numbers of accepted
ones are recorded between two steps. A request that stays on its row gets blocks and tokens: the
row follows, and no other row changes.
-/

namespace VllmV1.Worker

open Python

variable {F : Type}

/-- `for block_ids, new_ids in zip(...): block_ids.extend(new_ids)`. -/
def extendBlocks : List (List Nat) → List (List Nat) → List (List Nat)
  | ids :: blockIds, newIds :: newBlockIds => (ids ++ newIds) :: extendBlocks blockIds newBlockIds
  | blockIds, _ => blockIds

namespace InputBatch

/-- A batch as `__init__` leaves it. Arrays that are not initialised have any entries. -/
structure Fresh (fl : FloatOps F) (b : InputBatch F) : Prop where
  reqIds : b.reqIds = []
  reqIdToIndex : b.reqIdToIndex = Dict.empty
  reqPromptEmbeds : b.reqPromptEmbeds = Dict.empty
  numAcceptedTokensCpu : b.numAcceptedTokensCpu = fun _ => 1
  requestLoraMapping : b.requestLoraMapping = fun _ => 0
  loraIdToRequestIds : b.loraIdToRequestIds = Dict.empty
  generators : b.generators = Dict.empty
  batchUpdateBuilder : b.batchUpdateBuilder = {}
  allowedTokenIdsMaskCpuTensor : b.allowedTokenIdsMaskCpuTensor = none
  badWordsTokenIds : b.badWordsTokenIds = Dict.empty
  logitsProcessingNeedsTokenIds : b.logitsProcessingNeedsTokenIds = fun _ => false
  reqOutputTokenIds : b.reqOutputTokenIds = []
  logitsprocs : b.logitsprocs = .init fl

/-- A running request is brought up to date on its row. -/
def advance (b : InputBatch F) (reqIndex numComputedTokens : Nat)
    (newBlockIds : Option (List (List Nat))) : Except PyError (InputBatch F) := do
  let b := { b with
    numComputedTokensCpu := Function.update b.numComputedTokensCpu reqIndex numComputedTokens }
  match newBlockIds with
  | none => return b
  | some ids => do
    let blockTable ← b.blockTable.appendRow ids reqIndex
    return { b with blockTable := blockTable }

end InputBatch

/-- How far a step has come. -/
inductive Stage where
  | ready
  | removing
  | adding
  | condensed
  deriving DecidableEq, Repr

/-- The batch, the contents of the token lists, and the runner's `requests`. The numbers of
accepted tokens that were last recorded for the requests are kept to be compared with the
batch. -/
structure Session (F : Type) where
  batch : InputBatch F
  heap : Heap
  requests : String → Option (CachedRequestState F)
  numAccepted : String → Nat
  stage : Stage

inductive Op (F : Type) where
  | remove (reqId : String)
  | advance (reqId : String) (numComputedTokens : Nat) (newBlockIds : Option (List (List Nat)))
  | add (request : CachedRequestState F)
  | condense
  | swap (i1 i2 : Nat)
  | refresh
  | sampled (reqIdx : Nat) (sampledIds : List Int)
  | accepted (numAcceptedTokens : List Nat)

namespace Session

/-- The runner's state of the request on a row. -/
def requestAt (s : Session F) (i : Nat) : Option (CachedRequestState F) :=
  (s.batch.reqIds[i]?.join).bind s.requests

def step (fl : FloatOps F) (s : Session F) : Op F → Except PyError (Session F)
  | .remove reqId => do
    let batch ← s.batch.removeRequest reqId
    return { s with batch := batch, stage := .removing }
  | .advance reqId numComputedTokens newBlockIds => do
    let reqIndex ← s.batch.reqIdToIndex.getItem reqId
    let batch ← s.batch.advance reqIndex numComputedTokens newBlockIds
    return { s with
      batch := batch
      requests := Function.update s.requests reqId ((s.requests reqId).map fun r => { r with
        numComputedTokens := numComputedTokens
        blockIds := match newBlockIds with
          | some ids => extendBlocks r.blockIds ids
          | none => r.blockIds })
      stage := .removing }
  | .add request => do
    let batch ← s.batch.addRequest fl s.heap request
    return { s with
      batch := batch
      requests := Function.update s.requests request.reqId (some request)
      numAccepted := Function.update s.numAccepted request.reqId 1
      stage := .adding }
  | .condense => do
    let batch ← s.batch.condense
    return { s with batch := batch, stage := .condensed }
  | .swap i1 i2 => do
    let batch ← s.batch.swapStates i1 i2
    return { s with batch := batch }
  | .refresh => .ok { s with batch := s.batch.refreshMetadata fl s.heap, stage := .ready }
  | .sampled reqIdx sampledIds =>
    match s.requestAt reqIdx with
    | none => .error .keyError
    | some r => do
      let batch ← s.batch.recordSampled reqIdx sampledIds
      return { s with
        batch := batch
        heap := Function.update s.heap r.outputTokenIds (s.heap r.outputTokenIds ++ sampledIds) }
  | .accepted numAcceptedTokens => .ok { s with
      batch := s.batch.recordAccepted numAcceptedTokens
      numAccepted := fun reqId => match s.batch.reqIdToIndex.get? reqId with
        | some i => numAcceptedTokens.getD i (s.numAccepted reqId)
        | none => s.numAccepted reqId }

/-- The order of a step, and what the runner adds: requests that are not in the batch, each
with a list of output tokens of its own. -/
def Ordered (s : Session F) : Op F → Prop
  | .remove _ => s.stage = .ready ∨ s.stage = .removing
  | .advance _ _ _ => s.stage = .ready ∨ s.stage = .removing
  | .add request => s.stage ≠ .condensed ∧ s.batch.reqIdToIndex.get? request.reqId = none ∧
      some request.outputTokenIds ∉ s.batch.reqOutputTokenIds
  | .condense => s.stage ≠ .condensed
  | .swap _ _ => s.stage = .condensed
  | .refresh => s.stage = .condensed
  | .sampled _ sampledIds => s.stage = .ready ∧ sampledIds ≠ []
  | .accepted _ => s.stage = .ready

instance (s : Session F) : (op : Op F) → Decidable (s.Ordered op)
  | .remove _ => inferInstanceAs (Decidable (s.stage = .ready ∨ s.stage = .removing))
  | .advance _ _ _ => inferInstanceAs (Decidable (s.stage = .ready ∨ s.stage = .removing))
  | .add request => inferInstanceAs (Decidable (s.stage ≠ .condensed ∧
      s.batch.reqIdToIndex.get? request.reqId = none ∧
      some request.outputTokenIds ∉ s.batch.reqOutputTokenIds))
  | .condense => inferInstanceAs (Decidable (s.stage ≠ .condensed))
  | .swap _ _ => inferInstanceAs (Decidable (s.stage = .condensed))
  | .refresh => inferInstanceAs (Decidable (s.stage = .condensed))
  | .sampled _ sampledIds => inferInstanceAs (Decidable (s.stage = .ready ∧ sampledIds ≠ []))
  | .accepted _ => inferInstanceAs (Decidable (s.stage = .ready))

/-- A runner with a fresh batch. -/
structure Start (fl : FloatOps F) (s : Session F) : Prop where
  batch : s.batch.Fresh fl
  stage : s.stage = .ready

end Session

variable {fl : FloatOps F} {heap : Heap}

lemma getElem?_extendBlocks {blockIds newBlockIds : List (List Nat)} {g : Nat} {ids newIds : List Nat}
    (hids : blockIds[g]? = some ids) (hnew : newBlockIds[g]? = some newIds) :
    (extendBlocks blockIds newBlockIds)[g]? = some (ids ++ newIds) := by
  induction blockIds generalizing newBlockIds g with
  | nil => cases hids
  | cons ids' blockIds ih =>
    cases newBlockIds with
    | nil => cases hnew
    | cons newIds' newBlockIds =>
      cases g with
      | zero =>
        obtain rfl := Option.some.inj hids
        obtain rfl := Option.some.inj hnew
        rfl
      | succ g => exact ih hids hnew

/-- The request after the runner brought it up to date. -/
def CachedRequestState.advanced (r : CachedRequestState F) (numComputedTokens : Nat)
    (newBlockIds : Option (List (List Nat))) : CachedRequestState F :=
  { r with
    numComputedTokens := numComputedTokens
    blockIds := match newBlockIds with
      | some ids => extendBlocks r.blockIds ids
      | none => r.blockIds }

namespace InputBatch

variable {b b' : InputBatch F} {rows : Seats F} {r : CachedRequestState F} {i : Nat}

lemma advance_ok {n : Nat} {newBlockIds : Option (List (List Nat))}
    (h : b.advance i n newBlockIds = .ok b') :
    ∃ tables, b' = { b with
        numComputedTokensCpu := Function.update b.numComputedTokensCpu i n
        blockTable := tables } ∧
      (∀ k, k ≠ i → tables.map (·.row k) = b.blockTable.map (·.row k)) ∧
      ∀ (g : Nat) (row : BlockRow), (tables.map (·.row i))[g]? = some row → ∀ blockIds,
        (∀ (g : Nat) (row : BlockRow), (b.blockTable.map (·.row i))[g]? = some row →
          ∃ ids, blockIds[g]? = some ids ∧ row.Carries ids) →
        ∃ ids, (match newBlockIds with
          | some new => extendBlocks blockIds new
          | none => blockIds)[g]? = some ids ∧ row.Carries ids := by
  cases newBlockIds with
  | none =>
    obtain rfl := Except.ok.inj h
    exact ⟨b.blockTable, rfl, fun _ _ => rfl, fun g row hrow blockIds hblocks =>
      hblocks g row hrow⟩
  | some new =>
    obtain ⟨tables, htables, hret⟩ := bind_eq_ok.mp h
    obtain rfl := Except.ok.inj hret
    obtain ⟨hothers, hrows⟩ := MultiGroupBlockTable.appendRow_rows htables
    refine ⟨tables, rfl, hothers, fun g row hrow blockIds hblocks => ?_⟩
    obtain ⟨row₀, newIds, hrow₀, hnew, hcarries⟩ := hrows g row hrow
    obtain ⟨ids, hids, hold⟩ := hblocks g row₀ hrow₀
    exact ⟨ids ++ newIds, getElem?_extendBlocks hids hnew, hcarries ids hold⟩

lemma Open.advance (h : Open heap b rows) {n : Nat} {newBlockIds : Option (List (List Nat))}
    (hi : rows i = some r) (hadvance : b.advance i n newBlockIds = .ok b') :
    Open heap b' (Function.update rows i (some (r.advanced n newBlockIds))) := by
  obtain ⟨tables, rfl, hothers, hrows⟩ := advance_ok hadvance
  have hcarries := h.carries hi
  refine ⟨⟨h.linked.replace hi rfl rfl, h.lora.replace hi rfl rfl,
    h.data.of_update (fun k hk => ?_) (Rows.Occupied.some ?_)⟩, h.holes.replace hi, h.lt,
    h.descending⟩
  · simp [rowData, hk, hothers k hk]
  · exact ⟨hcarries.tokenIds, hcarries.isTokenIds, hcarries.numTokens, hcarries.numTokensNoSpec,
      hcarries.numPromptTokens, Function.update_self .., hcarries.loraId,
      fun g row hrow => hrows g row hrow r.blockIds hcarries.blocks⟩

/-- The contents of the lists after a list was extended. -/
def extendList (heap : Heap) (l : ListRef) (ids : List Int) : Heap :=
  Function.update heap l (heap l ++ ids)

lemma carries_extendList_of_ne {d : RowData} {maxModelLen : Nat} {l : ListRef} {ids : List Int}
    (h : d.Carries heap maxModelLen r) (hne : r.outputTokenIds ≠ l) :
    d.Carries (extendList heap l ids) maxModelLen r := by
  have hlist : extendList heap l ids r.outputTokenIds = heap r.outputTokenIds :=
    Function.update_of_ne hne ..
  have htoken : r.tokenAt (extendList heap l ids) = r.tokenAt heap := by
    funext j
    rw [CachedRequestState.tokenAt, CachedRequestState.tokenAt, hlist]
  have hnum : r.numTokens (extendList heap l ids) = r.numTokens heap := by
    rw [CachedRequestState.numTokens, CachedRequestState.numTokens, hlist]
  refine ⟨?_, ?_, ?_, ?_, h.numPromptTokens, h.numComputedTokens, h.loraId, h.blocks⟩
  · rw [htoken]
    exact h.tokenIds
  · rw [htoken, hnum]
    exact h.isTokenIds
  · rw [hnum]
    exact h.numTokens
  · rw [hnum]
    exact h.numTokensNoSpec

lemma recordSampled_ok {ids : List Int} (h : b.recordSampled i ids = .ok b') :
    ∃ row, assignSlice b.maxModelLen (b.tokenIdsCpu i) (b.numTokensNoSpec i)
        (b.numTokensNoSpec i + ids.length) ids = .ok row ∧
      b' = { b with
        tokenIdsCpu := Function.update b.tokenIdsCpu i row
        isTokenIds := Function.update b.isTokenIds i fun j =>
          if b.numTokensNoSpec i ≤ j ∧ j < b.numTokensNoSpec i + ids.length then true
          else b.isTokenIds i j
        numTokensNoSpec := Function.update b.numTokensNoSpec i (b.numTokensNoSpec i + ids.length)
        numTokens := Function.update b.numTokens i (b.numTokensNoSpec i + ids.length) } := by
  obtain ⟨-, -, hrest⟩ := bind_eq_ok.mp h
  obtain ⟨row, hrow, hret⟩ := bind_eq_ok.mp hrest
  exact ⟨row, hrow, (Except.ok.inj hret).symm⟩

/-- Sampled tokens are appended to the request's list and to its row. -/
lemma Kept.recordSampled (h : Kept heap b rows) {ids : List Int} (hi : rows i = some r)
    (hunshared : ∀ k q, rows k = some q → q.outputTokenIds = r.outputTokenIds → k = i)
    (hsampled : b.recordSampled i ids = .ok b') :
    Kept (extendList heap r.outputTokenIds ids) b' rows := by
  obtain ⟨row, hrow, rfl⟩ := recordSampled_ok hsampled
  refine ⟨h.linked, h.lora, fun k q hk => ?_⟩
  by_cases hki : k = i
  · subst hki
    obtain rfl := Option.some.inj (hi.symm.trans hk)
    have hcarries := h.carries hi
    have hstart : b.numTokensNoSpec k = r.numTokens heap := hcarries.numTokensNoSpec
    have hlist : extendList heap r.outputTokenIds ids r.outputTokenIds =
        heap r.outputTokenIds ++ ids := Function.update_self ..
    have hnum : r.numTokens (extendList heap r.outputTokenIds ids) =
        r.numTokens heap + ids.length := by
      rw [CachedRequestState.numTokens, CachedRequestState.numTokens, hlist, List.length_append,
        Nat.add_assoc]
    have htoken : ∀ j, r.tokenAt (extendList heap r.outputTokenIds ids) j =
        if j < r.numTokens heap then r.tokenAt heap j else ids[j - r.numTokens heap]? := by
      intro j
      rw [CachedRequestState.tokenAt, CachedRequestState.tokenAt, CachedRequestState.numTokens, hlist]
      split_ifs with hprompt hlt hlt
      · rfl
      · omega
      · rw [List.getElem?_append_left (by omega)]
      · rw [List.getElem?_append_right (by omega)]
        congr 1
        omega
    have happly := fun j => assignSlice_apply hrow rfl (j := j)
    refine ⟨fun j t ht hj => ?_, fun j hj hmax => ?_, ?_, ?_, hcarries.numPromptTokens,
      hcarries.numComputedTokens, hcarries.loraId, hcarries.blocks⟩
    · simp only [rowData, Function.update_self]
      rw [htoken] at ht
      split_ifs at ht with hlt
      · rw [(happly j).2 (Or.inl (hstart ▸ hlt))]
        exact hcarries.tokenIds j t ht hj
      · rw [← hstart] at ht hlt
        exact (happly j).1 t ht (Nat.le_of_not_lt hlt) hj
    · simp only [rowData, Function.update_self]
      rw [hnum] at hj
      rw [htoken]
      by_cases hlt : j < r.numTokens heap
      · rw [if_neg (by omega), if_pos hlt]
        exact hcarries.isTokenIds j hlt hmax
      · rw [if_pos (by omega), if_neg hlt, List.getElem?_eq_getElem (by omega), Option.isSome_some]
    · simp only [rowData, Function.update_self, hnum, hstart]
    · simp only [rowData, Function.update_self, hnum, hstart]
  · have hne : q.outputTokenIds ≠ r.outputTokenIds := fun heq => hki (hunshared k q hk heq)
    refine carries_extendList_of_ne ?_ hne
    have hothers := h.carries hk
    simpa [rowData, hki] using hothers

end InputBatch

end VllmV1.Worker
