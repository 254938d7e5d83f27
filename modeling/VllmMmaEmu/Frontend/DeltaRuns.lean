import Mathlib.Data.List.ReduceOption
import VllmMmaEmu.Frontend.OutputProcessor

/-!
# Streamed deltas

A request of a user in `DELTA` mode from the fan-out to the consumer: children are added, outputs
of the engine core are processed or the request is aborted, and the consumer takes what the
collector has. The consumer is to get every generated token once.
-/

namespace VllmV1.Frontend

open Python

variable {P : Payloads} {δ : Type}

/-- The completions of some outputs. -/
def completionsOf (outputs : List (RequestOutput P)) : List (CompletionOutput P) :=
  outputs.flatMap (·.outputs.reduceOption)

lemma completionsOf_append (l l' : List (RequestOutput P)) :
    completionsOf (l ++ l') = completionsOf l ++ completionsOf l' := List.flatMap_append

lemma completionsOf_singleton {o : RequestOutput P} {completions : List (CompletionOutput P)}
    (h : o.outputs = completions.map some) : completionsOf [o] = completions := by
  have hsome : (completions.map some).reduceOption = completions := by
    clear h
    induction completions with
    | nil => exact List.reduceOption_nil
    | cons c rest ih => rw [List.map_cons, List.reduceOption_cons_of_some, ih]
  rw [completionsOf, List.flatMap_singleton, h, hsome]

namespace RequestOutputCollector

/-- The collected output can be merged with the next one. -/
def Collects (wanted : Bool) (q : RequestOutputCollector P) : Prop :=
  q.aggregate = true ∧ ∀ o, q.output = some o →
    ∃ completions, o.outputs = completions.map some ∧ Mergeable wanted completions

lemma Collects.put_one {wanted : Bool} {q : RequestOutputCollector P} (h : q.Collects wanted)
    {output : RequestOutput P} {c : CompletionOutput P} (houtput : output.outputs = [some c])
    (hc : c.logprobs.isSome = wanted) :
    ∃ q' o, q.put output = .ok q' ∧ q'.output = some o ∧ q'.Collects wanted ∧
      o.finished = (q.output.any (·.finished) || output.finished) ∧
      (∀ i, gather (·.tokenIds) i (completionsOf [o]) =
        gather (·.tokenIds) i (completionsOf q.output.toList) ++ gather (·.tokenIds) i [c]) ∧
      ∀ i, gather (·.logprobList) i (completionsOf [o]) =
        gather (·.logprobList) i (completionsOf q.output.toList) ++
          gather (·.logprobList) i [c] := by
  have hone : output.outputs = [c].map some := houtput
  cases hq : q.output with
  | none =>
    refine ⟨{ q with output := some output }, output, by rw [put, hq], rfl, ⟨h.1, ?_⟩, ?_, ?_, ?_⟩
    · rintro o ho
      obtain rfl := Option.some.inj ho
      exact ⟨[c], hone, by simp, by simpa using hc⟩
    · simp
    · intro i
      rw [completionsOf_singleton hone]
      rfl
    · intro i
      rw [completionsOf_singleton hone]
      rfl
  | some pending =>
    obtain ⟨completions, hpending, hmergeable⟩ := h.2 pending hq
    obtain ⟨added, hadd, -, hadded, htokens, hlogprobs⟩ := addCompletion_eq hmergeable hc
    have hput : q.put output = .ok
        { q with
          output := some { pending with
            outputs := added.map some
            finished := pending.finished || output.finished
            kvTransferParams := output.kvTransferParams } } := by
      rw [put, hq, h.1]
      simp [RequestOutput.add, houtput, hpending, hadd]
    refine ⟨_, _, hput, rfl, ⟨h.1, ?_⟩, by simp, ?_, ?_⟩
    · rintro o ho
      obtain rfl := Option.some.inj ho
      exact ⟨added, rfl, hadded⟩
    · intro i
      rw [completionsOf_singleton rfl, htokens, Option.toList_some,
        completionsOf_singleton hpending]
    · intro i
      rw [completionsOf_singleton rfl, hlogprobs, Option.toList_some,
        completionsOf_singleton hpending]

end RequestOutputCollector

namespace RequestState

variable {r : RequestState P δ} (ids : List Nat) (finishReason : Option FinishReason)
  (stopReason : Option StopReason)

lemma newCompletionOutput_delta (hkind : r.outputKind = .delta) :
    let c := (r.newCompletionOutput ids finishReason stopReason).1
    c.index = r.requestIndex ∧ c.tokenIds = ids ∧ c.finished = finishReason.isSome ∧
      c.logprobs = r.logprobsProcessor.logprobs.map (pyFrom · (-(ids.length : Int))) := by
  simp [newCompletionOutput, hkind, CompletionOutput.finished]

/-- A request is reported finished when it ends itself, or its parent has no child left. -/
def finishes (r : RequestState P δ) (parentReq : Option (ParentRequest P)) (ended : Bool) : Bool :=
  match parentReq with
  | none => ended
  | some parent =>
    decide ((if ended then parent.childRequests.erase r.requestId else parent.childRequests) = ∅)

/-- The parent after an output of a child. -/
def parentAfter (r : RequestState P δ) (ended : Bool) (parent : ParentRequest P) :
    ParentRequest P :=
  { parent with
    childRequests :=
      if ended then parent.childRequests.erase r.requestId else parent.childRequests }

lemma makeRequestOutput_delta (hkind : r.outputKind = .delta)
    {parentReq : Option (ParentRequest P)}
    (hparent : ∀ parent, parentReq = some parent →
      r.requestId ∈ parent.childRequests ∧ parent.samplingParams.outputKind = .delta)
    (kv : Option P.KvTransferParams) :
    ∃ made output, r.makeRequestOutput parentReq ids finishReason stopReason kv = .ok made ∧
      made.output = some output ∧
      output.outputs = [some (r.newCompletionOutput ids finishReason stopReason).1] ∧
      output.finished = r.finishes parentReq finishReason.isSome ∧
      made.state = (r.newCompletionOutput ids finishReason stopReason).2 ∧
      made.parent = parentReq.map (r.parentAfter finishReason.isSome) := by
  have hfinished := (newCompletionOutput_delta ids finishReason stopReason hkind).2.2.1
  cases parentReq with
  | none =>
    have hmade : r.makeRequestOutput none ids finishReason stopReason kv =
        .ok ⟨some ⟨r.requestId, [some (r.newCompletionOutput ids finishReason stopReason).1],
          finishReason.isSome, kv⟩, (r.newCompletionOutput ids finishReason stopReason).2, none⟩ := by
      simp [makeRequestOutput, hkind]
    exact ⟨_, _, hmade, rfl, rfl, rfl, rfl, rfl⟩
  | some parent =>
    obtain ⟨hmem, hstream⟩ := hparent parent rfl
    have hget := @ParentRequest.getOutputs_eq _ parent r.requestId
      (r.newCompletionOutput ids finishReason stopReason).1 (fun _ => hmem)
      (fun hfinal => by simp [hstream] at hfinal)
    simp only [ParentRequest.outputsAfter, ParentRequest.childrenAfter,
      ParentRequest.aggregatorAfter, hstream, hfinished, reduceCtorEq, if_false] at hget
    have hmade : r.makeRequestOutput (some parent) ids finishReason stopReason kv =
        .ok ⟨some ⟨parent.requestId, [some (r.newCompletionOutput ids finishReason stopReason).1],
          r.finishes (some parent) finishReason.isSome, kv⟩,
          (r.newCompletionOutput ids finishReason stopReason).2,
          some (r.parentAfter finishReason.isSome parent)⟩ := by
      simp [makeRequestOutput, hkind, hget, finishes, parentAfter]
    exact ⟨_, _, hmade, rfl, rfl, rfl, rfl, rfl⟩

end RequestState

/-- As many last entries as there are tokens are the new ones: each token has one, or there were no
entries before and they are not more than the tokens. Without tokens all entries are taken. -/
def CutsNew {α : Type} (before new : List α) (tokens : Nat) : Prop :=
  0 < tokens ∧ new.length = tokens ∨ before = [] ∧ (tokens = 0 ∨ new.length ≤ tokens)

lemma pyFrom_append_iff {α : Type} (before new : List α) (tokens : Nat) :
    pyFrom (before ++ new) (-(tokens : Int)) = new ↔ CutsNew before new tokens := by
  unfold CutsNew
  rcases Nat.eq_zero_or_pos tokens with rfl | hpos
  · have hall : pyFrom (before ++ new) (-((0 : Nat) : Int)) = before ++ new := rfl
    rw [hall]
    simp
  · have hneg : -(tokens : Int) < 0 := by omega
    rw [pyFrom, clampIndex, if_pos hneg, List.length_append]
    constructor
    · intro h
      have hlength := congrArg List.length h
      rw [List.length_drop, List.length_append] at hlength
      rcases Nat.eq_zero_or_pos before.length with hnil | hbefore
      · exact .inr ⟨List.length_eq_zero_iff.mp hnil, .inr (by omega)⟩
      · exact .inl ⟨hpos, by omega⟩
    · intro h
      have hstart : (((before.length + new.length : Nat) : Int) + -(tokens : Int)).toNat =
          before.length := by
        rcases h with ⟨-, hnew⟩ | ⟨rfl, hnew⟩
        · omega
        · rw [List.length_nil]
          omega
      rw [hstart, List.drop_left]

/-- A request of a user with its children, its collector and its consumer. -/
structure DeltaStream (P : Payloads) (δ : Type) where
  requestId : String
  params : SamplingParams
  processor : OutputProcessor P δ
  /-- The number of children that were added, or of the request itself without children. -/
  added : Nat
  received : List (RequestOutput P)
  /-- The tokens that were generated for each index, and their log probabilities. -/
  generated : Nat → List Nat
  generatedLogprobs : Nat → List P.Logprobs

/-- What happens to the request. -/
inductive DeltaEvent (P : Payloads) (δ : Type) where
  | addRequest (detokenizer : IncrementalDetokenizer δ)
  | processOutput (output : EngineCoreOutput P)
  | abort (requestId : String) (children : List String)
  | get

namespace DeltaStream

variable (decodeNext : δ → Nat → List Char × δ)

/-- `add_request` of `AsyncLLM` up to the first child. -/
def start (P : Payloads) (δ : Type) (requestId : String) (params : SamplingParams) :
    DeltaStream P δ where
  requestId := requestId
  params := params
  processor :=
    { requestStates := fun _ => none
      parentRegistered := false
      parent := if params.n = 1 then none else some (.init P requestId params)
      queue := .init P params.outputKind
      reqsToAbort := [] }
  added := 0
  received := []
  generated := fun _ => []
  generatedLogprobs := fun _ => []

/-- Note the tokens of an engine output as generated for the index of its request. -/
def noted (s : DeltaStream P δ) (processor : OutputProcessor P δ) (index : Nat)
    (tokenIds : List Nat) (logprobs : List P.Logprobs) : DeltaStream P δ :=
  { s with
    processor := processor
    generated := Function.update s.generated index (s.generated index ++ tokenIds)
    generatedLogprobs :=
      Function.update s.generatedLogprobs index (s.generatedLogprobs index ++ logprobs) }

def next (s : DeltaStream P δ) : DeltaEvent P δ → Except PyError (DeltaStream P δ)
  | .addRequest detokenizer =>
    match s.processor.parent with
    | none => do
      let processor ← s.processor.addRequest s.requestId 0 s.params detokenizer
      return { s with processor := processor, added := s.added + 1 }
    | some parent => do
      let child := parent.getChildInfo s.added
      let processor ← { s.processor with parent := some child.2 }.addRequest child.1.1 s.added
        child.1.2 detokenizer
      return { s with processor := processor, added := s.added + 1 }
  | .processOutput output => do
    let processor ← s.processor.processOutput decodeNext output
    match s.processor.requestStates output.requestId with
    | none => return { s with processor := processor }
    | some r =>
      return s.noted processor r.requestIndex output.newTokenIds (output.newLogprobs.getD [])
  | .abort requestId children => do
    let processor ← s.processor.abortRequests requestId children
    return { s with processor := processor }
  | .get =>
    -- without an output the consumer waits
    match s.processor.queue.get with
    | none => return s
    | some (output, queue) => return { s with
        processor := { s.processor with queue := queue }
        received := s.received ++ [output] }

def Running (s : DeltaStream P δ) (requestId : String) : Prop :=
  (s.processor.requestStates requestId).isSome

/-- All children were added and ended. -/
def AllEnded (s : DeltaStream P δ) : Prop :=
  s.added = s.params.n ∧ ∀ requestId, ¬ s.Running requestId

/-- The events that can happen: the fan-out is a loop over the children, log probabilities come only
if they were requested, and the children of a parent are aborted in the order of the set. -/
def Possible (s : DeltaStream P δ) : DeltaEvent P δ → Prop
  | .addRequest _ => s.added < s.params.n
  | .processOutput output => output.newLogprobs.isSome → s.params.logprobs.isSome
  | .abort _ children => ∀ parent, s.processor.parent = some parent →
      ∀ child, child ∈ children ↔ child ∈ parent.childRequests
  | .get => True

/-- The log probabilities of an output are the ones that are cut for it, no completion that has some
is aborted, and while children are still to be added, one that ends leaves another one running. -/
def KeepsDeltas (s : DeltaStream P δ) : DeltaEvent P δ → Prop
  | .addRequest _ => True
  | .processOutput output => ∀ r, s.processor.requestStates output.requestId = some r →
      (∀ before, r.logprobsProcessor.logprobs = some before →
        CutsNew before (output.newLogprobs.getD []) output.newTokenIds.length) ∧
      (s.added < s.params.n → (OutputProcessor.finishReason decodeNext r output).isSome →
        ∃ other, other ≠ output.requestId ∧ s.Running other)
  | .abort requestId children =>
      (∀ id ∈ s.processor.aborted requestId children, ∀ r,
        s.processor.requestStates id = some r → r.logprobsProcessor.logprobs.getD [] = []) ∧
      (s.added < s.params.n → ∀ id ∈ s.processor.aborted requestId children, s.Running id →
        ∃ other, other ∉ s.processor.aborted requestId children ∧ s.Running other)
  | .get => True

/-- The states of all runs. -/
def Occurring (requestId : String) (params : SamplingParams) : DeltaStream P δ → Prop :=
  Runs.Reached (fun s => s = start P δ requestId params) Possible
    (fun s e s' => s.next decodeNext e = .ok s')

/-- The states of the runs whose steps keep the deltas. -/
def Reached (requestId : String) (params : SamplingParams) : DeltaStream P δ → Prop :=
  Runs.Reached (fun s => s = start P δ requestId params)
    (fun s e => s.Possible e ∧ s.KeepsDeltas decodeNext e)
    (fun s e s' => s.next decodeNext e = .ok s')

/-- The outputs that the consumer got and the one that it can get next. -/
def outputs (s : DeltaStream P δ) : List (RequestOutput P) :=
  s.received ++ s.processor.queue.output.toList

/-- The consumer gets what was generated. -/
structure Lossless (s : DeltaStream P δ) : Prop where
  /-- No event raises. -/
  answers : ∀ e, s.Possible e → s.KeepsDeltas decodeNext e → ∃ s', s.next decodeNext e = .ok s'
  tokens : ∀ i, gather (·.tokenIds) i (completionsOf s.outputs) = s.generated i
  logprobs : ∀ i, gather (·.logprobList) i (completionsOf s.outputs) = s.generatedLogprobs i
  /-- An output is marked as finished if it is the last one that the consumer will get. -/
  finished_iff : ∀ k o, s.received[k]? = some o →
    (o.finished ↔ s.AllEnded ∧ s.processor.queue.output = none ∧ k + 1 = s.received.length)
  ends : s.AllEnded → s.outputs ≠ []

def wanted (s : DeltaStream P δ) : Bool := s.params.logprobs.isSome

/-- The id of the request, or of a child of it. -/
def idOf (s : DeltaStream P δ) (index : Nat) : String :=
  if s.params.n = 1 then s.requestId else ParentRequest.childReqId s.requestId index

/-- The state that is kept under an id. -/
structure StateOf (s : DeltaStream P δ) (id : String) (r : RequestState P δ) : Prop where
  id_eq : r.requestId = id
  index_lt : r.requestIndex < s.added
  idOf_eq : s.idOf r.requestIndex = id
  kind_eq : r.outputKind = .delta
  logprobs_eq : r.logprobsProcessor.logprobs =
    if s.wanted then some (s.generatedLogprobs r.requestIndex) else none
  cumulative : r.logprobsProcessor.cumulativeLogprob.isSome = s.wanted

/-- The parent knows the children that have a state. -/
structure ParentOf (s : DeltaStream P δ) (parent : ParentRequest P) : Prop where
  params_eq : parent.samplingParams = s.params
  id_eq : parent.requestId = s.requestId
  cache : parent.CacheSound
  children : ∀ id, id ∈ parent.childRequests ↔ s.Running id

/-- Only the last output of all is marked as finished. -/
structure Marked (s : DeltaStream P δ) : Prop where
  going : ¬ s.AllEnded → ∀ o ∈ s.outputs, o.finished = false
  ended : s.AllEnded → ∃ before last, s.outputs = before ++ [last] ∧ last.finished = true ∧
    ∀ o ∈ before, o.finished = false

structure Sound (s : DeltaStream P δ) : Prop where
  kind_eq : s.params.outputKind = .delta
  sole : s.params.n = 1 → s.processor.parent = none
  parent : s.params.n ≠ 1 → ∃ parent, s.processor.parent = some parent ∧ s.ParentOf parent
  added_le : s.added ≤ s.params.n
  states : ∀ id r, s.processor.requestStates id = some r → s.StateOf id r
  fresh : ∀ i, s.added ≤ i → s.generatedLogprobs i = []
  collects : s.processor.queue.Collects s.wanted
  tokens : ∀ i, gather (·.tokenIds) i (completionsOf s.outputs) = s.generated i
  logprobs : ∀ i, gather (·.logprobList) i (completionsOf s.outputs) = s.generatedLogprobs i
  marked : s.Marked

variable {decodeNext} {s : DeltaStream P δ} {id : String} {r : RequestState P δ}

lemma sound_start (requestId : String) {params : SamplingParams}
    (hkind : params.outputKind = .delta) : Sound (start P δ requestId params) := by
  constructor
  · exact hkind
  · exact fun hn => if_pos hn
  · intro hn
    refine ⟨.init P requestId params, if_neg hn, rfl, rfl, ?_, ?_⟩
    · exact fun _ hcached => absurd hcached (Option.some_ne_none _).symm
    · intro id
      simp [ParentRequest.init, Running, start]
  · exact Nat.zero_le _
  · exact fun _ _ hr => absurd hr (Option.some_ne_none _).symm
  · exact fun _ _ => rfl
  · exact ⟨by simp [start, RequestOutputCollector.init, hkind], fun o ho =>
      absurd ho (Option.some_ne_none _).symm⟩
  · exact fun _ => rfl
  · exact fun _ => rfl
  · constructor
    · exact fun _ o ho => absurd ho List.not_mem_nil
    · intro hall
      have hzero : 0 = params.n := hall.1
      exact absurd params.n_pos (by omega)

/-- The invariant is not about the requests that are to be aborted in the engine core. -/
lemma Sound.withFlags (h : Sound s) (registered : Bool) (reqsToAbort : List String) :
    Sound { s with
      processor := { s.processor with
        parentRegistered := registered, reqsToAbort := reqsToAbort } } := by
  constructor
  · exact h.kind_eq
  · exact h.sole
  · intro hn
    obtain ⟨parent, hparent, hof⟩ := h.parent hn
    exact ⟨parent, hparent, hof.params_eq, hof.id_eq, hof.cache, hof.children⟩
  · exact h.added_le
  · intro id r hr
    have hof := h.states id r hr
    exact ⟨hof.id_eq, hof.index_lt, hof.idOf_eq, hof.kind_eq, hof.logprobs_eq, hof.cumulative⟩
  · exact h.fresh
  · exact h.collects
  · exact h.tokens
  · exact h.logprobs
  · exact ⟨h.marked.going, h.marked.ended⟩

lemma Sound.eq_of_sole (h : Sound s) (hn : s.params.n = 1) {other : String}
    (hother : s.Running other) : other = s.requestId := by
  obtain ⟨r, hr⟩ := Option.isSome_iff_exists.mp hother
  rw [← (h.states other r hr).idOf_eq, idOf, if_pos hn]

lemma Sound.not_allEnded (hr : s.processor.requestStates id = some r) : ¬ s.AllEnded :=
  fun hall => hall.2 id (Option.isSome_iff_exists.mpr ⟨r, hr⟩)

lemma running_iff_of_update {s' : DeltaStream P δ} {state : Option (RequestState P δ)}
    (hstates : s'.processor.requestStates =
      Function.update s.processor.requestStates id state) (other : String) :
    s'.Running other ↔ (other = id ∧ state.isSome) ∨ (other ≠ id ∧ s.Running other) := by
  rw [Running, hstates]
  by_cases hother : other = id
  · simp [hother]
  · simp [Running, hother]

/-- An output is marked as finished when no child is left, and then all of them ended. -/
lemma Sound.finishes_iff (h : Sound s) (hr : s.processor.requestStates id = some r)
    {r₁ : RequestState P δ} (hid : r₁.requestId = id) {ended : Bool}
    (hkeeps : ended → s.added < s.params.n → ∃ other, other ≠ id ∧ s.Running other)
    {s' : DeltaStream P δ} (hadded : s'.added = s.added) (hparams : s'.params = s.params)
    (hstates : ∃ r₂, s'.processor.requestStates =
      Function.update s.processor.requestStates id (if ended then none else some r₂)) :
    r₁.finishes s.processor.parent ended = true ↔ s'.AllEnded := by
  obtain ⟨r₂, hstates⟩ := hstates
  have hrun : s.Running id := Option.isSome_iff_exists.mpr ⟨r, hr⟩
  have hrunning := running_iff_of_update hstates
  have hstate : (if ended then none else some r₂).isSome = !ended := by
    cases ended <;> rfl
  simp only [hstate, Bool.not_eq_true'] at hrunning
  rw [AllEnded, hadded, hparams]
  by_cases hn : s.params.n = 1
  · rw [h.sole hn]
    change ended = true ↔ _
    constructor
    · intro hended
      have hlt := (h.states id r hr).index_lt
      have hle := h.added_le
      refine ⟨by omega, fun other hother => ?_⟩
      rcases (hrunning other).mp hother with ⟨-, hgoing⟩ | ⟨hne, hother⟩
      · exact absurd (hended.symm.trans hgoing) (by decide)
      · exact hne ((h.eq_of_sole hn hother).trans (h.eq_of_sole hn hrun).symm)
    · rintro ⟨-, hnone⟩
      by_contra hgoing
      exact hnone id ((hrunning id).mpr (.inl ⟨rfl, by simpa using hgoing⟩))
  · obtain ⟨parent, hparent, hof⟩ := h.parent hn
    have hleft : ∀ other, other ∈ (if ended then parent.childRequests.erase r₁.requestId
        else parent.childRequests) ↔ s'.Running other := by
      intro other
      rw [hrunning]
      cases ended with
      | true => simp [hof.children, hid]
      | false =>
        by_cases hother : other = id
        · simp [hof.children, hother, hrun]
        · simp [hof.children, hother]
    rw [hparent, RequestState.finishes, decide_eq_true_iff, Finset.eq_empty_iff_forall_notMem]
    simp only [hleft]
    constructor
    · intro hnone
      refine ⟨le_antisymm h.added_le (not_lt.mp fun hlt => ?_), hnone⟩
      have hended : ended = true := by
        by_contra hgoing
        exact hnone id ((hrunning id).mpr (.inl ⟨rfl, by simpa using hgoing⟩))
      obtain ⟨other, hne, hother⟩ := hkeeps hended hlt
      exact hnone other ((hrunning other).mpr (.inr ⟨hne, hother⟩))
    · exact fun hall => hall.2

/-- The state of a request with log probabilities for new tokens, and otherwise the same. -/
structure Continues (r r₁ : RequestState P δ) (logprobs : List P.Logprobs) : Prop where
  id_eq : r₁.requestId = r.requestId
  index_eq : r₁.requestIndex = r.requestIndex
  kind_eq : r₁.outputKind = r.outputKind
  logprobs_eq : r₁.logprobsProcessor.logprobs =
    r.logprobsProcessor.logprobs.map (· ++ logprobs)
  cumulative : r₁.logprobsProcessor.cumulativeLogprob.isSome =
    r.logprobsProcessor.cumulativeLogprob.isSome

lemma gather_outputs {α : Type} {part : CompletionOutput P → List α} {i : Nat}
    {s' : DeltaStream P δ} {o : RequestOutput P} {c : CompletionOutput P}
    (hreceived : s'.received = s.received) (hqueue : s'.processor.queue.output = some o)
    (h : gather part i (completionsOf [o]) =
      gather part i (completionsOf s.processor.queue.output.toList) ++ gather part i [c]) :
    gather part i (completionsOf s'.outputs) =
      gather part i (completionsOf s.outputs) ++ (if c.index = i then part c else []) := by
  rw [outputs, hreceived, hqueue, Option.toList_some, completionsOf_append, gather_append, h,
    outputs, completionsOf_append, gather_append, List.append_assoc, gather_cons c [], gather_nil,
    List.append_nil]

lemma update_append {α : Type} (f : Nat → List α) (index i : Nat) (more : List α) :
    Function.update f index (f index ++ more) i =
      f i ++ (if index = i then more else []) := by
  by_cases h : i = index
  · rw [h, Function.update_self, if_pos rfl]
  · rw [Function.update_of_ne h, if_neg (Ne.symm h), List.append_nil]

/-- A completion of a request was put into the collector, and its state was kept or freed. -/
structure HandedOut (s s' : DeltaStream P δ) (r : RequestState P δ)
    (state : Option (RequestState P δ)) (ids : List Nat) (logprobs : List P.Logprobs) : Prop where
  requestId_eq : s'.requestId = s.requestId
  params_eq : s'.params = s.params
  added_eq : s'.added = s.added
  states_eq : s'.processor.requestStates =
    Function.update s.processor.requestStates r.requestId state
  parent_eq : s'.processor.parent = s.processor.parent.map (r.parentAfter state.isNone)
  generatedLogprobs_eq : s'.generatedLogprobs = Function.update s.generatedLogprobs
    r.requestIndex (s.generatedLogprobs r.requestIndex ++ logprobs)
  collects : s'.processor.queue.Collects s.wanted
  tokens : ∀ i, gather (·.tokenIds) i (completionsOf s'.outputs) = s'.generated i
  logprobs : ∀ i, gather (·.logprobList) i (completionsOf s'.outputs) = s'.generatedLogprobs i
  marked : ∃ o, s'.outputs = s.received ++ [o] ∧
    o.finished = (s.processor.queue.output.any (·.finished) ||
      r.finishes s.processor.parent state.isNone)

lemma Sound.parent_of_running (h : Sound s) (hrun : s.Running id) {parent : ParentRequest P}
    (hparent : s.processor.parent = some parent) : s.ParentOf parent ∧ id ∈ parent.childRequests := by
  have hn : s.params.n ≠ 1 := fun hn => by simp [h.sole hn] at hparent
  obtain ⟨parent', hparent', hof⟩ := h.parent hn
  obtain rfl := Option.some.inj (hparent.symm.trans hparent')
  exact ⟨hof, (hof.children id).mpr hrun⟩

/-- What `make_request_output` makes of new tokens and their log probabilities is handed out. -/
lemma Sound.exists_handedOut (h : Sound s) (hr : s.processor.requestStates id = some r)
    {r₁ : RequestState P δ} {ids : List Nat} {logprobs : List P.Logprobs}
    (hr₁ : Continues r r₁ logprobs)
    (hslice : ∀ before, r.logprobsProcessor.logprobs = some before →
      pyFrom (before ++ logprobs) (-(ids.length : Int)) = logprobs)
    (hwanted : s.wanted = false → logprobs = [])
    (finishReason : Option FinishReason) (stopReason : Option StopReason)
    (kv : Option P.KvTransferParams) :
    ∃ made processor r₂,
      r₁.makeRequestOutput s.processor.parent ids finishReason stopReason kv = .ok made ∧
        s.processor.handOut id made finishReason.isSome = .ok processor ∧
          Continues r r₂ logprobs ∧
            HandedOut s (s.noted processor r.requestIndex ids logprobs) r
              (if finishReason.isSome then none else some r₂) ids logprobs := by
  have hof := h.states id r hr
  have hrun : s.Running id := Option.isSome_iff_exists.mpr ⟨r, hr⟩
  have hid : r₁.requestId = id := hr₁.id_eq.trans hof.id_eq
  have hkind : r₁.outputKind = .delta := hr₁.kind_eq.trans hof.kind_eq
  have hparent : ∀ parent, s.processor.parent = some parent →
      r₁.requestId ∈ parent.childRequests ∧ parent.samplingParams.outputKind = .delta := by
    intro parent hparent
    obtain ⟨hofp, hmem⟩ := h.parent_of_running hrun hparent
    rw [hid, hofp.params_eq]
    exact ⟨hmem, h.kind_eq⟩
  obtain ⟨made, output, hmade, houtput, hone, hflag, hstate, hafter⟩ :=
    RequestState.makeRequestOutput_delta ids finishReason stopReason hkind hparent kv
  obtain ⟨hindex, htokens, -, hlogprobs⟩ := RequestState.newCompletionOutput_delta ids
    finishReason stopReason hkind
  have hr₂ : Continues r made.state logprobs := by
    rw [hstate]
    exact ⟨hr₁.id_eq, hr₁.index_eq, hr₁.kind_eq, hr₁.logprobs_eq, hr₁.cumulative⟩
  generalize (r₁.newCompletionOutput ids finishReason stopReason).1 = c at *
  rw [hr₁.index_eq] at hindex
  have hcsome : c.logprobs.isSome = s.wanted := by
    rw [hlogprobs, hr₁.logprobs_eq, hof.logprobs_eq]
    split_ifs with hw
    · exact hw.symm
    · simpa using hw
  have hclist : c.logprobList = logprobs := by
    rw [CompletionOutput.logprobList, hlogprobs, hr₁.logprobs_eq]
    cases hbefore : r.logprobsProcessor.logprobs with
    | some before => exact hslice before hbefore
    | none =>
      refine (hwanted ?_).symm
      rw [hof.logprobs_eq] at hbefore
      simpa using hbefore
  obtain ⟨queue, o, hput, hqueue, hcollects, hmarked, htok, hlog⟩ :=
    h.collects.put_one hone hcsome
  have hhand : s.processor.handOut id made finishReason.isSome = .ok
      { s.processor with
        requestStates := Function.update s.processor.requestStates id
          (if finishReason.isSome then none else some made.state)
        parent := made.parent
        queue := queue } := by
    simp [OutputProcessor.handOut, houtput, hput]
  have hfree : (if finishReason.isSome then none else some made.state).isNone =
      finishReason.isSome := by
    cases finishReason <;> rfl
  refine ⟨made, _, made.state, hmade, hhand, hr₂, ?_⟩
  constructor
  · rfl
  · rfl
  · rfl
  · rw [hof.id_eq]
    rfl
  · rw [hfree]
    refine hafter.trans (congrArg (Option.map · s.processor.parent) (funext fun parent => ?_))
    rw [RequestState.parentAfter, RequestState.parentAfter, hr₁.id_eq]
  · rfl
  · exact hcollects
  · intro i
    refine Eq.trans (gather_outputs (by rfl) (by exact hqueue) (htok i)) ?_
    rw [hindex, htokens, h.tokens]
    exact (update_append _ _ _ _).symm
  · intro i
    refine Eq.trans (gather_outputs (by rfl) (by exact hqueue) (hlog i)) ?_
    rw [hindex, hclist, h.logprobs]
    exact (update_append _ _ _ _).symm
  · refine ⟨o, by simp [outputs, noted, hqueue], ?_⟩
    rw [hmarked, hflag, hfree]
    congr 1
    cases s.processor.parent with
    | none => rfl
    | some parent => rw [RequestState.finishes, RequestState.finishes, hr₁.id_eq]

lemma Sound.handedOut (h : Sound s) (hr : s.processor.requestStates id = some r)
    {s' : DeltaStream P δ} {state : Option (RequestState P δ)} {ids : List Nat}
    {logprobs : List P.Logprobs} (hs' : HandedOut s s' r state ids logprobs)
    (hstate : ∀ r₂, state = some r₂ → Continues r r₂ logprobs)
    (hkeeps : state = none → s.added < s.params.n → ∃ other, other ≠ id ∧ s.Running other) :
    Sound s' := by
  have hof := h.states id r hr
  have hrun : s.Running id := Option.isSome_iff_exists.mpr ⟨r, hr⟩
  have hrunning := running_iff_of_update hs'.states_eq
  have hidOf : ∀ i, s'.idOf i = s.idOf i := fun i => by
    rw [idOf, idOf, hs'.params_eq, hs'.requestId_eq]
  have hwant : s'.wanted = s.wanted := by rw [wanted, wanted, hs'.params_eq]
  constructor
  · rw [hs'.params_eq]
    exact h.kind_eq
  · intro hn
    rw [hs'.params_eq] at hn
    rw [hs'.parent_eq, h.sole hn]
    rfl
  · intro hn
    rw [hs'.params_eq] at hn
    obtain ⟨parent, hparent, hofp⟩ := h.parent hn
    refine ⟨r.parentAfter state.isNone parent, by rw [hs'.parent_eq, hparent]; rfl, ?_⟩
    constructor
    · exact hofp.params_eq.trans hs'.params_eq.symm
    · exact hofp.id_eq.trans hs'.requestId_eq.symm
    · exact hofp.cache
    · intro other
      rw [hrunning, RequestState.parentAfter, hof.id_eq]
      cases state with
      | none => simp [hofp.children]
      | some r₂ =>
        by_cases hother : other = id
        · simp [hofp.children, hother, hrun]
        · simp [hofp.children, hother]
  · rw [hs'.added_eq, hs'.params_eq]
    exact h.added_le
  · intro other r' hr'
    rw [hs'.states_eq, hof.id_eq] at hr'
    by_cases hother : other = id
    · subst hother
      rw [Function.update_self] at hr'
      have hcont := hstate r' hr'
      constructor
      · exact hcont.id_eq.trans hof.id_eq
      · rw [hcont.index_eq, hs'.added_eq]
        exact hof.index_lt
      · rw [hcont.index_eq, hidOf]
        exact hof.idOf_eq
      · exact hcont.kind_eq.trans hof.kind_eq
      · rw [hcont.logprobs_eq, hof.logprobs_eq, hwant, hcont.index_eq, hs'.generatedLogprobs_eq,
          Function.update_self]
        split_ifs <;> rfl
      · rw [hcont.cumulative, hof.cumulative, hwant]
    · rw [Function.update_of_ne hother] at hr'
      have hof' := h.states other r' hr'
      have hindex : r'.requestIndex ≠ r.requestIndex := fun heq =>
        hother (by rw [← hof'.idOf_eq, heq, hof.idOf_eq])
      constructor
      · exact hof'.id_eq
      · rw [hs'.added_eq]
        exact hof'.index_lt
      · rw [hidOf]
        exact hof'.idOf_eq
      · exact hof'.kind_eq
      · rw [hof'.logprobs_eq, hwant, hs'.generatedLogprobs_eq, Function.update_of_ne hindex]
      · rw [hof'.cumulative, hwant]
  · intro i hi
    have hlt := hof.index_lt
    rw [hs'.added_eq] at hi
    rw [hs'.generatedLogprobs_eq, Function.update_of_ne (by omega)]
    exact h.fresh i hi
  · rw [hwant]
    exact hs'.collects
  · exact hs'.tokens
  · exact hs'.logprobs
  · obtain ⟨o, houts, hmarked⟩ := hs'.marked
    have hbefore := h.marked.going (not_allEnded hr)
    have hpending : s.processor.queue.output.any (·.finished) = false := by
      cases hq : s.processor.queue.output with
      | none => rfl
      | some pending => exact hbefore pending (by simp [outputs, hq])
    have hreceived : ∀ o ∈ s.received, o.finished = false := fun o ho =>
      hbefore o (List.mem_append_left _ ho)
    have hall : r.finishes s.processor.parent state.isNone = true ↔ s'.AllEnded := by
      have hstates := hs'.states_eq
      rw [hof.id_eq] at hstates
      cases state with
      | none =>
        exact h.finishes_iff hr hof.id_eq (fun _ => hkeeps rfl) hs'.added_eq hs'.params_eq
          ⟨r, hstates⟩
      | some r₂ =>
        exact h.finishes_iff hr hof.id_eq (fun hended => absurd hended (by simp)) hs'.added_eq
          hs'.params_eq ⟨r₂, hstates⟩
    rw [hpending, Bool.false_or] at hmarked
    constructor
    · intro hgoing o' ho'
      rw [houts] at ho'
      rcases List.mem_append.mp ho' with ho' | ho'
      · exact hreceived o' ho'
      · obtain rfl := List.mem_singleton.mp ho'
        rw [hmarked]
        simpa using mt hall.mp hgoing
    · intro hended
      exact ⟨s.received, o, houts, hmarked.trans (hall.mpr hended), hreceived⟩

lemma updateFromOutput_eq {l : LogprobsProcessor P} {output : EngineCoreOutput P}
    (hsome : output.newLogprobs.isSome → l.logprobs.isSome)
    (hcumulative : output.newLogprobs.isSome → l.cumulativeLogprob.isSome) :
    ∃ l', l.updateFromOutput output = .ok l' ∧
      l'.logprobs = l.logprobs.map (· ++ output.newLogprobs.getD []) ∧
      l'.cumulativeLogprob.isSome = l.cumulativeLogprob.isSome := by
  rw [LogprobsProcessor.updateFromOutput]
  cases hnew : output.newLogprobs with
  | none =>
    refine ⟨l, rfl, ?_, rfl⟩
    simp
  | some newLogprobs =>
    rw [hnew] at hsome hcumulative
    obtain ⟨before, hbefore⟩ := Option.isSome_iff_exists.mp (hsome rfl)
    obtain ⟨cumulative, hsum⟩ := Option.isSome_iff_exists.mp (hcumulative rfl)
    exact ⟨_, by rw [hbefore, hsum], by simp [hbefore], by simp [hsum]⟩

lemma StateOf.logprobs_isSome (h : s.StateOf id r) :
    r.logprobsProcessor.logprobs.isSome = s.wanted := by
  rw [h.logprobs_eq]
  cases s.wanted <;> rfl

lemma Sound.processOutput (h : Sound s) {output : EngineCoreOutput P}
    (hpossible : s.Possible (.processOutput output : DeltaEvent P δ))
    (hkeeps : s.KeepsDeltas decodeNext (.processOutput output)) :
    ∃ s', s.next decodeNext (.processOutput output) = .ok s' ∧ Sound s' := by
  cases hr : s.processor.requestStates output.requestId with
  | none =>
    refine ⟨s, ?_, h⟩
    simp [next, OutputProcessor.processOutput, hr]
  | some r =>
    have hof := h.states _ r hr
    have hgiven : output.newLogprobs.isSome → s.wanted := hpossible
    obtain ⟨hcuts, hends⟩ := hkeeps r hr
    obtain ⟨l, hl, hlogprobs, hcumulative⟩ := updateFromOutput_eq
      (fun hnew => hof.logprobs_isSome.trans (hgiven hnew))
      (fun hnew => hof.cumulative.trans (hgiven hnew))
    have hslice : ∀ before, r.logprobsProcessor.logprobs = some before →
        pyFrom (before ++ output.newLogprobs.getD []) (-(output.newTokenIds.length : Int)) =
          output.newLogprobs.getD [] :=
      fun before hbefore => (pyFrom_append_iff _ _ _).mpr (hcuts before hbefore)
    have hwanted : s.wanted = false → output.newLogprobs.getD [] = [] := by
      intro hno
      cases hnew : output.newLogprobs with
      | none => rfl
      | some new => simp [hgiven (by rw [hnew]; rfl)] at hno
    have hupdated : Continues r { r with
        detokenizer := (r.detokenizer.update decodeNext output.newTokenIds
          (decide (output.finishReason = some .stop))).2
        logprobsProcessor := l } (output.newLogprobs.getD []) :=
      ⟨rfl, rfl, rfl, hlogprobs, hcumulative⟩
    obtain ⟨made, processor, r₂, hmade, hhand, hcont, hout⟩ := h.exists_handedOut hr hupdated
      hslice hwanted (OutputProcessor.finishReason decodeNext r output)
      (((OutputProcessor.stopString decodeNext r output).map StopReason.string).or
        output.stopReason) output.kvTransferParams
    have hsound := h.handedOut hr hout (by
      intro r' hr'
      split_ifs at hr' with hended
      obtain rfl := Option.some.inj hr'
      exact hcont) (by
      intro hended hlt
      split_ifs at hended with hfinished
      exact hends hlt hfinished)
    have hprocessed : s.processor.processOutput decodeNext output = .ok
        (processor.noteEnd output (OutputProcessor.finishReason decodeNext r output).isSome) := by
      simp only [OutputProcessor.processOutput, hr, hl, hmade, hhand, ok_bind]
      rfl
    refine ⟨_, ?_, hsound.withFlags
      (processor.noteEnd output
        (OutputProcessor.finishReason decodeNext r output).isSome).parentRegistered
      (processor.noteEnd output
        (OutputProcessor.finishReason decodeNext r output).isSome).reqsToAbort⟩
    simp only [next, hprocessed, hr, ok_bind]
    rfl

/-- One request is aborted that has no log probabilities yet. -/
lemma Sound.abortOne (h : Sound s)
    (hclean : ∀ r, s.processor.requestStates id = some r →
      r.logprobsProcessor.logprobs.getD [] = [])
    (hkeeps : s.added < s.params.n → s.Running id → ∃ other, other ≠ id ∧ s.Running other) :
    ∃ processor, s.processor.abortOne id = .ok processor ∧
      Sound { s with processor := processor } ∧
      processor.requestStates = Function.update s.processor.requestStates id none := by
  cases hr : s.processor.requestStates id with
  | none =>
    refine ⟨s.processor, by simp [OutputProcessor.abortOne, hr], h, ?_⟩
    rw [← hr, Function.update_eq_self]
  | some r =>
    have hempty := hclean r hr
    have hsame : Continues r r [] := ⟨rfl, rfl, rfl, by simp, rfl⟩
    have hslice : ∀ before, r.logprobsProcessor.logprobs = some before →
        pyFrom (before ++ []) (-(([] : List Nat).length : Int)) = [] := by
      intro before hbefore
      have hnil : before = [] := by simpa [hbefore] using hempty
      rw [hnil]
      rfl
    obtain ⟨made, processor, r₂, hmade, hhand, -, hout⟩ := h.exists_handedOut hr hsame hslice
      (fun _ => rfl) (some .abort) none none
    have hsound := h.handedOut hr hout (fun r' hr' => by simp at hr')
      (fun _ hlt => hkeeps hlt (Option.isSome_iff_exists.mpr ⟨r, hr⟩))
    have hnoted : s.noted processor r.requestIndex [] [] = { s with processor := processor } := by
      simp [noted]
    have hstates := hout.states_eq
    rw [(h.states id r hr).id_eq] at hstates
    rw [hnoted] at hsound
    refine ⟨{ processor with reqsToAbort := processor.reqsToAbort ++ [id] }, ?_,
      hsound.withFlags processor.parentRegistered _, hstates⟩
    simp only [OutputProcessor.abortOne, hr, hmade, ok_bind]
    rw [show s.processor.handOut id made true = .ok processor from hhand]
    rfl

lemma Sound.abortAll (h : Sound s) (ids : List String)
    (hclean : ∀ id ∈ ids, ∀ r, s.processor.requestStates id = some r →
      r.logprobsProcessor.logprobs.getD [] = [])
    (hkeeps : s.added < s.params.n → ∀ id ∈ ids, s.Running id →
      ∃ other, other ∉ ids ∧ s.Running other) :
    ∃ processor, ids.foldlM OutputProcessor.abortOne s.processor = .ok processor ∧
      Sound { s with processor := processor } := by
  induction ids generalizing s with
  | nil => exact ⟨s.processor, rfl, h⟩
  | cons id rest ih =>
    obtain ⟨processor, hone, hsound, hstates⟩ := h.abortOne (hclean id List.mem_cons_self)
      fun hlt hrun => by
        obtain ⟨other, hother, hrun'⟩ := hkeeps hlt id List.mem_cons_self hrun
        exact ⟨other, fun heq => hother (heq ▸ List.mem_cons_self), hrun'⟩
    have hrunning : ∀ other, Running { s with processor := processor } other ↔
        other ≠ id ∧ s.Running other := by
      intro other
      refine (running_iff_of_update hstates other).trans ?_
      simp
    obtain ⟨processor', hrest, hsound'⟩ := ih hsound
      (fun other hother r hr => by
        have hne : other ≠ id := ((hrunning other).mp (Option.isSome_iff_exists.mpr ⟨r, hr⟩)).1
        simp only [hstates, Function.update_of_ne hne] at hr
        exact hclean other (List.mem_cons_of_mem _ hother) r hr)
      (fun hlt other hother hrun => by
        obtain ⟨last, hlast, hrun'⟩ :=
          hkeeps hlt other (List.mem_cons_of_mem _ hother) ((hrunning other).mp hrun).2
        rw [List.mem_cons, not_or] at hlast
        exact ⟨last, hlast.2, (hrunning last).mpr ⟨hlast.1, hrun'⟩⟩)
    refine ⟨processor', ?_, hsound'⟩
    rw [List.foldlM_cons, hone]
    exact hrest

lemma Sound.abort (h : Sound s) {requestId : String} {children : List String}
    (hkeeps : s.KeepsDeltas decodeNext (.abort requestId children)) :
    ∃ s', s.next decodeNext (.abort requestId children) = .ok s' ∧ Sound s' := by
  obtain ⟨processor, hall, hsound⟩ := h.abortAll _ hkeeps.1 hkeeps.2
  refine ⟨_, ?_, hsound.withFlags (if (s.processor.requestStates requestId).isSome ∨
    s.processor.parent.all (fun parent => decide (parent.requestId ≠ requestId)) then
      processor.parentRegistered else false) processor.reqsToAbort⟩
  simp only [next, OutputProcessor.abortRequests, hall, ok_bind]
  rfl

lemma Sound.get (h : Sound s) :
    ∃ s', s.next decodeNext (.get : DeltaEvent P δ) = .ok s' ∧ Sound s' := by
  cases hq : s.processor.queue.output with
  | none => exact ⟨s, by simp [next, RequestOutputCollector.get, hq], h⟩
  | some o =>
    refine ⟨{ s with
        processor := { s.processor with queue := { s.processor.queue with output := none } }
        received := s.received ++ [o] }, by simp [next, RequestOutputCollector.get, hq], ?_⟩
    have houts : outputs { s with
        processor := { s.processor with queue := { s.processor.queue with output := none } }
        received := s.received ++ [o] } = s.outputs := by
      simp [outputs, hq]
    constructor
    · exact h.kind_eq
    · exact h.sole
    · intro hn
      obtain ⟨parent, hparent, hof⟩ := h.parent hn
      exact ⟨parent, hparent, hof.params_eq, hof.id_eq, hof.cache, hof.children⟩
    · exact h.added_le
    · intro id r hr
      have hof := h.states id r hr
      exact ⟨hof.id_eq, hof.index_lt, hof.idOf_eq, hof.kind_eq, hof.logprobs_eq, hof.cumulative⟩
    · exact h.fresh
    · exact ⟨h.collects.1, fun o ho => absurd ho (Option.some_ne_none _).symm⟩
    · intro i
      rw [houts]
      exact h.tokens i
    · intro i
      rw [houts]
      exact h.logprobs i
    · constructor
      · rw [houts]
        exact h.marked.going
      · rw [houts]
        exact h.marked.ended

lemma idOf_inj {i j : Nat} (hn : s.params.n ≠ 1) (h : s.idOf i = s.idOf j) : i = j := by
  rw [idOf, idOf, if_neg hn, if_neg hn] at h
  exact ParentRequest.childReqId_inj h

lemma Sound.next_new (h : Sound s) (hlt : s.added < s.params.n) :
    s.processor.requestStates (s.idOf s.added) = none := by
  by_contra hsome
  obtain ⟨r, hr⟩ := Option.ne_none_iff_exists'.mp hsome
  have hof := h.states _ r hr
  have hindex := hof.index_lt
  by_cases hn : s.params.n = 1
  · omega
  · have := idOf_inj hn hof.idOf_eq
    omega

/-- The state of the next request was made. -/
def withNew (s : DeltaStream P δ) (params : SamplingParams)
    (parentReq : Option (ParentRequest P)) (detokenizer : IncrementalDetokenizer δ)
    (registered : Bool) : DeltaStream P δ :=
  { s with
    processor := { s.processor with
      requestStates := Function.update s.processor.requestStates (s.idOf s.added)
        (some (.fromNewRequest (s.idOf s.added) s.added params detokenizer))
      parentRegistered := registered
      parent := parentReq }
    added := s.added + 1 }

lemma Sound.withNew (h : Sound s) (hlt : s.added < s.params.n) {params : SamplingParams}
    (hkind : params.outputKind = .delta) (hlogprobs : params.logprobs = s.params.logprobs)
    {parentReq : Option (ParentRequest P)} (hsole : s.params.n = 1 → parentReq = none)
    (hparent : s.params.n ≠ 1 → ∃ parent, parentReq = some parent ∧
      parent.samplingParams = s.params ∧ parent.requestId = s.requestId ∧ parent.CacheSound ∧
      ∀ id, id ∈ parent.childRequests ↔ id = s.idOf s.added ∨ s.Running id)
    (detokenizer : IncrementalDetokenizer δ) (registered : Bool) :
    Sound (s.withNew params parentReq detokenizer registered) := by
  have hgoing : ¬ s.AllEnded := fun hall => absurd hall.1 hlt.ne
  have hrunning : ∀ other, (s.withNew params parentReq detokenizer registered).Running other ↔
      _ := running_iff_of_update rfl
  constructor
  · exact h.kind_eq
  · exact hsole
  · intro hn
    obtain ⟨parent, hsome, hparams, hid, hcache, hchildren⟩ := hparent hn
    refine ⟨parent, hsome, hparams, hid, hcache, fun id => ?_⟩
    rw [hchildren, hrunning]
    by_cases heq : id = s.idOf s.added
    · simp [heq]
    · simp [heq]
  · exact hlt
  · intro id r hr
    simp only [DeltaStream.withNew] at hr
    by_cases heq : id = s.idOf s.added
    · rw [heq, Function.update_self] at hr
      obtain rfl := Option.some.inj hr
      constructor
      · exact heq.symm
      · exact Nat.lt_succ_self _
      · exact heq.symm
      · exact hkind
      · simp only [RequestState.fromNewRequest, LogprobsProcessor.fromNewRequest, hlogprobs]
        change _ = if s.params.logprobs.isSome then some (s.generatedLogprobs s.added) else none
        rw [h.fresh _ (le_refl _)]
      · simp only [RequestState.fromNewRequest, LogprobsProcessor.fromNewRequest, hlogprobs]
        change _ = s.params.logprobs.isSome
        cases s.params.logprobs <;> rfl
    · rw [Function.update_of_ne heq] at hr
      have hof := h.states id r hr
      exact ⟨hof.id_eq, Nat.lt_succ_of_lt hof.index_lt, hof.idOf_eq, hof.kind_eq,
        hof.logprobs_eq, hof.cumulative⟩
  · exact fun i hi => h.fresh i (Nat.le_of_succ_le hi)
  · exact h.collects
  · exact h.tokens
  · exact h.logprobs
  · constructor
    · exact fun _ => h.marked.going hgoing
    · intro hall
      exact absurd ((hrunning (s.idOf s.added)).mpr (.inl ⟨rfl, rfl⟩)) (hall.2 _)

lemma Sound.addRequest (h : Sound s) {detokenizer : IncrementalDetokenizer δ}
    (hlt : s.added < s.params.n) :
    ∃ s', s.next decodeNext (.addRequest detokenizer : DeltaEvent P δ) = .ok s' ∧ Sound s' := by
  have hnew := h.next_new hlt
  by_cases hn : s.params.n = 1
  · have hzero : s.added = 0 := by omega
    have hid : s.idOf 0 = s.requestId := if_pos hn
    have hsound := h.withNew hlt h.kind_eq rfl (fun _ => h.sole hn) (fun hne => absurd hn hne)
      detokenizer (s.processor.parentRegistered || s.processor.parent.isSome)
    rw [hzero, hid] at hnew
    refine ⟨_, ?_, hsound⟩
    simp [next, h.sole hn, OutputProcessor.addRequest, hnew, DeltaStream.withNew, hid, hzero]
  · obtain ⟨parent, hparent, hof⟩ := h.parent hn
    have hid : s.idOf s.added = ParentRequest.childReqId parent.requestId s.added := by
      rw [idOf, if_neg hn, hof.id_eq]
    obtain ⟨hinfo, cached, hchild, hcache⟩ :=
      ParentRequest.getChildInfo_spec hof.cache s.added
    have hkind : (ParentRequest.childSamplingParams parent.samplingParams s.added).outputKind =
        .delta := by
      rw [hof.params_eq]
      exact h.kind_eq
    have hlogprobs : (ParentRequest.childSamplingParams parent.samplingParams s.added).logprobs =
        s.params.logprobs := by
      rw [hof.params_eq]
      rfl
    have hadded : ∃ parent', some (parent.getChildInfo s.added).2 = some parent' ∧
        parent'.samplingParams = s.params ∧ parent'.requestId = s.requestId ∧
        parent'.CacheSound ∧
        ∀ id, id ∈ parent'.childRequests ↔ id = s.idOf s.added ∨ s.Running id := by
      refine ⟨_, rfl, ?_, ?_, hcache, fun id => ?_⟩
      · rw [hchild]
        exact hof.params_eq
      · rw [hchild]
        exact hof.id_eq
      · rw [hchild, Finset.mem_insert, ← hid]
        exact or_congr Iff.rfl (hof.children id)
    have hsound := h.withNew hlt hkind hlogprobs (fun hone => absurd hone hn) (fun _ => hadded)
      detokenizer (s.processor.parentRegistered || true)
    rw [hid] at hnew
    refine ⟨_, ?_, hsound⟩
    simp [next, hparent, OutputProcessor.addRequest, hinfo, hnew, DeltaStream.withNew, hid]

lemma Sound.next_event (h : Sound s) {e : DeltaEvent P δ} (hpossible : s.Possible e)
    (hkeeps : s.KeepsDeltas decodeNext e) :
    ∃ s', s.next decodeNext e = .ok s' ∧ Sound s' := by
  cases e with
  | addRequest detokenizer => exact h.addRequest hpossible
  | processOutput output => exact h.processOutput hpossible hkeeps
  | abort requestId children => exact h.abort hkeeps
  | get => exact h.get

lemma Reached.sound {requestId : String} {params : SamplingParams}
    (hkind : params.outputKind = .delta) (h : Reached decodeNext requestId params s) :
    Sound s := by
  apply Runs.Reached.invariant _ _ h
  · rintro _ rfl
    exact sound_start requestId hkind
  · rintro s e s' hs ⟨hpossible, hkeeps⟩ hnext
    obtain ⟨s₁, h₁, hsound⟩ := hs.next_event hpossible hkeeps
    obtain rfl := Except.ok.inj (h₁.symm.trans hnext)
    exact hsound

/-- The consumer's outputs are marked as finished with the last one. -/
lemma Sound.finished_iff (h : Sound s) {k : Nat} {o : RequestOutput P}
    (ho : s.received[k]? = some o) :
    o.finished ↔ s.AllEnded ∧ s.processor.queue.output = none ∧ k + 1 = s.received.length := by
  have hmem : o ∈ s.outputs := List.mem_append_left _ (List.mem_of_getElem? ho)
  obtain ⟨hk, -⟩ := List.getElem?_eq_some_iff.mp ho
  by_cases hall : s.AllEnded
  · obtain ⟨before, last, houts, hlast, hbefore⟩ := h.marked.ended hall
    have hat : s.outputs[k]? = some o := by
      rw [outputs, List.getElem?_append_left hk]
      exact ho
    have hlength := congrArg List.length houts
    rw [houts] at hat
    simp only [outputs, List.length_append, List.length_singleton] at hlength
    constructor
    · intro hfinished
      by_cases hearly : k < before.length
      · rw [List.getElem?_append_left hearly] at hat
        have hno := hbefore o (List.mem_of_getElem? hat)
        exact absurd (hno.symm.trans hfinished) Bool.false_ne_true
      · have hnone : s.processor.queue.output.toList.length = 0 := by omega
        refine ⟨hall, ?_, by omega⟩
        cases hq : s.processor.queue.output with
        | none => rfl
        | some pending => simp [hq] at hnone
    · rintro ⟨-, hnone, hk'⟩
      rw [hnone] at hlength
      have hkb : k = before.length := by
        simp only [Option.toList_none, List.length_nil] at hlength
        omega
      rw [hkb, List.getElem?_concat_length] at hat
      obtain rfl := Option.some.inj hat
      exact hlast
  · constructor
    · intro hfinished
      exact absurd ((h.marked.going hall o hmem).symm.trans hfinished) Bool.false_ne_true
    · exact fun hended => absurd hended.1 hall

def numbers : Payloads := ⟨Nat, Nat, 0, (· + ·), fun logprob => logprob, Unit⟩

def oneDelta : SamplingParams := ⟨1, .delta, none, some 1, Nat.one_pos⟩

def noDecoding (_ : Unit) (_ : Nat) : List Char × Unit := ([], ())

/-- New tokens, each with its own number as log probability. -/
def tokensOutput (tokenIds : List Nat) (finishReason : Option FinishReason) :
    EngineCoreOutput numbers where
  requestId := "r"
  newTokenIds := tokenIds
  newLogprobs := some tokenIds
  finishReason := finishReason
  stopReason := none
  kvTransferParams := none

end DeltaStream

end VllmV1.Frontend
