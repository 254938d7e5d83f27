import Mathlib.Data.Finset.Image
import VllmMmaEmu.Frontend.RequestOutputs
import VllmMmaEmu.Library.Runs

/-!
# Parallel sampling

`ParentRequest` of `vllm/v1/engine/parallel_sampling.py`, and the fan-out of `AsyncLLM.add_request`
that adds the children one after the other while outputs of the earlier ones arrive. Whether the
request is finished is read off the set of children that are left.
-/

namespace VllmV1.Frontend

open Python

/-- `SamplingParams`, as far as parallel sampling and the output processor read it. -/
structure SamplingParams where
  n : Nat
  outputKind : RequestOutputKind
  seed : Option Int
  /-- The number of log probabilities to return per token. -/
  logprobs : Option Nat
  /-- `_verify_args` -/
  n_pos : 0 < n

structure ParentRequest (P : Payloads) where
  requestId : String
  samplingParams : SamplingParams
  /-- The children that were added and did not finish. -/
  childRequests : Finset String
  /-- The completions by index, if they are returned together. -/
  outputAggregator : List (Option (CompletionOutput P))
  cachedChildSamplingParams : Option SamplingParams

namespace ParentRequest

variable {P : Payloads}

def init (P : Payloads) (requestId : String) (samplingParams : SamplingParams) :
    ParentRequest P where
  requestId := requestId
  samplingParams := samplingParams
  childRequests := ∅
  outputAggregator :=
    if samplingParams.outputKind = .finalOnly then List.replicate samplingParams.n none else []
  cachedChildSamplingParams := none

def getChildSamplingParams (p : ParentRequest P) (index : Nat) :
    SamplingParams × ParentRequest P :=
  match p.cachedChildSamplingParams with
  | some params => (params, p)
  | none =>
    let childSamplingParams := { p.samplingParams with n := 1, n_pos := Nat.one_pos }
    match p.samplingParams.seed with
    | none => (childSamplingParams, { p with cachedChildSamplingParams := childSamplingParams })
    | some seed => ({ childSamplingParams with seed := some (seed + index) }, p)

def childReqId (requestId : String) (index : Nat) : String :=
  toString index ++ "_" ++ requestId

def getChildInfo (p : ParentRequest P) (index : Nat) :
    (String × SamplingParams) × ParentRequest P :=
  let childReqId := childReqId p.requestId index
  let child := getChildSamplingParams
    { p with childRequests := insert childReqId p.childRequests } index
  ((childReqId, child.1), child.2)

def getOutputs (p : ParentRequest P) (childRequestId : String) (completion : CompletionOutput P) :
    Except PyError ((String × List (Option (CompletionOutput P)) × Bool) × ParentRequest P) := do
  let p ←
    if completion.finished then
      if childRequestId ∈ p.childRequests then
        .ok { p with childRequests := p.childRequests.erase childRequestId }
      else .error .keyError
    else .ok p
  let finished := decide (p.childRequests = ∅)
  if p.samplingParams.outputKind ≠ .finalOnly then
    return ((p.requestId, [some completion], finished), p)
  else do
    let aggregator ← pySetItem p.outputAggregator completion.index (some completion)
    let outputs := if p.childRequests = ∅ then aggregator else []
    return ((p.requestId, outputs, finished), { p with outputAggregator := aggregator })

lemma childReqId_inj {requestId : String} {i j : Nat}
    (h : childReqId requestId i = childReqId requestId j) : i = j := by
  have hlist := congrArg String.toList h
  simp only [childReqId, String.toList_append, List.append_assoc] at hlist
  have hdigits := List.append_cancel_right hlist
  have hi : (toString i).toList = Nat.toDigits 10 i := Nat.toList_repr
  have hj : (toString j).toList = Nat.toDigits 10 j := Nat.toList_repr
  rw [hi, hj] at hdigits
  rw [← Nat.ofDigitChars_ten_toDigits (n := i), hdigits, Nat.ofDigitChars_ten_toDigits]

/-- The parameters of a child: those of the parent for one completion, with a seed of its own if
there is one. -/
def childSamplingParams (params : SamplingParams) (index : Nat) : SamplingParams :=
  { params with n := 1, n_pos := Nat.one_pos, seed := params.seed.map (· + (index : Int)) }

/-- Parameters are kept for the later children when all of them are the same. -/
def CacheSound (p : ParentRequest P) : Prop :=
  ∀ params, p.cachedChildSamplingParams = some params →
    p.samplingParams.seed = none ∧ ∀ index, params = childSamplingParams p.samplingParams index

lemma getChildSamplingParams_spec {p : ParentRequest P} (h : p.CacheSound) (index : Nat) :
    (p.getChildSamplingParams index).1 = childSamplingParams p.samplingParams index ∧
      ∃ cached, (p.getChildSamplingParams index).2 =
        { p with cachedChildSamplingParams := cached } ∧
        (p.getChildSamplingParams index).2.CacheSound := by
  cases hcached : p.cachedChildSamplingParams with
  | some params =>
    have hsame : p.getChildSamplingParams index = (params, p) := by
      simp [getChildSamplingParams, hcached]
    rw [hsame]
    exact ⟨(h params hcached).2 index, some params, by rw [← hcached], h⟩
  | none =>
    cases hseed : p.samplingParams.seed with
    | none =>
      have hall : ∀ i, childSamplingParams p.samplingParams index =
          childSamplingParams p.samplingParams i := by
        intro i
        simp [childSamplingParams, hseed]
      have hnew : p.getChildSamplingParams index =
          (childSamplingParams p.samplingParams index,
            { p with
              cachedChildSamplingParams := some (childSamplingParams p.samplingParams index) }) := by
        simp [getChildSamplingParams, childSamplingParams, hcached, hseed]
      rw [hnew]
      refine ⟨rfl, _, rfl, fun params hparams => ⟨hseed, fun i => ?_⟩⟩
      rw [← Option.some.inj hparams]
      exact hall i
    | some seed =>
      have hown : p.getChildSamplingParams index =
          (childSamplingParams p.samplingParams index, p) := by
        simp [getChildSamplingParams, childSamplingParams, hcached, hseed]
      rw [hown]
      exact ⟨rfl, none, by rw [← hcached], h⟩

lemma getChildInfo_spec {p : ParentRequest P} (h : p.CacheSound) (index : Nat) :
    (p.getChildInfo index).1 =
        (childReqId p.requestId index, childSamplingParams p.samplingParams index) ∧
      ∃ cached, (p.getChildInfo index).2 =
        { p with
          childRequests := insert (childReqId p.requestId index) p.childRequests
          cachedChildSamplingParams := cached } ∧
        (p.getChildInfo index).2.CacheSound := by
  have hadded : CacheSound
      { p with childRequests := insert (childReqId p.requestId index) p.childRequests } := h
  obtain ⟨hparams, cached, hparent, hsound⟩ := getChildSamplingParams_spec hadded index
  exact ⟨by rw [getChildInfo, hparams], cached, hparent, hsound⟩

/-- The children that are left when a completion was handled. -/
def childrenAfter (p : ParentRequest P) (childRequestId : String)
    (completion : CompletionOutput P) : Finset String :=
  if completion.finished then p.childRequests.erase childRequestId else p.childRequests

def aggregatorAfter (p : ParentRequest P) (completion : CompletionOutput P) :
    List (Option (CompletionOutput P)) :=
  if p.samplingParams.outputKind = .finalOnly then
    p.outputAggregator.set completion.index (some completion)
  else p.outputAggregator

def outputsAfter (p : ParentRequest P) (childRequestId : String)
    (completion : CompletionOutput P) : List (Option (CompletionOutput P)) :=
  if p.samplingParams.outputKind = .finalOnly then
    if p.childrenAfter childRequestId completion = ∅ then p.aggregatorAfter completion else []
  else [some completion]

lemma getOutputs_eq {p : ParentRequest P} {childRequestId : String}
    {completion : CompletionOutput P}
    (hchild : completion.finished → childRequestId ∈ p.childRequests)
    (hindex : p.samplingParams.outputKind = .finalOnly →
      completion.index < p.outputAggregator.length) :
    p.getOutputs childRequestId completion =
      .ok ((p.requestId, p.outputsAfter childRequestId completion,
          decide (p.childrenAfter childRequestId completion = ∅)),
        { p with
          childRequests := p.childrenAfter childRequestId completion
          outputAggregator := p.aggregatorAfter completion }) := by
  simp only [getOutputs, outputsAfter, childrenAfter, aggregatorAfter]
  by_cases hfinished : completion.finished
  · by_cases hkind : p.samplingParams.outputKind = .finalOnly
    · simp [hfinished, hchild hfinished, hkind, pySetItem_of_lt (hindex hkind)]
    · simp [hfinished, hchild hfinished, hkind]
  · by_cases hkind : p.samplingParams.outputKind = .finalOnly
    · simp [hfinished, hkind, pySetItem_of_lt (hindex hkind)]
    · simp [hfinished, hkind]

end ParentRequest

variable {P : Payloads}

/-- A parent request during and after the fan-out. -/
structure FanOut (P : Payloads) where
  parent : ParentRequest P
  /-- The number of children that were added. -/
  added : Nat
  /-- The completions that finished, in order. -/
  ended : List (CompletionOutput P)
  /-- The outputs and the flag that `get_outputs` returned, call by call. -/
  reports : List (List (Option (CompletionOutput P)) × Bool)

/-- The next child is added, or an output of a child is handled. -/
inductive FanOutEvent (P : Payloads) where
  | getChildInfo
  | output (completion : CompletionOutput P)

namespace FanOut

def start (P : Payloads) (requestId : String) (params : SamplingParams) : FanOut P where
  parent := .init P requestId params
  added := 0
  ended := []
  reports := []

def n (s : FanOut P) : Nat := s.parent.samplingParams.n

def kind (s : FanOut P) : RequestOutputKind := s.parent.samplingParams.outputKind

/-- The child was added and did not finish. -/
def Running (s : FanOut P) (i : Nat) : Prop := i < s.added ∧ i ∉ s.ended.map (·.index)

def AllEnded (s : FanOut P) : Prop := ∀ i < s.n, i ∈ s.ended.map (·.index)

instance (s : FanOut P) (i : Nat) : Decidable (s.Running i) :=
  inferInstanceAs (Decidable (_ ∧ _))

instance (s : FanOut P) : Decidable s.AllEnded :=
  inferInstanceAs (Decidable (∀ i < s.n, i ∈ s.ended.map (·.index)))

/-- Outputs come from children that run. Without streaming `make_request_output` drops those that
do not finish. -/
def Handles (s : FanOut P) (completion : CompletionOutput P) : Prop :=
  s.Running completion.index ∧ (s.kind = .finalOnly → completion.finished)

instance (s : FanOut P) (completion : CompletionOutput P) : Decidable (s.Handles completion) :=
  inferInstanceAs (Decidable (_ ∧ (_ → _)))

/-- The state after the next child was added. -/
def afterChild (s : FanOut P) : FanOut P :=
  { s with parent := (s.parent.getChildInfo s.added).2, added := s.added + 1 }

def next (s : FanOut P) : FanOutEvent P → Option (FanOut P)
  | .getChildInfo => if s.added < s.n then some s.afterChild else none
  | .output completion =>
    if s.Handles completion then
      match s.parent.getOutputs (ParentRequest.childReqId s.parent.requestId completion.index)
          completion with
      | .error _ => none
      | .ok ((_, outputs, finished), parent) => some { s with
          parent := parent
          ended := if completion.finished then s.ended ++ [completion] else s.ended
          reports := s.reports ++ [(outputs, finished)] }
    else none

/-- While children are still to be added, a child finishes only if another one runs. -/
def KeepsOneRunning (s : FanOut P) : FanOutEvent P → Prop
  | .getChildInfo => True
  | .output completion => completion.finished → s.added < s.n →
      ∃ i, i ≠ completion.index ∧ s.Running i

def Reached (requestId : String) (params : SamplingParams) : FanOut P → Prop :=
  Runs.Reached (fun s => s = start P requestId params) KeepsOneRunning
    (fun s e s' => s.next e = some s')

/-- The completions in the order of their indices. -/
structure InOrder (s : FanOut P) (outputs : List (Option (CompletionOutput P))) : Prop where
  length_eq : outputs.length = s.n
  completed : ∀ i < s.n, ∃ c ∈ s.ended, c.index = i ∧ c.finished ∧ outputs[i]? = some (some c)

/-- The request is reported finished once, when the last of its children finishes. -/
structure FinishesLast (s : FanOut P) : Prop where
  answers : ∀ c, s.Handles c → (s.next (.output c)).isSome
  once : (s.reports.filter (·.2)).length = if s.AllEnded then 1 else 0
  last : s.AllEnded → ∃ outputs, s.reports.getLast? = some (outputs, true) ∧
    (s.kind = .finalOnly → s.InOrder outputs)

/-- The parent knows the children that run and the completions that ended. -/
structure Sound (requestId : String) (params : SamplingParams) (s : FanOut P) : Prop where
  id_eq : s.parent.requestId = requestId
  params_eq : s.parent.samplingParams = params
  cache : s.parent.CacheSound
  added_le : s.added ≤ s.n
  children : ∀ id, id ∈ s.parent.childRequests ↔
    ∃ i, s.Running i ∧ id = ParentRequest.childReqId requestId i
  ended_lt : ∀ c ∈ s.ended, c.index < s.added ∧ c.finished
  aggregator_length : s.kind = .finalOnly → s.parent.outputAggregator.length = s.n
  aggregated : s.kind = .finalOnly → ∀ c ∈ s.ended,
    s.parent.outputAggregator[c.index]? = some (some c)

/-- What was reported so far. -/
structure Reported (s : FanOut P) : Prop where
  early : ¬ s.AllEnded → ∀ r ∈ s.reports, r.2 = false
  last : s.AllEnded → ∃ before outputs, s.reports = before ++ [(outputs, true)] ∧
    (∀ r ∈ before, r.2 = false) ∧ (s.kind = .finalOnly → s.InOrder outputs)

variable {requestId : String} {params : SamplingParams} {s s' : FanOut P}

lemma sound_start : Sound requestId params (start P requestId params) := by
  constructor
  · rfl
  · rfl
  · exact fun _ hcached => absurd hcached (Option.some_ne_none _).symm
  · exact Nat.zero_le _
  · intro id
    simp [start, ParentRequest.init, Running]
  · exact fun c hc => absurd hc List.not_mem_nil
  · intro hkind
    have hfinal : params.outputKind = .finalOnly := hkind
    simp [start, ParentRequest.init, n, hfinal]
  · exact fun _ c hc => absurd hc List.not_mem_nil

lemma reported_start : Reported (start P requestId params) := by
  constructor
  · exact fun _ r hr => absurd hr List.not_mem_nil
  · intro hall
    exact absurd (hall 0 params.n_pos) List.not_mem_nil

lemma Sound.getChildInfo (h : Sound requestId params s)
    (hnext : s.next .getChildInfo = some s') : Sound requestId params s' := by
  simp only [next] at hnext
  split_ifs at hnext with hlt
  obtain rfl := Option.some.inj hnext
  obtain ⟨-, cached, hparent, hcache⟩ := ParentRequest.getChildInfo_spec h.cache s.added
  rw [hparent] at hcache
  rw [afterChild, hparent]
  constructor
  · exact h.id_eq
  · exact h.params_eq
  · exact hcache
  · exact hlt
  · intro id
    have hnew : s.added ∉ s.ended.map (·.index) := by
      intro hmem
      obtain ⟨c, hc, hindex⟩ := List.mem_map.mp hmem
      have := (h.ended_lt c hc).1
      omega
    rw [Finset.mem_insert, h.children, h.id_eq]
    constructor
    · rintro (rfl | ⟨i, hi, rfl⟩)
      · exact ⟨s.added, ⟨Nat.lt_succ_self _, hnew⟩, rfl⟩
      · exact ⟨i, ⟨Nat.lt_succ_of_lt hi.1, hi.2⟩, rfl⟩
    · rintro ⟨i, ⟨hi, hended⟩, rfl⟩
      rcases Nat.lt_succ_iff_lt_or_eq.mp hi with hi | rfl
      · exact .inr ⟨i, ⟨hi, hended⟩, rfl⟩
      · exact .inl rfl
  · exact fun c hc => ⟨Nat.lt_succ_of_lt (h.ended_lt c hc).1, (h.ended_lt c hc).2⟩
  · exact h.aggregator_length
  · exact h.aggregated

/-- The state after an output of a child was handled. -/
def afterOutput (s : FanOut P) (completion : CompletionOutput P) : FanOut P :=
  let id := ParentRequest.childReqId s.parent.requestId completion.index
  { s with
    parent := { s.parent with
      childRequests := s.parent.childrenAfter id completion
      outputAggregator := s.parent.aggregatorAfter completion }
    ended := if completion.finished then s.ended ++ [completion] else s.ended
    reports := s.reports ++ [(s.parent.outputsAfter id completion,
      decide (s.parent.childrenAfter id completion = ∅))] }

variable {c : CompletionOutput P}

lemma Sound.next_output (h : Sound requestId params s) (hc : s.Handles c) :
    s.next (.output c) = some (s.afterOutput c) := by
  have hchild : ParentRequest.childReqId s.parent.requestId c.index ∈ s.parent.childRequests := by
    rw [h.children, h.id_eq]
    exact ⟨c.index, hc.1, rfl⟩
  have hindex : s.kind = .finalOnly → c.index < s.parent.outputAggregator.length := by
    intro hkind
    rw [h.aggregator_length hkind]
    exact hc.1.1.trans_le h.added_le
  simp [next, if_pos hc, ParentRequest.getOutputs_eq (fun _ => hchild) hindex, afterOutput]

lemma Sound.mem_childrenAfter (h : Sound requestId params s) {id : String} :
    id ∈ s.parent.childrenAfter (ParentRequest.childReqId s.parent.requestId c.index) c ↔
      ∃ i, s.Running i ∧ (c.finished → i ≠ c.index) ∧
        id = ParentRequest.childReqId requestId i := by
  rw [ParentRequest.childrenAfter, h.id_eq]
  split_ifs with hfinished
  · rw [Finset.mem_erase, h.children]
    constructor
    · rintro ⟨hne, i, hi, rfl⟩
      exact ⟨i, hi, fun _ heq => hne (heq ▸ rfl), rfl⟩
    · rintro ⟨i, hi, hne, rfl⟩
      exact ⟨fun heq => hne hfinished (ParentRequest.childReqId_inj heq), i, hi, rfl⟩
  · rw [h.children]
    exact exists_congr fun i => by simp [hfinished]

lemma running_afterOutput {i : Nat} :
    (s.afterOutput c).Running i ↔ s.Running i ∧ (c.finished → i ≠ c.index) := by
  simp only [Running, afterOutput]
  by_cases hfinished : c.finished
  · simp [hfinished, not_or, and_assoc]
  · simp [hfinished]

lemma Sound.output (h : Sound requestId params s) (hc : s.Handles c) :
    Sound requestId params (s.afterOutput c) := by
  have hset : s.kind = .finalOnly →
      (s.afterOutput c).parent.outputAggregator = s.parent.outputAggregator.set c.index (some c) :=
    fun hkind => if_pos hkind
  constructor
  · exact h.id_eq
  · exact h.params_eq
  · exact h.cache
  · exact h.added_le
  · intro id
    rw [show (s.afterOutput c).parent.childRequests = s.parent.childrenAfter
      (ParentRequest.childReqId s.parent.requestId c.index) c from rfl, h.mem_childrenAfter]
    simp only [running_afterOutput, and_assoc]
  · intro c' hc'
    by_cases hfinished : c.finished
    · simp only [afterOutput, if_pos hfinished, List.mem_append, List.mem_singleton] at hc'
      rcases hc' with hc' | rfl
      · exact h.ended_lt c' hc'
      · exact ⟨hc.1.1, hfinished⟩
    · simp only [afterOutput, if_neg hfinished] at hc'
      exact h.ended_lt c' hc'
  · intro hkind
    rw [hset hkind, List.length_set]
    exact h.aggregator_length hkind
  · intro hkind c' hc'
    have hlength := h.aggregator_length hkind
    simp only [afterOutput, if_pos (hc.2 hkind), List.mem_append, List.mem_singleton] at hc'
    rw [hset hkind]
    rcases hc' with hc' | rfl
    · have hne : c.index ≠ c'.index := fun heq =>
        hc.1.2 (heq ▸ List.mem_map_of_mem hc')
      rw [List.getElem?_set_ne hne]
      exact h.aggregated hkind c' hc'
    · have hlt := hc.1.1.trans_le h.added_le
      exact List.getElem?_set_self (by omega)

/-- All children that were added ended when none is left. -/
lemma Sound.childRequests_eq_empty_iff (h : Sound requestId params s) :
    s.parent.childRequests = ∅ ↔ ∀ i, ¬ s.Running i := by
  rw [Finset.eq_empty_iff_forall_notMem]
  constructor
  · intro hempty i hi
    exact hempty _ ((h.children _).mpr ⟨i, hi, rfl⟩)
  · intro hnone id hid
    obtain ⟨i, hi, -⟩ := (h.children id).mp hid
    exact hnone i hi

lemma Sound.empty_iff_allEnded (h : Sound requestId params s) (hc : s.Handles c)
    (hkeeps : s.KeepsOneRunning (.output c)) :
    (s.afterOutput c).parent.childRequests = ∅ ↔ (s.afterOutput c).AllEnded := by
  rw [(h.output hc).childRequests_eq_empty_iff]
  constructor
  · intro hnone i hi
    by_cases hlt : i < s.added
    · by_contra hended
      exact hnone i ⟨hlt, hended⟩
    · exfalso
      have hadded : s.added < s.n := lt_of_le_of_lt (not_lt.mp hlt) hi
      have hfinished : c.finished := by
        by_contra hgoing
        exact hnone c.index (running_afterOutput.mpr ⟨hc.1, fun hf => absurd hf hgoing⟩)
      obtain ⟨j, hne, hj⟩ := hkeeps hfinished hadded
      exact hnone j (running_afterOutput.mpr ⟨hj, fun _ => hne⟩)
  · intro hall i hi
    exact hi.2 (hall i (hi.1.trans_le (h.output hc).added_le))

lemma Sound.not_allEnded (h : Sound requestId params s) (hc : s.Handles c) : ¬ s.AllEnded :=
  fun hall => hc.1.2 (hall c.index (hc.1.1.trans_le h.added_le))

/-- The aggregated completions of a request whose children all ended. -/
lemma Sound.inOrder (h : Sound requestId params s) (hkind : s.kind = .finalOnly)
    (hall : s.AllEnded) : s.InOrder s.parent.outputAggregator := by
  constructor
  · exact h.aggregator_length hkind
  · intro i hi
    obtain ⟨c, hc, rfl⟩ := List.mem_map.mp (hall i hi)
    exact ⟨c, hc, rfl, (h.ended_lt c hc).2, h.aggregated hkind c hc⟩

lemma Reported.output (hr : Reported s) (h : Sound requestId params s) (hc : s.Handles c)
    (hkeeps : s.KeepsOneRunning (.output c)) : Reported (s.afterOutput c) := by
  have hempty := h.empty_iff_allEnded hc hkeeps
  have hbefore := hr.early (h.not_allEnded hc)
  constructor
  · intro hgoing r hmem
    rcases List.mem_append.mp hmem with hmem | hmem
    · exact hbefore r hmem
    · obtain rfl := List.mem_singleton.mp hmem
      exact decide_eq_false (mt hempty.mp hgoing)
  · intro hall
    have hnone := hempty.mpr hall
    refine ⟨s.reports, s.parent.outputsAfter
      (ParentRequest.childReqId s.parent.requestId c.index) c, ?_, hbefore, ?_⟩
    · exact congrArg (fun b => s.reports ++ [(_, b)]) (decide_eq_true hnone)
    · intro hkind
      have hfinal : s.parent.samplingParams.outputKind = .finalOnly := hkind
      have hchildren : s.parent.childrenAfter
          (ParentRequest.childReqId s.parent.requestId c.index) c = ∅ := hnone
      have houtputs : s.parent.outputsAfter
          (ParentRequest.childReqId s.parent.requestId c.index) c =
            (s.afterOutput c).parent.outputAggregator := by
        rw [ParentRequest.outputsAfter, if_pos hfinal, if_pos hchildren]
        rfl
      rw [houtputs]
      exact (h.output hc).inOrder hkind hall

lemma Reported.getChildInfo (hr : Reported s) (h : Sound requestId params s)
    (hnext : s.next .getChildInfo = some s') : Reported s' := by
  simp only [next] at hnext
  split_ifs at hnext with hlt
  obtain rfl := Option.some.inj hnext
  obtain ⟨-, cached, hparent, -⟩ := ParentRequest.getChildInfo_spec h.cache s.added
  rw [afterChild, hparent]
  constructor
  · exact hr.early
  · intro hall
    obtain ⟨before, outputs, hreports, hbefore, horder⟩ := hr.last hall
    refine ⟨before, outputs, hreports, hbefore, fun hkind => ?_⟩
    exact ⟨(horder hkind).length_eq, (horder hkind).completed⟩

lemma Reached.sound (h : Reached requestId params s) :
    Sound requestId params s ∧ Reported s := by
  apply Runs.Reached.invariant _ _ h
  · rintro _ rfl
    exact ⟨sound_start, reported_start⟩
  · rintro s e s' ⟨hs, hr⟩ hkeeps hnext
    cases e with
    | getChildInfo => exact ⟨hs.getChildInfo hnext, hr.getChildInfo hs hnext⟩
    | output c =>
      have hc : s.Handles c := by
        by_contra hno
        simp [next, hno] at hnext
      obtain rfl := Option.some.inj ((hs.next_output hc).symm.trans hnext)
      exact ⟨hs.output hc, hr.output hs hc hkeeps⟩

/-- If no output takes the last running child away while others are still to be added, the request
is reported finished once, with its last child. -/
theorem finishesLast_of_reached (requestId : String) (params : SamplingParams) (s : FanOut P)
    (h : Reached requestId params s) : FinishesLast s := by
  obtain ⟨hsound, hreported⟩ := h.sound
  constructor
  · intro c hc
    rw [hsound.next_output hc]
    rfl
  · split_ifs with hall
    · obtain ⟨before, outputs, hreports, hbefore, -⟩ := hreported.last hall
      have hnone : before.filter (·.2) = [] := by
        rw [List.filter_eq_nil_iff]
        exact fun r hr => by simp [hbefore r hr]
      simp [hreports, hnone]
    · have hnone : s.reports.filter (·.2) = [] := by
        rw [List.filter_eq_nil_iff]
        exact fun r hr => by simp [hreported.early hall r hr]
      rw [hnone, List.length_nil]
  · intro hall
    obtain ⟨before, outputs, hreports, -, horder⟩ := hreported.last hall
    exact ⟨outputs, by simp [hreports], horder⟩

/-- Outputs that carry nothing. -/
def bare : Payloads := ⟨Unit, Unit, (), fun _ _ => (), fun _ => (), Unit⟩

def twoFinal : SamplingParams := ⟨2, .finalOnly, none, none, Nat.two_pos⟩

/-- The completion of a child that generated one token. -/
def oneToken (index : Nat) : CompletionOutput bare :=
  ⟨index, [], [index], none, none, some .length, none⟩

def threeFinal : SamplingParams := ⟨3, .finalOnly, none, none, Nat.succ_pos 2⟩

/-- The second of three children finishes before the third is added; the first still runs. -/
theorem finishesLast_of_reached_three :
    ∃ s : FanOut bare, Reached "r" threeFinal s ∧ s.AllEnded ∧ FinishesLast s := by
  have h₁ : Reached "r" threeFinal (start bare "r" threeFinal).afterChild :=
    .step (.start rfl) (e := .getChildInfo) trivial rfl
  have h₂ : Reached "r" threeFinal (start bare "r" threeFinal).afterChild.afterChild :=
    .step h₁ (e := .getChildInfo) trivial rfl
  have h₃ : Reached "r" threeFinal
      ((start bare "r" threeFinal).afterChild.afterChild.afterOutput (oneToken 1)) :=
    .step h₂ (e := .output (oneToken 1)) (fun _ _ => ⟨0, by decide, by decide⟩)
      (h₂.sound.1.next_output (by decide))
  have h₄ : Reached "r" threeFinal
      ((start bare "r" threeFinal).afterChild.afterChild.afterOutput (oneToken 1)).afterChild :=
    .step h₃ (e := .getChildInfo) trivial rfl
  have h₅ : Reached "r" threeFinal (((start bare "r" threeFinal).afterChild.afterChild.afterOutput
      (oneToken 1)).afterChild.afterOutput (oneToken 2)) :=
    .step h₄ (e := .output (oneToken 2)) (fun _ hlt => absurd hlt (by decide))
      (h₄.sound.1.next_output (by decide))
  have h₆ : Reached "r" threeFinal ((((start bare "r" threeFinal).afterChild.afterChild.afterOutput
      (oneToken 1)).afterChild.afterOutput (oneToken 2)).afterOutput (oneToken 0)) :=
    .step h₅ (e := .output (oneToken 0)) (fun _ hlt => absurd hlt (by decide))
      (h₅.sound.1.next_output (by decide))
  exact ⟨_, h₆, by decide, finishesLast_of_reached "r" threeFinal _ h₆⟩

/-- The first child finishes before the second is added: the request is reported finished, with the
second completion missing. -/
theorem not_finishesLast_early :
    ∃ events, ∃ s : FanOut bare,
      Runs.runEvents next (start bare "r" twoFinal) events = some s ∧ ¬ s.AllEnded ∧
        s.reports = [([some (oneToken 0), none], true)] ∧ ¬ FinishesLast s := by
  have h₁ : Reached "r" twoFinal (start bare "r" twoFinal).afterChild :=
    .step (.start rfl) (e := .getChildInfo) trivial rfl
  have hsound := h₁.sound.1
  have hhandles : (start bare "r" twoFinal).afterChild.Handles (oneToken 0) := by decide
  have hempty : ((start bare "r" twoFinal).afterChild.afterOutput
      (oneToken 0)).parent.childRequests = ∅ := by
    apply (hsound.output hhandles).childRequests_eq_empty_iff.mpr
    rintro i ⟨hi, hended⟩
    obtain rfl : i = 0 := Nat.lt_one_iff.mp hi
    exact hended (by decide)
  have hreports : ((start bare "r" twoFinal).afterChild.afterOutput (oneToken 0)).reports =
      [([some (oneToken 0), none], true)] := by
    have hchildren : (start bare "r" twoFinal).afterChild.parent.childrenAfter
        (ParentRequest.childReqId (start bare "r" twoFinal).afterChild.parent.requestId
          (oneToken 0).index) (oneToken 0) = ∅ := hempty
    simp only [afterOutput, ParentRequest.outputsAfter, hchildren]
    rfl
  have hadded : (start bare "r" twoFinal).next .getChildInfo =
      some (start bare "r" twoFinal).afterChild := rfl
  refine ⟨[.getChildInfo, .output (oneToken 0)], _, ?_, ?_, hreports, ?_⟩
  · simp only [Runs.runEvents, hadded, Option.bind_some, hsound.next_output hhandles]
  · decide
  · intro hlast
    have honce := hlast.once
    rw [hreports, if_neg (by decide)] at honce
    exact absurd honce (by decide)

end FanOut

end VllmV1.Frontend
