import VllmMmaEmu.Sched.UpdateFromOutput

/-!
# Outputs of requests

`CompletionOutput` and `RequestOutput` of `vllm/outputs.py`, and how a later output is merged into
one that was not fetched yet.
-/

namespace VllmV1.Frontend

open Python

inductive RequestOutputKind where
  | cumulative
  | delta
  | finalOnly
deriving DecidableEq

/-- A stop token or a stop string. -/
inductive StopReason where
  | token (tokenId : Nat)
  | string (stopString : List Char)
deriving DecidableEq

/-- What the outputs carry and only sums of log probabilities are computed from: the log
probabilities of a position, their sums and the parameters of a KV transfer. -/
structure Payloads where
  Logprobs : Type
  Float : Type
  zero : Float
  add : Float → Float → Float
  /-- The log probability of the sampled token. -/
  sampled : Logprobs → Float
  KvTransferParams : Type

variable {P : Payloads}

structure CompletionOutput (P : Payloads) where
  index : Nat
  text : List Char
  tokenIds : List Nat
  cumulativeLogprob : Option P.Float
  logprobs : Option (List P.Logprobs)
  /-- `str` of the reason, which gives each its own text. -/
  finishReason : Option FinishReason
  stopReason : Option StopReason

/-- `finished()` -/
def CompletionOutput.finished (c : CompletionOutput P) : Bool := c.finishReason.isSome

/-- `RequestOutput`. A completion that is missing is `None`. -/
structure RequestOutput (P : Payloads) where
  requestId : String
  outputs : List (Option (CompletionOutput P))
  finished : Bool
  kvTransferParams : Option P.KvTransferParams

/-- Merge the next output of the same index. -/
def CompletionOutput.merge (completion next : CompletionOutput P) :
    Except PyError (CompletionOutput P) := do
  let logprobs ← match next.logprobs, completion.logprobs with
    | none, logprobs => .ok logprobs
    | some [], logprobs => .ok logprobs
    | some (_ :: _), none => .error .assertionError
    | some (x :: more), some logprobs => .ok (some (logprobs ++ x :: more))
  return { completion with
    text := completion.text ++ next.text
    tokenIds := completion.tokenIds ++ next.tokenIds
    logprobs := logprobs
    cumulativeLogprob := next.cumulativeLogprob
    finishReason := next.finishReason
    stopReason := next.stopReason }

/-- The loop over `self.outputs` for one completion of the next output: it is merged with the
completion of its index or takes its place, and is appended if there is none. -/
def addCompletion (aggregate : Bool) (next : CompletionOutput P) :
    List (Option (CompletionOutput P)) → Except PyError (List (Option (CompletionOutput P)))
  | [] => .ok [some next]
  | none :: _ => .error .attributeError
  | some completion :: rest =>
    if completion.index = next.index then
      if aggregate then do
        let merged ← completion.merge next
        return some merged :: rest
      else .ok (some next :: rest)
    else do
      let rest' ← addCompletion aggregate next rest
      return some completion :: rest'

def RequestOutput.add (o next : RequestOutput P) (aggregate : Bool) :
    Except PyError (RequestOutput P) := do
  let outputs ← next.outputs.foldlM (fun outputs completion =>
    match completion, outputs with
    | none, [] => .ok [none]
    | none, _ :: _ => .error .attributeError
    | some completion, outputs => addCompletion aggregate completion outputs) o.outputs
  return { o with
    outputs := outputs
    finished := o.finished || next.finished
    kvTransferParams := next.kvTransferParams }

/-- What the completions of one index carry, in order. -/
def gather {α : Type} (part : CompletionOutput P → List α) (i : Nat)
    (completions : List (CompletionOutput P)) : List α :=
  (completions.filter (·.index = i)).flatMap part

section gather

variable {α : Type} {part : CompletionOutput P → List α} {i : Nat}

@[simp] lemma gather_nil : gather part i [] = [] := rfl

lemma gather_cons (c : CompletionOutput P) (rest : List (CompletionOutput P)) :
    gather part i (c :: rest) = (if c.index = i then part c else []) ++ gather part i rest := by
  rw [gather, List.filter_cons]
  split_ifs <;> simp_all [gather]

lemma gather_append (l l' : List (CompletionOutput P)) :
    gather part i (l ++ l') = gather part i l ++ gather part i l' := by
  rw [gather, List.filter_append, List.flatMap_append]
  rfl

lemma gather_eq_nil {l : List (CompletionOutput P)} (h : i ∉ l.map (·.index)) :
    gather part i l = [] := by
  have hnone : l.filter (·.index = i) = [] := by
    rw [List.filter_eq_nil_iff]
    intro c hc heq
    exact h (List.mem_map.mpr ⟨c, hc, of_decide_eq_true heq⟩)
  rw [gather, hnone, List.flatMap_nil]

end gather

/-- The log probabilities of a completion, none if they were not requested. -/
def CompletionOutput.logprobList (c : CompletionOutput P) : List P.Logprobs :=
  c.logprobs.getD []

/-- Completions that can be merged: one for each index, all with log probabilities or all
without. -/
structure Mergeable (wanted : Bool) (completions : List (CompletionOutput P)) : Prop where
  nodup : (completions.map (·.index)).Nodup
  wanted_iff : ∀ c ∈ completions, c.logprobs.isSome = wanted

lemma CompletionOutput.merge_eq {c next : CompletionOutput P}
    (h : c.logprobs.isSome = next.logprobs.isSome) :
    ∃ merged, c.merge next = .ok merged ∧ merged.index = c.index ∧
      merged.logprobs.isSome = c.logprobs.isSome ∧
      merged.tokenIds = c.tokenIds ++ next.tokenIds ∧
      merged.logprobList = c.logprobList ++ next.logprobList := by
  rw [CompletionOutput.merge]
  cases hnext : next.logprobs with
  | none => exact ⟨_, rfl, rfl, rfl, rfl, by simp [logprobList, hnext]⟩
  | some entries =>
    cases hc : c.logprobs with
    | none => simp [hc, hnext] at h
    | some before =>
      cases entries with
      | nil => exact ⟨_, rfl, rfl, rfl, rfl, by simp [logprobList, hnext, hc]⟩
      | cons x more => exact ⟨_, rfl, rfl, rfl, rfl, by simp [logprobList, hnext, hc]⟩

/-- An added completion goes behind what was there of its index. -/
lemma addCompletion_eq {wanted : Bool} {completions : List (CompletionOutput P)}
    {next : CompletionOutput P} (h : Mergeable wanted completions)
    (hnext : next.logprobs.isSome = wanted) :
    ∃ added, addCompletion true next (completions.map some) = .ok (added.map some) ∧
      (∀ i, i ∈ added.map (·.index) ↔ i ∈ completions.map (·.index) ∨ i = next.index) ∧
      Mergeable wanted added ∧
      (∀ i, gather (·.tokenIds) i added =
        gather (·.tokenIds) i completions ++ gather (·.tokenIds) i [next]) ∧
      ∀ i, gather (·.logprobList) i added =
        gather (·.logprobList) i completions ++ gather (·.logprobList) i [next] := by
  induction completions with
  | nil =>
    refine ⟨[next], rfl, by simp, ⟨by simp, by simpa using hnext⟩, by simp, by simp⟩
  | cons c rest ih =>
    obtain ⟨hnotin, hnodup⟩ := List.nodup_cons.mp h.nodup
    have hwanted := h.wanted_iff c List.mem_cons_self
    have hrest : Mergeable wanted rest :=
      ⟨hnodup, fun c' hc' => h.wanted_iff c' (List.mem_cons_of_mem _ hc')⟩
    by_cases hindex : c.index = next.index
    · obtain ⟨merged, hmerge, hsame, hsome, htokens, hlogprobs⟩ :=
        CompletionOutput.merge_eq (hwanted.trans hnext.symm)
      have hgather : ∀ {α : Type} (part : CompletionOutput P → List α),
          part merged = part c ++ part next → ∀ i, gather part i (merged :: rest) =
            gather part i (c :: rest) ++ gather part i [next] := by
        intro α part hpart i
        simp only [gather_cons, gather_nil, List.append_nil, hsame, ← hindex]
        split_ifs with hi
        · rw [gather_eq_nil (hi ▸ hnotin), hpart, List.append_nil, List.append_nil]
        · simp
      refine ⟨merged :: rest, by simp [addCompletion, hindex, hmerge], ?_, ?_, ?_, ?_⟩
      · intro i
        simp [hsame, hindex]
        tauto
      · constructor
        · rw [List.map_cons, hsame]
          exact h.nodup
        · intro c' hc'
          rcases List.mem_cons.mp hc' with rfl | hc'
          · exact hsome.trans hwanted
          · exact hrest.wanted_iff c' hc'
      · exact hgather _ htokens
      · exact hgather _ hlogprobs
    · obtain ⟨added, hadd, hmem, hmergeable, htokens, hlogprobs⟩ := ih hrest
      refine ⟨c :: added, by simp [addCompletion, hindex, hadd], ?_, ?_, ?_, ?_⟩
      · intro i
        simp only [List.map_cons, List.mem_cons, hmem, or_assoc]
      · constructor
        · rw [List.map_cons, List.nodup_cons, hmem]
          exact ⟨not_or.mpr ⟨hnotin, hindex⟩, hmergeable.nodup⟩
        · intro c' hc'
          rcases List.mem_cons.mp hc' with rfl | hc'
          · exact hwanted
          · exact hmergeable.wanted_iff c' hc'
      · intro i
        rw [gather_cons, htokens, gather_cons c rest, List.append_assoc]
      · intro i
        rw [gather_cons, hlogprobs, gather_cons c rest, List.append_assoc]

end VllmV1.Frontend
