import Mathlib.Data.List.Sort
import VllmMmaEmu.Library.Dict

/-!
# Logits processors

`vllm/v1/sample/logits_processor/`: the changes of a step (rows added, rows left empty, and moves
between rows) as the builder of `state.py` collects them, and what the processors of `builtin.py`
keep for each row of the batch when they follow these changes. The tensors that they build from it
are left out.
-/

namespace VllmV1.Worker

open Python

/-- What the model reads of floating point numbers: zero, the operator `!=`, and the value
that a number has after it was stored in an array of type float32. -/
structure FloatOps (F : Type) where
  zero : F
  ne : F → F → Bool
  toFloat32 : F → F

/-- Whether a number is true. -/
def FloatOps.truthy {F : Type} (fl : FloatOps F) (x : F) : Bool := fl.ne x fl.zero

/-- A list of tokens that several places share is handed around by reference. -/
abbrev ListRef := Nat

/-- The contents of the lists. -/
abbrev Heap := ListRef → List Int

structure SamplingParams (F : Type) where
  greedy : Bool
  temperature : F
  topP : F
  topK : Int
  frequencyPenalty : F
  presencePenalty : F
  repetitionPenalty : F
  minP : F
  minTokens : Nat
  allStopTokenIds : List Int
  logitBias : Option (Dict Int F)
  allowedTokenIds : Option (List Nat)
  badWordsTokenIds : Option (List (List Int))

inductive MoveDirectionality where
  /-- One-way move within the batch. -/
  | unidirectional
  /-- Two-way swap within the batch. -/
  | swap
  deriving DecidableEq, Repr

structure AddedRequest (F : Type) where
  index : Nat
  params : SamplingParams F
  promptTokIds : Option (List Int)
  outputTokIds : ListRef

structure MovedRequest where
  src : Nat
  tgt : Nat
  direct : MoveDirectionality
  deriving DecidableEq, Repr

structure BatchUpdate (F : Type) where
  batchSize : Nat
  removed : List Nat
  added : List (AddedRequest F)
  moved : List MovedRequest

/-- `removed` is `_removed`: sorted in descending order once it was read. -/
structure BatchUpdateBuilder (F : Type) where
  removed : List Nat := []
  isRemovedSorted : Bool := false
  added : List (AddedRequest F) := []
  moved : List MovedRequest := []
  batchChanged : Bool := false

namespace BatchUpdateBuilder

variable {F : Type}

def ensureRemovedSorted (u : BatchUpdateBuilder F) : BatchUpdateBuilder F :=
  if u.isRemovedSorted then u
  else { u with removed := u.removed.insertionSort (· ≥ ·), isRemovedSorted := true }

def removedAppend (u : BatchUpdateBuilder F) (index : Nat) :
    Except PyError (BatchUpdateBuilder F) :=
  if u.isRemovedSorted then
    .error (.runtimeError
      "Cannot register new removed request after self.removed has been read.")
  else .ok { u with removed := u.removed ++ [index], batchChanged := true }

def hasRemoved (u : BatchUpdateBuilder F) : Bool := u.removed ≠ []

/-- The lowest removed index. -/
def peekRemoved (u : BatchUpdateBuilder F) : Option Nat × BatchUpdateBuilder F :=
  if u.hasRemoved then
    let u := u.ensureRemovedSorted
    (u.removed.getLast?, u)
  else (none, u)

/-- The lowest removed index, which is removed from the list. -/
def popRemoved (u : BatchUpdateBuilder F) : Option Nat × BatchUpdateBuilder F :=
  if u.hasRemoved then
    let u := u.ensureRemovedSorted
    (u.removed.getLast?, { u with removed := u.removed.dropLast })
  else (none, u)

/-- `reset`: whether the batch was changed. -/
def reset (u : BatchUpdateBuilder F) : Bool × BatchUpdateBuilder F := (u.batchChanged, {})

/-- `get_and_reset`: the changes, if there are any. -/
def getAndReset (u : BatchUpdateBuilder F) (batchSize : Nat) :
    Option (BatchUpdate F) × BatchUpdateBuilder F :=
  if u.removed = [] ∧ u.moved = [] ∧ u.added.isEmpty then
    (none, { u with isRemovedSorted := false, batchChanged := false })
  else
    (some {
      batchSize := batchSize
      removed := u.removed
      added := u.added
      moved := u.moved }, {})

/-- The removed rows are descending once they were read. -/
def Descending (u : BatchUpdateBuilder F) : Prop :=
  u.isRemovedSorted = true → u.removed.Pairwise (· ≥ ·)

variable {u : BatchUpdateBuilder F}

lemma ensureRemovedSorted_ok (h : u.Descending) :
    ∃ l, u.ensureRemovedSorted = { u with removed := l, isRemovedSorted := true } ∧
      u.removed.Perm l ∧ l.Pairwise (· ≥ ·) := by
  by_cases hsorted : u.isRemovedSorted = true
  · refine ⟨u.removed, ?_, .refl _, h hsorted⟩
    rw [ensureRemovedSorted, if_pos hsorted, ← hsorted]
  · refine ⟨u.removed.insertionSort (· ≥ ·), ?_, (List.perm_insertionSort _ _).symm,
      List.pairwise_insertionSort _ _⟩
    rw [ensureRemovedSorted, if_neg hsorted]

lemma popRemoved_nil (h : u.removed = []) : u.popRemoved = (none, u) := by
  simp [popRemoved, hasRemoved, h]

lemma popRemoved_ok (h : u.Descending) (hne : u.removed ≠ []) :
    ∃ e l, u.popRemoved = (some e, { u with removed := l, isRemovedSorted := true }) ∧
      u.removed.Perm (e :: l) ∧ (∀ k ∈ l, e ≤ k) ∧ l.Pairwise (· ≥ ·) := by
  obtain ⟨l, hl, hperm, hpairwise⟩ := ensureRemovedSorted_ok h
  have hlne : l ≠ [] := fun heq => hne (heq ▸ hperm).eq_nil
  have hsplit := List.dropLast_append_getLast hlne
  rw [← hsplit] at hpairwise hperm
  obtain ⟨hdrop, -, hlast⟩ := List.pairwise_append.mp hpairwise
  refine ⟨l.getLast hlne, l.dropLast, ?_, hperm.trans (List.perm_append_singleton _ _),
    fun k hk => hlast k hk _ (List.mem_singleton_self _), hdrop⟩
  simp only [popRemoved, hasRemoved, hne, ne_eq, not_false_iff, decide_true, if_true, hl,
    List.getLast?_eq_some_getLast hlne]

lemma peekRemoved_fst (u : BatchUpdateBuilder F) : u.peekRemoved.1 = u.popRemoved.1 := by
  unfold peekRemoved popRemoved
  split_ifs
  · rfl
  · rfl

end BatchUpdateBuilder

variable {F : Type}

structure MinPLogitsProcessor (F : Type) where
  minPCount : Int
  minPCpu : Nat → F

namespace MinPLogitsProcessor

def init (fl : FloatOps F) : MinPLogitsProcessor F where
  minPCount := 0
  minPCpu := fun _ => fl.zero

def processAdded (fl : FloatOps F) (p : MinPLogitsProcessor F) (a : AddedRequest F) :
    MinPLogitsProcessor F :=
  let minP := a.params.minP
  let minPBefore := p.minPCpu a.index
  if fl.ne minPBefore minP then {
    minPCpu := Function.update p.minPCpu a.index (fl.toFloat32 minP)
    minPCount :=
      if fl.truthy minP ∧ ¬ fl.truthy minPBefore then p.minPCount + 1
      else if ¬ fl.truthy minP ∧ fl.truthy minPBefore then p.minPCount - 1
      else p.minPCount }
  else p

def processRemoved (fl : FloatOps F) (p : MinPLogitsProcessor F) (index : Nat) :
    MinPLogitsProcessor F :=
  if fl.truthy (p.minPCpu index) then {
    minPCpu := Function.update p.minPCpu index fl.zero
    minPCount := p.minPCount - 1 }
  else p

/-- A one-way move leaves its source without an entry. -/
def processMoved (fl : FloatOps F) (p : MinPLogitsProcessor F) (m : MovedRequest) :
    MinPLogitsProcessor F :=
  let minPA := p.minPCpu m.src
  let minPB := p.minPCpu m.tgt
  let cpu :=
    if fl.ne minPA minPB then
      let cpu := Function.update p.minPCpu m.tgt minPA
      if m.direct = .swap then Function.update cpu m.src minPB else cpu
    else p.minPCpu
  if m.direct = .unidirectional then {
    minPCpu := if fl.truthy minPA then Function.update cpu m.src fl.zero else cpu
    minPCount := if fl.truthy minPB then p.minPCount - 1 else p.minPCount }
  else { p with minPCpu := cpu }

def updateState (fl : FloatOps F) (p : MinPLogitsProcessor F) :
    Option (BatchUpdate F) → MinPLogitsProcessor F
  | none => p
  | some u =>
    let p := u.added.foldl (processAdded fl) p
    if p.minPCount ≠ 0 then u.moved.foldl (processMoved fl) (u.removed.foldl (processRemoved fl) p)
    else p

end MinPLogitsProcessor

section ProcessDictUpdates

variable {T : Type}

/-- What a processor keeps for an added request, if anything. -/
abbrev NewState (F T : Type) := SamplingParams F → Option (List Int) → ListRef → Option T

def processDictAdded (newState : NewState F T) (entries : Dict Nat T) (a : AddedRequest F) :
    Dict Nat T :=
  match newState a.params a.promptTokIds a.outputTokIds with
  | some state => entries.set a.index state
  | none => entries.erase a.index

def processDictMoved (entries : Dict Nat T) (m : MovedRequest) : Dict Nat T :=
  let aEntry := entries.get? m.src
  let entries := entries.erase m.src
  let bEntry := entries.get? m.tgt
  let entries := entries.erase m.tgt
  let entries := match aEntry with
    | some a => entries.set m.tgt a
    | none => entries
  match bEntry with
  | some b => if m.direct = .swap then entries.set m.src b else entries
  | none => entries

def processDictUpdates (newState : NewState F T) (entries : Dict Nat T) :
    Option (BatchUpdate F) → Dict Nat T
  | none => entries
  | some u =>
    let entries := u.added.foldl (processDictAdded newState) entries
    if entries.entries.isEmpty then entries
    else u.moved.foldl processDictMoved (u.removed.foldl Dict.erase entries)

end ProcessDictUpdates

structure LogitBiasLogitsProcessor (F : Type) where
  biases : Dict Nat (Dict Int F)

namespace LogitBiasLogitsProcessor

/-- `params.logit_bias or None`. -/
def newState : NewState F (Dict Int F) := fun params _ _ =>
  params.logitBias.filter fun bias => ¬ bias.entries.isEmpty

def updateState (p : LogitBiasLogitsProcessor F) (u : Option (BatchUpdate F)) :
    LogitBiasLogitsProcessor F :=
  { p with biases := processDictUpdates newState p.biases u }

end LogitBiasLogitsProcessor

/-- An entry has the minimum length, the request's output tokens and its stop tokens. -/
structure MinTokensLogitsProcessor where
  minToks : Dict Nat (Nat × ListRef × List Int)

namespace MinTokensLogitsProcessor

def addRequest (heap : Heap) : NewState F (Nat × ListRef × List Int) := fun params _ outputTokIds =>
  if params.minTokens = 0 ∨ (heap outputTokIds).length ≥ params.minTokens then none
  else some (params.minTokens, outputTokIds, params.allStopTokenIds)

/-- The rows that have attained their minimum length. -/
def toRemove (heap : Heap) (minToks : Dict Nat (Nat × ListRef × List Int)) : List Nat :=
  (minToks.entries.filter fun e => (heap e.2.2.1).length ≥ e.2.1).map Prod.fst

def updateState (heap : Heap) (p : MinTokensLogitsProcessor) (u : Option (BatchUpdate F)) :
    MinTokensLogitsProcessor :=
  let minToks := processDictUpdates (addRequest heap) p.minToks u
  { p with minToks := (toRemove heap minToks).foldl Dict.erase minToks }

end MinTokensLogitsProcessor

/-- The built-in processors of a batch. -/
structure LogitsProcessors (F : Type) where
  minP : MinPLogitsProcessor F
  logitBias : LogitBiasLogitsProcessor F
  minTokens : MinTokensLogitsProcessor

namespace LogitsProcessors

def init (fl : FloatOps F) : LogitsProcessors F where
  minP := .init fl
  logitBias := ⟨Dict.empty⟩
  minTokens := ⟨Dict.empty⟩

/-- `update_state` of every processor. -/
def updateState (fl : FloatOps F) (heap : Heap) (p : LogitsProcessors F)
    (u : Option (BatchUpdate F)) : LogitsProcessors F where
  minP := p.minP.updateState fl u
  logitBias := p.logitBias.updateState u
  minTokens := p.minTokens.updateState heap u

end LogitsProcessors

end VllmV1.Worker
