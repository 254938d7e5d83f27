import VllmMmaEmu.Library.Python
import VllmMmaEmu.Library.Segments

/-!
# Metadata of an attention batch

`CommonAttentionMetadata` of `vllm/v1/attention/backends/utils.py`, and the batches that it
describes: each request has query tokens, the last tokens of its sequence, and they follow each
other in the flattened batch.
-/

namespace VllmV1

open Python Segments

/-- The tensors are lists, the rows of the block table too. -/
structure CommonAttentionMetadata where
  queryStartLoc : List Int
  queryStartLocCpu : List Int
  seqLens : List Int
  seqLensCpu : List Int
  numComputedTokensCpu : List Int
  numReqs : Int
  numActualTokens : Int
  maxQueryLen : Int
  maxSeqLen : Int
  blockTableTensor : List (List Int)
  slotMapping : List Int
  causal : Bool := true
  deriving DecidableEq, Repr

/-- `tensor.max()`. -/
def tensorMax : List Int → Except PyError Int
  | [] => .error (.runtimeError "max(): Expected reduction dim to be specified")
  | x :: xs => .ok (xs.foldl max x)

lemma exists_tensorMax {xs : List Int} (h : xs ≠ []) : ∃ m, tensorMax xs = .ok m := by
  cases xs with
  | nil => exact absurd rfl h
  | cons x xs => exact ⟨_, rfl⟩

/-- A batch: the number of query tokens of each request, and the number of tokens before them. -/
structure QueryBatch where
  queryLens : List Nat
  computed : List Nat
  length_eq : computed.length = queryLens.length

namespace QueryBatch

variable (b : QueryBatch)

def numReqs : Nat := b.queryLens.length

def numTokens : Nat := b.queryLens.sum

/-- All tokens of request `r` so far. -/
def seqLen (r : Nat) : Nat := len b.computed r + len b.queryLens r

def seqLens : List Nat := (List.range b.numReqs).map b.seqLen

lemma cast_seqLens : b.seqLens.map (Nat.cast : Nat → Int) =
    (List.range b.numReqs).map fun r => (b.seqLen r : Int) := by
  rw [seqLens, List.map_map]
  rfl

lemma cast_computed : b.computed.map (Nat.cast : Nat → Int) =
    (List.range b.numReqs).map fun r => (len b.computed r : Int) := by
  refine List.ext_getElem? fun r => ?_
  rw [List.getElem?_map, List.getElem?_map]
  by_cases hr : r < b.numReqs
  · rw [List.getElem?_range hr, getElem?_len (b.length_eq.symm ▸ hr)]
    rfl
  · have hnone : b.computed.length ≤ r := b.length_eq.symm ▸ Nat.le_of_not_lt hr
    rw [List.getElem?_eq_none hnone, List.getElem?_eq_none (by simpa using hr)]
    rfl

/-- The position of query token `k` of request `r` in its sequence. -/
def position (r k : Nat) : Nat := len b.computed r + k

end QueryBatch

namespace CommonAttentionMetadata

/-- The query lengths that the metadata gives. -/
structure HasQueryLens (m : CommonAttentionMetadata) (lens : List Nat) : Prop where
  queryStartLocCpu : m.queryStartLocCpu = starts lens
  numReqs : m.numReqs = lens.length
  numActualTokens : m.numActualTokens = lens.sum
  /-- The longest query is one of them. -/
  maxQueryLen_mem : ∃ l ∈ lens, m.maxQueryLen = (l : Int)
  le_maxQueryLen : ∀ l ∈ lens, (l : Int) ≤ m.maxQueryLen

/-- The tensors of the metadata are those of the batch. -/
structure Describes (m : CommonAttentionMetadata) (b : QueryBatch) : Prop where
  queryStartLoc : m.queryStartLoc = starts b.queryLens
  queryStartLocCpu : m.queryStartLocCpu = starts b.queryLens
  seqLens : m.seqLens = b.seqLens.map Nat.cast
  seqLensCpu : m.seqLensCpu = b.seqLens.map Nat.cast
  numComputedTokensCpu : m.numComputedTokensCpu = b.computed.map Nat.cast

end CommonAttentionMetadata

end VllmV1
