import VllmMmaEmu.Library.Dict
import VllmMmaEmu.Library.Numpy

/-!
# Input tokens of a batch

`_get_cumsum_and_arange` and `_prepare_input_ids` of `vllm/v1/worker/gpu_model_runner.py`, and
`CpuGpuBuffer` of `vllm/v1/utils.py`. With asynchronous scheduling the tokens sampled in the
previous step never left the device and are put where the batch expects them.
-/

namespace VllmV1.Worker

open Python Numpy Segments

structure CpuGpuBuffer (α : Type) where
  cpu : List α
  gpu : List α
  size_eq : gpu.length = cpu.length

namespace CpuGpuBuffer

variable {α : Type}

/-- `copy_to_gpu(n)` -/
def copyToGpu (b : CpuGpuBuffer α) (n : Nat) : CpuGpuBuffer α where
  cpu := b.cpu
  gpu := b.cpu.take n ++ b.gpu.drop n
  size_eq := by
    have hsize := b.size_eq
    rw [List.length_append, List.length_take, List.length_drop]
    omega

lemma getElem?_copyToGpu {b : CpuGpuBuffer α} {n t : Nat} (hn : n ≤ b.cpu.length) (ht : t < n) :
    (b.copyToGpu n).gpu[t]? = b.cpu[t]? := by
  have hlength : (b.cpu.take n).length = n := List.length_take_of_le hn
  rw [copyToGpu, List.getElem?_append_left (by omega), List.getElem?_take_of_lt ht]

/-- `gpu[:n] = values`: there have to be as many values, or one for all places. -/
def copyPrefix (b : CpuGpuBuffer α) (n : Nat) (values : List α) :
    Except PyError (CpuGpuBuffer α) :=
  if h : values.length = (b.gpu.take n).length then
    .ok
      { cpu := b.cpu
        gpu := values ++ b.gpu.drop n
        size_eq := by
          have hsize := b.size_eq
          rw [List.length_append, h, List.length_take, List.length_drop]
          omega }
  else match values with
    | [value] => .ok
      { cpu := b.cpu
        gpu := List.replicate (b.gpu.take n).length value ++ b.gpu.drop n
        size_eq := by
          have hsize := b.size_eq
          rw [List.length_append, List.length_replicate, List.length_take, List.length_drop]
          omega }
    | _ => .error (.runtimeError "The size of tensor a must match the size of tensor b")

lemma copyPrefix_eq {b : CpuGpuBuffer α} {n : Nat} {values : List α}
    (hn : n ≤ b.cpu.length) (hlength : values.length = n) :
    ∃ b', b.copyPrefix n values = .ok b' ∧ b'.gpu = values ++ b.gpu.drop n ∧ b'.cpu = b.cpu := by
  have hsize := b.size_eq
  have htake : values.length = (b.gpu.take n).length := by
    rw [List.length_take]
    omega
  rw [copyPrefix, dif_pos htake]
  exact ⟨_, rfl, rfl, rfl⟩

lemma copyPrefix_singleton {b : CpuGpuBuffer α} {n : Nat} (hn : n ≤ b.cpu.length) (value : α) :
    ∃ b', b.copyPrefix n [value] = .ok b' ∧
      b'.gpu = List.replicate n value ++ b.gpu.drop n ∧ b'.cpu = b.cpu := by
  have hsize := b.size_eq
  have htake : (b.gpu.take n).length = n := by
    rw [List.length_take]
    omega
  by_cases hone : [value].length = (b.gpu.take n).length
  · have hn1 : n = 1 := by
      rw [htake, List.length_singleton] at hone
      exact hone.symm
    subst hn1
    rw [copyPrefix, dif_pos hone]
    exact ⟨_, rfl, rfl, rfl⟩
  · rw [copyPrefix, dif_neg hone]
    refine ⟨_, rfl, ?_, rfl⟩
    exact congrArg (fun k => List.replicate k value ++ b.gpu.drop n) htake

/-- `gpu.scatter_(dim=0, index, src)` -/
def scatterGpu (b : CpuGpuBuffer α) (writes : List (Nat × α)) : Except PyError (CpuGpuBuffer α) :=
  if ∀ write ∈ writes, write.1 < b.gpu.length then
    .ok
      { cpu := b.cpu
        gpu := scatter b.gpu writes
        size_eq := by rw [length_scatter, b.size_eq] }
  else .error (.runtimeError "index out of bounds")

lemma scatterGpu_eq {b : CpuGpuBuffer α} {writes : List (Nat × α)}
    (h : ∀ write ∈ writes, write.1 < b.gpu.length) :
    ∃ b', b.scatterGpu writes = .ok b' ∧ b'.gpu = scatter b.gpu writes ∧ b'.cpu = b.cpu := by
  rw [scatterGpu, if_pos h]
  exact ⟨_, rfl, rfl, rfl⟩

end CpuGpuBuffer

def getCumsumAndArange (numTokens : List Nat) : Except PyError (List Nat × List Nat) :=
  let cuNumTokens := cumsum numTokens
  match cuNumTokens.getLast? with
  | none => .error .indexError
  | some totalNumTokens =>
    let cumsumsOffsets := npRepeat (List.zipWith (· - ·) cuNumTokens numTokens) numTokens
    .ok (cuNumTokens, List.zipWith (· - ·) (List.range totalNumTokens) cumsumsOffsets)

example : getCumsumAndArange [2, 5, 3] = .ok ([2, 7, 10], [0, 1, 0, 1, 2, 3, 4, 0, 1, 2]) := by
  decide

/-- The buffers of the model runner and what it knows of the requests, by their ids. -/
structure InputPreparation (Embedding : Type) where
  inputIds : CpuGpuBuffer Int
  inputsEmbeds : CpuGpuBuffer Embedding
  isTokenIds : CpuGpuBuffer Bool
  reqIdToIndex : Dict String Nat
  /-- The only column of `prev_sampled_token_ids`. -/
  prevSampledTokenIds : Option (List Int)
  prevReqIdToIndex : Option (Dict String Nat)

namespace InputPreparation

variable {Embedding : Type}

/-- The three buffers are copied. -/
def copyAll (s : InputPreparation Embedding) (n : Nat) : InputPreparation Embedding :=
  { s with
    inputIds := s.inputIds.copyToGpu n
    inputsEmbeds := s.inputsEmbeds.copyToGpu n
    isTokenIds := s.isTokenIds.copyToGpu n }

/-- What the loop over the requests collects. -/
structure Common where
  flattenedIndices : List Nat
  prevCommonReqIndices : List Nat
  indicesMatch : Bool
  maxFlattenedIndex : Int

/-- One round of the loop. -/
def commonStep (prev : Dict String Nat) (cuNumTokens : List Nat) (acc : Common)
    (entry : String × Nat) : Except PyError Common :=
  match prev.get? entry.1 with
  | none => .ok acc
  | some prevIndex => do
    let last ← pyIndex cuNumTokens entry.2
    -- every request has a token, so the last one has an index that is not negative
    let flattenedIndex := last - 1
    return {
      flattenedIndices := acc.flattenedIndices ++ [flattenedIndex]
      prevCommonReqIndices := acc.prevCommonReqIndices ++ [prevIndex]
      indicesMatch := acc.indicesMatch && decide (prevIndex = flattenedIndex)
      maxFlattenedIndex := max acc.maxFlattenedIndex flattenedIndex }

def prepareInputIds (s : InputPreparation Embedding) (totalNumScheduledTokens : Nat)
    (cuNumTokens : List Nat) : Except PyError (InputPreparation Embedding) :=
  match s.prevSampledTokenIds with
  | none => .ok (s.copyAll totalNumScheduledTokens)
  | some prevSampledTokenIds =>
    match s.prevReqIdToIndex with
    | none => .error .assertionError
    | some prev => do
      let common ← s.reqIdToIndex.entries.foldlM (commonStep prev cuNumTokens) ⟨[], [], true, -1⟩
      let numCommonTokens := common.flattenedIndices.length
      let s := if numCommonTokens < totalNumScheduledTokens then s.copyAll totalNumScheduledTokens
        else s
      if numCommonTokens = 0 then return s
      else if common.indicesMatch ∧ common.maxFlattenedIndex = (numCommonTokens : Int) - 1 then do
        let inputIds ← s.inputIds.copyPrefix numCommonTokens
          (prevSampledTokenIds.take numCommonTokens)
        let isTokenIds ← s.isTokenIds.copyPrefix numCommonTokens [true]
        return { s with inputIds := inputIds, isTokenIds := isTokenIds }
      else do
        let src ← common.prevCommonReqIndices.mapM fun prevIndex =>
          pyIndex prevSampledTokenIds prevIndex
        let inputIds ← s.inputIds.scatterGpu (common.flattenedIndices.zip src)
        return { s with inputIds := inputIds }

end InputPreparation

end VllmV1.Worker
