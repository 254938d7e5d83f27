import VllmMmaEmu.KvCache.Manager

/-!
# KV cache specs of layers and the size of the cache

`vllm/v1/kv_cache_interface.py`, and the part of `kv_cache_utils.py` that checks the memory,
groups the layers and sizes the pool. The texts of log lines are left out, and so are the sizes
and the estimated length that the message of the memory check gives.
-/

namespace VllmV1.Interface

open Python

/-- `torch.dtype` with the size of an element. -/
structure Dtype where
  name : String
  itemsize : Nat
  deriving DecidableEq, Repr

/-- The fields of `AttentionSpec`. -/
structure AttentionSpec where
  blockSize : Nat
  numKvHeads : Nat
  headSize : Nat
  dtype : Dtype
  useMla : Bool := false
  blockSize_pos : 0 < blockSize := by decide
  deriving DecidableEq, Repr

/-- The sum of `prod(shape) * get_dtype_size(dtype)`. -/
def stateBytes (shapes : List (List Nat)) (dtypes : List Dtype) : Nat :=
  (List.zipWith (fun shape dtype => shape.prod * dtype.itemsize) shapes dtypes).sum

/-- The fields of `MambaSpec`; `page_size_bytes` asserts that the padding is none too small. -/
structure MambaSpec where
  blockSize : Nat
  shapes : List (List Nat)
  dtypes : List Dtype
  pageSizePadded : Option Nat := none
  mambaType : String := "mamba2"
  numSpeculativeBlocks : Nat := 0
  blockSize_pos : 0 < blockSize := by decide
  padded : ∀ size ∈ pageSizePadded, stateBytes shapes dtypes ≤ size := by decide
  deriving DecidableEq, Repr

/-- The spec of a layer. A window holds at least the token itself. -/
inductive KVCacheSpec where
  | fullAttention (attn : AttentionSpec) (slidingWindow attentionChunkSize : Option Nat)
  | slidingWindow (attn : AttentionSpec) (slidingWindow : Nat) (pos : 0 < slidingWindow)
      (noMla : attn.useMla = false)
  | chunkedLocalAttention (attn : AttentionSpec) (attentionChunkSize : Nat)
      (pos : 0 < attentionChunkSize)
  | mamba (spec : MambaSpec)
  | encoderOnlyAttention (attn : AttentionSpec)
  | crossAttention (attn : AttentionSpec)
  deriving DecidableEq, Repr

/-- The parts of `VllmConfig` that decide the size of the cache. -/
structure VllmConfig where
  maxModelLen : Nat
  maxNumBatchedTokens : Nat
  maxNumEncoderInputTokens : Nat := 0
  decodeContextParallelSize : Nat := 1
  numGpuBlocksOverride : Option Nat := none
  disableHybridKvCacheManager : Bool := false
  deriving DecidableEq, Repr

/-- `AttentionSpec.page_size_bytes`: MLA stores a single latent vector. -/
def AttentionSpec.pageSizeBytes (attn : AttentionSpec) : Nat :=
  let coef := if attn.useMla then 1 else 2
  coef * attn.blockSize * attn.numKvHeads * attn.headSize * attn.dtype.itemsize

namespace KVCacheSpec

def blockSize : KVCacheSpec → Nat
  | fullAttention attn .. | slidingWindow attn .. | chunkedLocalAttention attn ..
  | encoderOnlyAttention attn | crossAttention attn => attn.blockSize
  | mamba spec => spec.blockSize

def pageSizeBytes : KVCacheSpec → Nat
  | fullAttention attn .. | slidingWindow attn .. | chunkedLocalAttention attn ..
  | encoderOnlyAttention attn | crossAttention attn => attn.pageSizeBytes
  | mamba spec => spec.pageSizePadded.getD (stateBytes spec.shapes spec.dtypes)

def maxMemoryUsageBytes (config : VllmConfig) (spec : KVCacheSpec) : Except PyError Int :=
  match spec with
  | fullAttention attn _ _ =>
    let maxModelLen : Int := if config.decodeContextParallelSize > 1 then
        cdiv config.maxModelLen config.decodeContextParallelSize
      else config.maxModelLen
    .ok (cdiv maxModelLen attn.blockSize * spec.pageSizeBytes)
  | slidingWindow attn window _ _ => do
    pyAssert (config.decodeContextParallelSize = 1)
    let numTokens : Int := min ((window : Int) - 1 + config.maxNumBatchedTokens) config.maxModelLen
    -- the window may not start at the beginning of a block
    return (cdiv numTokens attn.blockSize + 1) * spec.pageSizeBytes
  | chunkedLocalAttention attn chunkSize _ =>
    let numTokens : Int := min ((chunkSize : Int) + config.maxNumBatchedTokens) config.maxModelLen
    .ok (cdiv numTokens attn.blockSize * spec.pageSizeBytes)
  | mamba _ => .ok spec.pageSizeBytes
  | encoderOnlyAttention _ => .ok 0
  | crossAttention attn =>
    .ok (cdiv config.maxNumEncoderInputTokens attn.blockSize * spec.pageSizeBytes)

/-- `merge_window_sizes`, of the sizes that are given. -/
def mergeWindowSizes (windowSizes : List (Option Nat)) : Except PyError (Option Nat) :=
  match windowSizes.reduceOption.dedup with
  | [] => .ok none
  | [size] => .ok (some size)
  | _ => .error (.valueError ("All attention layers in the same KV cache group must have the " ++
      "same window size."))

/-- The fields of a `FullAttentionSpec`; other specs are not merged with these. -/
def fullFields : KVCacheSpec → Option (AttentionSpec × Option Nat × Option Nat)
  | fullAttention attn window chunkSize => some (attn, window, chunkSize)
  | _ => none

/-- `FullAttentionSpec.merge`. -/
def mergeFull (attn : AttentionSpec) (specs : List KVCacheSpec) : Except PyError KVCacheSpec := do
  pyAssert (∀ spec ∈ specs, spec.fullFields.isSome)
  let fields := specs.filterMap fullFields
  let window ← mergeWindowSizes (fields.map (·.2.1))
  let chunkSize ← mergeWindowSizes (fields.map (·.2.2))
  pyAssert (∀ f ∈ fields, f.1 = attn)
  pyAssert (window = none ∨ chunkSize = none)
  return fullAttention attn window chunkSize

/-- `merge` of the class of the first spec. -/
def merge : List KVCacheSpec → Except PyError KVCacheSpec
  | [] => .error .indexError
  | first :: rest => match first with
    | fullAttention attn _ _ => mergeFull attn (first :: rest)
    | _ => do
      pyAssert (∀ spec ∈ rest, spec = first)
      return first

/-- What `UniformTypeKVCacheSpecs.is_uniform_type` compares with the first spec, besides the
block size. -/
def sameType : KVCacheSpec → KVCacheSpec → Bool
  | fullAttention .., fullAttention .. | crossAttention _, crossAttention _ => true
  | slidingWindow _ w _ _, slidingWindow _ w' _ _ => w' = w
  | chunkedLocalAttention _ n _, chunkedLocalAttention _ n' _ => n' = n
  | mamba spec, mamba spec' => spec'.numSpeculativeBlocks = spec.numSpeculativeBlocks
  | _, _ => false

end KVCacheSpec

/-- The specs of the layers by name. -/
abbrev LayerSpecs := Dict String KVCacheSpec

/-- The spec of a group: that of its layers, or `UniformTypeKVCacheSpecs`. -/
inductive GroupSpec where
  | one (spec : KVCacheSpec)
  | uniformType (kvCacheSpecs : LayerSpecs)

structure KVCacheGroupSpec where
  layerNames : List String
  kvCacheSpec : GroupSpec

structure KVCacheTensor where
  size : Int
  sharedBy : List String

structure KVCacheConfig where
  numBlocks : Int
  kvCacheTensors : List KVCacheTensor
  kvCacheGroups : List KVCacheGroupSpec

def maxMemoryUsageBytes (config : VllmConfig) (kvCacheSpecs : List KVCacheSpec) :
    Except PyError Int := do
  let sizes ← kvCacheSpecs.mapM (KVCacheSpec.maxMemoryUsageBytes config)
  return sizes.sum

def checkEnoughKvCacheMemory (config : VllmConfig) (kvCacheSpec : LayerSpecs)
    (availableMemory : Int) : Except PyError Unit :=
  if kvCacheSpec.entries = [] then .ok ()
  else if availableMemory ≤ 0 then
    .error (.valueError ("No available memory for the cache blocks. " ++
      "Try increasing `gpu_memory_utilization` when initializing the engine."))
  else do
    let neededMemory ← maxMemoryUsageBytes config kvCacheSpec.values
    if neededMemory > availableMemory then
      .error (.valueError ("To serve at least one request with the models's max seq len " ++
        "Try increasing `gpu_memory_utilization` or decreasing `max_model_len` when " ++
        "initializing the engine."))
    else return ()

def createKvCacheGroupSpecs (kvCacheSpec : LayerSpecs) (groupedLayerNames : List (List String)) :
    Except PyError (List KVCacheGroupSpec) :=
  groupedLayerNames.mapM fun layerNames => do
    let layerSpecs ← layerNames.mapM kvCacheSpec.getItem
    let merged ← KVCacheSpec.merge layerSpecs
    return ⟨layerNames, .one merged⟩

/-- `is_kv_cache_spec_uniform`: only a failed assertion counts as no. -/
def isKvCacheSpecUniform (kvCacheSpec : LayerSpecs) : Except PyError Bool :=
  if kvCacheSpec.entries = [] then .ok true
  else match KVCacheSpec.merge kvCacheSpec.values with
    | .ok _ => .ok true
    | .error .assertionError => .ok false
    | .error e => .error e

/-- `UniformTypeKVCacheSpecs.is_uniform_type`, of some layers. -/
def isUniformType (kvCacheSpecs : LayerSpecs) : Except PyError Bool :=
  match kvCacheSpecs.values with
  | [] => .ok false
  | one :: rest =>
    if ∃ spec ∈ rest, spec.blockSize ≠ one.blockSize then .ok false
    else match one with
      | .encoderOnlyAttention _ => .error .notImplementedError
      | _ => .ok (rest.all one.sameType)

def getUniformPageSize (kvCacheSpec : LayerSpecs) : Except PyError Nat :=
  match (kvCacheSpec.values.map KVCacheSpec.pageSizeBytes).dedup with
  | [size] => .ok size
  | _ => .error .assertionError

def isKvCachePageSizeUniform (kvCacheSpec : LayerSpecs) : Bool :=
  (kvCacheSpec.values.map KVCacheSpec.pageSizeBytes).dedup.length = 1

/-- The names of the layers by spec, in order of first occurrence. -/
def sameTypeLayers (kvCacheSpec : LayerSpecs) : Dict KVCacheSpec (List String) :=
  kvCacheSpec.entries.foldl
    (fun d (layerName, layerSpec) =>
      d.set layerSpec ((d.get? layerSpec).getD [] ++ [layerName])) Dict.empty

/-- `layers[i::n]`. -/
def everyNth {α : Type} (layers : List α) (i n : Nat) : List α :=
  ((layers.drop i).zipIdx.filter fun x => x.2 % n = 0).map Prod.fst

/-- The smallest number of layers with one spec; `min` raises on an empty list. -/
def minGroupSize (layersOfType : List (List String)) : Except PyError Nat :=
  match (layersOfType.map List.length).min? with
  | none => .error (.valueError "min() arg is an empty sequence")
  | some size => .ok size

def getKvCacheGroupsUniformPageSize (kvCacheSpec : LayerSpecs) :
    Except PyError (List KVCacheGroupSpec) := do
  let layersOfType := (sameTypeLayers kvCacheSpec).values
  let groupSize ← minGroupSize layersOfType
  let groupedLayers := layersOfType.flatMap fun layers =>
    let numGroups := (cdiv layers.length groupSize).toNat
    (List.range numGroups).map fun i => everyNth layers i numGroups
  createKvCacheGroupSpecs kvCacheSpec groupedLayers

/-- The loop of `unify_hybrid_kv_cache_specs` over one spec. -/
def KVCacheSpec.toFullAttention : KVCacheSpec → KVCacheSpec
  | .slidingWindow attn window _ _ => .fullAttention attn (some window) none
  | .chunkedLocalAttention attn chunkSize _ => .fullAttention attn none (some chunkSize)
  | spec => spec

/-- A spec that `unify_hybrid_kv_cache_specs` converts. -/
def KVCacheSpec.isLocal : KVCacheSpec → Bool
  | .slidingWindow .. | .chunkedLocalAttention .. => true
  | _ => false

/-- A new spec for each layer, under the same names. -/
def mapSpecs (f : KVCacheSpec → KVCacheSpec) (kvCacheSpec : LayerSpecs) : LayerSpecs where
  entries := kvCacheSpec.entries.map fun p => (p.1, f p.2)
  nodup := by
    rw [List.map_map]
    exact kvCacheSpec.nodup

def unifyHybridKvCacheSpecs (kvCacheSpec : LayerSpecs) : Except PyError LayerSpecs := do
  if ← isKvCacheSpecUniform kvCacheSpec then return kvCacheSpec
  else
    let hasFull := kvCacheSpec.values.any fun spec => spec.fullFields.isSome
    let hasLocal := kvCacheSpec.values.any KVCacheSpec.isLocal
    let kvCacheSpec := if hasFull ∧ hasLocal then mapSpecs KVCacheSpec.toFullAttention kvCacheSpec
      else kvCacheSpec
    if ← isKvCacheSpecUniform kvCacheSpec then return kvCacheSpec
    else .error (.valueError ("Hybrid KV cache manager is disabled but failed to " ++
      "convert the KV cache specs to one unified type."))

def getKvCacheGroups (config : VllmConfig) (kvCacheSpec : LayerSpecs) :
    Except PyError (List KVCacheGroupSpec) := do
  let kvCacheSpec ← if config.disableHybridKvCacheManager then unifyHybridKvCacheSpecs kvCacheSpec
    else pure kvCacheSpec
  if kvCacheSpec.entries = [] then return []
  else if ← isKvCacheSpecUniform kvCacheSpec then
    createKvCacheGroupSpecs kvCacheSpec [kvCacheSpec.keys]
  else if ← isUniformType kvCacheSpec then return [⟨kvCacheSpec.keys, .uniformType kvCacheSpec⟩]
  else if isKvCachePageSizeUniform kvCacheSpec then getKvCacheGroupsUniformPageSize kvCacheSpec
  else .error .notImplementedError

def mayOverrideNumBlocks (config : VllmConfig) (numBlocks : Int) : Int :=
  match config.numGpuBlocksOverride with
  | none => numBlocks
  | some numGpuBlocksOverride => numGpuBlocksOverride

/-- `a // b`. -/
def floorDiv (a b : Int) : Except PyError Int :=
  if b = 0 then .error .zeroDivisionError else .ok (a.fdiv b)

def getNumBlocks (config : VllmConfig) (numLayers : Nat) (availableMemory : Int)
    (pageSize : Nat) : Except PyError Int := do
  let pages ← floorDiv availableMemory pageSize
  let numBlocks ← floorDiv pages numLayers
  return mayOverrideNumBlocks config (max numBlocks 0)

/-- The number of layers in the largest group. -/
def maxGroupSize (groups : List KVCacheGroupSpec) : Nat :=
  (groups.map fun g => g.layerNames.length).foldr max 0

/-- `-(a // -b)`. -/
def ceilDiv (a b : Int) : Except PyError Int :=
  if b = 0 then .error .zeroDivisionError else .ok (cdiv a b)

/-- `page_size_bytes` of the spec of a group. -/
def GroupSpec.pageSizeBytes : GroupSpec → Nat
  | one spec => spec.pageSizeBytes
  | uniformType kvCacheSpecs => (kvCacheSpecs.values.map KVCacheSpec.pageSizeBytes).sum

/-- `max_memory_usage_bytes` of the spec of a group. -/
def GroupSpec.maxMemoryUsageBytes (config : VllmConfig) : GroupSpec → Except PyError Int
  | one spec => spec.maxMemoryUsageBytes config
  | uniformType kvCacheSpecs => do
    let numPages ← kvCacheSpecs.values.mapM fun spec => do
      ceilDiv (← spec.maxMemoryUsageBytes config) spec.pageSizeBytes
    match numPages.max? with
    | none => .error (.valueError "max() arg is an empty sequence")
    | some maxNumPages =>
      return maxNumPages * (uniformType kvCacheSpecs).pageSizeBytes

/-- What `get_max_concurrency_for_kv_cache_config` divides by, for some groups; the result is
only logged. -/
def checkMaxConcurrency (config : VllmConfig) (kvCacheGroups : List KVCacheGroupSpec) :
    Except PyError Unit := do
  let numLayerPerGroup := maxGroupSize kvCacheGroups
  let usages ← kvCacheGroups.mapM fun g => g.kvCacheSpec.maxMemoryUsageBytes config
  let first ← pyIndex kvCacheGroups 0
  let numBlockPerRequest ← ceilDiv (numLayerPerGroup * usages.sum)
    (first.kvCacheSpec.pageSizeBytes * numLayerPerGroup)
  if numBlockPerRequest = 0 then .error .zeroDivisionError else return ()

def getKvCacheConfigFromGroups (config : VllmConfig) (kvCacheGroups : List KVCacheGroupSpec)
    (kvCacheSpecs : LayerSpecs) (availableMemory : Int) : Except PyError KVCacheConfig :=
  match kvCacheGroups with
  | [] => .ok ⟨1, [], []⟩
  | [⟨layerNames, .uniformType perLayerSpecs⟩] => do
    let pageSize := (GroupSpec.uniformType perLayerSpecs).pageSizeBytes
    let numBlocks := mayOverrideNumBlocks config (← floorDiv availableMemory pageSize)
    let tensors ← layerNames.mapM fun layerName => do
      let spec ← perLayerSpecs.getItem layerName
      return (⟨spec.pageSizeBytes * numBlocks, [layerName]⟩ : KVCacheTensor)
    checkMaxConcurrency config kvCacheGroups
    return ⟨numBlocks, tensors, kvCacheGroups⟩
  | _ => do
    let groupSize := maxGroupSize kvCacheGroups
    let pageSize ← getUniformPageSize kvCacheSpecs
    pyAssert (0 < groupSize)
    let numBlocks ← getNumBlocks config groupSize availableMemory pageSize
    -- each tensor is shared by one layer of each group
    let tensors := (List.range groupSize).map fun i =>
      (⟨pageSize * numBlocks, kvCacheGroups.filterMap fun g => g.layerNames[i]?⟩ : KVCacheTensor)
    checkMaxConcurrency config kvCacheGroups
    return ⟨numBlocks, tensors, kvCacheGroups⟩

/-- One layer of a worker is added to those of the workers before. -/
def mergeLayer (merged : LayerSpecs) (layer : String × KVCacheSpec) :
    Except PyError LayerSpecs :=
  match merged.get? layer.1 with
  | none => .ok (merged.set layer.1 layer.2)
  | some spec => do
    pyAssert (spec = layer.2)
    return merged

/-- The groups of one worker: those of the whole model with the worker's layers. -/
def groupsOfWorker (groups : List KVCacheGroupSpec) (kvCacheSpec : LayerSpecs) :
    List KVCacheGroupSpec :=
  groups.map fun g => { g with layerNames := g.layerNames.filter (· ∈ kvCacheSpec.keys) }

/-- `get_kv_cache_configs`: the specs and the memory of each worker. -/
def getKvCacheConfigs (config : VllmConfig) (workers : List (LayerSpecs × Int)) :
    Except PyError (List KVCacheConfig) := do
  let _ ← workers.mapM fun (kvCacheSpec, availableMemory) =>
    checkEnoughKvCacheMemory config kvCacheSpec availableMemory
  let merged ← (workers.flatMap fun w => w.1.entries).foldlM mergeLayer Dict.empty
  let groups ← getKvCacheGroups config merged
  let configs ← workers.mapM fun (kvCacheSpec, availableMemory) => do
    let groupsOne := groupsOfWorker groups kvCacheSpec
    pyAssert ((groupsOne.map fun g => g.layerNames.length).sum = kvCacheSpec.entries.length)
    getKvCacheConfigFromGroups config groupsOne kvCacheSpec availableMemory
  match (configs.map KVCacheConfig.numBlocks).min? with
  | none => .error (.valueError "min() arg is an empty sequence")
  | some minNumBlocks => return configs.map fun c => { c with numBlocks := minNumBlocks }

end VllmV1.Interface
