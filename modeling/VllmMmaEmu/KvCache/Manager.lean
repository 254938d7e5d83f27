import VllmMmaEmu.KvCache.SingleTypeManager

/-!
# The KV cache manager

`vllm/v1/core/kv_cache_coordinator.py` and `kv_cache_manager.py`: one manager for each KV
cache group over a shared pool. Which coordinator class is used only decides how hits are
found.
-/

namespace VllmV1

open Python

/-- `HybridKVCacheCoordinator`'s split of the groups. -/
structure HybridGroups where
  fullAttentionSpec : KVCacheSpec
  otherSpec : KVCacheSpec
  fullAttentionGroupIds : List Nat
  otherGroupIds : List Nat
  fullAttnFirst : Bool
  deriving DecidableEq, Repr

inductive CoordinatorKind where
  | noPrefixCache
  | unitary (spec : KVCacheSpec)
  | hybrid (groups : HybridGroups)
  deriving DecidableEq, Repr

/-- The arguments of `KVCacheManager.__init__`. -/
structure KVCacheConfig where
  numBlocks : Nat
  kvCacheGroups : List KVCacheSpec
  maxModelLen : Int
  enableCaching : Bool := true
  useEagle : Bool := false
  enableKvCacheEvents : Bool := false
  dcpWorldSize : Nat := 1
  deriving DecidableEq, Repr

structure KVCacheManager where
  config : KVCacheConfig
  coordinator : CoordinatorKind
  blockPool : BlockPool
  singleTypeManagers : List SingleTypeManager

/-- The first spec of the list, if all are equal to it. -/
def sameSpec : List KVCacheSpec → Except PyError KVCacheSpec
  | [] => .error .assertionError
  | spec :: rest => do
    pyAssert (∀ s ∈ rest, spec = s)
    return spec

/-- The ids of the groups whose spec passes the test. -/
def groupIdsOf (specs : List KVCacheSpec) (q : KVCacheSpec × Nat → Bool) : List Nat :=
  (specs.zipIdx.filter q).map Prod.snd

/-- Whether the full attention groups come first; the two kinds must not interleave. -/
def isFullAttnFirst (fullIds otherIds : List Nat) : Except PyError Bool :=
  if ∀ i ∈ fullIds, ∀ j ∈ otherIds, i < j then .ok true
  else if ∀ i ∈ fullIds, ∀ j ∈ otherIds, j < i then .ok false
  else .error (.valueError ("HybridKVCacheCoordinator assumes the full attention group ids and " ++
    "other attention group ids do not interleave"))

def verifyAndSplitKvCacheGroups (config : KVCacheConfig) : Except PyError HybridGroups := do
  let fullAttentionSpec ← sameSpec (config.kvCacheGroups.filter fun spec => spec.kind = .full)
  let otherSpec ← sameSpec (config.kvCacheGroups.filter fun spec => spec.kind ≠ .full)
  pyAssert (config.enableCaching → otherSpec.blockSize % fullAttentionSpec.blockSize = 0)
  let fullIds := groupIdsOf config.kvCacheGroups fun g => g.1.kind = .full
  let otherIds := groupIdsOf config.kvCacheGroups fun g => g.1.kind ≠ .full
  let fullAttnFirst ← isFullAttnFirst fullIds otherIds
  return ⟨fullAttentionSpec, otherSpec, fullIds, otherIds, fullAttnFirst⟩

def getKvCacheCoordinator (config : KVCacheConfig) : Except PyError CoordinatorKind :=
  if config.enableCaching = false then .ok .noPrefixCache
  else match config.kvCacheGroups with
    | [spec] => .ok (.unitary spec)
    | _ => do
      pyAssert (config.dcpWorldSize = 1)
      return .hybrid (← verifyAndSplitKvCacheGroups config)

namespace KVCacheManager

def init (config : KVCacheConfig) : Except PyError KVCacheManager := do
  if config.enableCaching then
    pyAssert ((config.kvCacheGroups.map KVCacheSpec.blockSize).dedup.length = 1)
    if config.dcpWorldSize > 1 then
      pyAssert (config.kvCacheGroups.length = 1)
  let blockPool ← BlockPool.init config.numBlocks config.enableCaching config.enableKvCacheEvents
  let coordinator ← getKvCacheCoordinator config
  return {
    config := config
    coordinator := coordinator
    blockPool := blockPool
    singleTypeManagers := config.kvCacheGroups.zipIdx.map fun (spec, i) =>
      SingleTypeManager.init spec i config.dcpWorldSize }

/-- One call for each manager, in order, over the shared pool. -/
def forManagers {α : Type} (f : SingleTypeManager → BlockPool →
      Except PyError (α × SingleTypeManager × BlockPool)) :
    List SingleTypeManager → BlockPool →
      Except PyError (List α × List SingleTypeManager × BlockPool)
  | [], p => .ok ([], [], p)
  | m :: ms, p => do
    let (a, m, p) ← f m p
    let (as, ms, p) ← forManagers f ms p
    return (a :: as, m :: ms, p)

/-- `get_num_blocks_to_allocate`: cross attention counts the encoder tokens. -/
def getNumBlocksToAllocate (s : KVCacheManager) (requestId : String) (numTokens : Int)
    (newComputedBlocks : List (List BlockId)) (numEncoderTokens : Int) : Int :=
  (List.zipWith (fun (m : SingleTypeManager) hits =>
    if m.kvCacheSpec.kind = .cross then
      m.getNumBlocksToAllocate s.blockPool requestId numEncoderTokens []
    else m.getNumBlocksToAllocate s.blockPool requestId numTokens hits)
    s.singleTypeManagers newComputedBlocks).sum

def saveNewComputedBlocks (requestId : String) :
    List SingleTypeManager → List (List BlockId) → Except PyError (List SingleTypeManager)
  | [], _ => .ok []
  | _ :: _, [] => .error .indexError
  | m :: ms, hits :: rest => do
    let m ← m.saveNewComputedBlocks requestId hits
    let ms ← saveNewComputedBlocks requestId ms rest
    return m :: ms

/-- The tokens `allocate_new_blocks` passes to a manager. -/
def tokensFor (m : SingleTypeManager) (numTokens numEncoderTokens : Int) : Int :=
  if m.kvCacheSpec.kind = .cross then numEncoderTokens else numTokens

def allocateNewBlocks (requestId : String) (numTokens numEncoderTokens : Int) :
    List SingleTypeManager → BlockPool →
      Except PyError (List (List BlockId) × List SingleTypeManager × BlockPool) :=
  forManagers fun m p => m.allocateNewBlocks p requestId (tokensFor m numTokens numEncoderTokens)

/-- A manager operation without a result. -/
def withUnit (x : Except PyError (SingleTypeManager × BlockPool)) :
    Except PyError (Unit × SingleTypeManager × BlockPool) := do
  let (m, p) ← x
  return ((), m, p)

def removeSkippedBlocks (s : KVCacheManager) (requestId : String) (numComputedTokens : Int) :
    Except PyError KVCacheManager := do
  let (_, ms, p) ← forManagers
    (fun m p => withUnit (m.removeSkippedBlocks p requestId numComputedTokens))
    s.singleTypeManagers s.blockPool
  return { s with blockPool := p, singleTypeManagers := ms }

/-- `cache_blocks` of the coordinator. -/
def coordinatorCacheBlocks (s : KVCacheManager) (request : Request) (numComputedTokens : Int) :
    Except PyError KVCacheManager := do
  let (_, ms, p) ← forManagers
    (fun m p => withUnit (m.cacheBlocks p request numComputedTokens))
    s.singleTypeManagers s.blockPool
  return { s with blockPool := p, singleTypeManagers := ms }

/-- `HybridKVCacheCoordinator.find_longest_cache_hit`. -/
def hybridCacheHit (s : KVCacheManager) (g : HybridGroups) (blockHashes : List BlockHash)
    (maxCacheHitLength : Int) : Except PyError (List (List BlockId) × Int) := do
  let hitFull ← SingleTypeManager.findLongestCacheHit g.fullAttentionSpec s.blockPool blockHashes
    maxCacheHitLength g.fullAttentionGroupIds s.config.useEagle 1
  let hitLength : Int := ((hitFull.head?.getD []).length : Int) * g.fullAttentionSpec.blockSize
  let hitOther ← SingleTypeManager.findLongestCacheHit g.otherSpec s.blockPool blockHashes
    hitLength g.otherGroupIds s.config.useEagle 1
  let hitLength : Int := ((hitOther.head?.getD []).length : Int) * g.otherSpec.blockSize
  pyAssert (hitLength.fmod g.fullAttentionSpec.blockSize = 0)
  let hitFull := hitFull.map (List.take (hitLength.fdiv g.fullAttentionSpec.blockSize).toNat)
  return (if g.fullAttnFirst then hitFull ++ hitOther else hitOther ++ hitFull, hitLength)

def findLongestCacheHit (s : KVCacheManager) (blockHashes : List BlockHash)
    (maxCacheHitLength : Int) : Except PyError (List (List BlockId) × Int) :=
  match s.coordinator with
  | .noPrefixCache => .ok (s.singleTypeManagers.map fun _ => [], 0)
  | .unitary spec => do
    let hits ← SingleTypeManager.findLongestCacheHit spec s.blockPool blockHashes
      maxCacheHitLength [0] s.config.useEagle s.config.dcpWorldSize
    let blockSize : Int := if s.config.dcpWorldSize > 1 then
        spec.blockSize * s.config.dcpWorldSize else spec.blockSize
    return (hits, ((hits.head?.getD []).length : Int) * blockSize)
  | .hybrid g => s.hybridCacheHit g blockHashes maxCacheHitLength

def createEmptyBlockList (s : KVCacheManager) : List (List BlockId) :=
  s.config.kvCacheGroups.map fun _ => []

def getComputedBlocks (s : KVCacheManager) (request : Request) :
    Except PyError (List (List BlockId) × Int) :=
  if s.config.enableCaching = false ∨
      (request.samplingParams.bind SamplingParams.promptLogprobs).isSome then
    .ok (s.createEmptyBlockList, 0)
  else s.findLongestCacheHit request.blockHashes ((request.numTokens : Int) - 1)

/-- The arguments of `allocate_slots` besides the request. -/
structure AllocArgs where
  numNewTokens : Int
  numNewComputedTokens : Int := 0
  newComputedBlocks : Option (List (List BlockId)) := none
  numLookaheadTokens : Int := 0
  delayCacheBlocks : Bool := false
  numEncoderTokens : Int := 0

/-- The tokens that need a slot. -/
def numTokensNeedSlot (s : KVCacheManager) (request : Request) (a : AllocArgs) : Int :=
  min (request.numComputedTokens + a.numNewComputedTokens + a.numNewTokens
    + a.numLookaheadTokens) s.config.maxModelLen

/-- The hits must not be evicted by what follows; without caching there are none. -/
def touchHits (s : KVCacheManager) (newComputedBlockList : List (List BlockId)) :
    Except PyError BlockPool :=
  if s.config.enableCaching then s.blockPool.touch newComputedBlockList
  else do
    pyAssert (∀ hits ∈ newComputedBlockList, hits = [])
    return s.blockPool

/-- The part of `allocate_slots` that takes blocks, after its check has passed. -/
def allocateGroups (s : KVCacheManager) (request : Request) (a : AllocArgs)
    (newComputedBlockList : List (List BlockId)) :
    Except PyError (List (List BlockId) × KVCacheManager) := do
  let blockPool ← s.touchHits newComputedBlockList
  let ms ← saveNewComputedBlocks request.requestId s.singleTypeManagers newComputedBlockList
  let (newBlocks, ms, blockPool) ← allocateNewBlocks request.requestId
    (s.numTokensNeedSlot request a) a.numEncoderTokens ms blockPool
  return (newBlocks, { s with blockPool := blockPool, singleTypeManagers := ms })

/-- `allocate_slots` after its check has passed. -/
def allocateChecked (s : KVCacheManager) (request : Request) (a : AllocArgs)
    (newComputedBlockList : List (List BlockId)) :
    Except PyError (List (List BlockId) × KVCacheManager) := do
  let (newBlocks, s) ← s.allocateGroups request a newComputedBlockList
  if s.config.enableCaching = false ∨ a.delayCacheBlocks then return (newBlocks, s)
  else do
    -- draft tokens that may be rejected are not cached
    let numTokensToCache := min (request.numComputedTokens + a.numNewComputedTokens
      + a.numNewTokens) request.numTokens
    return (newBlocks, ← s.coordinatorCacheBlocks request numTokensToCache)

/-- `allocate_slots`: the new blocks of each group, or nothing when they do not fit. -/
def allocateSlots (s : KVCacheManager) (request : Request) (a : AllocArgs) :
    Except PyError (Option (List (List BlockId)) × KVCacheManager) :=
  if a.numNewTokens = 0 then .error (.valueError "num_new_tokens must be greater than 0")
  else do
    let newComputedBlockList := a.newComputedBlocks.getD s.createEmptyBlockList
    let s ← s.removeSkippedBlocks request.requestId request.numComputedTokens
    let numBlocksToAllocate := s.getNumBlocksToAllocate request.requestId
      (s.numTokensNeedSlot request a) newComputedBlockList a.numEncoderTokens
    if numBlocksToAllocate > s.blockPool.getNumFreeBlocks then return (none, s)
    else do
      let (newBlocks, s) ← s.allocateChecked request a newComputedBlockList
      return (some newBlocks, s)

/-- The loop of `free` over the managers. -/
def freeLoop (requestId : String) :
    List SingleTypeManager → BlockPool → List SingleTypeManager × BlockPool
  | [], p => ([], p)
  | m :: ms, p =>
    let (m, p) := m.free p requestId
    let (ms, p) := freeLoop requestId ms p
    (m :: ms, p)

def free (s : KVCacheManager) (requestId : String) : KVCacheManager :=
  let (ms, p) := freeLoop requestId s.singleTypeManagers s.blockPool
  { s with blockPool := p, singleTypeManagers := ms }

def resetPrefixCache (s : KVCacheManager) : Bool × KVCacheManager :=
  let (done, p) := s.blockPool.resetPrefixCache
  (done, { s with blockPool := p })

def cacheBlocks (s : KVCacheManager) (request : Request) (numComputedTokens : Int) :
    Except PyError KVCacheManager :=
  if s.config.enableCaching then s.coordinatorCacheBlocks request numComputedTokens else .ok s

def takeEvents (s : KVCacheManager) : List KVCacheEvent × KVCacheManager :=
  let (events, p) := s.blockPool.takeEvents
  (events, { s with blockPool := p })

end KVCacheManager

end VllmV1
