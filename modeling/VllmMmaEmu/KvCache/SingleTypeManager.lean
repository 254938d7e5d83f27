import VllmMmaEmu.KvCache.BlockPool
import VllmMmaEmu.Library.Dict

/-!
# KV cache managers of one attention type

`vllm/v1/core/single_type_kv_cache_manager.py`. The classes differ in four methods; each of
them is one definition that looks at the kind of the manager.
-/

namespace VllmV1

open Python

inductive AttentionKind where
  | full
  | slidingWindow (slidingWindow : Nat)
  | chunkedLocal (attentionChunkSize : Nat)
  | mamba (numSpeculativeBlocks : Nat)
  | cross
  deriving DecidableEq, Repr

@[ext]
structure KVCacheSpec where
  blockSize : Nat
  kind : AttentionKind
  blockSize_pos : 0 < blockSize := by decide
  deriving Repr

instance : DecidableEq KVCacheSpec := fun _ _ => decidable_of_iff' _ KVCacheSpec.ext_iff

/-- `SingleTypeKVCacheManager`; the block size is scaled by the DCP world size. -/
structure SingleTypeManager where
  kvCacheSpec : KVCacheSpec
  blockSize : Int
  kvCacheGroupId : Nat
  reqToBlocks : Dict String (List BlockId)
  numCachedBlock : Dict String Int

namespace SingleTypeManager

def init (spec : KVCacheSpec) (groupId dcpWorldSize : Nat) : SingleTypeManager where
  kvCacheSpec := spec
  blockSize := if dcpWorldSize > 1 then spec.blockSize * dcpWorldSize else spec.blockSize
  kvCacheGroupId := groupId
  reqToBlocks := Dict.empty
  numCachedBlock := Dict.empty

/-- `self.req_to_blocks[request_id]` of the default dict. -/
def blocksOf (m : SingleTypeManager) (requestId : String) : List BlockId :=
  (m.reqToBlocks.get? requestId).getD []

def setBlocks (m : SingleTypeManager) (requestId : String) (blocks : List BlockId) :
    SingleTypeManager :=
  { m with reqToBlocks := m.reqToBlocks.set requestId blocks }

/-- The tokens a manager makes room for: Mamba adds its speculative blocks. -/
def tokensNeedingSlots (m : SingleTypeManager) (numTokens : Int) : Int :=
  match m.kvCacheSpec.kind with
  | .mamba numSpeculativeBlocks =>
    if numSpeculativeBlocks > 0 then
      numTokens + m.kvCacheSpec.blockSize * numSpeculativeBlocks
    else numTokens
  | _ => numTokens

def numRequiredBlocks (m : SingleTypeManager) (numTokens : Int) : Int :=
  cdiv (m.tokensNeedingSlots numTokens) m.blockSize

/-- A hit that is in the free queue. -/
def isEvictable (p : BlockPool) (b : BlockId) : Bool := p.refCnt b = 0 ∧ b ≠ nullBlock

def getNumBlocksToAllocate (m : SingleTypeManager) (p : BlockPool) (requestId : String)
    (numTokens : Int) (newComputedBlocks : List BlockId) : Int :=
  m.numRequiredBlocks numTokens - newComputedBlocks.length - (m.blocksOf requestId).length
    + newComputedBlocks.countP (isEvictable p)

def saveNewComputedBlocks (m : SingleTypeManager) (requestId : String)
    (newComputedBlocks : List BlockId) : Except PyError SingleTypeManager :=
  match m.kvCacheSpec.kind with
  | .cross => do
    pyAssert (newComputedBlocks.length = 0)
    return m
  | _ =>
    if requestId ∈ m.numCachedBlock.keys then do
      -- a running request
      pyAssert (newComputedBlocks.length = 0)
      return m
    else do
      pyAssert ((m.blocksOf requestId).length = 0)
      return { m.setBlocks requestId (m.blocksOf requestId ++ newComputedBlocks) with
        numCachedBlock := m.numCachedBlock.set requestId newComputedBlocks.length }

def allocateNewBlocks (m : SingleTypeManager) (p : BlockPool) (requestId : String)
    (numTokens : Int) : Except PyError (List BlockId × SingleTypeManager × BlockPool) :=
  let reqBlocks := m.blocksOf requestId
  let numNewBlocks := m.numRequiredBlocks numTokens - reqBlocks.length
  if numNewBlocks ≤ 0 then .ok ([], m, p)
  else do
    let (newBlocks, p) ← p.getNewBlocks numNewBlocks
    return (newBlocks, m.setBlocks requestId (reqBlocks ++ newBlocks), p)

def cacheBlocks (m : SingleTypeManager) (p : BlockPool) (request : Request) (numTokens : Int) :
    Except PyError (SingleTypeManager × BlockPool) :=
  match m.kvCacheSpec.kind with
  | .cross => .error (.valueError "Should not be called as prefix caching is disabled.")
  | _ => match m.numCachedBlock.get? request.requestId with
    | none => .error .keyError
    | some numCachedBlocks => do
      let numFullBlocks := numTokens.fdiv m.blockSize
      let p ← p.cacheFullBlocks request (m.blocksOf request.requestId) numCachedBlocks
        numFullBlocks m.blockSize m.kvCacheGroupId
      return ({ m with
        numCachedBlock := m.numCachedBlock.set request.requestId numFullBlocks }, p)

/-- `free`: the tail blocks go first. -/
def free (m : SingleTypeManager) (p : BlockPool) (requestId : String) :
    SingleTypeManager × BlockPool :=
  ({ m with
      reqToBlocks := m.reqToBlocks.erase requestId
      numCachedBlock := m.numCachedBlock.erase requestId },
    p.freeBlocks (m.blocksOf requestId).reverse)

/-- The index before which blocks are no longer needed, if the kind removes any. -/
def firstUsefulBlock (m : SingleTypeManager) (requestId : String) (numComputedTokens : Int) :
    Int :=
  match m.kvCacheSpec.kind with
  | .slidingWindow slidingWindow => (numComputedTokens - slidingWindow + 1).fdiv m.blockSize
  | .chunkedLocal attentionChunkSize =>
    let numCachedBlock := (m.numCachedBlock.get? requestId).getD 0
    let localAttentionStartIdx :=
      numComputedTokens.fdiv attentionChunkSize * attentionChunkSize
    let firstUsefulBlockIdx := localAttentionStartIdx.fdiv m.blockSize
    -- the last cached block is kept for the next hash
    if numCachedBlock > 0 then min firstUsefulBlockIdx (numCachedBlock - 1)
    else firstUsefulBlockIdx
  | .full | .mamba _ | .cross => 0

/-- The loop that replaces the blocks before index `i` by the null block, from the right,
up to the first one that is null already: the table and the removed blocks in order. -/
def removeLoop (blocks : List BlockId) : (i : Nat) → Except PyError (List BlockId × List BlockId)
  | 0 => .ok (blocks, [])
  | i + 1 => match blocks[i]? with
    | none => .error .indexError
    | some b =>
      if b = nullBlock then .ok (blocks, [])
      else do
        let (blocks', removed) ← removeLoop (blocks.set i nullBlock) i
        return (blocks', b :: removed)

def removeSkippedBlocks (m : SingleTypeManager) (p : BlockPool) (requestId : String)
    (numComputedTokens : Int) : Except PyError (SingleTypeManager × BlockPool) := do
  let (blocks, removed) ← removeLoop (m.blocksOf requestId)
    (m.firstUsefulBlock requestId numComputedTokens).toNat
  return (m.setBlocks requestId blocks, p.freeBlocks removed)

/-- Append a hit to the list of each group. -/
def appendHit (computed : List (List BlockId)) (cached : List BlockId) : List (List BlockId) :=
  List.zipWith (fun c b => c ++ [b]) computed cached

/-- Hits in a row; a lookup without groups counts as a miss. -/
def hitLoop (p : BlockPool) (groupIds : List Nat) :
    List BlockHash → List (List BlockId) → List (List BlockId)
  | [], computed => computed
  | h :: hashes, computed => match p.getCachedBlock h groupIds with
    | some (b :: bs) => hitLoop p groupIds hashes (appendHit computed (b :: bs))
    | _ => computed

/-- With eagle the last matched block is dropped; without groups there is no first list. -/
def dropLastHit (useEagle : Bool) (computed : List (List BlockId)) :
    Except PyError (List (List BlockId)) :=
  if useEagle then match computed with
    | [] => .error .indexError
    | first :: _ => .ok (if first ≠ [] then computed.map List.dropLast else computed)
  else .ok computed

/-- `FullAttentionManager.find_longest_cache_hit`. -/
def fullCacheHit (p : BlockPool) (blockHashes : List BlockHash) (maxLength blockSize : Int)
    (groupIds : List Nat) (useEagle : Bool) : Except PyError (List (List BlockId)) :=
  let maxNumBlocks := maxLength.fdiv blockSize
  -- `islice` takes no negative stop
  if maxNumBlocks < 0 then .error (.valueError ("Stop argument for islice() must be None or an " ++
    "integer: 0 <= x <= sys.maxsize."))
  else dropLastHit useEagle
    (hitLoop p groupIds (blockHashes.take maxNumBlocks.toNat) (groupIds.map fun _ => []))

/-- The search of the sliding window from right to left below index `i`, with the number of
contiguous hits so far. -/
def slidingHitLoop (p : BlockPool) (blockHashes : List BlockHash) (groupIds : List Nat)
    (needed : Int) : (i numContiguous : Nat) → List (List BlockId) →
      Except PyError (List (List BlockId))
  | 0, numContiguous, computed => .ok (computed.map (List.take numContiguous))
  | i + 1, numContiguous, computed => match blockHashes[i]? with
    | none => .error .indexError
    | some h => match p.getCachedBlock h groupIds with
      | some (b :: bs) =>
        let computed := List.zipWith (fun c b => c.set i b) computed (b :: bs)
        if (numContiguous + 1 : Int) ≥ needed then
          .ok (computed.map (List.take (i + (numContiguous + 1))))
        else slidingHitLoop p blockHashes groupIds needed i (numContiguous + 1) computed
      | _ => slidingHitLoop p blockHashes groupIds needed i 0 computed

/-- `SlidingWindowManager.find_longest_cache_hit`. -/
def slidingCacheHit (p : BlockPool) (blockHashes : List BlockHash) (maxLength blockSize : Int)
    (slidingWindow : Nat) (groupIds : List Nat) (useEagle : Bool) :
    Except PyError (List (List BlockId)) := do
  let needed := cdiv (slidingWindow - 1) blockSize + if useEagle then 1 else 0
  let maxNumBlocks := (maxLength.fdiv blockSize).toNat
  let computed ← slidingHitLoop p blockHashes groupIds needed maxNumBlocks 0
    (groupIds.map fun _ => List.replicate maxNumBlocks nullBlock)
  dropLastHit useEagle computed

/-- The hits from index `i` on; an index past the hashes raises. -/
def chunkedHitLoop (p : BlockPool) (groupIds : List Nat) :
    (n : Nat) → List BlockHash → List (List BlockId) → Except PyError (List (List BlockId))
  | 0, _, computed => .ok computed
  | _ + 1, [], _ => .error .indexError
  | n + 1, h :: hashes, computed => match p.getCachedBlock h groupIds with
    | some (b :: bs) => chunkedHitLoop p groupIds n hashes (appendHit computed (b :: bs))
    | _ => .ok computed

/-- `ChunkedLocalAttentionManager.find_longest_cache_hit`. -/
def chunkedCacheHit (p : BlockPool) (blockHashes : List BlockHash) (maxLength blockSize : Int)
    (attentionChunkSize : Nat) (groupIds : List Nat) : Except PyError (List (List BlockId)) :=
  let maxNumBlocks := (maxLength.fdiv blockSize).toNat
  let localAttentionStartIdx :=
    if maxLength > 0 then maxLength.fdiv attentionChunkSize * attentionChunkSize else 0
  let start := (localAttentionStartIdx.fdiv blockSize).toNat
  chunkedHitLoop p groupIds (maxNumBlocks - start) (blockHashes.drop start)
    (groupIds.map fun _ => List.replicate start nullBlock)

/-- `find_longest_cache_hit` of the class that manages the spec. -/
def findLongestCacheHit (spec : KVCacheSpec) (p : BlockPool) (blockHashes : List BlockHash)
    (maxLength : Int) (groupIds : List Nat) (useEagle : Bool) (dcpWorldSize : Nat) :
    Except PyError (List (List BlockId)) :=
  match spec.kind with
  | .full =>
    fullCacheHit p blockHashes maxLength
      (if dcpWorldSize > 1 then spec.blockSize * dcpWorldSize else spec.blockSize)
      groupIds useEagle
  | .slidingWindow slidingWindow => do
    pyAssert (dcpWorldSize = 1)
    slidingCacheHit p blockHashes maxLength spec.blockSize slidingWindow groupIds useEagle
  | .chunkedLocal attentionChunkSize => do
    pyAssert (useEagle = false)
    pyAssert (dcpWorldSize = 1)
    chunkedCacheHit p blockHashes maxLength spec.blockSize attentionChunkSize groupIds
  | .mamba _ => do
    pyAssert (dcpWorldSize = 1)
    return groupIds.map fun _ => []
  | .cross => .error .notImplementedError

end SingleTypeManager

end VllmV1
