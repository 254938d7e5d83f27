import Mathlib.Data.List.Nodup
import VllmMmaEmu.Engine.Request

/-!
# The pool of KV cache blocks

`vllm/v1/core/block_pool.py` and the block metadata of `kv_cache_utils.py`. A block is its
id, and block 0 is the null block. The free queue is the list of its blocks from the front.
A hash with its group id is a pair.
-/

namespace VllmV1

open Python

abbrev BlockId := Nat

/-- The placeholder block. -/
def nullBlock : BlockId := 0

abbrev BlockHashWithGroupId := BlockHash × Nat

/-- An entry of the map: a single block, or a dict of blocks by id in insertion order. -/
inductive CachedBlocks where
  | one (b : BlockId)
  | many (bs : List BlockId) (nodup : bs.Nodup)
  deriving DecidableEq, Repr

def CachedBlocks.toList : CachedBlocks → List BlockId
  | one b => [b]
  | many bs _ => bs

abbrev BlockHashToBlockMap := BlockHashWithGroupId → Option CachedBlocks

namespace BlockHashToBlockMap

def getOneBlock (m : BlockHashToBlockMap) (key : BlockHashWithGroupId) : Option BlockId :=
  match m key with
  | none => none
  | some (.one b) => some b
  | some (.many bs _) => bs.head?

/-- `self._cache[key] = blocks`, or the removal of the key. -/
def put (m : BlockHashToBlockMap) (key : BlockHashWithGroupId) (c : Option CachedBlocks) :
    BlockHashToBlockMap :=
  fun k => if k = key then c else m k

def insert (m : BlockHashToBlockMap) (key : BlockHashWithGroupId) (b : BlockId) :
    BlockHashToBlockMap :=
  match m key with
  | none => m.put key (some (.one b))
  | some (.one b') =>
    if h : b' = b then m.put key (some (.many [b'] (List.nodup_singleton b')))
    else m.put key (some (.many [b', b] (List.nodup_cons.mpr
      ⟨fun hmem => h (List.mem_singleton.mp hmem), List.nodup_singleton b⟩)))
  | some (.many bs nodup) =>
    if h : b ∈ bs then m
    else m.put key (some (.many (bs.concat b) (nodup.concat h)))

/-- `pop`: whether the block was there, and the map afterwards. -/
def pop (m : BlockHashToBlockMap) (key : BlockHashWithGroupId) (b : BlockId) :
    Bool × BlockHashToBlockMap :=
  match m key with
  | none => (false, m)
  | some (.one b') => if b' = b then (true, m.put key none) else (false, m)
  | some (.many bs nodup) =>
    (decide (b ∈ bs),
      m.put key (if bs.erase b = [] then none else some (.many (bs.erase b) (nodup.erase b))))

end BlockHashToBlockMap

inductive KVCacheEvent where
  | blockStored (blockHashes : List BlockHash) (parentBlockHash : Option BlockHash)
      (tokenIds : List Int) (blockSize : Int) (loraId : Option Int)
  | blockRemoved (blockHash : BlockHash)
  | allBlocksCleared
  deriving DecidableEq, Repr

/-- `BlockPool`; the maps give the metadata of each block. -/
structure BlockPool where
  numGpuBlocks : Nat
  enableCaching : Bool
  enableKvCacheEvents : Bool
  refCnt : BlockId → Int
  blockHash : BlockId → Option BlockHashWithGroupId
  freeBlockQueue : List BlockId
  cachedBlockHashToBlock : BlockHashToBlockMap
  kvEventQueue : List KVCacheEvent

namespace BlockPool

/-- `BlockPool.__init__`: the null block is taken from the front of the queue. -/
def init (numGpuBlocks : Nat) (enableCaching enableKvCacheEvents : Bool) :
    Except PyError BlockPool := do
  pyAssert (0 < numGpuBlocks)
  return {
    numGpuBlocks := numGpuBlocks
    enableCaching := enableCaching
    enableKvCacheEvents := enableKvCacheEvents
    refCnt := fun _ => 0
    blockHash := fun _ => none
    freeBlockQueue := (List.range numGpuBlocks).drop 1
    cachedBlockHashToBlock := fun _ => none
    kvEventQueue := [] }

def getNumFreeBlocks (p : BlockPool) : Nat := p.freeBlockQueue.length

def setRefCnt (p : BlockPool) (b : BlockId) (n : Int) : BlockPool :=
  { p with refCnt := fun b' => if b' = b then n else p.refCnt b' }

def setHash (p : BlockPool) (b : BlockId) (h : Option BlockHashWithGroupId) : BlockPool :=
  { p with blockHash := fun b' => if b' = b then h else p.blockHash b' }

/-- `get_cached_block`: a block for each group, or nothing. -/
def getCachedBlock (p : BlockPool) (blockHash : BlockHash) (groupIds : List Nat) :
    Option (List BlockId) :=
  groupIds.mapM fun g => p.cachedBlockHashToBlock.getOneBlock (blockHash, g)

/-- The loop of `cache_full_blocks` over the new full blocks and their hashes. -/
def cacheBlocksLoop (groupId : Nat) :
    BlockPool → List BlockId → List BlockHash → Except PyError BlockPool
  | p, [], _ => .ok p
  | _, _ :: _, [] => .error .indexError
  | p, b :: blocks, h :: hashes => do
    pyAssert (p.blockHash b = none)
    let p := p.setHash b (some (h, groupId))
    cacheBlocksLoop groupId
      { p with cachedBlockHashToBlock := p.cachedBlockHashToBlock.insert (h, groupId) b }
      blocks hashes

/-- The hash of the block before the new full blocks, for the event. -/
def parentBlockHash (p : BlockPool) (blocks : List BlockId) (numCachedBlocks : Int) :
    Except PyError (Option BlockHash) :=
  if numCachedBlocks = 0 then .ok none
  else match (pyFrom blocks (numCachedBlocks - 1)).head? with
    | none => .error .indexError
    | some parent => match p.blockHash parent with
      | none => .error .assertionError
      | some h => .ok (some h.1)

/-- `request.lora_request.id if request.lora_request else None`. A `LoRARequest` has no attribute
`id`. -/
def eventLoraId (loraRequest : Option Int) : Except PyError (Option Int) :=
  match loraRequest with
  | none => .ok none
  | some _ => .error .attributeError

def cacheFullBlocks (p : BlockPool) (request : Request) (blocks : List BlockId)
    (numCachedBlocks numFullBlocks blockSize : Int) (groupId : Nat) :
    Except PyError BlockPool :=
  if numCachedBlocks = numFullBlocks then .ok p
  else do
    let newFullBlocks := pySlice blocks numCachedBlocks numFullBlocks
    pyAssert ((request.blockHashes.length : Int) ≥ numFullBlocks)
    let newBlockHashes := pyFrom request.blockHashes numCachedBlocks
    let p ← cacheBlocksLoop groupId p newFullBlocks newBlockHashes
    if p.enableKvCacheEvents then do
      let parent ← p.parentBlockHash blocks numCachedBlocks
      let loraId ← eventLoraId request.loraRequest
      return { p with kvEventQueue := p.kvEventQueue ++ [.blockStored
        (newBlockHashes.take newFullBlocks.length) parent
        (pySlice request.allTokenIds (numCachedBlocks * blockSize) (numFullBlocks * blockSize))
        blockSize loraId] }
    else return p

def maybeEvictCachedBlock (p : BlockPool) (b : BlockId) : BlockPool :=
  match p.blockHash b with
  | none => p
  | some h =>
    let popped := p.cachedBlockHashToBlock.pop h b
    let p := { p with cachedBlockHashToBlock := popped.2 }
    if popped.1 then
      let p := p.setHash b none
      if p.enableKvCacheEvents then
        { p with kvEventQueue := p.kvEventQueue ++ [.blockRemoved h.1] }
      else p
    else p

/-- The loop of `get_new_blocks` over the blocks taken from the queue. -/
def takeBlocks : BlockPool → List BlockId → Except PyError BlockPool
  | p, [] => .ok p
  | p, b :: blocks => do
    let p := if p.enableCaching then p.maybeEvictCachedBlock b else p
    pyAssert (p.refCnt b = 0)
    takeBlocks (p.setRefCnt b (p.refCnt b + 1)) blocks

def getNewBlocks (p : BlockPool) (numBlocks : Int) : Except PyError (List BlockId × BlockPool) :=
  if numBlocks > p.getNumFreeBlocks then
    .error (.valueError
      ("Cannot get " ++ toString numBlocks ++ " free blocks from the pool"))
  else do
    let ret := p.freeBlockQueue.take numBlocks.toNat
    let p ← takeBlocks { p with freeBlockQueue := p.freeBlockQueue.drop numBlocks.toNat } ret
    return (ret, p)

/-- One block of `touch`. -/
def touchBlock (p : BlockPool) (b : BlockId) : Except PyError BlockPool :=
  if p.refCnt b = 0 ∧ b ≠ nullBlock then
    if b ∈ p.freeBlockQueue then
      .ok ({ p with freeBlockQueue := p.freeBlockQueue.erase b }.setRefCnt b (p.refCnt b + 1))
    else .error (.runtimeError "remove() called on an invalid block")
  else .ok (p.setRefCnt b (p.refCnt b + 1))

def touch (p : BlockPool) (blocks : List (List BlockId)) : Except PyError BlockPool :=
  blocks.flatten.foldlM touchBlock p

def freeBlocks (p : BlockPool) (orderedBlocks : List BlockId) : BlockPool :=
  let p := orderedBlocks.foldl (fun p b => p.setRefCnt b (p.refCnt b - 1)) p
  { p with freeBlockQueue := p.freeBlockQueue ++
      orderedBlocks.filter fun b => p.refCnt b = 0 ∧ b ≠ nullBlock }

def resetPrefixCache (p : BlockPool) : Bool × BlockPool :=
  if (p.numGpuBlocks : Int) - p.getNumFreeBlocks ≠ 1 then (false, p)
  else
    let p := { p with
      cachedBlockHashToBlock := fun _ => none
      blockHash := fun _ => none }
    (true, if p.enableKvCacheEvents then
        { p with kvEventQueue := p.kvEventQueue ++ [.allBlocksCleared] }
      else p)

/-- `take_events`: the events so far and the pool with an empty queue. -/
def takeEvents (p : BlockPool) : List KVCacheEvent × BlockPool :=
  if p.enableKvCacheEvents = false then ([], p)
  else (p.kvEventQueue, { p with kvEventQueue := [] })

end BlockPool

end VllmV1
