import VllmMmaEmu.Engine.Request
import VllmMmaEmu.Library.Dict

/-!
# The offloading manager

`vllm/v1/kv_offload/lru_manager.py` over the CPU backend of `backends/cpu.py`. The fields of
a block status are those of a C structure, so a reference count has 32 bits and a block id 64.
-/

namespace VllmV1.KvOffload

open Python

/-- An assignment to a field of type `c_int32` does not check for overflow. -/
def toInt32 (n : Int) : Int := n.bmod (2 ^ 32)

def toInt64 (n : Int) : Int := n.bmod (2 ^ 64)

/-- Membership of a hash in a list is decidable. -/
scoped instance : LawfulBEq BlockHash := inferInstance

/-- `CPUBlockStatus`. -/
structure BlockStatus where
  refCnt : Int
  blockId : Int
  deriving DecidableEq, Repr

namespace BlockStatus

/-- A new block is not ready. -/
def init (blockId : Int) : BlockStatus := ⟨-1, toInt64 blockId⟩

def isReady (b : BlockStatus) : Bool := b.refCnt ≥ 0

def setRefCnt (b : BlockStatus) (n : Int) : BlockStatus := { b with refCnt := toInt32 n }

end BlockStatus

structure CPUBackend where
  blockSize : Nat
  medium : String := "CPU"
  numBlocks : Nat
  numAllocatedBlocks : Nat := 0
  allocatedBlocksFreeList : List Int := []
  deriving DecidableEq, Repr

namespace CPUBackend

def getNumFreeBlocks (c : CPUBackend) : Int :=
  c.allocatedBlocksFreeList.length + c.numBlocks - c.numAllocatedBlocks

/-- The loop over the fresh blocks. -/
def allocateFresh (c : CPUBackend) : Nat → List BlockStatus × CPUBackend
  | 0 => ([], c)
  | n + 1 =>
    let (blocks, c') := allocateFresh { c with numAllocatedBlocks := c.numAllocatedBlocks + 1 } n
    (.init c.numAllocatedBlocks :: blocks, c')

/-- The loop over the reused blocks, which come from the end of the free list. -/
def allocateReused (c : CPUBackend) : Nat → Except PyError (List BlockStatus × CPUBackend)
  | 0 => .ok ([], c)
  | n + 1 => match c.allocatedBlocksFreeList.getLast? with
    | none => .error .indexError
    | some blockId => do
      let (blocks, c') ← allocateReused
        { c with allocatedBlocksFreeList := c.allocatedBlocksFreeList.dropLast } n
      return (.init blockId :: blocks, c')

def allocateBlocks (c : CPUBackend) (blockHashes : List BlockHash) :
    Except PyError (List BlockStatus × CPUBackend) := do
  let numFreshBlocks : Int := min blockHashes.length ((c.numBlocks : Int) - c.numAllocatedBlocks)
  let numReusedBlocks := (blockHashes.length : Int) - numFreshBlocks
  pyAssert ((c.allocatedBlocksFreeList.length : Int) ≥ numReusedBlocks)
  let (fresh, c) := c.allocateFresh numFreshBlocks.toNat
  let (reused, c) ← c.allocateReused numReusedBlocks.toNat
  return (fresh ++ reused, c)

def free (c : CPUBackend) (b : BlockStatus) : CPUBackend :=
  { c with allocatedBlocksFreeList := c.allocatedBlocksFreeList ++ [b.blockId] }

end CPUBackend

structure OffloadingEvent where
  blockHashes : List BlockHash
  blockSize : Nat
  medium : String
  removed : Bool
  deriving DecidableEq, Repr

/-- The store spec is the list of block ids. -/
structure PrepareStoreOutput where
  blockHashesToStore : List BlockHash
  storeSpec : List Int
  blockHashesEvicted : List BlockHash
  deriving DecidableEq, Repr

structure LRUOffloadingManager where
  backend : CPUBackend
  blocks : Dict BlockHash BlockStatus
  events : Option (List OffloadingEvent)
  deriving DecidableEq

namespace LRUOffloadingManager

def init (backend : CPUBackend) (enableEvents : Bool) : LRUOffloadingManager where
  backend := backend
  blocks := Dict.empty
  events := if enableEvents then some [] else none

def lookup (m : LRUOffloadingManager) : List BlockHash → Nat
  | [] => 0
  | h :: rest => match m.blocks.get? h with
    | none => 0
    | some b => if b.isReady then m.lookup rest + 1 else 0

/-- The loop of `prepare_load`; the load spec is the list of block ids. -/
def prepareLoad (m : LRUOffloadingManager) :
    List BlockHash → Except PyError (List Int × LRUOffloadingManager)
  | [] => .ok ([], m)
  | h :: rest => do
    let b ← m.blocks.getItem h
    pyAssert b.isReady
    let (ids, m) ← prepareLoad { m with blocks := m.blocks.set h (b.setRefCnt (b.refCnt + 1)) } rest
    return (b.blockId :: ids, m)

/-- One block of `touch` moves to the end. -/
def touchBlock (m : LRUOffloadingManager) (h : BlockHash) : LRUOffloadingManager :=
  match m.blocks.get? h with
  | none => m
  | some b => { m with blocks := (m.blocks.erase h).set h b }

/-- `touch`: the first block is the last one to be touched. -/
def touch (m : LRUOffloadingManager) (blockHashes : List BlockHash) : LRUOffloadingManager :=
  blockHashes.reverse.foldl touchBlock m

/-- One block of `complete_load`. -/
def completeLoadBlock (m : LRUOffloadingManager) (h : BlockHash) :
    Except PyError LRUOffloadingManager := do
  let b ← m.blocks.getItem h
  pyAssert (b.refCnt > 0)
  return { m with blocks := m.blocks.set h (b.setRefCnt (b.refCnt - 1)) }

def completeLoad (m : LRUOffloadingManager) (blockHashes : List BlockHash) :
    Except PyError LRUOffloadingManager :=
  blockHashes.foldlM completeLoadBlock m

/-- The loop that collects `n` blocks to evict, if there are as many. -/
def toEvict : List (BlockHash × BlockStatus) → (n : Nat) → Option (List BlockHash)
  | _, 0 => some []
  | [], _ + 1 => none
  | (h, b) :: rest, n + 1 =>
    if b.refCnt = 0 then (toEvict rest n).map (h :: ·) else toEvict rest (n + 1)

/-- One block of the loop that evicts. -/
def evictBlock (m : LRUOffloadingManager) (h : BlockHash) : Except PyError LRUOffloadingManager := do
  let b ← m.blocks.getItem h
  return { m with blocks := m.blocks.erase h, backend := m.backend.free b }

/-- `self.events.append(...)`, when there are hashes and events are enabled. -/
def appendEvent (m : LRUOffloadingManager) (blockHashes : List BlockHash) (removed : Bool) :
    LRUOffloadingManager :=
  if blockHashes = [] then m
  else
    let event := ⟨blockHashes, m.backend.blockSize, m.backend.medium, removed⟩
    { m with events := m.events.map fun events => events ++ [event] }

/-- The loop over the new blocks. -/
def addBlocks (d : Dict BlockHash BlockStatus) (blockHashes : List BlockHash)
    (blocks : List BlockStatus) : Dict BlockHash BlockStatus :=
  (blockHashes.zip blocks).foldl (fun d p => d.set p.1 p.2) d

def prepareStore (m : LRUOffloadingManager) (blockHashes : List BlockHash) :
    Except PyError (Option PrepareStoreOutput × LRUOffloadingManager) :=
  let blockHashesToStore := blockHashes.filter (· ∉ m.blocks.keys)
  let numBlocksToEvict := (blockHashesToStore.length : Int) - m.backend.getNumFreeBlocks
  match toEvict m.blocks.entries numBlocksToEvict.toNat with
  | none => .ok (none, m)
  | some evicted => do
    let m ← evicted.foldlM evictBlock m
    let m := m.appendEvent evicted true
    let (blocks, backend) ← m.backend.allocateBlocks blockHashesToStore
    pyAssert (blocks.length = blockHashesToStore.length)
    return (some ⟨blockHashesToStore, blocks.map BlockStatus.blockId, evicted⟩,
      { m with backend := backend, blocks := addBlocks m.blocks blockHashesToStore blocks })

/-- The loop of `complete_store` after a success: the hashes that became ready. -/
def markStored (m : LRUOffloadingManager) :
    List BlockHash → Except PyError (List BlockHash × LRUOffloadingManager)
  | [] => .ok ([], m)
  | h :: rest => do
    let b ← m.blocks.getItem h
    if b.isReady then markStored m rest
    else do
      let (stored, m) ← markStored { m with blocks := m.blocks.set h (b.setRefCnt 0) } rest
      return (h :: stored, m)

/-- One block of `complete_store` after a failure. -/
def dropBlock (m : LRUOffloadingManager) (h : BlockHash) : Except PyError LRUOffloadingManager := do
  let b ← m.blocks.getItem h
  if b.isReady then return m
  else return { m with blocks := m.blocks.erase h, backend := m.backend.free b }

def completeStore (m : LRUOffloadingManager) (blockHashes : List BlockHash) (success : Bool) :
    Except PyError LRUOffloadingManager :=
  if success then do
    let (stored, m) ← m.markStored blockHashes
    return m.appendEvent stored false
  else blockHashes.foldlM dropBlock m

/-- `take_events`, read to its end. -/
def takeEvents (m : LRUOffloadingManager) : List OffloadingEvent × LRUOffloadingManager :=
  match m.events with
  | none => ([], m)
  | some events => (events, { m with events := some [] })

end LRUOffloadingManager

end VllmV1.KvOffload
