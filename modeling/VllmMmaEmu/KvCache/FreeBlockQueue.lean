import VllmMmaEmu.KvCache.BlockPool
import VllmMmaEmu.Library.LinkChain

/-!
# The free block queue

`FreeKVCacheBlockQueue` of `vllm/v1/core/kv_cache_utils.py`: a doubly linked list of blocks
between a fake head and a fake tail, with a counter. An operation gives its result and the
queue as it left it, also when it raises.
-/

namespace VllmV1

open LinkChain Python

inductive FreeListNode where
  | fakeFreeListHead
  | fakeFreeListTail
  | block (b : BlockId)
  deriving DecidableEq, Repr

open FreeListNode

/-- `FreeKVCacheBlockQueue`, with the links of all blocks. -/
structure FreeKVCacheBlockQueue where
  links : Links FreeListNode
  numFreeBlocks : Int

namespace FreeKVCacheBlockQueue

/-- The loop of `__init__` over consecutive blocks; `before` is `blocks[i - 1]`. -/
def initLoop : (before : Option BlockId) → List BlockId → Links FreeListNode → Links FreeListNode
  | _, [], L => L
  | before, b :: rest, L =>
    let L := match before with
      | some a => L.setPrev (block b) (some (block a))
      | none => L
    let L := match rest with
      | c :: _ => L.setNext (block b) (some (block c))
      | [] => L
    initLoop (some b) rest L

/-- `__init__`, on blocks that are in no list yet. -/
def init (blocks : List BlockId) : FreeKVCacheBlockQueue :=
  let L := initLoop none blocks ⟨fun _ => none, fun _ => none⟩
  let links := match blocks.head?, blocks.getLast? with
    | some first, some last =>
      let L := L.setNext fakeFreeListHead (some (block first))
      let L := L.setPrev (block first) (some fakeFreeListHead)
      let L := L.setPrev fakeFreeListTail (some (block last))
      L.setNext (block last) (some fakeFreeListTail)
    | _, _ =>
      let L := L.setNext fakeFreeListHead (some fakeFreeListTail)
      L.setPrev fakeFreeListTail (some fakeFreeListHead)
  { links := links, numFreeBlocks := blocks.length }

def popleft (q : FreeKVCacheBlockQueue) : Except PyError FreeListNode × FreeKVCacheBlockQueue :=
  match q.links.next fakeFreeListHead with
  | none | some fakeFreeListTail =>
    (if q.numFreeBlocks = 0 then .error (.valueError "No free blocks available")
      else .error .assertionError, q)
  | some firstBlock => match q.links.next firstBlock with
    | none => (.error (.runtimeError ("Invalid block found in popleft() " ++
        "which doesn't have a valid next_free_block")), q)
    | some second =>
      let L := q.links.setNext fakeFreeListHead (some second)
      let L := L.setPrev second (some fakeFreeListHead)
      let L := (L.setPrev firstBlock none).setNext firstBlock none
      (.ok firstBlock, { links := L, numFreeBlocks := q.numFreeBlocks - 1 })

/-- The loop of `popleft_n`: the blocks popped, the current block and the links after it. -/
def popLoop : (n : Nat) → Links FreeListNode → (currBlock : Option FreeListNode) →
    Except PyError (List FreeListNode) × Option FreeListNode × Links FreeListNode
  | 0, L, currBlock => (.ok [], currBlock, L)
  | _ + 1, L, none => (.error .assertionError, none, L)
  | n + 1, L, some lastBlock =>
    let currBlock := L.next lastBlock
    let L := (L.setPrev lastBlock none).setNext lastBlock none
    let (ret, currBlock, L) := popLoop n L currBlock
    (ret.map (lastBlock :: ·), currBlock, L)

def popleftN (q : FreeKVCacheBlockQueue) (n : Nat) :
    Except PyError (List FreeListNode) × FreeKVCacheBlockQueue :=
  if n = 0 then (.ok [], q)
  else if q.numFreeBlocks ≥ n then
    let numFreeBlocks := q.numFreeBlocks - n
    match popLoop n q.links (q.links.next fakeFreeListHead) with
    | (.error e, _, L) => (.error e, ⟨L, numFreeBlocks⟩)
    | (.ok ret, none, L) => (.ok ret, ⟨L, numFreeBlocks⟩)
    | (.ok ret, some currBlock, L) =>
      let L := L.setNext fakeFreeListHead (some currBlock)
      (.ok ret, ⟨L.setPrev currBlock (some fakeFreeListHead), numFreeBlocks⟩)
  else (.error .assertionError, q)

/-- `remove`; the message quotes the block, `blockRepr` being its `__repr__`. -/
def remove (blockRepr : BlockId → String) (q : FreeKVCacheBlockQueue) (b : BlockId) :
    Except PyError Unit × FreeKVCacheBlockQueue :=
  match q.links.prev (block b), q.links.next (block b) with
  | some prevBlock, some nextBlock =>
    let L := q.links.setNext prevBlock (some nextBlock)
    let L := L.setPrev nextBlock (some prevBlock)
    let L := (L.setPrev (block b) none).setNext (block b) none
    (.ok (), { links := L, numFreeBlocks := q.numFreeBlocks - 1 })
  | _, _ => (.error (.runtimeError ("remove() called on an invalid block: " ++ blockRepr b)), q)

def append (q : FreeKVCacheBlockQueue) (b : BlockId) :
    Except PyError Unit × FreeKVCacheBlockQueue :=
  match q.links.prev fakeFreeListTail with
  | none => (.error (.runtimeError
      "prev_free_block of fake_free_list_tail should always exist"), q)
  | some lastBlock =>
    let L := q.links.setNext lastBlock (some (block b))
    let L := L.setPrev (block b) (some lastBlock)
    let L := L.setNext (block b) (some fakeFreeListTail)
    let L := L.setPrev fakeFreeListTail (some (block b))
    (.ok (), { links := L, numFreeBlocks := q.numFreeBlocks + 1 })

/-- The loop of `append_n`: the last block and the links after it. -/
def appendLoop : Links FreeListNode → (lastBlock : FreeListNode) → List BlockId →
    FreeListNode × Links FreeListNode
  | L, lastBlock, [] => (lastBlock, L)
  | L, lastBlock, b :: blocks =>
    let L := L.setPrev (block b) (some lastBlock)
    let L := L.setNext lastBlock (some (block b))
    appendLoop L (block b) blocks

def appendN (q : FreeKVCacheBlockQueue) (blocks : List BlockId) :
    Except PyError Unit × FreeKVCacheBlockQueue :=
  if blocks.length = 0 then (.ok (), q)
  else match q.links.prev fakeFreeListTail with
    | none => (.error .assertionError, q)
    | some lastBlock =>
      let (lastBlock, L) := appendLoop q.links lastBlock blocks
      let L := L.setNext lastBlock (some fakeFreeListTail)
      let L := L.setPrev fakeFreeListTail (some lastBlock)
      (.ok (), { links := L, numFreeBlocks := q.numFreeBlocks + blocks.length })

/-- The loop of `get_all_free_blocks`. -/
def collectLoop (L : Links FreeListNode) : (fuel : Nat) → (currBlock : FreeListNode) →
    Except PyError (List FreeListNode)
  | 0, _ => .error .outOfFuel
  | fuel + 1, currBlock => match L.next currBlock with
    | none => .ok []
    | some next => do return currBlock :: (← collectLoop L fuel next)

def getAllFreeBlocks (fuel : Nat) (q : FreeKVCacheBlockQueue) :
    Except PyError (List FreeListNode) :=
  match q.links.next fakeFreeListHead with
  | none => .error (.runtimeError
      "next_free_block of fake_free_list_head should always exist")
  | some currBlock => collectLoop q.links fuel currBlock

inductive Operation where
  | popleft
  | popleftN (n : Nat)
  | remove (b : BlockId)
  | append (b : BlockId)
  | appendN (blocks : List BlockId)
  deriving DecidableEq, Repr

/-- One operation: the blocks it returns, and the queue as it left it. -/
def perform (blockRepr : BlockId → String) (q : FreeKVCacheBlockQueue) :
    Operation → Except PyError (List FreeListNode) × FreeKVCacheBlockQueue
  | .popleft => (q.popleft.1.map ([·]), q.popleft.2)
  | .popleftN n => q.popleftN n
  | .remove b => ((q.remove blockRepr b).1.map (fun _ => []), (q.remove blockRepr b).2)
  | .append b => ((q.append b).1.map (fun _ => []), (q.append b).2)
  | .appendN blocks => ((q.appendN blocks).1.map (fun _ => []), (q.appendN blocks).2)

/-- The operation on a plain list: the blocks it returns and the list after it, or nothing
when it fails. -/
def listPerform (l : List BlockId) : Operation → Option (List BlockId × List BlockId)
  | .popleft => match l with
    | [] => none
    | b :: rest => some ([b], rest)
  | .popleftN n => if n ≤ l.length then some (l.take n, l.drop n) else none
  | .remove b => if b ∈ l then some ([], l.erase b) else none
  | .append b => some ([], l ++ [b])
  | .appendN blocks => some ([], l ++ blocks)

/-- The plain list after the operation, unchanged when it fails. -/
def listAfter (l : List BlockId) (op : Operation) : List BlockId :=
  (listPerform l op).elim l (·.2)

/-- Blocks are appended only while they are in no list, and once. -/
def Allowed (l : List BlockId) : Operation → Prop
  | .append b => b ∉ l
  | .appendN blocks => blocks.Nodup ∧ ∀ b ∈ blocks, b ∉ l
  | _ => True

instance (l : List BlockId) : (op : Operation) → Decidable (Allowed l op)
  | .append b => inferInstanceAs (Decidable (b ∉ l))
  | .appendN blocks => inferInstanceAs (Decidable (blocks.Nodup ∧ ∀ b ∈ blocks, b ∉ l))
  | .popleft | .popleftN _ | .remove _ => inferInstanceAs (Decidable True)

end FreeKVCacheBlockQueue

end VllmV1
