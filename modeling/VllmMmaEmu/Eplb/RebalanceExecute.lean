import VllmMmaEmu.Library.Dict

/-!
# The exchange of expert weights

`shuffle_layer` as one rank runs it: local copies into the buffer, the operations it posts,
and the copy back. The ranks share nothing but the two global maps and the messages. Ranks
are named by their number in the group.
-/

namespace Eplb

open Python

/-- A rank's tensors: the row of each slot in each of them. -/
abbrev Memory (V : Type) := Nat → Nat → V

variable {V : Type}

def idxLocalToGlobal (localIdx localCnt epRank : Nat) : Nat := epRank * localCnt + localIdx

def globalIdxToRank (globalIdx localCnt : Nat) : Except PyError Nat :=
  pyFloorDiv globalIdx localCnt

/-- The ranks of the slots with expert `idx`, adjacent repetitions left out. -/
def ranksWithExpert (idx : Int) (numLocalExperts : Nat) (indices : List Int) :
    Except PyError (List Nat) :=
  indices.zipIdx.foldlM (fun ranks (e, i) =>
    if e = idx then do
      let rank ← globalIdxToRank i numLocalExperts
      .ok (if ranks.getLast? = some rank then ranks else ranks ++ [rank])
    else .ok ranks) []

def getEpRanksWithExpert (idx : Int) (numLocalExperts : Nat) (oldIndices newIndices : List Int) :
    Except PyError (List Nat × List Nat) := do
  let ranksToSend ← ranksWithExpert idx numLocalExperts oldIndices
  let ranksToRecv ← ranksWithExpert idx numLocalExperts newIndices
  .ok (ranksToSend, ranksToRecv.filter fun rank => rank ∉ ranksToSend)

/-- The receivers that `epRank` sends to. -/
def recvRanksOf (ranksToSend ranksToRecv : List Nat) (epRank : Nat) :
    Except PyError (List Nat) := do
  let numDstPerSender ← pyFloorDiv ranksToRecv.length ranksToSend.length
  let senderPos ← pyListIndex ranksToSend epRank
  let recvBegin := senderPos * numDstPerSender
  let recvEnd := recvBegin + numDstPerSender
  let recvRanks := slice ranksToRecv recvBegin recvEnd
  let remainderStart := ranksToSend.length * numDstPerSender
  let recverPos := remainderStart + senderPos
  if recverPos < ranksToRecv.length then do
    .ok (recvRanks ++ [← pyIndex ranksToRecv recverPos])
  else .ok recvRanks

/-- The sender that `epRank` receives from. -/
def sendRankOf (ranksToSend ranksToRecv : List Nat) (epRank : Nat) : Except PyError Nat := do
  let numDstPerSender ← pyFloorDiv ranksToRecv.length ranksToSend.length
  let recverPos ← pyListIndex ranksToRecv epRank
  let remainderStart := ranksToSend.length * numDstPerSender
  if recverPos < remainderStart then do
    pyIndex ranksToSend (← pyFloorDiv recverPos numDstPerSender)
  else pyIndex ranksToSend (recverPos - remainderStart)

/-- A posted operation on the row of one slot in one tensor. -/
inductive P2POp where
  | isend (tensor slot dst : Nat)
  | irecv (tensor slot src : Nat)
  deriving DecidableEq, Repr

section Rank

variable (numLocalExperts epRank numTensors : Nat) (oldIndices newIndices : List Int)

def isUnchanged : Except PyError (List Bool) :=
  (List.range numLocalExperts).mapM fun i => do
    let old ← pyIndex oldIndices (idxLocalToGlobal i numLocalExperts epRank)
    let new ← pyIndex newIndices (idxLocalToGlobal i numLocalExperts epRank)
    .ok (decide (old = new))

/-- The variables of step 1. -/
structure LocalCopies (V : Type) where
  isReceivedLocally : List Bool
  buffer : Memory V

/-- One pass of the double loop. -/
def copyLocal (weights : Memory V) (src dst : Nat) (s : LocalCopies V) :
    Except PyError (LocalCopies V) := do
  if ← pyIndex s.isReceivedLocally dst then .ok s
  else
    let old ← pyIndex oldIndices (idxLocalToGlobal src numLocalExperts epRank)
    let new ← pyIndex newIndices (idxLocalToGlobal dst numLocalExperts epRank)
    if old = -1 ∨ new = -1 then .ok s
    else if old = new then
      .ok ⟨s.isReceivedLocally.set dst true, Function.update s.buffer dst (weights src)⟩
    else .ok s

def copyLocals (weights buffer : Memory V) (unchanged : List Bool) :
    Except PyError (LocalCopies V) :=
  (List.range numLocalExperts).foldlM (fun s src =>
    (List.range numLocalExperts).foldlM (fun s dst =>
      copyLocal numLocalExperts epRank oldIndices newIndices weights src dst s) s)
    ⟨unchanged, buffer⟩

def expertsSendLoc : Except PyError (Dict Int Nat) :=
  (List.range numLocalExperts).foldlM (fun loc src => do
    let expert ← pyIndex oldIndices (idxLocalToGlobal src numLocalExperts epRank)
    if expert = -1 then .ok loc
    else if (loc.get? expert).isSome then .ok loc
    else .ok (loc.set expert src)) Dict.empty

def expertsRecvLoc (isReceivedLocally : List Bool) : Except PyError (Dict Int Nat) :=
  (List.range numLocalExperts).foldlM (fun loc dst => do
    if ← pyIndex isReceivedLocally dst then .ok loc
    else
      let expert ← pyIndex newIndices (idxLocalToGlobal dst numLocalExperts epRank)
      if expert = -1 then .ok loc
      else if (loc.get? expert).isSome then .ok loc
      else .ok (loc.set expert dst)) Dict.empty

/-- The order of `sorted` on pairs. -/
def itemLe (a b : Int × Nat) : Bool := decide (a.1 < b.1 ∨ a.1 = b.1 ∧ a.2 ≤ b.2)

/-- `sorted(loc.items())`. -/
def sortedItems (loc : Dict Int Nat) : List (Int × Nat) := loc.entries.mergeSort itemLe

def sendsOf (expert : Int) (src : Nat) : Except PyError (List P2POp) := do
  let (ranksToSend, ranksToRecv) ←
    getEpRanksWithExpert expert numLocalExperts oldIndices newIndices
  let recvRanks ← recvRanksOf ranksToSend ranksToRecv epRank
  .ok (recvRanks.flatMap fun dst =>
    (List.range numTensors).map fun tensor => .isend tensor src dst)

def recvsOf (expert : Int) (dst : Nat) : Except PyError (List P2POp) := do
  let (ranksToSend, ranksToRecv) ←
    getEpRanksWithExpert expert numLocalExperts oldIndices newIndices
  let src ← sendRankOf ranksToSend ranksToRecv epRank
  .ok ((List.range numTensors).map fun tensor => .irecv tensor dst src)

/-- A rank between posting its operations and their completion. -/
structure Posted (V : Type) where
  unchanged : List Bool
  isReceivedLocally : List Bool
  recvLoc : Dict Int Nat
  buffer : Memory V
  ops : List P2POp

/-- Steps 0 to 3. -/
def postShuffle (weights buffer : Memory V) : Except PyError (Posted V) := do
  let unchanged ← isUnchanged numLocalExperts epRank oldIndices newIndices
  let copies ←
    copyLocals numLocalExperts epRank oldIndices newIndices weights buffer unchanged
  let sendLoc ← expertsSendLoc numLocalExperts epRank oldIndices
  let sends ← (sortedItems sendLoc).mapM fun (expert, src) =>
    sendsOf numLocalExperts epRank numTensors oldIndices newIndices expert src
  let recvLoc ← expertsRecvLoc numLocalExperts epRank newIndices copies.isReceivedLocally
  let recvs ← (sortedItems recvLoc).mapM fun (expert, dst) =>
    recvsOf numLocalExperts epRank numTensors oldIndices newIndices expert dst
  .ok {
    unchanged
    isReceivedLocally := copies.isReceivedLocally
    recvLoc
    buffer := copies.buffer
    ops := sends.flatten ++ recvs.flatten }

/-- One pass of step 5. -/
def copyBackSlot (posted : Posted V) (buffer weights : Memory V) (dst : Nat) :
    Except PyError (Memory V) := do
  if ← pyIndex posted.unchanged dst then .ok weights
  else if ← pyIndex posted.isReceivedLocally dst then
    .ok (Function.update weights dst (buffer dst))
  else
    let expert ← pyIndex newIndices (idxLocalToGlobal dst numLocalExperts epRank)
    if expert = -1 then .ok weights
    else
      let src ← posted.recvLoc.getItem expert
      .ok (Function.update weights dst (buffer src))

/-- Step 5, once the receives have filled the buffer. -/
def copyBack (posted : Posted V) (weights buffer : Memory V) : Except PyError (Memory V) :=
  (List.range numLocalExperts).foldlM
    (copyBackSlot numLocalExperts epRank newIndices posted buffer) weights

end Rank

/-- The rows posted to rank `dst`, in order. -/
def sentTo (ops : List P2POp) (weights : Memory V) (dst : Nat) : List V :=
  ops.filterMap fun
    | .isend tensor slot peer => if peer = dst then some (weights slot tensor) else none
    | .irecv .. => none

/-- The receives of one rank, each of the oldest row that its sender has in flight to it. A
receive without a row never completes. -/
def receiveAll : List P2POp → (Nat → List V) → Memory V → Option (Memory V × (Nat → List V))
  | [], inFlight, buffer => some (buffer, inFlight)
  | .isend .. :: ops, inFlight, buffer => receiveAll ops inFlight buffer
  | .irecv tensor slot src :: ops, inFlight, buffer =>
    match inFlight src with
    | [] => none
    | row :: rest => receiveAll ops (Function.update inFlight src rest)
        (Function.update buffer slot (Function.update (buffer slot) tensor row))

/-- The buffer of rank `dst` once the batch is through; a row that is never received keeps its
sender waiting. -/
def exchange (numRanks : Nat) (posted : Nat → Posted V) (weights : Nat → Memory V) (dst : Nat) :
    Option (Memory V) :=
  match receiveAll (posted dst).ops (fun src => sentTo (posted src).ops (weights src) dst)
      (posted dst).buffer with
  | none => none
  | some (buffer, inFlight) =>
    if ∀ src < numRanks, (inFlight src).isEmpty = true then some buffer else none

end Eplb
