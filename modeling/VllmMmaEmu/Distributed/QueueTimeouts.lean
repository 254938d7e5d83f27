import VllmMmaEmu.Distributed.BroadcastRuns
import VllmMmaEmu.Library.Retraction

/-!
# Operations of the broadcast queue that time out

`MessageQueue` of `vllm/distributed/device_communicators/shm_broadcast.py` with local and remote
readers. Every wait of `enqueue` and `dequeue` may end in a timeout or a cancellation.
-/

namespace ShmBroadcast

open Python Retraction Runs

variable {α : Type}

/-- Where a remote reader is in `dequeue`. -/
inductive RemotePc where
  | idle
  | recv
  | raised

structure RemoteReader (α : Type) where
  pc : RemotePc
  socket : List (List UInt8)
  obtained : List α

/-- The shared memory with the local readers, of which `calling` are in a call of `dequeue`,
and the remote readers. The object `remoteSend` has passed the shared memory and is not sent to
the remote readers. -/
structure MessageQueue (α : Type) where
  shm : State α
  calling : Nat → Bool
  nRemoteReader : Nat
  remoteSend : Option α
  remotes : Nat → RemoteReader α

inductive QueueEvent (α : Type) where
  | enqueue (obj : α)
  | writer
  /-- The time is over at a chunk that is not free. -/
  | writerTimeout
  | dequeue (r : Nat)
  | reader (r : Nat)
  /-- The time is over, or the call is cancelled, at a chunk that is not ready. -/
  | readTimeout (r : Nat)
  /-- The time is over at the socket, for an object that does not fit into a chunk. -/
  | recvTimeout (r : Nat)
  | remoteDequeue (r : Nat)
  | remote (r : Nat)
  | remoteTimeout (r : Nat)

/-- Its step ends the call of `dequeue`. -/
def ReaderPc.last : ReaderPc α → Bool
  | .mark (some _) | .recv => true
  | .checkRead | .checkWritten _ | .first | .data | .mark none | .raised => false

namespace MessageQueue

variable (pickle : Pickle α)

/-- What `self.buffer` stands for without local readers. -/
def noBuffer : ShmRingBuffer := ⟨0, 0, 0, fun _ => [], fun _ _ => false⟩

/-- `__init__` of the writer, when all readers are connected. -/
def create (nReader nLocalReader maxChunkBytes maxChunks : Nat) :
    Except PyError (MessageQueue α) := do
  let buffer ← if nLocalReader > 0 then ShmRingBuffer.create nLocalReader maxChunkBytes maxChunks
    else .ok noBuffer
  return {
    shm := State.start buffer
    calling := fun _ => false
    nRemoteReader := nReader - nLocalReader
    remoteSend := none
    remotes := fun _ => ⟨.idle, [], []⟩ }

def setRemote (q : MessageQueue α) (r : Nat) (reader : RemoteReader α) : MessageQueue α :=
  { q with remotes := Function.update q.remotes r reader }

/-- The object of a call whose part for the local readers is over with the last step. -/
def passed (s s' : State α) : Option α :=
  match s.writer, s'.writer with
  | .reset obj _, .idle | .send obj, .idle => some obj
  | _, _ => none

/-- The part of `enqueue` for the remote readers is next. -/
def toRemote (q : MessageQueue α) (obj : α) : MessageQueue α :=
  { q with remoteSend := if q.nRemoteReader > 0 then some obj else none }

/-- After a step of the writer for the local readers. -/
def continueWith (q : MessageQueue α) (s : State α) : MessageQueue α :=
  match passed q.shm s with
  | some obj => toRemote { q with shm := s } obj
  | none => { q with shm := s }

/-- A step of the writer in `enqueue`. -/
def writerStep (q : MessageQueue α) : Option (MessageQueue α) :=
  match q.shm.writer with
  | .idle => q.remoteSend.map fun obj => { q with
      remoteSend := none
      remotes := fun r => { q.remotes r with
        socket := (q.remotes r).socket ++ [pickle.dumps obj] } }
  | _ => (q.shm.writerStep pickle).map q.continueWith

/-- `TimeoutError` of `acquire_write`, which ends `enqueue`: the log `called` keeps the calls
that do not fail. -/
def writerTimeout (q : MessageQueue α) : Option (MessageQueue α) :=
  match q.shm.writer with
  | .count _ i readCount =>
    if ¬ i < q.shm.buffer.nReader ∧ q.shm.buffer.metadata q.shm.currentIdx 0 ∧
        readCount ≠ q.shm.buffer.nReader then
      some { q with shm := { q.shm with writer := .idle, called := q.shm.called.dropLast } }
    else none
  | _ => none

/-- The end of `dequeue` by an exception, which its next call starts after. -/
def giveUp (q : MessageQueue α) (r : Nat) : MessageQueue α :=
  { q with
    shm := q.shm.setReader r { q.shm.readers r with pc := .checkRead }
    calling := Function.update q.calling r false }

/-- A step of a local reader in `dequeue`. -/
def readerStep (q : MessageQueue α) (r : Nat) : Option (MessageQueue α) :=
  if q.calling r then
    (q.shm.readerStep pickle r).map fun s => { q with
      shm := s
      calling := Function.update q.calling r (!(q.shm.readers r).pc.last) }
  else none

/-- `TimeoutError` or the cancellation in `acquire_read`. -/
def readTimeout (q : MessageQueue α) (r : Nat) : Option (MessageQueue α) :=
  match (q.shm.readers r).pc with
  | .checkWritten readFlag =>
    if q.calling r ∧ (!q.shm.buffer.metadata (q.shm.readers r).currentIdx 0 || readFlag) then
      some (q.giveUp r)
    else none
  | _ => none

/-- `TimeoutError` of `recv` on the local socket. -/
def recvTimeout (q : MessageQueue α) (r : Nat) : Option (MessageQueue α) :=
  match (q.shm.readers r).pc, (q.shm.readers r).socket with
  | .recv, [] => if q.calling r then some (q.giveUp r) else none
  | _, _ => none

/-- The only step of a remote reader in `dequeue`. -/
def remoteStep (q : MessageQueue α) (r : Nat) : Option (MessageQueue α) :=
  let reader := q.remotes r
  match reader.pc, reader.socket with
  | .recv, message :: rest => match pickle.loads message with
    | none => some (q.setRemote r { reader with pc := .raised, socket := rest })
    | some obj => some (q.setRemote r ⟨.idle, rest, reader.obtained ++ [obj]⟩)
  | _, _ => none

def step (q : MessageQueue α) : QueueEvent α → Option (MessageQueue α)
  | .enqueue obj => match q.remoteSend with
    | some _ => none
    | none => (q.shm.step pickle (.enqueue obj)).map fun s =>
      if q.shm.buffer.nReader > 0 then { q with shm := s } else toRemote { q with shm := s } obj
  | .writer => q.writerStep pickle
  | .writerTimeout => q.writerTimeout
  | .dequeue r =>
    match (q.shm.readers r).pc with
    | .checkRead =>
      if r < q.shm.buffer.nReader ∧ !q.calling r then
        some { q with calling := Function.update q.calling r true }
      else none
    | _ => none
  | .reader r => q.readerStep pickle r
  | .readTimeout r => q.readTimeout r
  | .recvTimeout r => q.recvTimeout r
  | .remoteDequeue r =>
    match (q.remotes r).pc with
    | .idle =>
      if r < q.nRemoteReader then some (q.setRemote r { q.remotes r with pc := .recv }) else none
    | _ => none
  | .remote r => q.remoteStep pickle r
  | .remoteTimeout r =>
    match (q.remotes r).pc, (q.remotes r).socket with
    | .recv, [] => some (q.setRemote r { q.remotes r with pc := .idle })
    | _, _ => none

end MessageQueue

inductive Party where
  | writer
  | reader (r : Nat)
  | remote (r : Nat)
  deriving DecidableEq

namespace QueueEvent

def party : QueueEvent α → Party
  | .enqueue _ | .writer | .writerTimeout => .writer
  | .dequeue r | .reader r | .readTimeout r | .recvTimeout r => .reader r
  | .remoteDequeue r | .remote r | .remoteTimeout r => .remote r

def stage : QueueEvent α → Stage
  | .enqueue _ | .dequeue _ | .remoteDequeue _ => .call
  | .writer | .reader _ | .remote _ => .inside
  | .writerTimeout | .readTimeout _ | .recvTimeout _ | .remoteTimeout _ => .failure

/-- The object of a call of `enqueue`. -/
def object? : QueueEvent α → Option α
  | .enqueue obj => some obj
  | _ => none

/-- Not a timeout at the socket of a local reader. -/
def Allowed : QueueEvent α → Prop
  | .recvTimeout _ => False
  | _ => True

end QueueEvent

end ShmBroadcast
