import Mathlib.Logic.Function.Basic
import VllmMmaEmu.Library.Python

/-!
# The broadcast queue in shared memory

`ShmRingBuffer` and the `enqueue` and `dequeue` of `MessageQueue` in
`vllm/distributed/device_communicators/shm_broadcast.py` for local readers without timeouts.
Every step of the writer or of a reader makes one access to what they share.
-/

namespace ShmBroadcast

open Python

/-- The functions of the module `pickle` on the objects that are sent. -/
structure Pickle (α : Type) where
  dumps : α → List UInt8
  loads : List UInt8 → Option α

/-- The bytes after a pickle are ignored. -/
def Pickle.IgnoresRest {α : Type} (pickle : Pickle α) : Prop :=
  ∀ obj rest, pickle.loads (pickle.dumps obj ++ rest) = some obj

/-- A chunk has its data and, as metadata, the written flag and a flag for each reader. -/
structure ShmRingBuffer where
  nReader : Nat
  maxChunkBytes : Nat
  maxChunks : Nat
  data : Nat → List UInt8
  metadata : Nat → Nat → Bool

namespace ShmRingBuffer

/-- `__init__` of the creator. Shared memory cannot be empty; a new one is zero. -/
def create (nReader maxChunkBytes maxChunks : Nat) : Except PyError ShmRingBuffer :=
  if (maxChunkBytes + (1 + nReader)) * maxChunks = 0 then
    .error (.valueError "'size' must be a positive number different from zero")
  else .ok {
    nReader := nReader
    maxChunkBytes := maxChunkBytes
    maxChunks := maxChunks
    data := fun _ => List.replicate maxChunkBytes 0
    metadata := fun _ _ => false }

def setData (b : ShmRingBuffer) (c : Nat) (bytes : List UInt8) : ShmRingBuffer :=
  { b with data := Function.update b.data c bytes }

def setFlag (b : ShmRingBuffer) (c i : Nat) (flag : Bool) : ShmRingBuffer :=
  { b with metadata := Function.update b.metadata c (Function.update (b.metadata c) i flag) }

end ShmRingBuffer

/-- Where the writer is in `enqueue` and `acquire_write`. -/
inductive WriterPc (α : Type) where
  | idle
  /-- Before the read flag of reader `i`, or before the written flag after the last one. -/
  | count (obj : α) (i readCount : Nat)
  | clear (obj : α)
  | first (obj : α)
  | data (obj : α)
  /-- Before the reset of the flag of reader `i`, or before the written flag is set. -/
  | reset (obj : α) (i : Nat)
  | send (obj : α)

/-- Where a reader is in `dequeue` and `acquire_read`; a reader between two calls is before
its next one. An object with a mark is `none` when it comes through the socket. -/
inductive ReaderPc (α : Type) where
  | checkRead
  | checkWritten (readFlag : Bool)
  | first
  | data
  | mark (obj : Option α)
  | recv
  | raised

structure Reader (α : Type) where
  currentIdx : Nat
  pc : ReaderPc α
  /-- The messages that the reader's socket has received and not given out. -/
  socket : List (List UInt8)
  obtained : List α

/-- `called` are the objects of the calls of `enqueue`, `enqueued` those whose chunks were
marked as written. -/
structure State (α : Type) where
  buffer : ShmRingBuffer
  writer : WriterPc α
  currentIdx : Nat
  readers : Nat → Reader α
  called : List α
  enqueued : List α

namespace State

variable {α : Type}

def start (buffer : ShmRingBuffer) : State α where
  buffer := buffer
  writer := .idle
  currentIdx := 0
  readers := fun _ => ⟨0, .checkRead, [], []⟩
  called := []
  enqueued := []

/-- The object does not fit into a chunk. -/
def overflows (pickle : Pickle α) (s : State α) (obj : α) : Bool :=
  (pickle.dumps obj).length ≥ s.buffer.maxChunkBytes

def setReader (s : State α) (r : Nat) (reader : Reader α) : State α :=
  { s with readers := Function.update s.readers r reader }

/-- The next step of the writer in `enqueue`. -/
def writerStep (pickle : Pickle α) (s : State α) : Option (State α) :=
  match s.writer with
  | .idle => none
  | .count obj i readCount =>
    if i < s.buffer.nReader then
      let flag := s.buffer.metadata s.currentIdx (i + 1)
      some { s with writer := .count obj (i + 1) (readCount + flag.toNat) }
    else if s.buffer.metadata s.currentIdx 0 ∧ readCount ≠ s.buffer.nReader then
      some { s with writer := .count obj 0 0 }
    else some { s with writer := .clear obj }
  | .clear obj =>
    some { s with writer := .first obj, buffer := s.buffer.setFlag s.currentIdx 0 false }
  | .first obj =>
    match s.buffer.data s.currentIdx with
    | [] => some { s with writer := .idle }  -- the index error ends the call
    | _ :: bytes =>
      if s.overflows pickle obj then
        some { s with
          writer := .reset obj 0
          buffer := s.buffer.setData s.currentIdx (1 :: bytes) }
      else
        some { s with
          writer := .data obj
          buffer := s.buffer.setData s.currentIdx (0 :: bytes) }
  | .data obj =>
    let bytes := s.buffer.data s.currentIdx
    let serialized := pickle.dumps obj
    some { s with
      writer := .reset obj 0
      buffer := s.buffer.setData s.currentIdx
        (bytes.take 1 ++ serialized ++ bytes.drop (serialized.length + 1)) }
  | .reset obj i =>
    if i < s.buffer.nReader then
      some { s with
        writer := .reset obj (i + 1)
        buffer := s.buffer.setFlag s.currentIdx (i + 1) false }
    else
      some { s with
        writer := if s.overflows pickle obj then .send obj else .idle
        buffer := s.buffer.setFlag s.currentIdx 0 true
        currentIdx := (s.currentIdx + 1) % s.buffer.maxChunks
        enqueued := s.enqueued ++ [obj] }
  | .send obj =>
    some { s with
      writer := .idle
      readers := fun r => { s.readers r with
        socket := (s.readers r).socket ++ [pickle.dumps obj] } }

/-- The next step of a reader in `dequeue`; a reader waits at an empty socket. -/
def readerStep (pickle : Pickle α) (s : State α) (r : Nat) : Option (State α) :=
  let reader := s.readers r
  match reader.pc with
  | .checkRead =>
    let flag := s.buffer.metadata reader.currentIdx (r + 1)
    some (s.setReader r { reader with pc := .checkWritten flag })
  | .checkWritten readFlag =>
    let written := s.buffer.metadata reader.currentIdx 0
    if !written || readFlag then some (s.setReader r { reader with pc := .checkRead })
    else some (s.setReader r { reader with pc := .first })
  | .first =>
    match s.buffer.data reader.currentIdx with
    | [] => some (s.setReader r { reader with pc := .raised })
    | b :: _ =>
      some (s.setReader r { reader with pc := if b = 1 then .mark none else .data })
  | .data =>
    match pickle.loads ((s.buffer.data reader.currentIdx).drop 1) with
    | none => some (s.setReader r { reader with pc := .raised })
    | some obj => some (s.setReader r { reader with pc := .mark (some obj) })
  | .mark obj =>
    let marked := { s with buffer := s.buffer.setFlag reader.currentIdx (r + 1) true }
    let reader := { reader with currentIdx := (reader.currentIdx + 1) % s.buffer.maxChunks }
    match obj with
    | some obj => some (marked.setReader r { reader with
        pc := .checkRead
        obtained := reader.obtained ++ [obj] })
    | none => some (marked.setReader r { reader with pc := .recv })
  | .recv =>
    match reader.socket with
    | [] => none
    | message :: rest =>
      match pickle.loads message with
      | none => some (s.setReader r { reader with pc := .raised, socket := rest })
      | some obj => some (s.setReader r { reader with
          pc := .checkRead
          socket := rest
          obtained := reader.obtained ++ [obj] })
  | .raised => none

end State

inductive Event (α : Type) where
  /-- A call of `enqueue`. -/
  | enqueue (obj : α)
  | writer
  | reader (r : Nat)

namespace State

variable {α : Type}

def step (pickle : Pickle α) (s : State α) : Event α → Option (State α)
  | .enqueue obj => match s.writer with
    | .idle => some { s with
        writer := if s.buffer.nReader > 0 then .count obj 0 0 else .idle
        called := s.called ++ [obj] }
    | _ => none
  | .writer => s.writerStep pickle
  | .reader r => if r < s.buffer.nReader then s.readerStep pickle r else none

end State

end ShmBroadcast
