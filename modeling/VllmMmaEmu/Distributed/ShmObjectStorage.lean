import VllmMmaEmu.Library.Dict

/-!
# The ring buffer for shared objects

`SingleWriterShmRingBuffer` of `vllm/distributed/device_communicators/shm_object_storage.py`,
as its writer sees it: chunks of a shared memory with their id and size in front, and the
metadata from which they are freed in order.
-/

namespace ShmObjectStorage

open Python

inductive ShmError where
  | assertionError
  | valueError
  | memoryError
  | overflowError
  deriving DecidableEq, Repr

/-- The bytes of a shared memory. -/
abbrev Memory := Nat → UInt8

namespace Memory

/-- `buf[start:start + len(bytes)] = bytes`. -/
def write (mem : Memory) (start : Nat) (bytes : List UInt8) : Memory :=
  fun i => if start ≤ i ∧ i < start + bytes.length then bytes.getD (i - start) 0 else mem i

/-- `buf[start:stop]` of a memory of `size` bytes. -/
def read (mem : Memory) (size : Nat) (start stop : Int) : List UInt8 :=
  let first := clampIndex size start
  (List.range' first (clampIndex size stop - first)).map mem

end Memory

def idNBytes : Nat := 4
def sizeNBytes : Nat := 4

/-- The bytes in front of the data of a chunk: four for the id and four for the size. -/
def mdSize : Nat := idNBytes + sizeNBytes

/-- Ids are below this number. -/
def idMax : Nat := 2 ^ 31

/-- `int2byte`: four bytes, little endian and signed. -/
def int2byte (n : Int) : Except ShmError (List UInt8) :=
  if -2 ^ 31 ≤ n ∧ n < 2 ^ 31 then
    let m := (n % 2 ^ 32).toNat
    .ok [UInt8.ofNat m, UInt8.ofNat (m / 2 ^ 8), UInt8.ofNat (m / 2 ^ 16), UInt8.ofNat (m / 2 ^ 24)]
  else .error .overflowError

/-- The unsigned number of little endian bytes. -/
def fromBytes : List UInt8 → Nat
  | [] => 0
  | b :: rest => b.toNat + 2 ^ 8 * fromBytes rest

/-- `byte2int`: little endian and signed, for as many bytes as there are. -/
def byte2int (bytes : List UInt8) : Int :=
  let n := fromBytes bytes
  if 2 * n < 2 ^ (8 * bytes.length) then n else n - 2 ^ (8 * bytes.length)

structure SingleWriterShmRingBuffer where
  dataBufferSize : Nat
  monotonicIdEnd : Nat
  monotonicIdStart : Nat
  dataBufferStart : Int
  dataBufferEnd : Int
  metadata : Dict Nat Int
  sharedMemory : Memory

namespace SingleWriterShmRingBuffer

/-- `__init__` of the writer. Shared memory cannot be empty; a new one is zero. -/
def init (dataBufferSize : Nat) : Except ShmError SingleWriterShmRingBuffer :=
  if dataBufferSize = 0 then .error .valueError
  else .ok {
    dataBufferSize := dataBufferSize
    monotonicIdEnd := 0
    monotonicIdStart := 0
    dataBufferStart := 0
    dataBufferEnd := 0
    metadata := Dict.empty.set 0 0
    sharedMemory := fun _ => 0 }

def clear (r : SingleWriterShmRingBuffer) : SingleWriterShmRingBuffer :=
  { r with
    metadata := Dict.empty
    monotonicIdEnd := 0
    monotonicIdStart := 0
    dataBufferStart := 0
    dataBufferEnd := 0 }

/-- An assignment to a slice; a slice that ends behind the memory is shorter than the bytes. -/
def setSlice (r : SingleWriterShmRingBuffer) (start : Nat) (bytes : List UInt8) :
    Except ShmError SingleWriterShmRingBuffer :=
  if start + bytes.length ≤ r.dataBufferSize then
    .ok { r with sharedMemory := r.sharedMemory.write start bytes }
  else .error .valueError

/-- Where a chunk of `size` bytes with its metadata would start. -/
def bufferEndReset (r : SingleWriterShmRingBuffer) (size : Int) : Int :=
  if r.dataBufferEnd % r.dataBufferSize + size > r.dataBufferSize then
    (r.dataBufferEnd / r.dataBufferSize + 1) * r.dataBufferSize
  else r.dataBufferEnd

/-- The id and the size in front of a chunk. -/
def writeHeader (r : SingleWriterShmRingBuffer) (size : Int) :
    Except (ShmError × SingleWriterShmRingBuffer) SingleWriterShmRingBuffer := do
  let bufIdx := (r.dataBufferEnd % r.dataBufferSize).toNat
  let id ← (int2byte r.monotonicIdEnd).mapError (·, r)
  let r ← (r.setSlice bufIdx id).mapError (·, r)
  let size ← (int2byte size).mapError (·, r)
  (r.setSlice (bufIdx + idNBytes) size).mapError (·, r)

/-- The metadata of a chunk and the pointers behind it. -/
def record (r : SingleWriterShmRingBuffer) (size : Int) : SingleWriterShmRingBuffer :=
  { r with
    metadata := r.metadata.set (r.monotonicIdEnd % idMax) r.dataBufferEnd
    dataBufferEnd := r.dataBufferEnd + size
    monotonicIdEnd := (r.monotonicIdEnd + 1) % idMax }

/-- `allocate_buf`: the address and the id of the chunk with the state afterwards. An
exception comes with the state that it leaves. -/
def allocateBuf (r : SingleWriterShmRingBuffer) (size : Int) :
    Except (ShmError × SingleWriterShmRingBuffer) (Int × Nat × SingleWriterShmRingBuffer) :=
  if size > 0 then
    let size := size + mdSize
    let start := r.bufferEndReset size
    if start + size - r.dataBufferStart > r.dataBufferSize then .error (.memoryError, r)
    else do
      let r := { r with dataBufferEnd := start }
      let written ← r.writeHeader size
      return (r.dataBufferEnd, r.monotonicIdEnd, written.record size)
  else .error (.assertionError, r)

/-- `access_buf`: the data with the id and the size of the chunk. -/
def accessBuf (r : SingleWriterShmRingBuffer) (address : Int) : List UInt8 × Int × Int :=
  let bufIdx := address % r.dataBufferSize
  let metadataBuff := r.sharedMemory.read r.dataBufferSize bufIdx (bufIdx + mdSize)
  let id := byte2int (metadataBuff.take idNBytes)
  let size := byte2int (slice metadataBuff idNBytes mdSize)
  (r.sharedMemory.read r.dataBufferSize (bufIdx + mdSize) (bufIdx + size), id, size)

/-- The loop of `free_buf`; each turn that goes on deletes an entry of the metadata. -/
def freeLoop (isFreeFn : Nat → List UInt8 → Bool) (nbytes : Int) :
    (fuel : Nat) → SingleWriterShmRingBuffer → (freedBytes : Int) → SingleWriterShmRingBuffer
  | 0, r, _ => r
  | fuel + 1, r, freedBytes =>
    match r.metadata.get? r.monotonicIdStart with
    | none => r
    | some address =>
      if freedBytes < nbytes then
        let (dataBuff, _, size) := r.accessBuf address
        if isFreeFn r.monotonicIdStart dataBuff then
          freeLoop isFreeFn nbytes fuel { r with
            metadata := r.metadata.erase r.monotonicIdStart
            monotonicIdStart := (r.monotonicIdStart + 1) % idMax
            dataBufferStart := address } (freedBytes + size)
        else r
      else r

/-- The pointers go back by a lap when the start has passed the end of the buffer. -/
def wrapAround (r : SingleWriterShmRingBuffer) : SingleWriterShmRingBuffer :=
  if r.dataBufferStart ≥ r.dataBufferSize then { r with
    dataBufferStart := r.dataBufferStart - r.dataBufferSize
    dataBufferEnd := r.dataBufferEnd - r.dataBufferSize }
  else r

/-- The ids from `before` on up to `after`, which may have wrapped around. -/
def idRange (before after : Nat) : List Nat :=
  if after ≥ before then List.range' before (after - before)
  else List.range' before (idMax - before) ++ List.range' 0 after

/-- `free_buf`: the ids of the freed chunks. -/
def freeBuf (r : SingleWriterShmRingBuffer) (isFreeFn : Nat → List UInt8 → Bool)
    (nbytes : Option Int) : List Nat × SingleWriterShmRingBuffer :=
  let nbytes := nbytes.getD r.dataBufferSize
  let freed := r.freeLoop isFreeFn nbytes r.metadata.entries.length 0
  (idRange r.monotonicIdStart freed.monotonicIdStart, freed.wrapAround)

end SingleWriterShmRingBuffer

lemma int2byte_spec {n : Int} {bytes : List UInt8} (h : int2byte n = .ok bytes) :
    bytes.length = 4 ∧ byte2int bytes = n := by
  unfold int2byte at h
  split_ifs at h with hrange
  obtain rfl := Except.ok.inj h
  refine ⟨rfl, ?_⟩
  have hsum : fromBytes [UInt8.ofNat (n % 2 ^ 32).toNat, UInt8.ofNat ((n % 2 ^ 32).toNat / 2 ^ 8),
      UInt8.ofNat ((n % 2 ^ 32).toNat / 2 ^ 16), UInt8.ofNat ((n % 2 ^ 32).toNat / 2 ^ 24)] =
      (n % 2 ^ 32).toNat := by
    simp only [fromBytes, UInt8.toNat_ofNat']
    omega
  simp only [byte2int, hsum, List.length_cons, List.length_nil]
  split_ifs <;> omega

lemma int2byte_error {n : Int} {e : ShmError} (h : int2byte n = .error e) : e = .overflowError := by
  unfold int2byte at h
  split_ifs at h
  exact (Except.error.inj h).symm

lemma setSlice_error {r : SingleWriterShmRingBuffer} {start : Nat} {bytes : List UInt8}
    {e : ShmError} (h : r.setSlice start bytes = .error e) : e = .valueError := by
  unfold SingleWriterShmRingBuffer.setSlice at h
  split_ifs at h
  exact (Except.error.inj h).symm

namespace Memory

/-- The bytes stand in the memory from `start` on. -/
def Holds (mem : Memory) (start : Nat) (bytes : List UInt8) : Prop :=
  ∀ i (h : i < bytes.length), mem (start + i) = bytes[i]

variable {mem : Memory} {start : Nat} {bytes : List UInt8}

lemma holds_write (mem : Memory) (start : Nat) (bytes : List UInt8) :
    (mem.write start bytes).Holds start bytes := by
  intro i hi
  rw [write, if_pos ⟨by omega, by omega⟩, Nat.add_sub_cancel_left, List.getD_eq_getElem?_getD,
    List.getElem?_eq_getElem hi, Option.getD_some]

lemma Holds.write_apart (h : mem.Holds start bytes) {other : Nat} {bytes' : List UInt8}
    (hapart : other + bytes'.length ≤ start ∨ start + bytes.length ≤ other) :
    (mem.write other bytes').Holds start bytes := by
  intro i hi
  rw [write, if_neg (by omega)]
  exact h i hi

lemma Holds.append (h : mem.Holds start bytes) {bytes' : List UInt8}
    (h' : mem.Holds (start + bytes.length) bytes') : mem.Holds start (bytes ++ bytes') := by
  intro i hi
  rcases Nat.lt_or_ge i bytes.length with hlt | hge
  · rw [List.getElem_append_left hlt]
    exact h i hlt
  · rw [List.getElem_append_right hge, ← h' (i - bytes.length)
      (by rw [List.length_append] at hi; omega)]
    congr 1
    omega

lemma read_length (mem : Memory) (size : Nat) (start stop : Int) (h₀ : 0 ≤ start)
    (h : start ≤ stop) (hstop : stop ≤ size) :
    (mem.read size start stop).length = (stop - start).toNat := by
  simp only [read, List.length_map, List.length_range', clampIndex_of_nonneg h₀,
    clampIndex_of_nonneg (h₀.trans h)]
  omega

lemma Holds.read (h : mem.Holds start bytes) {size : Nat} {stop : Int}
    (hstop : stop = start + bytes.length) (hsize : stop ≤ size) :
    mem.read size start stop = bytes := by
  have hlength := mem.read_length size start stop (by omega) (by omega) hsize
  refine List.ext_getElem (by omega) fun i _ hi => ?_
  simp only [Memory.read, List.getElem_map, List.getElem_range', one_mul,
    clampIndex_of_nonneg (Int.natCast_nonneg start), Int.toNat_natCast]
  rw [min_eq_left (by omega)]
  exact h i hi

end Memory

end ShmObjectStorage
