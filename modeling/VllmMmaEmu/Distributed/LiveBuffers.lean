import VllmMmaEmu.Distributed.ShmObjectStorage
import VllmMmaEmu.Library.CircularBuffer
import VllmMmaEmu.Library.Runs

/-!
# The live buffers of the shared ring buffer

A session is a ring buffer with what its user knows: the buffers that were allocated and not
reported as freed. The recorded addresses of the buffers do not go back with the pointers, so
a buffer is recorded either at its address or one lap ahead of it.
-/

namespace ShmObjectStorage

open Python CircularBuffer

/-- An allocated buffer as `allocate_buf` returned it, with the size that was asked for. -/
structure Chunk where
  address : Int
  id : Nat
  size : Nat
  deriving DecidableEq, Repr

/-- The bytes of the buffer with its metadata. -/
def Chunk.interval (c : Chunk) : Interval := (c.address, c.size + mdSize)

/-- Where a buffer is that was recorded before the pointers went back. -/
def Chunk.lapBefore (size : Int) (c : Chunk) : Interval := (c.address - size, c.size + mdSize)

/-- `allocated` and `reported` are the ids since the start or the last `clear`; `unused` says
that nothing was allocated or cleared yet. -/
structure Session where
  ring : SingleWriterShmRingBuffer
  live : List Chunk
  allocated : List Nat
  reported : List Nat
  unused : Bool

inductive Op where
  | allocate (size : Int)
  | free (isFreeFn : Nat → List UInt8 → Bool) (nbytes : Option Int)
  | clear
  /-- The user writes into the data of a buffer. -/
  | fill (chunk : Chunk) (offset : Nat) (bytes : List UInt8)

namespace Session

def start (ring : SingleWriterShmRingBuffer) : Session where
  ring := ring
  live := []
  allocated := []
  reported := []
  unused := true

def step (s : Session) : Op → Except ShmError Session
  | .allocate size => match s.ring.allocateBuf size with
    | .ok (address, id, ring) => .ok { s with
        ring := ring
        live := s.live ++ [⟨address, id, size.toNat⟩]
        allocated := s.allocated ++ [id]
        unused := false }
    | .error (.memoryError, ring) => .ok { s with ring := ring }
    | .error (e, _) => .error e
  | .free isFreeFn nbytes =>
    let (ids, ring) := s.ring.freeBuf isFreeFn nbytes
    .ok { s with
      ring := ring
      live := s.live.filter fun c => c.id ∉ ids
      reported := s.reported ++ ids }
  | .clear => .ok { start s.ring.clear with unused := false }
  | .fill chunk offset bytes =>
    let first := (chunk.address % s.ring.dataBufferSize).toNat + mdSize + offset
    .ok { s with ring := { s.ring with
      sharedMemory := s.ring.sharedMemory.write first bytes } }

/-- The user writes only into the data of live buffers. -/
def Fills (s : Session) : Op → Prop
  | .fill chunk offset bytes => chunk ∈ s.live ∧ offset + bytes.length ≤ chunk.size
  | .allocate _ | .free _ _ | .clear => True

/-- The property: live buffers are inside the buffer and apart, their metadata is intact, the
reported ids are the first allocated ones, and a memory error changes nothing. -/
structure Intact (s : Session) : Prop where
  inside : ∀ c ∈ s.live, Inside s.ring.dataBufferSize c.interval
  apart : s.live.Pairwise fun c c' => Apart s.ring.dataBufferSize c.interval c'.interval
  access : ∀ c ∈ s.live, (s.ring.accessBuf c.address).1.length = c.size ∧
    (s.ring.accessBuf c.address).2.1 = c.id
  order : s.reported ++ s.live.map (·.id) = s.allocated
  memoryError : ∀ size ring, s.ring.allocateBuf size = .error (.memoryError, ring) → ring = s.ring

/-- The buffers that a call of `free_buf` is to free: from the oldest on, while readers are
done with them and fewer than `nbytes` bytes are freed. -/
def toFree (view : Int → List UInt8) (isFreeFn : Nat → List UInt8 → Bool) (nbytes : Int) :
    Int → List Chunk → List Chunk
  | _, [] => []
  | freedBytes, c :: rest =>
    if freedBytes < nbytes ∧ isFreeFn c.id (view c.address) = true then
      c :: toFree view isFreeFn nbytes (freedBytes + (c.size + mdSize : Nat)) rest
    else []

/-- The buffers that a call of `free_buf` is to free in this state. -/
def freedBy (s : Session) (isFreeFn : Nat → List UInt8 → Bool) (nbytes : Option Int) : List Chunk :=
  toFree (fun a => (s.ring.accessBuf a).1) isFreeFn (nbytes.getD s.ring.dataBufferSize) 0 s.live

/-- What the ring buffer copes with: ids do not run out, the entry that the new buffer starts
with is not freed, and the last buffer that a call frees was allocated after the pointers last
went back, so that its recorded address is before `data_buffer_end`. -/
def Copes (s : Session) : Op → Prop
  | .allocate _ => s.live.length < idMax
  | .free isFreeFn nbytes =>
    (s.unused = true → nbytes.getD s.ring.dataBufferSize ≤ 0 ∨ isFreeFn 0 [] = false) ∧
    (s.freedBy isFreeFn nbytes).length < idMax ∧
    ∀ c ∈ (s.freedBy isFreeFn nbytes).getLast?, c.address < s.ring.dataBufferEnd
  | .clear | .fill _ _ _ => True

abbrev ReachedBy (dataBufferSize : Nat) (allowed : Session → Op → Prop) : Session → Prop :=
  Runs.Reached
    (fun s => ∃ ring, SingleWriterShmRingBuffer.init dataBufferSize = .ok ring ∧ s = start ring)
    allowed fun s op s' => s.step op = .ok s'

/-- The id and the size of a live buffer stand in front of its data. -/
def HeaderOk (ring : SingleWriterShmRingBuffer) (c : Chunk) : Prop :=
  ∃ id size, int2byte c.id = .ok id ∧ int2byte (c.size + mdSize : Nat) = .ok size ∧
    ring.sharedMemory.Holds (c.address % ring.dataBufferSize).toNat (id ++ size)

/-- The window of the pointers: buffers recorded before the pointers went back, then those
recorded since. -/
structure Placed (ring : SingleWriterShmRingBuffer) (old recent : List Chunk) : Prop where
  laid : Laid ring.dataBufferSize ring.dataBufferStart
    (old.map (·.lapBefore ring.dataBufferSize) ++ recent.map (·.interval)) ring.dataBufferEnd
  window : ring.dataBufferEnd ≤ ring.dataBufferStart + ring.dataBufferSize
  start_lt : ring.dataBufferStart < ring.dataBufferSize

/-- The ids of the live buffers are those from `monotonic_id_start` on to `monotonic_id_end`. -/
structure Numbered (ring : SingleWriterShmRingBuffer) (live : List Chunk) : Prop where
  ids : live.map (·.id) = (List.range live.length).map fun k => (ring.monotonicIdStart + k) % idMax
  idEnd : ring.monotonicIdEnd = (ring.monotonicIdStart + live.length) % idMax
  idStart_lt : ring.monotonicIdStart < idMax
  room : live.length ≤ idMax

/-- The metadata has the live buffers. -/
def Recorded (ring : SingleWriterShmRingBuffer) (live : List Chunk) : Prop :=
  ∀ k a, ring.metadata.get? k = some a ↔ ∃ c ∈ live, c.id = k ∧ c.address = a

structure Kept (s : Session) : Prop where
  size : 0 < s.ring.dataBufferSize
  placed : ∃ old recent, s.live = old ++ recent ∧ Placed s.ring old recent
  numbered : Numbered s.ring s.live
  recorded : s.unused = false → Recorded s.ring s.live
  new : s.unused = true →
    s.live = [] ∧ SingleWriterShmRingBuffer.init s.ring.dataBufferSize = .ok s.ring
  headers : ∀ c ∈ s.live, HeaderOk s.ring c
  order : s.reported ++ s.live.map (·.id) = s.allocated

section

variable {ring : SingleWriterShmRingBuffer} {old recent live : List Chunk} {c : Chunk}

lemma lapBefore_emod (size : Int) (c : Chunk) :
    (c.lapBefore size).1 % size = c.address % size := by
  simp [Chunk.lapBefore]

lemma Placed.inside (h : Placed ring old recent) (hc : c ∈ old ++ recent) :
    Inside ring.dataBufferSize c.interval := by
  rcases List.mem_append.mp hc with hc | hc
  · have hmem := h.laid.mem (List.mem_append_left _ (List.mem_map_of_mem hc))
    have hinside := hmem.2.2.1
    rwa [Inside, lapBefore_emod] at hinside
  · exact (h.laid.mem (List.mem_append_right _ (List.mem_map_of_mem hc))).2.2.1

lemma Placed.apart (h : Placed ring old recent) (hsize : 0 < ring.dataBufferSize) :
    (old ++ recent).Pairwise fun c c' => Apart ring.dataBufferSize c.interval c'.interval := by
  have hlaid := h.laid.pairwise_apart (by exact_mod_cast hsize) h.window
  rw [List.pairwise_append, List.pairwise_map, List.pairwise_map] at hlaid
  obtain ⟨hold, hrecent, hcross⟩ := hlaid
  refine List.pairwise_append.mpr ⟨hold.imp fun {c c'} hapart => ?_, hrecent, ?_⟩
  · rwa [Apart, lapBefore_emod, lapBefore_emod] at hapart
  · intro c hc c' hc'
    have hapart := hcross _ (List.mem_map_of_mem hc) _ (List.mem_map_of_mem hc')
    rwa [Apart, lapBefore_emod] at hapart

/-- A buffer whose recorded address is before the end was recorded since the pointers last
went back. -/
lemma Placed.not_old (h : Placed ring old recent) (hc : c.address < ring.dataBufferEnd) :
    c ∉ old := by
  intro hmem
  have hstart := (h.laid.mem (List.mem_append_left _ (List.mem_map_of_mem hmem))).1
  have hwindow := h.window
  simp only [Chunk.lapBefore] at hstart
  omega

lemma HeaderOk.accessBuf (h : HeaderOk ring c) (hsize : 0 < ring.dataBufferSize)
    (hinside : Inside ring.dataBufferSize c.interval) :
    (ring.accessBuf c.address).1.length = c.size ∧ (ring.accessBuf c.address).2.1 = c.id ∧
      (ring.accessBuf c.address).2.2 = (c.size + mdSize : Nat) := by
  obtain ⟨id, size, hid, hsizeBytes, hholds⟩ := h
  obtain ⟨hidLength, hidValue⟩ := int2byte_spec hid
  obtain ⟨hsizeLength, hsizeValue⟩ := int2byte_spec hsizeBytes
  have hpos := Int.emod_nonneg c.address (by omega : (ring.dataBufferSize : Int) ≠ 0)
  have hend : c.address % ring.dataBufferSize + (c.size + mdSize : Nat) ≤ ring.dataBufferSize :=
    hinside
  have hmd : mdSize = 8 := rfl
  have hread : ring.sharedMemory.read ring.dataBufferSize (c.address % ring.dataBufferSize)
      (c.address % ring.dataBufferSize + mdSize) = id ++ size := by
    have hstart : ((c.address % ring.dataBufferSize).toNat : Int) =
        c.address % ring.dataBufferSize := Int.toNat_of_nonneg hpos
    rw [← hstart]
    refine hholds.read ?_ ?_
    · rw [List.length_append, hidLength, hsizeLength, hmd]
    · omega
  have htake : (id ++ size).take idNBytes = id := by
    rw [idNBytes, List.take_append_of_le_length hidLength.ge, List.take_of_length_le hidLength.le]
  have hslice : slice (id ++ size) idNBytes mdSize = size := by
    rw [slice, idNBytes, List.drop_append_of_le_length hidLength.ge,
      List.drop_of_length_le hidLength.le, List.nil_append,
      List.take_of_length_le (by rw [hsizeLength]; rfl)]
  simp only [SingleWriterShmRingBuffer.accessBuf, hread, htake, hslice, hidValue, hsizeValue,
    and_true]
  rw [Memory.read_length _ _ _ _ (by omega) (by omega) (by omega)]
  omega

lemma Numbered.nodup (h : Numbered ring live) : (live.map (·.id)).Nodup := by
  rw [h.ids]
  refine List.nodup_range.map_on fun k hk k' hk' heq => ?_
  have hroom := h.room
  simp only [List.mem_range, idMax] at hk hk' hroom heq
  omega

lemma Numbered.id_ne (h : Numbered ring live) (hroom : live.length < idMax) (hc : c ∈ live) :
    c.id ≠ ring.monotonicIdEnd := by
  have hmem : c.id ∈ live.map (·.id) := List.mem_map_of_mem hc
  rw [h.ids] at hmem
  obtain ⟨k, hk, heq⟩ := List.mem_map.mp hmem
  rw [← heq, h.idEnd]
  simp only [List.mem_range, idMax] at hk hroom ⊢
  omega

end

lemma mapError_eq_error {α ε ε' : Type} {x : Except ε α} {f : ε → ε'} {e : ε'}
    (h : x.mapError f = .error e) : ∃ e', x = .error e' ∧ f e' = e := by
  cases x with
  | error e' => exact ⟨e', rfl, Except.error.inj h⟩
  | ok a => cases h

lemma bind_eq_error {α β ε : Type} {x : Except ε α} {f : α → Except ε β} {e : ε}
    (h : (x >>= f) = .error e) : x = .error e ∨ ∃ a, x = .ok a ∧ f a = .error e := by
  cases x with
  | error e' => exact Or.inl (congrArg Except.error (Except.error.inj h))
  | ok a => exact Or.inr ⟨a, rfl, h⟩

lemma writeHeader_error {r r' : SingleWriterShmRingBuffer} {size : Int} {e : ShmError}
    (h : r.writeHeader size = .error (e, r')) : e = .overflowError ∨ e = .valueError := by
  rcases bind_eq_error h with h | ⟨id, -, h⟩
  · obtain ⟨e', herror, heq⟩ := mapError_eq_error h
    exact Or.inl ((Prod.mk.inj heq).1 ▸ int2byte_error herror)
  rcases bind_eq_error h with h | ⟨r₁, -, h⟩
  · obtain ⟨e', herror, heq⟩ := mapError_eq_error h
    exact Or.inr ((Prod.mk.inj heq).1 ▸ setSlice_error herror)
  rcases bind_eq_error h with h | ⟨bytes, -, h⟩
  · obtain ⟨e', herror, heq⟩ := mapError_eq_error h
    exact Or.inl ((Prod.mk.inj heq).1 ▸ int2byte_error herror)
  · obtain ⟨e', herror, heq⟩ := mapError_eq_error h
    exact Or.inr ((Prod.mk.inj heq).1 ▸ setSlice_error herror)

lemma allocateBuf_memoryError {r r' : SingleWriterShmRingBuffer} {size : Int}
    (h : r.allocateBuf size = .error (.memoryError, r')) : r' = r := by
  simp only [SingleWriterShmRingBuffer.allocateBuf] at h
  split_ifs at h with hpos hfull
  · exact (Prod.mk.inj (Except.error.inj h)).2.symm
  · rcases bind_eq_error h with herror | ⟨r₁, -, hret⟩
    · rcases writeHeader_error herror with hcase | hcase <;> cases hcase
    · cases hret
  · cases (Prod.mk.inj (Except.error.inj h)).1

lemma Kept.intact {s : Session} (h : s.Kept) : s.Intact := by
  obtain ⟨old, recent, hlive, hplaced⟩ := h.placed
  constructor
  · exact fun c hc => hplaced.inside (hlive ▸ hc)
  · rw [hlive]
    exact hplaced.apart h.size
  · intro c hc
    obtain ⟨hdata, hid, -⟩ := (h.headers c hc).accessBuf h.size (hplaced.inside (hlive ▸ hc))
    exact ⟨hdata, hid⟩
  · exact h.order
  · exact fun size ring herror => allocateBuf_memoryError herror

/-- What a successful `allocate_buf` has checked and done. -/
structure Allocates (r r' : SingleWriterShmRingBuffer) (n : Nat) (address : Int)
    (id size : List UInt8) : Prop where
  start : address = r.bufferEndReset n
  room : address + n ≤ r.dataBufferStart + r.dataBufferSize
  idBytes : int2byte r.monotonicIdEnd = .ok id
  sizeBytes : int2byte n = .ok size
  state : r' = { r with
    sharedMemory := (r.sharedMemory.write (address % r.dataBufferSize).toNat id).write
      ((address % r.dataBufferSize).toNat + idNBytes) size
    metadata := r.metadata.set (r.monotonicIdEnd % idMax) address
    dataBufferEnd := address + n
    monotonicIdEnd := (r.monotonicIdEnd + 1) % idMax }

lemma mapError_eq_ok {α ε ε' : Type} {x : Except ε α} {f : ε → ε'} {a : α}
    (h : x.mapError f = .ok a) : x = .ok a := by
  cases x with
  | error e => cases h
  | ok b => exact congrArg Except.ok (Except.ok.inj h)

lemma setSlice_eq_ok {r r' : SingleWriterShmRingBuffer} {start : Nat} {bytes : List UInt8}
    (h : r.setSlice start bytes = .ok r') :
    r' = { r with sharedMemory := r.sharedMemory.write start bytes } := by
  unfold SingleWriterShmRingBuffer.setSlice at h
  split_ifs at h
  exact (Except.ok.inj h).symm

lemma allocateBuf_eq_ok {r r' : SingleWriterShmRingBuffer} {size address : Int} {i : Nat}
    (h : r.allocateBuf size = .ok (address, i, r')) :
    0 < size ∧ i = r.monotonicIdEnd ∧
      ∃ id bytes, Allocates r r' (size.toNat + mdSize) address id bytes := by
  simp only [SingleWriterShmRingBuffer.allocateBuf] at h
  split_ifs at h with hpos hfull
  have hsize : size + mdSize = (size.toNat + mdSize : Nat) := by omega
  rw [hsize] at h hfull
  obtain ⟨written, hwrite, hret⟩ := bind_eq_ok.mp h
  obtain ⟨haddress, hrest⟩ := Prod.mk.inj (Except.ok.inj hret)
  obtain ⟨hi, hr'⟩ := Prod.mk.inj hrest
  simp only [SingleWriterShmRingBuffer.writeHeader] at hwrite
  obtain ⟨id, hid, hwrite⟩ := bind_eq_ok.mp hwrite
  obtain ⟨r₁, hset, hwrite⟩ := bind_eq_ok.mp hwrite
  obtain ⟨bytes, hbytes, hwrite⟩ := bind_eq_ok.mp hwrite
  have hr₁ := setSlice_eq_ok (mapError_eq_ok hset)
  have hr₂ := setSlice_eq_ok (mapError_eq_ok hwrite)
  subst hr₁ hr₂ haddress
  exact ⟨hpos, hi.symm, id, bytes, rfl, by omega, mapError_eq_ok hid, mapError_eq_ok hbytes,
    hr'.symm⟩

lemma bufferEndReset_spec {r : SingleWriterShmRingBuffer} (hsize : 0 < r.dataBufferSize) {n : Nat}
    (hn : n ≤ r.dataBufferSize) :
    r.dataBufferEnd ≤ r.bufferEndReset n ∧ Inside r.dataBufferSize (r.bufferEndReset n, n) := by
  have hpos : (0 : Int) < r.dataBufferSize := by exact_mod_cast hsize
  unfold SingleWriterShmRingBuffer.bufferEndReset
  split_ifs with hover
  · have hlt := Int.lt_ediv_add_one_mul_self r.dataBufferEnd hpos
    refine ⟨hlt.le, ?_⟩
    simp only [Inside, Int.mul_emod_left, zero_add]
    exact_mod_cast hn
  · exact ⟨le_rfl, not_lt.mp hover⟩

section

variable {r r' : SingleWriterShmRingBuffer} {n : Nat} {address : Int} {id size : List UInt8}
  {old recent live : List Chunk}

lemma Allocates.placed (h : Allocates r r' n address id size) (hsize : 0 < r.dataBufferSize)
    (hplaced : Placed r old recent) {c : Chunk} (haddress : c.address = address)
    (hn : c.size + mdSize = n) : Placed r' old (recent ++ [c]) := by
  have hle := hplaced.laid.start_le_stop
  have hge : r.dataBufferEnd ≤ address := by
    rw [h.start]
    unfold SingleWriterShmRingBuffer.bufferEndReset
    split_ifs
    · exact (Int.lt_ediv_add_one_mul_self r.dataBufferEnd (by exact_mod_cast hsize)).le
    · exact le_rfl
  have hroom := h.room
  have hinside := (bufferEndReset_spec hsize (n := n) (by omega)).2
  rw [← h.start] at hinside
  have hinterval : c.interval = (address, n) := by rw [Chunk.interval, haddress, hn]
  have hmd : mdSize = 8 := rfl
  rw [h.state]
  refine ⟨?_, by simp only; omega, hplaced.start_lt⟩
  rw [List.map_append, ← List.append_assoc]
  simp only [List.map_cons, List.map_nil, hinterval]
  exact hplaced.laid.concat hge (by simp only; omega) hinside

lemma Allocates.numbered (h : Allocates r r' n address id size) (hnumbered : Numbered r live)
    (hroom : live.length < idMax) {c : Chunk} (hc : c.id = r.monotonicIdEnd) :
    Numbered r' (live ++ [c]) := by
  rw [h.state]
  constructor
  · rw [List.map_append, hnumbered.ids, List.length_append, List.length_singleton, List.range_succ,
      List.map_append, List.map_singleton, List.map_singleton, hc, hnumbered.idEnd]
  · simp only [List.length_append, List.length_singleton, hnumbered.idEnd, idMax]
    omega
  · exact hnumbered.idStart_lt
  · rw [List.length_append, List.length_singleton]
    exact hroom

lemma Numbered.idEnd_lt (h : Numbered r live) : r.monotonicIdEnd < idMax := by
  rw [h.idEnd]
  exact Nat.mod_lt _ (by decide)

/-- A header outside the new chunk is untouched, and the new chunk gets its own. -/
lemma Allocates.header_other (h : Allocates r r' n address id size) (hsize : 0 < r.dataBufferSize)
    {c : Chunk} (hc : HeaderOk r c) (hmd : mdSize ≤ n)
    (hapart : Apart r.dataBufferSize c.interval (address, n)) : HeaderOk r' c := by
  obtain ⟨cid, csize, hid, hcsize, hholds⟩ := hc
  have hidLength := (int2byte_spec h.idBytes).1
  have hsizeLength := (int2byte_spec h.sizeBytes).1
  have hcidLength := (int2byte_spec hid).1
  have hcsizeLength := (int2byte_spec hcsize).1
  have hne : (r.dataBufferSize : Int) ≠ 0 := by omega
  have hstart := Int.toNat_of_nonneg (Int.emod_nonneg address hne)
  have hcstart := Int.toNat_of_nonneg (Int.emod_nonneg c.address hne)
  have hmd8 : mdSize = 8 := rfl
  have hidBytes : idNBytes = 4 := rfl
  simp only [Apart, Chunk.interval] at hapart
  refine ⟨cid, csize, hid, hcsize, ?_⟩
  rw [h.state]
  refine (hholds.write_apart ?_).write_apart ?_
  · rw [List.length_append]
    omega
  · rw [List.length_append]
    omega

lemma Allocates.header_new (h : Allocates r r' n address id size) {c : Chunk}
    (haddress : c.address = address) (hn : c.size + mdSize = n) (hc : c.id = r.monotonicIdEnd) :
    HeaderOk r' c := by
  have hidLength := (int2byte_spec h.idBytes).1
  refine ⟨id, size, hc ▸ h.idBytes, by rw [hn]; exact h.sizeBytes, ?_⟩
  rw [h.state, haddress]
  refine ((Memory.holds_write _ _ _).write_apart ?_).append ?_
  · rw [hidLength, idNBytes]
    exact Or.inr le_rfl
  · rw [hidLength]
    exact Memory.holds_write _ _ _

end

end Session

end ShmObjectStorage
