import VllmMmaEmu.Distributed.ShmBroadcast
import VllmMmaEmu.Library.CircularBuffer

/-!
# The chunks of the broadcast queue

The chunks are a window of the last objects that were enqueued. A reader is at most a lap
behind the writer, and the flags of a chunk say which readers have read the last object of it.
-/

namespace ShmBroadcast

open CircularBuffer

variable {α : Type}

/-- The writer has found its chunk free and not handed it over. -/
def WriterPc.claim : WriterPc α → Nat
  | .clear _ | .first _ | .data _ | .reset _ _ => 1
  | .idle | .count _ _ _ | .send _ => 0

/-- The writer has cleared the written flag of its chunk. -/
def WriterPc.writing : WriterPc α → Bool
  | .first _ | .data _ | .reset _ _ => true
  | .idle | .count _ _ _ | .clear _ | .send _ => false

/-- The readers whose flag of the writer's chunk has been reset. -/
def WriterPc.resetTo : WriterPc α → Nat
  | .reset _ i => i
  | .idle | .count _ _ _ | .clear _ | .first _ | .data _ | .send _ => 0

def WriterPc.sending : WriterPc α → Nat
  | .send _ => 1
  | .idle | .count _ _ _ | .clear _ | .first _ | .data _ | .reset _ _ => 0

def ReaderPc.receiving : ReaderPc α → Nat
  | .recv => 1
  | .checkRead | .checkWritten _ | .first | .data | .mark _ | .raised => 0

/-- The chunks that the reader has marked as read. -/
def Reader.reads (reader : Reader α) : Nat := reader.obtained.length + reader.pc.receiving

namespace State

/-- The objects whose message, if they need one, was sent. -/
def sent (s : State α) : List α := s.enqueued.take (s.enqueued.length - s.writer.sending)

/-- The chunk holds the object, or says that it comes through the socket. -/
def Holds (pickle : Pickle α) (s : State α) (bytes : List UInt8) (obj : α) : Prop :=
  if s.overflows pickle obj then ∃ rest, bytes = 1 :: rest
  else ∃ rest, bytes = 0 :: (pickle.dumps obj ++ rest)

/-- The counters and the flags. Every object `t` of the last lap has its flags in chunk
`t % max_chunks`. -/
structure Ring (s : State α) : Prop where
  chunks : 0 < s.buffer.maxChunks
  idx : s.currentIdx = s.enqueued.length % s.buffer.maxChunks
  readerIdx : ∀ r < s.buffer.nReader,
    (s.readers r).currentIdx = (s.readers r).reads % s.buffer.maxChunks
  reads_le : ∀ r < s.buffer.nReader, (s.readers r).reads ≤ s.enqueued.length
  window : ∀ r < s.buffer.nReader,
    s.enqueued.length + s.writer.claim ≤ (s.readers r).reads + s.buffer.maxChunks
  written : ∀ t < s.enqueued.length, s.enqueued.length ≤ t + s.buffer.maxChunks →
    (s.buffer.metadata (t % s.buffer.maxChunks) 0 = true ↔
      ¬ (s.writer.writing = true ∧ t + s.buffer.maxChunks = s.enqueued.length))
  unwritten : ∀ c < s.buffer.maxChunks, s.enqueued.length ≤ c → s.buffer.metadata c 0 = false
  read : ∀ r < s.buffer.nReader, ∀ t < s.enqueued.length,
    s.enqueued.length ≤ t + s.buffer.maxChunks →
    (s.buffer.metadata (t % s.buffer.maxChunks) (r + 1) = true ↔ t < (s.readers r).reads ∧
      ¬ (r < s.writer.resetTo ∧ t + s.buffer.maxChunks = s.enqueued.length))
  unread : ∀ r < s.buffer.nReader, ∀ c < s.buffer.maxChunks, s.enqueued.length ≤ c →
    s.buffer.metadata c (r + 1) = false

/-- The data of the chunks. -/
structure Contents (pickle : Pickle α) (s : State α) : Prop where
  length : ∀ c, (s.buffer.data c).length = s.buffer.maxChunkBytes
  pos : s.enqueued ≠ [] → 0 < s.buffer.maxChunkBytes
  holds : ∀ t obj, s.enqueued[t]? = some obj → s.enqueued.length ≤ t + s.buffer.maxChunks →
    ¬ (s.writer.writing = true ∧ t + s.buffer.maxChunks = s.enqueued.length) →
    s.Holds pickle (s.buffer.data (t % s.buffer.maxChunks)) obj

/-- What the writer knows at its place in the program. -/
def WriterFacts (pickle : Pickle α) (s : State α) : Prop :=
  match s.writer with
  | .count _ i readCount => i ≤ s.buffer.nReader ∧ readCount ≤ i ∧
    (readCount = i → ∀ r < i, s.buffer.metadata s.currentIdx (r + 1) = true)
  | .data obj => s.overflows pickle obj = false ∧
    ∃ rest, s.buffer.data s.currentIdx = 0 :: rest
  | .reset obj i => i ≤ s.buffer.nReader ∧ s.Holds pickle (s.buffer.data s.currentIdx) obj
  | .send obj => s.overflows pickle obj = true ∧ ∃ before, s.enqueued = before ++ [obj]
  | .idle | .clear _ | .first _ => True

/-- What a reader knows at its place in the program. -/
def ReaderFacts (pickle : Pickle α) (s : State α) (r : Nat) : Prop :=
  match (s.readers r).pc with
  | .checkWritten false => s.buffer.metadata (s.readers r).currentIdx (r + 1) = false
  | .first => (s.readers r).reads < s.enqueued.length
  | .data => ∃ obj, s.enqueued[(s.readers r).reads]? = some obj ∧ s.overflows pickle obj = false
  | .mark (some obj) =>
    s.enqueued[(s.readers r).reads]? = some obj ∧ s.overflows pickle obj = false
  | .mark none =>
    ∃ obj, s.enqueued[(s.readers r).reads]? = some obj ∧ s.overflows pickle obj = true
  | .recv => ∃ obj, s.enqueued[(s.readers r).obtained.length]? = some obj ∧
    s.overflows pickle obj = true
  | .raised => False
  | .checkRead | .checkWritten true => True

/-- What a reader has obtained and what is on its way to it through the socket. -/
structure Received (pickle : Pickle α) (s : State α) (r : Nat) : Prop where
  obtained : (s.readers r).obtained <+: s.sent
  socket : (s.readers r).socket =
    ((s.sent.drop (s.readers r).obtained.length).filter (s.overflows pickle)).map pickle.dumps

structure Kept (pickle : Pickle α) (s : State α) : Prop where
  ring : s.Ring
  contents : s.Contents pickle
  writer : s.WriterFacts pickle
  readers : ∀ r < s.buffer.nReader, s.ReaderFacts pickle r
  received : ∀ r < s.buffer.nReader, s.Received pickle r

end State

@[simp] lemma setFlag_metadata (b : ShmRingBuffer) (c i : Nat) (flag : Bool) (c' i' : Nat) :
    (b.setFlag c i flag).metadata c' i' =
      if c' = c ∧ i' = i then flag else b.metadata c' i' := by
  unfold ShmRingBuffer.setFlag
  by_cases hc : c' = c
  · subst hc
    by_cases hi : i' = i
    · simp [hi]
    · simp [hi]
  · simp [hc]

section Buffer

variable (b : ShmRingBuffer) (c i : Nat) (flag : Bool) (bytes : List UInt8)

@[simp] lemma setFlag_nReader : (b.setFlag c i flag).nReader = b.nReader := rfl

@[simp] lemma setFlag_maxChunks : (b.setFlag c i flag).maxChunks = b.maxChunks := rfl

@[simp] lemma setFlag_maxChunkBytes : (b.setFlag c i flag).maxChunkBytes = b.maxChunkBytes := rfl

@[simp] lemma setFlag_data : (b.setFlag c i flag).data = b.data := rfl

@[simp] lemma setData_nReader : (b.setData c bytes).nReader = b.nReader := rfl

@[simp] lemma setData_maxChunks : (b.setData c bytes).maxChunks = b.maxChunks := rfl

@[simp] lemma setData_maxChunkBytes : (b.setData c bytes).maxChunkBytes = b.maxChunkBytes := rfl

@[simp] lemma setData_metadata : (b.setData c bytes).metadata = b.metadata := rfl

@[simp] lemma setData_data_self : (b.setData c bytes).data c = bytes := Function.update_self ..

lemma setData_data_of_ne {c' : Nat} (h : c' ≠ c) : (b.setData c bytes).data c' = b.data c' :=
  Function.update_of_ne h ..

end Buffer

lemma WriterPc.claim_of_writing {pc : WriterPc α} (h : pc.writing = true) : pc.claim = 1 := by
  cases pc <;> first | rfl | cases h

lemma WriterPc.writing_of_resetTo {pc : WriterPc α} {r : Nat} (h : r < pc.resetTo) :
    pc.writing = true := by
  cases pc <;> first | rfl | cases h

namespace State

variable {s s' : State α} {r : Nat}

/-- The flags of an object that the reader has not read: the chunk is offered to it. -/
lemma Ring.offered (h : s.Ring) (hr : r < s.buffer.nReader)
    (hlt : (s.readers r).reads < s.enqueued.length) :
    s.buffer.metadata (s.readers r).currentIdx 0 = true ∧
      s.buffer.metadata (s.readers r).currentIdx (r + 1) = false ∧
      ¬ (s.writer.writing = true ∧
        (s.readers r).reads + s.buffer.maxChunks = s.enqueued.length) := by
  have hwindow := h.window r hr
  have hnot : ¬ (s.writer.writing = true ∧
      (s.readers r).reads + s.buffer.maxChunks = s.enqueued.length) := by
    rintro ⟨hwriting, heq⟩
    have hclaim := WriterPc.claim_of_writing hwriting
    omega
  rw [h.readerIdx r hr]
  refine ⟨(h.written _ hlt (by omega)).mpr hnot, ?_, hnot⟩
  refine Bool.eq_false_iff.mpr fun hread => ?_
  exact absurd ((h.read r hr _ hlt (by omega)).mp hread).1 (lt_irrefl _)

/-- The chunk of the writer is not offered to a reader that has read all objects. -/
lemma Ring.not_offered (h : s.Ring) (hr : r < s.buffer.nReader)
    (heq : (s.readers r).reads = s.enqueued.length)
    (hread : s.buffer.metadata (s.readers r).currentIdx (r + 1) = false) :
    s.buffer.metadata (s.readers r).currentIdx 0 = false := by
  rw [h.readerIdx r hr, heq] at hread ⊢
  rcases Nat.lt_or_ge s.enqueued.length s.buffer.maxChunks with hlt | hge
  · rw [Nat.mod_eq_of_lt hlt]
    exact h.unwritten _ hlt le_rfl
  · have hchunks := h.chunks
    have hback : s.enqueued.length - s.buffer.maxChunks + s.buffer.maxChunks =
        s.enqueued.length := Nat.sub_add_cancel hge
    have hslot : s.enqueued.length % s.buffer.maxChunks =
        (s.enqueued.length - s.buffer.maxChunks) % s.buffer.maxChunks := Nat.mod_eq_sub_mod hge
    rw [hslot] at hread ⊢
    have hreset : r < s.writer.resetTo := by
      by_contra hnot
      have htrue := (h.read r hr (s.enqueued.length - s.buffer.maxChunks) (by omega)
        hback.ge).mpr ⟨by omega, fun hboth => hnot hboth.1⟩
      rw [hread] at htrue
      cases htrue
    refine Bool.eq_false_iff.mpr fun hwritten => ?_
    exact (h.written _ (by omega) hback.ge).mp hwritten
      ⟨WriterPc.writing_of_resetTo hreset, hback⟩

lemma Ring.chunk_unread (h : s.Ring) (hr : r < s.buffer.nReader) (hreset : r < s.writer.resetTo) :
    s.buffer.metadata (s.enqueued.length % s.buffer.maxChunks) (r + 1) = false := by
  rcases Nat.lt_or_ge s.enqueued.length s.buffer.maxChunks with hlt | hge
  · exact h.unread r hr _ (Nat.mod_lt _ h.chunks) (by rw [Nat.mod_eq_of_lt hlt])
  · have hchunks := h.chunks
    have hback := Nat.sub_add_cancel hge
    refine Bool.eq_false_iff.mpr fun hread => ?_
    rw [Nat.mod_eq_sub_mod hge, h.read r hr _ (by omega) hback.ge] at hread
    exact hread.2 ⟨hreset, hback⟩

/-- Steps that leave the flags and the counters keep the ring. -/
lemma Ring.congr (h : s.Ring) (hflags : s'.buffer.metadata = s.buffer.metadata)
    (hchunks : s'.buffer.maxChunks = s.buffer.maxChunks)
    (hreader : s'.buffer.nReader = s.buffer.nReader) (hidx : s'.currentIdx = s.currentIdx)
    (henqueued : s'.enqueued = s.enqueued) (hclaim : s'.writer.claim = s.writer.claim)
    (hwriting : s'.writer.writing = s.writer.writing)
    (hreset : s'.writer.resetTo = s.writer.resetTo)
    (hreaders : ∀ r, (s'.readers r).currentIdx = (s.readers r).currentIdx ∧
      (s'.readers r).reads = (s.readers r).reads) : s'.Ring := by
  obtain ⟨h₁, h₂, h₃, h₄, h₅, h₆, h₇, h₈, h₉⟩ := h
  constructor
  all_goals simp only [hflags, hchunks, hreader, hidx, henqueued, hclaim, hwriting, hreset,
    hreaders]
  all_goals assumption

lemma Ring.mark {reader : Reader α} (h : s.Ring) (hr : r < s.buffer.nReader)
    (hlt : (s.readers r).reads < s.enqueued.length)
    (hreads : reader.reads = (s.readers r).reads + 1)
    (hidx : reader.currentIdx = ((s.readers r).currentIdx + 1) % s.buffer.maxChunks) :
    (setReader { s with buffer := s.buffer.setFlag (s.readers r).currentIdx (r + 1) true } r
      reader).Ring := by
  have hslot := h.readerIdx r hr
  have hwindow := h.window r hr
  constructor
  · exact h.chunks
  · exact h.idx
  · intro q hq
    by_cases hqr : q = r
    · subst hqr
      simp only [setReader, Function.update_self, hidx, hslot, hreads]
      exact slot_succ _ _
    · simp only [setReader, Function.update_of_ne hqr]
      exact h.readerIdx q hq
  · intro q hq
    by_cases hqr : q = r
    · subst hqr
      simp only [setReader, Function.update_self, hreads]
      omega
    · simp only [setReader, Function.update_of_ne hqr]
      exact h.reads_le q hq
  · intro q hq
    by_cases hqr : q = r
    · subst hqr
      simp only [setReader, Function.update_self, hreads]
      change s.enqueued.length + s.writer.claim ≤ _ + s.buffer.maxChunks
      omega
    · simp only [setReader, Function.update_of_ne hqr]
      exact h.window q hq
  · intro t ht htwindow
    simp only [setReader, setFlag_metadata]
    rw [if_neg (by omega)]
    exact h.written t ht htwindow
  · intro c hc hle
    simp only [setReader, setFlag_metadata]
    rw [if_neg (by omega)]
    exact h.unwritten c hc hle
  · intro q hq t ht htwindow
    change t < s.enqueued.length at ht
    change s.enqueued.length ≤ t + s.buffer.maxChunks at htwindow
    have hold := h.read q hq t ht htwindow
    simp only [setReader, setFlag_metadata]
    by_cases hqr : q = r
    · subst hqr
      simp only [Function.update_self, hreads]
      by_cases hsame : t = (s.readers q).reads
      · rw [if_pos ⟨by rw [hslot, ← hsame]; rfl, trivial⟩]
        refine iff_of_true rfl ⟨by omega, ?_⟩
        rintro ⟨hreset, heq⟩
        have hclaim := WriterPc.claim_of_writing (WriterPc.writing_of_resetTo hreset)
        change t + s.buffer.maxChunks = s.enqueued.length at heq
        omega
      · rw [if_neg]
        · rw [show t < (s.readers q).reads + 1 ↔ t < (s.readers q).reads by omega]
          exact hold
        · rintro ⟨hchunk, -⟩
          rw [hslot] at hchunk
          exact hsame (slot_inj ht hlt htwindow (by omega) hchunk)
    · rw [if_neg (by omega), Function.update_of_ne hqr]
      exact hold
  · intro q hq c hc hle
    simp only [setReader, setFlag_metadata]
    rw [if_neg]
    · exact h.unread q hq c hc hle
    · rintro ⟨hchunk, -⟩
      change c < s.buffer.maxChunks at hc
      change s.enqueued.length ≤ c at hle
      rw [hslot, Nat.mod_eq_of_lt (by omega)] at hchunk
      omega

lemma Ring.clear {obj : α} (h : s.Ring) (hwriter : s.writer = .clear obj) :
    Ring { s with writer := .first obj, buffer := s.buffer.setFlag s.currentIdx 0 false } := by
  have hwriting : s.writer.writing = false := by rw [hwriter]; rfl
  have hreset : s.writer.resetTo = 0 := by rw [hwriter]; rfl
  constructor
  · exact h.chunks
  · exact h.idx
  · exact h.readerIdx
  · exact h.reads_le
  · have hwindow := h.window
    rw [hwriter] at hwindow
    exact hwindow
  · intro t ht htwindow
    change t < s.enqueued.length at ht
    change s.enqueued.length ≤ t + s.buffer.maxChunks at htwindow
    have hold := h.written t ht htwindow
    rw [hwriting] at hold
    simp only [setFlag_metadata, setFlag_maxChunks, h.idx, WriterPc.writing]
    rcases htwindow.eq_or_lt with hlap | hlt
    · rw [if_pos ⟨by rw [hlap, Nat.add_mod_right], trivial⟩]
      simp [hlap]
    · rw [if_neg fun hslot => slot_ne ht hlt hslot.1]
      simpa [hlt.ne'] using hold
  · intro c hc hle
    simp only [setFlag_metadata]
    split_ifs
    · rfl
    · exact h.unwritten c hc hle
  · intro q hq t ht htwindow
    have hold := h.read q hq t ht htwindow
    simp only [setFlag_metadata]
    rw [if_neg (by omega)]
    rwa [hreset] at hold
  · intro q hq c hc hle
    simp only [setFlag_metadata]
    rw [if_neg (by omega)]
    exact h.unread q hq c hc hle

lemma Ring.reset {obj : α} {i : Nat} (h : s.Ring) (hwriter : s.writer = .reset obj i) :
    Ring { s with
      writer := .reset obj (i + 1)
      buffer := s.buffer.setFlag s.currentIdx (i + 1) false } := by
  have hreset : s.writer.resetTo = i := by rw [hwriter]; rfl
  constructor
  · exact h.chunks
  · exact h.idx
  · exact h.readerIdx
  · exact h.reads_le
  · have hwindow := h.window
    rw [hwriter] at hwindow
    exact hwindow
  · intro t ht htwindow
    have hold := h.written t ht htwindow
    rw [hwriter] at hold
    simp only [setFlag_metadata]
    rw [if_neg (by omega)]
    exact hold
  · intro c hc hle
    simp only [setFlag_metadata]
    rw [if_neg (by omega)]
    exact h.unwritten c hc hle
  · intro q hq t ht htwindow
    change t < s.enqueued.length at ht
    change s.enqueued.length ≤ t + s.buffer.maxChunks at htwindow
    have hold := h.read q hq t ht htwindow
    rw [hreset] at hold
    simp only [setFlag_metadata, setFlag_maxChunks, h.idx, WriterPc.resetTo]
    rcases htwindow.eq_or_lt with hlap | hlt
    · have hslot : t % s.buffer.maxChunks = s.enqueued.length % s.buffer.maxChunks := by
        rw [hlap, Nat.add_mod_right]
      by_cases hqi : q = i
      · rw [if_pos ⟨hslot, by rw [hqi]⟩]
        exact iff_of_false Bool.false_ne_true fun hboth => hboth.2 ⟨by omega, hlap.symm⟩
      · rw [if_neg (by omega), hold, show q < i + 1 ↔ q < i by omega]
    · rw [if_neg fun hslot => slot_ne ht hlt hslot.1, hold]
      simp [hlt.ne']
  · intro q hq c hc hle
    simp only [setFlag_metadata]
    split_ifs
    · rfl
    · exact h.unread q hq c hc hle

/-- The writer marks its chunk as written when all flags are reset. -/
lemma Ring.handOver {obj : α} {i : Nat} {pc : WriterPc α} (h : s.Ring)
    (hwriter : s.writer = .reset obj i) (hi : s.buffer.nReader ≤ i) (hclaim : pc.claim = 0) :
    Ring { s with
      writer := pc
      buffer := s.buffer.setFlag s.currentIdx 0 true
      currentIdx := (s.currentIdx + 1) % s.buffer.maxChunks
      enqueued := s.enqueued ++ [obj] } := by
  have hreset : s.writer.resetTo = i := by rw [hwriter]; rfl
  have hwriting : pc.writing = false := by
    refine Bool.eq_false_iff.mpr fun hwriting => ?_
    rw [WriterPc.claim_of_writing hwriting] at hclaim
    cases hclaim
  have hresetTo : ∀ q, ¬ q < pc.resetTo := by
    intro q hq
    rw [WriterPc.writing_of_resetTo hq] at hwriting
    cases hwriting
  have hlength : (s.enqueued ++ [obj]).length = s.enqueued.length + 1 := by simp
  constructor
  · exact h.chunks
  · simp only [h.idx, hlength]
    exact slot_succ _ _
  · exact h.readerIdx
  · intro q hq
    have hle := h.reads_le q hq
    simp only [hlength]
    omega
  · intro q hq
    have hwindow := h.window q hq
    rw [hwriter] at hwindow
    simp only [hlength, hclaim]
    exact hwindow
  · intro t ht htwindow
    simp only [hlength, setFlag_maxChunks] at ht htwindow
    simp only [setFlag_metadata, setFlag_maxChunks, h.idx, hwriting]
    rcases Nat.lt_succ_iff_lt_or_eq.mp ht with hlt | rfl
    · have hold := h.written t hlt (by omega)
      rw [if_neg fun hslot => slot_ne hlt (by omega) hslot.1, hold]
      simp
      omega
    · simp
  · intro c hc hle
    simp only [hlength] at hle
    change c < s.buffer.maxChunks at hc
    simp only [setFlag_metadata, h.idx]
    rw [if_neg]
    · exact h.unwritten c hc (by omega)
    · rintro ⟨hslot, -⟩
      rw [Nat.mod_eq_of_lt (by omega)] at hslot
      omega
  · intro q hq t ht htwindow
    simp only [hlength, setFlag_maxChunks] at ht htwindow
    simp only [setFlag_metadata, setFlag_maxChunks]
    rw [if_neg (by omega)]
    rcases Nat.lt_succ_iff_lt_or_eq.mp ht with hlt | rfl
    · have hold := h.read q hq t hlt (by omega)
      rw [hold]
      refine and_congr_right fun _ => iff_of_true ?_ ?_
      · omega
      · exact fun hboth => hresetTo q hboth.1
    · have hle := h.reads_le q hq
      refine iff_of_false (Bool.eq_false_iff.mp ?_) (by omega)
      exact h.chunk_unread hq (by rw [hreset]; exact lt_of_lt_of_le hq hi)
  · intro q hq c hc hle
    simp only [hlength] at hle
    simp only [setFlag_metadata]
    rw [if_neg (by omega)]
    exact h.unread q hq c hc (by omega)

section Contents

variable {pickle : Pickle α}

lemma overflows_congr (h : s'.buffer.maxChunkBytes = s.buffer.maxChunkBytes) :
    s'.overflows pickle = s.overflows pickle := by
  funext obj
  rw [overflows, overflows, h]

lemma Holds.congr (h : s'.buffer.maxChunkBytes = s.buffer.maxChunkBytes) {bytes : List UInt8}
    {obj : α} (hholds : s.Holds pickle bytes obj) : s'.Holds pickle bytes obj := by
  rwa [Holds, overflows_congr h]

lemma Contents.congr (h : s.Contents pickle) (hdata : s'.buffer.data = s.buffer.data)
    (hbytes : s'.buffer.maxChunkBytes = s.buffer.maxChunkBytes)
    (hchunks : s'.buffer.maxChunks = s.buffer.maxChunks) (henqueued : s'.enqueued = s.enqueued)
    (hwriting : s.writer.writing = true → s'.writer.writing = true) : s'.Contents pickle := by
  constructor
  · rw [hdata, hbytes]
    exact h.length
  · rw [henqueued, hbytes]
    exact h.pos
  · rw [henqueued, hdata, hchunks]
    intro t obj hobj hwindow hnot
    exact (h.holds t obj hobj hwindow fun hboth => hnot ⟨hwriting hboth.1, hboth.2⟩).congr hbytes

/-- The writer changes only its own chunk, which no object of the last lap uses any more. -/
lemma Contents.setData {pc : WriterPc α} {bytes : List UInt8} (h : s.Contents pickle)
    (hring : s.Ring) (hpc : pc.writing = true)
    (hlength : bytes.length = s.buffer.maxChunkBytes) :
    Contents pickle { s with
      writer := pc
      buffer := s.buffer.setData s.currentIdx bytes } := by
  constructor
  · intro c
    by_cases hc : c = s.currentIdx
    · rw [hc]
      simpa using hlength
    · simpa [setData_data_of_ne _ _ _ hc] using h.length c
  · exact h.pos
  · intro t obj hobj hwindow hnot
    simp only [setData_maxChunks, hpc, true_and] at hwindow hnot ⊢
    have hslot : t % s.buffer.maxChunks ≠ s.currentIdx := by
      rw [hring.idx]
      exact slot_ne (List.getElem?_eq_some_iff.mp hobj).1 (by omega)
    rw [setData_data_of_ne _ _ _ hslot]
    exact (h.holds t obj hobj hwindow fun hboth => hnot hboth.2).congr rfl

lemma Holds.pos {bytes : List UInt8} {obj : α} (h : s.Holds pickle bytes obj) :
    0 < bytes.length := by
  unfold Holds at h
  split_ifs at h with hover
  · obtain ⟨rest, rfl⟩ := h
    exact Nat.succ_pos _
  · obtain ⟨rest, rfl⟩ := h
    exact Nat.succ_pos _

lemma Contents.handOver {pc : WriterPc α} {obj : α} (h : s.Contents pickle) (hring : s.Ring)
    (hholds : s.Holds pickle (s.buffer.data s.currentIdx) obj) :
    Contents pickle { s with
      writer := pc
      buffer := s.buffer.setFlag s.currentIdx 0 true
      currentIdx := (s.currentIdx + 1) % s.buffer.maxChunks
      enqueued := s.enqueued ++ [obj] } := by
  constructor
  · exact h.length
  · intro _
    have hpos := hholds.pos
    rwa [h.length] at hpos
  · intro t obj' hobj hwindow _
    simp only [List.length_append, List.length_singleton, setFlag_maxChunks] at hwindow
    simp only [setFlag_data, setFlag_maxChunks]
    rcases Nat.lt_or_ge t s.enqueued.length with hlt | hge
    · rw [List.getElem?_append_left hlt] at hobj
      exact (h.holds t obj' hobj (by omega) fun hboth => by omega).congr rfl
    · rw [List.getElem?_append_right hge, List.getElem?_singleton] at hobj
      split_ifs at hobj with ht
      have heq : t = s.enqueued.length := by omega
      obtain rfl := Option.some.inj hobj
      rw [heq, ← hring.idx]
      exact hholds.congr rfl

lemma Kept.chunk {obj : α} (h : s.Kept pickle) (hr : r < s.buffer.nReader)
    (hobj : s.enqueued[(s.readers r).reads]? = some obj) :
    s.Holds pickle (s.buffer.data (s.readers r).currentIdx) obj := by
  have hlt := (List.getElem?_eq_some_iff.mp hobj).1
  have hwindow := h.ring.window r hr
  rw [h.ring.readerIdx r hr]
  exact h.contents.holds _ obj hobj (by omega) (h.ring.offered hr hlt).2.2

end Contents

end State

end ShmBroadcast
