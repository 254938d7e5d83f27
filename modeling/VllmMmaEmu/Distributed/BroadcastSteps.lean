import VllmMmaEmu.Distributed.BroadcastRing

/-!
# The steps of the broadcast queue

A step of a reader changes that reader and its flag of one chunk; a step of the writer changes
its own chunk and resets flags. Both keep what every party knows at its place in the program.
-/

namespace ShmBroadcast

open CircularBuffer

namespace State

variable {α : Type} {s s' : State α} {r : Nat}

section Facts

variable {pickle : Pickle α}

lemma getElem?_of_isPrefix {l l' : List α} (h : l <+: l') {i : Nat} {x : α} (hx : l[i]? = some x) :
    l'[i]? = some x := by
  obtain ⟨rest, rfl⟩ := h
  rw [List.getElem?_append_left (List.getElem?_eq_some_iff.mp hx).1, hx]

/-- A reader still knows what it knew when others have gone on. -/
lemma ReaderFacts.mono (h : s.ReaderFacts pickle r) (hpc : (s'.readers r).pc = (s.readers r).pc)
    (hidx : (s'.readers r).currentIdx = (s.readers r).currentIdx)
    (hobtained : (s'.readers r).obtained = (s.readers r).obtained)
    (hbytes : s'.buffer.maxChunkBytes = s.buffer.maxChunkBytes)
    (hflag : s.buffer.metadata (s.readers r).currentIdx (r + 1) = false →
      s'.buffer.metadata (s.readers r).currentIdx (r + 1) = false)
    (hbegins : s.enqueued <+: s'.enqueued) : s'.ReaderFacts pickle r := by
  have hreads : (s'.readers r).reads = (s.readers r).reads := by
    rw [Reader.reads, Reader.reads, hobtained, hpc]
  unfold ReaderFacts at h ⊢
  rw [hpc, hreads, hidx, hobtained, overflows_congr hbytes]
  split at h
  · exact hflag h
  · exact lt_of_lt_of_le h hbegins.length_le
  · obtain ⟨obj, hobj, hover⟩ := h
    exact ⟨obj, getElem?_of_isPrefix hbegins hobj, hover⟩
  · exact ⟨getElem?_of_isPrefix hbegins h.1, h.2⟩
  · obtain ⟨obj, hobj, hover⟩ := h
    exact ⟨obj, getElem?_of_isPrefix hbegins hobj, hover⟩
  · obtain ⟨obj, hobj, hover⟩ := h
    exact ⟨obj, getElem?_of_isPrefix hbegins hobj, hover⟩
  · exact h
  · trivial
  · trivial

/-- The writer still knows what it knew when a reader has marked a chunk. -/
lemma WriterFacts.mono (h : s.WriterFacts pickle) (hwriter : s'.writer = s.writer)
    (hidx : s'.currentIdx = s.currentIdx) (henqueued : s'.enqueued = s.enqueued)
    (hreader : s'.buffer.nReader = s.buffer.nReader)
    (hbytes : s'.buffer.maxChunkBytes = s.buffer.maxChunkBytes)
    (hdata : s'.buffer.data = s.buffer.data)
    (hflag : ∀ c i, s.buffer.metadata c i = true → s'.buffer.metadata c i = true) :
    s'.WriterFacts pickle := by
  unfold WriterFacts at h ⊢
  rw [hwriter, hidx, henqueued, hreader, overflows_congr hbytes, hdata]
  split at h
  · exact ⟨h.1, h.2.1, fun heq r hr => hflag _ _ (h.2.2 heq r hr)⟩
  · exact h
  · exact ⟨h.1, h.2.congr hbytes⟩
  · exact h
  · trivial
  · trivial
  · trivial

lemma Received.congr (h : s.Received pickle r) (hsent : s'.sent = s.sent)
    (hobtained : (s'.readers r).obtained = (s.readers r).obtained)
    (hsocket : (s'.readers r).socket = (s.readers r).socket)
    (hbytes : s'.buffer.maxChunkBytes = s.buffer.maxChunkBytes) : s'.Received pickle r := by
  constructor
  · rw [hobtained, hsent]
    exact h.obtained
  · rw [hobtained, hsent, hsocket, overflows_congr hbytes]
    exact h.socket

/-- One more object is sent, with its message if it needs one. -/
lemma Received.append {obj : α} (h : s.Received pickle r) (hsent : s'.sent = s.sent ++ [obj])
    (hobtained : (s'.readers r).obtained = (s.readers r).obtained)
    (hsocket : (s'.readers r).socket = (s.readers r).socket ++
      if s.overflows pickle obj then [pickle.dumps obj] else [])
    (hbytes : s'.buffer.maxChunkBytes = s.buffer.maxChunkBytes) : s'.Received pickle r := by
  constructor
  · rw [hobtained, hsent]
    exact h.obtained.trans (List.prefix_append _ _)
  · rw [hobtained, hsent, hsocket, overflows_congr hbytes, h.socket,
      List.drop_append_of_le_length h.obtained.length_le, List.filter_append, List.map_append]
    by_cases hover : s.overflows pickle obj = true
    · simp [hover]
    · simp [hover]

/-- The reader obtains the next object, with its message if it needed one. -/
lemma Received.obtain {obj : α} (h : s.Received pickle r) (hsent : s'.sent = s.sent)
    (hnext : s.sent[(s.readers r).obtained.length]? = some obj)
    (hobtained : (s'.readers r).obtained = (s.readers r).obtained ++ [obj])
    (hsocket : (s.readers r).socket =
      (if s.overflows pickle obj then [pickle.dumps obj] else []) ++ (s'.readers r).socket)
    (hbytes : s'.buffer.maxChunkBytes = s.buffer.maxChunkBytes) : s'.Received pickle r := by
  obtain ⟨hlt, hget⟩ := List.getElem?_eq_some_iff.mp hnext
  have hdrop := List.drop_eq_getElem_cons hlt
  rw [hget] at hdrop
  have hbegins := h.obtained
  constructor
  · rw [hobtained, hsent]
    obtain ⟨rest, hrest⟩ := hbegins
    have hdrop' : s.sent.drop (s.readers r).obtained.length = rest := by
      rw [← hrest, List.drop_left]
    rw [hdrop] at hdrop'
    exact ⟨_, by rw [← hrest, ← hdrop', List.append_assoc, List.singleton_append]⟩
  · have hold := h.socket
    rw [hdrop, hsocket] at hold
    rw [hobtained, hsent, overflows_congr hbytes, List.length_append, List.length_singleton]
    by_cases hover : s.overflows pickle obj = true
    · simpa [hover] using hold
    · simpa [hover] using hold

lemma Kept.sent_getElem? {k : Nat} {obj : α} (h : s.Kept pickle)
    (hobj : s.enqueued[k]? = some obj) (hover : s.overflows pickle obj = false) :
    s.sent[k]? = some obj := by
  unfold sent
  cases hwriter : s.writer with
  | send last =>
    have hfacts := h.writer
    rw [WriterFacts, hwriter] at hfacts
    obtain ⟨hlast, before, hbefore⟩ := hfacts
    have hlength : s.enqueued.length - WriterPc.sending (.send last) = before.length := by
      rw [hbefore, List.length_append]
      rfl
    rw [hlength, hbefore, List.take_left]
    rw [hbefore] at hobj
    rcases Nat.lt_or_ge k before.length with hlt | hge
    · rwa [List.getElem?_append_left hlt] at hobj
    · rw [List.getElem?_append_right hge, List.getElem?_singleton] at hobj
      split_ifs at hobj
      rw [Option.some.inj hobj, hover] at hlast
      cases hlast
  | idle | count | clear | first | data | reset => simpa [WriterPc.sending] using hobj

end Facts

section ReaderSteps

variable {pickle : Pickle α}

/-- What a step of a reader leaves alone. -/
structure ReaderFrame (s s' : State α) (r : Nat) : Prop where
  writer : s'.writer = s.writer
  idx : s'.currentIdx = s.currentIdx
  called : s'.called = s.called
  enqueued : s'.enqueued = s.enqueued
  nReader : s'.buffer.nReader = s.buffer.nReader
  maxChunkBytes : s'.buffer.maxChunkBytes = s.buffer.maxChunkBytes
  maxChunks : s'.buffer.maxChunks = s.buffer.maxChunks
  data : s'.buffer.data = s.buffer.data
  flag : ∀ c i, s.buffer.metadata c i = true → s'.buffer.metadata c i = true
  others : ∀ q ≠ r, s'.readers q = s.readers q ∧
    ∀ c, s'.buffer.metadata c (q + 1) = s.buffer.metadata c (q + 1)

lemma ReaderFrame.setReader (s : State α) (r : Nat) (reader : Reader α) :
    ReaderFrame s (s.setReader r reader) r where
  writer := rfl
  idx := rfl
  called := rfl
  enqueued := rfl
  nReader := rfl
  maxChunkBytes := rfl
  maxChunks := rfl
  data := rfl
  flag _ _ h := h
  others _ hq := ⟨Function.update_of_ne hq _ _, fun _ => rfl⟩

lemma ReaderFrame.mark (s : State α) (r c : Nat) (reader : Reader α) :
    ReaderFrame s (State.setReader { s with buffer := s.buffer.setFlag c (r + 1) true } r reader)
      r where
  writer := rfl
  idx := rfl
  called := rfl
  enqueued := rfl
  nReader := rfl
  maxChunkBytes := rfl
  maxChunks := rfl
  data := rfl
  flag c' i h := by
    simp only [State.setReader, setFlag_metadata, h]
    split_ifs <;> rfl
  others := by
    refine fun q hq => ⟨Function.update_of_ne hq _ _, fun c' => ?_⟩
    simp only [State.setReader, setFlag_metadata]
    rw [if_neg (by omega)]

lemma readerStep_frame (hstep : s.readerStep pickle r = some s') : ReaderFrame s s' r := by
  unfold readerStep at hstep
  dsimp only at hstep
  split at hstep
  · exact Option.some.inj hstep ▸ .setReader s r _
  · split_ifs at hstep
    · exact Option.some.inj hstep ▸ .setReader s r _
    · exact Option.some.inj hstep ▸ .setReader s r _
  · split at hstep
    · exact Option.some.inj hstep ▸ .setReader s r _
    · exact Option.some.inj hstep ▸ .setReader s r _
  · split at hstep
    · exact Option.some.inj hstep ▸ .setReader s r _
    · exact Option.some.inj hstep ▸ .setReader s r _
  · split at hstep
    · exact Option.some.inj hstep ▸ .mark s r _ _
    · exact Option.some.inj hstep ▸ .mark s r _ _
  · split at hstep
    · cases hstep
    · split at hstep
      · exact Option.some.inj hstep ▸ .setReader s r _
      · exact Option.some.inj hstep ▸ .setReader s r _
  · cases hstep

lemma ReaderFrame.sent (hframe : ReaderFrame s s' r) : s'.sent = s.sent := by
  rw [State.sent, State.sent, hframe.enqueued, hframe.writer]

lemma Kept.of_reader (h : s.Kept pickle) (hframe : ReaderFrame s s' r) (hring : s'.Ring)
    (hfacts : s'.ReaderFacts pickle r) (hreceived : s'.Received pickle r) : s'.Kept pickle := by
  constructor
  · exact hring
  · exact h.contents.congr hframe.data hframe.maxChunkBytes hframe.maxChunks hframe.enqueued
      (by rw [hframe.writer]; exact id)
  · exact h.writer.mono hframe.writer hframe.idx hframe.enqueued hframe.nReader
      hframe.maxChunkBytes hframe.data hframe.flag
  · intro q hq
    rw [hframe.nReader] at hq
    by_cases hqr : q = r
    · exact hqr ▸ hfacts
    · obtain ⟨hreader, hflags⟩ := hframe.others q hqr
      refine (h.readers q hq).mono ?_ ?_ ?_ hframe.maxChunkBytes ?_ ?_
      · rw [hreader]
      · rw [hreader]
      · rw [hreader]
      · rw [hflags]
        exact id
      · exact hframe.enqueued ▸ List.prefix_rfl
  · intro q hq
    rw [hframe.nReader] at hq
    by_cases hqr : q = r
    · exact hqr ▸ hreceived
    · obtain ⟨hreader, -⟩ := hframe.others q hqr
      exact (h.received q hq).congr hframe.sent (by rw [hreader]) (by rw [hreader])
        hframe.maxChunkBytes

/-- A reader goes on to another place without a change of what is shared. -/
lemma Kept.setPc {pc : ReaderPc α} (h : s.Kept pickle) (hr : r < s.buffer.nReader)
    (hreceiving : pc.receiving = (s.readers r).pc.receiving)
    (hfacts : (s.setReader r { s.readers r with pc := pc }).ReaderFacts pickle r) :
    (s.setReader r { s.readers r with pc := pc }).Kept pickle := by
  have hsame : ((s.setReader r { s.readers r with pc := pc }).readers r) =
      { s.readers r with pc := pc } := Function.update_self ..
  refine h.of_reader (.setReader s r _) (h.ring.congr rfl rfl rfl rfl rfl rfl rfl rfl ?_) hfacts
    ((h.received r hr).congr rfl (by rw [hsame]) (by rw [hsame]) rfl)
  intro q
  by_cases hq : q = r
  · subst hq
    rw [hsame, Reader.reads, Reader.reads, hreceiving]
    exact ⟨rfl, rfl⟩
  · rw [((ReaderFrame.setReader s r _).others q hq).1]
    exact ⟨rfl, rfl⟩

lemma setReader_self (s : State α) (r : Nat) (reader : Reader α) :
    (s.setReader r reader).readers r = reader := Function.update_self ..

lemma Kept.reads_lt (h : s.Kept pickle) (hr : r < s.buffer.nReader)
    (hpc : (s.readers r).pc = .checkWritten false)
    (hwritten : s.buffer.metadata (s.readers r).currentIdx 0 = true) :
    (s.readers r).reads < s.enqueued.length := by
  have hread := h.readers r hr
  rw [ReaderFacts, hpc] at hread
  refine lt_of_le_of_ne (h.ring.reads_le r hr) fun heq => ?_
  rw [h.ring.not_offered hr heq hread] at hwritten
  cases hwritten

lemma Kept.first_reads {obj : α} (h : s.Kept pickle) (hr : r < s.buffer.nReader)
    (hobj : s.enqueued[(s.readers r).reads]? = some obj) :
    ∃ b rest, s.buffer.data (s.readers r).currentIdx = b :: rest ∧
      (b = 1 ↔ s.overflows pickle obj = true) := by
  have hchunk := h.chunk hr hobj
  unfold Holds at hchunk
  split_ifs at hchunk with hover
  · obtain ⟨rest, hrest⟩ := hchunk
    exact ⟨1, rest, hrest, iff_of_true rfl hover⟩
  · obtain ⟨rest, hrest⟩ := hchunk
    exact ⟨0, _, hrest, iff_of_false (by decide) hover⟩

lemma Kept.data_loads (hpickle : pickle.IgnoresRest) {obj : α} (h : s.Kept pickle)
    (hr : r < s.buffer.nReader) (hobj : s.enqueued[(s.readers r).reads]? = some obj)
    (hover : s.overflows pickle obj = false) :
    pickle.loads ((s.buffer.data (s.readers r).currentIdx).drop 1) = some obj := by
  have hchunk := h.chunk hr hobj
  rw [Holds, hover, if_neg Bool.false_ne_true] at hchunk
  obtain ⟨rest, hrest⟩ := hchunk
  rw [hrest, List.drop_succ_cons, List.drop_zero]
  exact hpickle obj rest

/-- The message that a waiting reader receives is that of its next object. -/
lemma Kept.message (hpickle : pickle.IgnoresRest) {message : List UInt8} {rest : List (List UInt8)}
    (h : s.Kept pickle) (hr : r < s.buffer.nReader) (hpc : (s.readers r).pc = .recv)
    (hsocket : (s.readers r).socket = message :: rest) :
    ∃ obj, s.sent[(s.readers r).obtained.length]? = some obj ∧
      s.overflows pickle obj = true ∧ message = pickle.dumps obj ∧
      pickle.loads message = some obj := by
  have hfacts := h.readers r hr
  rw [ReaderFacts, hpc] at hfacts
  obtain ⟨obj, hobj, hover⟩ := hfacts
  have hqueue := (h.received r hr).socket
  rw [hsocket] at hqueue
  have hlt : (s.readers r).obtained.length < s.sent.length := by
    by_contra hnot
    rw [List.drop_eq_nil_of_le (not_lt.mp hnot)] at hqueue
    cases hqueue
  have hnext : s.sent[(s.readers r).obtained.length] = obj := by
    have hget := getElem?_of_isPrefix (List.take_prefix _ s.enqueued)
      (List.getElem?_eq_getElem hlt)
    exact Option.some.inj (hget.symm.trans hobj)
  rw [List.drop_eq_getElem_cons hlt, hnext, List.filter_cons_of_pos hover, List.map_cons] at hqueue
  have hmessage := (List.cons.inj hqueue).1
  have hloads := hpickle obj []
  rw [List.append_nil] at hloads
  exact ⟨obj, by rw [List.getElem?_eq_getElem hlt, hnext], hover, hmessage, hmessage ▸ hloads⟩

lemma Kept.readerStep (hpickle : pickle.IgnoresRest) (h : s.Kept pickle)
    (hr : r < s.buffer.nReader) (hstep : s.readerStep pickle r = some s') : s'.Kept pickle := by
  have hfacts := h.readers r hr
  unfold ReaderFacts at hfacts
  have hframe := readerStep_frame hstep
  unfold State.readerStep at hstep
  dsimp only at hstep
  cases hpc : (s.readers r).pc with
  | checkRead =>
    rw [hpc] at hstep
    obtain rfl := Option.some.inj hstep
    refine h.setPc hr (by rw [hpc]; rfl) ?_
    rw [ReaderFacts, setReader_self]
    cases hflag : s.buffer.metadata (s.readers r).currentIdx (r + 1) with
    | false => exact hflag
    | true => trivial
  | checkWritten readFlag =>
    rw [hpc] at hstep
    dsimp only at hstep
    split_ifs at hstep with hagain
    · obtain rfl := Option.some.inj hstep
      refine h.setPc hr (by rw [hpc]; rfl) ?_
      rw [ReaderFacts, setReader_self]
      trivial
    · obtain rfl := Option.some.inj hstep
      refine h.setPc hr (by rw [hpc]; rfl) ?_
      simp only [Bool.or_eq_true, Bool.not_eq_true', not_or, Bool.not_eq_false,
        Bool.not_eq_true] at hagain
      have hlt := h.reads_lt hr (hagain.2 ▸ hpc) hagain.1
      rw [Reader.reads, hpc] at hlt
      rw [ReaderFacts, setReader_self]
      exact hlt
  | first =>
    rw [hpc] at hfacts hstep
    dsimp only at hfacts hstep
    obtain ⟨obj, hobj⟩ : ∃ obj, s.enqueued[(s.readers r).reads]? = some obj :=
      ⟨_, List.getElem?_eq_getElem hfacts⟩
    obtain ⟨b, rest, hdata, hb⟩ := h.first_reads hr hobj
    rw [hdata] at hstep
    obtain rfl := Option.some.inj hstep
    rw [Reader.reads, hpc] at hobj
    by_cases hover : b = 1
    · simp only [hover, if_true]
      refine h.setPc hr (by rw [hpc]; rfl) ?_
      rw [ReaderFacts, setReader_self]
      exact ⟨_, hobj, hb.mp hover⟩
    · simp only [hover, if_false]
      refine h.setPc hr (by rw [hpc]; rfl) ?_
      rw [ReaderFacts, setReader_self]
      exact ⟨_, hobj, Bool.eq_false_iff.mpr fun hb' => hover (hb.mpr hb')⟩
  | data =>
    rw [hpc] at hfacts hstep
    dsimp only at hfacts hstep
    obtain ⟨obj, hobj, hover⟩ := hfacts
    rw [h.data_loads hpickle hr hobj hover] at hstep
    obtain rfl := Option.some.inj hstep
    refine h.setPc hr (by rw [hpc]; rfl) ?_
    rw [ReaderFacts, setReader_self]
    rw [Reader.reads, hpc] at hobj
    exact ⟨hobj, hover⟩
  | mark obj =>
    rw [hpc] at hstep
    dsimp only at hstep
    cases obj with
    | some obj =>
      obtain rfl := Option.some.inj hstep
      rw [hpc] at hfacts
      obtain ⟨hobj, hover⟩ := hfacts
      have hnext := h.sent_getElem? hobj hover
      have hlt := (List.getElem?_eq_some_iff.mp hobj).1
      rw [Reader.reads, hpc] at hnext
      refine h.of_reader hframe (h.ring.mark hr hlt ?_ rfl) ?_ ?_
      · simp only [Reader.reads, hpc, ReaderPc.receiving, List.length_append,
          List.length_singleton]
      · rw [ReaderFacts, setReader_self]
        trivial
      · refine (h.received r hr).obtain hframe.sent hnext ?_ ?_ rfl
        · rw [setReader_self]
        · rw [setReader_self, hover]
          rfl
    | none =>
      obtain rfl := Option.some.inj hstep
      rw [hpc] at hfacts
      obtain ⟨obj, hobj, hover⟩ := hfacts
      have hlt := (List.getElem?_eq_some_iff.mp hobj).1
      refine h.of_reader hframe (h.ring.mark hr hlt ?_ rfl) ?_ ?_
      · simp only [Reader.reads, hpc, ReaderPc.receiving, add_zero]
      · rw [Reader.reads, hpc] at hobj
        rw [ReaderFacts, setReader_self]
        exact ⟨obj, hobj, hover⟩
      · exact (h.received r hr).congr hframe.sent (by rw [setReader_self])
          (by rw [setReader_self]) rfl
  | recv =>
    rw [hpc] at hstep
    dsimp only at hstep
    cases hsocket : (s.readers r).socket with
    | nil =>
      rw [hsocket] at hstep
      cases hstep
    | cons message rest =>
      obtain ⟨obj, hnext, hover, hmessage, hloads⟩ := h.message hpickle hr hpc hsocket
      rw [hsocket] at hstep
      dsimp only at hstep
      rw [hloads] at hstep
      obtain rfl := Option.some.inj hstep
      refine h.of_reader hframe (h.ring.congr rfl rfl rfl rfl rfl rfl rfl rfl ?_) ?_ ?_
      · intro q
        by_cases hq : q = r
        · rw [hq, setReader_self, Reader.reads, Reader.reads, hpc]
          simp [ReaderPc.receiving]
        · rw [(hframe.others q hq).1]
          exact ⟨rfl, rfl⟩
      · rw [ReaderFacts, setReader_self]
        trivial
      · refine (h.received r hr).obtain hframe.sent hnext ?_ ?_ rfl
        · rw [setReader_self]
        · rw [setReader_self, hover, hsocket, hmessage]
          rfl
  | raised =>
    rw [hpc] at hfacts
    exact hfacts.elim

end ReaderSteps

section WriterSteps

variable {pickle : Pickle α}

lemma ReaderFacts.of_writer (h : s.ReaderFacts pickle r) (hreaders : s'.readers = s.readers)
    (hbytes : s'.buffer.maxChunkBytes = s.buffer.maxChunkBytes)
    (hflag : ∀ c, s.buffer.metadata c (r + 1) = false → s'.buffer.metadata c (r + 1) = false)
    (hbegins : s.enqueued <+: s'.enqueued) : s'.ReaderFacts pickle r :=
  h.mono (by rw [hreaders]) (by rw [hreaders]) (by rw [hreaders]) hbytes (hflag _) hbegins

lemma Kept.chunk_free {obj : α} {readCount : Nat} (h : s.Kept pickle)
    (hwriter : s.writer = .count obj s.buffer.nReader readCount)
    (hfree : s.buffer.metadata s.currentIdx 0 = true → readCount = s.buffer.nReader) {q : Nat}
    (hq : q < s.buffer.nReader) :
    s.enqueued.length + 1 ≤ (s.readers q).reads + s.buffer.maxChunks := by
  have hfacts := h.writer
  rw [WriterFacts, hwriter] at hfacts
  obtain ⟨-, -, hflags⟩ := hfacts
  rw [h.ring.idx] at hfree hflags
  rcases Nat.lt_or_ge s.enqueued.length s.buffer.maxChunks with hlt | hge
  · omega
  · have hchunks := h.ring.chunks
    have hback := Nat.sub_add_cancel hge
    have hwriting : s.writer.writing = false := by rw [hwriter]; rfl
    rw [Nat.mod_eq_sub_mod hge] at hfree hflags
    have hwritten := (h.ring.written (s.enqueued.length - s.buffer.maxChunks) (by omega)
      hback.ge).mpr (by rw [hwriting]; exact fun hboth => Bool.false_ne_true hboth.1)
    have hread := (h.ring.read q hq _ (by omega) hback.ge).mp (hflags (hfree hwritten) q hq)
    omega

/-- What a step of the writer leaves alone, when it sends nothing. -/
structure WriterFrame (s s' : State α) : Prop where
  readers : s'.readers = s.readers
  nReader : s'.buffer.nReader = s.buffer.nReader
  maxChunkBytes : s'.buffer.maxChunkBytes = s.buffer.maxChunkBytes
  flag : ∀ c q, s.buffer.metadata c (q + 1) = false → s'.buffer.metadata c (q + 1) = false

/-- A step of the writer that enqueues and sends nothing. -/
lemma Kept.of_writer (h : s.Kept pickle) (hframe : WriterFrame s s')
    (henqueued : s'.enqueued = s.enqueued) (hsending : s'.writer.sending = s.writer.sending)
    (hring : s'.Ring) (hcontents : s'.Contents pickle) (hfacts : s'.WriterFacts pickle) :
    s'.Kept pickle := by
  have hsent : s'.sent = s.sent := by rw [sent, sent, henqueued, hsending]
  constructor
  · exact hring
  · exact hcontents
  · exact hfacts
  · intro q hq
    rw [hframe.nReader] at hq
    exact (h.readers q hq).of_writer hframe.readers hframe.maxChunkBytes (hframe.flag · q)
      (henqueued ▸ List.prefix_rfl)
  · intro q hq
    rw [hframe.nReader] at hq
    exact (h.received q hq).congr hsent (by rw [hframe.readers]) (by rw [hframe.readers])
      hframe.maxChunkBytes

/-- Steps that change nothing but the writer's place and the calls. -/
lemma Kept.setWriter {pc : WriterPc α} {called : List α} (h : s.Kept pickle)
    (hclaim : s.writer.claim = 0) (hsending : s.writer.sending = 0) (hpc : pc.claim = 0)
    (hpcSending : pc.sending = 0)
    (hfacts : WriterFacts pickle { s with writer := pc, called := called }) :
    Kept pickle { s with writer := pc, called := called } := by
  have hwriting : ∀ pc : WriterPc α, pc.claim = 0 → pc.writing = false ∧ pc.resetTo = 0 := by
    intro pc hpc
    cases pc <;> first | exact ⟨rfl, rfl⟩ | cases hpc
  obtain ⟨hold, holdReset⟩ := hwriting _ hclaim
  obtain ⟨hnew, hnewReset⟩ := hwriting _ hpc
  refine h.of_writer ⟨rfl, rfl, rfl, fun _ _ => id⟩ rfl (by rw [hsending, hpcSending]) ?_ ?_ hfacts
  · exact h.ring.congr rfl rfl rfl rfl rfl (by rw [hclaim, hpc]) (by rw [hold, hnew])
      (by rw [holdReset, hnewReset]) fun _ => ⟨rfl, rfl⟩
  · exact h.contents.congr rfl rfl rfl rfl (by rw [hold]; exact fun h => nomatch h)

lemma Ring.claim {obj : α} (h : s.Ring) (hclaim : s.writer.claim = 0)
    (hfree : ∀ q < s.buffer.nReader,
      s.enqueued.length + 1 ≤ (s.readers q).reads + s.buffer.maxChunks) :
    Ring { s with writer := .clear obj } := by
  have hwriting : s.writer.writing = false := by
    refine Bool.eq_false_iff.mpr fun hwriting => ?_
    rw [WriterPc.claim_of_writing hwriting] at hclaim
    cases hclaim
  have hreset : s.writer.resetTo = 0 := by
    refine Nat.eq_zero_of_not_pos fun hpos => ?_
    rw [WriterPc.writing_of_resetTo hpos] at hwriting
    cases hwriting
  obtain ⟨h₁, h₂, h₃, h₄, h₅, h₆, h₇, h₈, h₉⟩ := h
  rw [hwriting] at h₆
  rw [hreset] at h₈
  exact ⟨h₁, h₂, h₃, h₄, hfree, h₆, h₇, h₈, h₉⟩

/-- The index error of a chunk without bytes comes before anything is enqueued. -/
lemma Kept.raise {obj : α} (h : s.Kept pickle) (hwriter : s.writer = .first obj)
    (hbytes : s.buffer.maxChunkBytes = 0) : Kept pickle { s with writer := .idle } := by
  have hempty : s.enqueued = [] := by
    by_contra hne
    have hpos := h.contents.pos hne
    omega
  have hnone : ∀ t, ¬ t < s.enqueued.length := by simp [hempty]
  refine h.of_writer ⟨rfl, rfl, rfl, fun _ _ => id⟩ rfl (by rw [hwriter]; rfl) ?_ ?_ trivial
  · obtain ⟨h₁, h₂, h₃, h₄, h₅, -, h₇, -, h₉⟩ := h.ring
    refine ⟨h₁, h₂, h₃, h₄, fun r hr => ?_, fun t ht => absurd ht (hnone t), h₇,
      fun r _ t ht => absurd ht (hnone t), h₉⟩
    have hwindow := h₅ r hr
    change s.enqueued.length + 0 ≤ (s.readers r).reads + s.buffer.maxChunks
    omega
  · refine ⟨h.contents.length, h.contents.pos, fun t obj hobj => ?_⟩
    exact absurd (List.getElem?_eq_some_iff.mp hobj).1 (hnone t)

lemma Kept.handOver {obj : α} {i : Nat} (h : s.Kept pickle) (hwriter : s.writer = .reset obj i)
    (hi : s.buffer.nReader ≤ i) (hholds : s.Holds pickle (s.buffer.data s.currentIdx) obj) :
    Kept pickle { s with
      writer := if s.overflows pickle obj then .send obj else .idle
      buffer := s.buffer.setFlag s.currentIdx 0 true
      currentIdx := (s.currentIdx + 1) % s.buffer.maxChunks
      enqueued := s.enqueued ++ [obj] } := by
  have hclaim : (if s.overflows pickle obj then WriterPc.send obj else .idle).claim = 0 := by
    split_ifs <;> rfl
  have hold : s.sent = s.enqueued := by
    rw [sent, hwriter]
    exact List.take_length
  refine ⟨h.ring.handOver hwriter hi hclaim, h.contents.handOver h.ring hholds, ?_, ?_, ?_⟩
  · by_cases hover : s.overflows pickle obj = true
    · simp only [WriterFacts, hover, if_true]
      exact ⟨hover, s.enqueued, rfl⟩
    · simp only [WriterFacts, hover]
      trivial
  · intro q hq
    refine (h.readers q hq).of_writer rfl rfl (fun c hflag => ?_) (List.prefix_append _ _)
    simpa using hflag
  · intro q hq
    by_cases hover : s.overflows pickle obj = true
    · refine (h.received q hq).congr ?_ rfl rfl rfl
      rw [hold, sent]
      simp [hover, WriterPc.sending]
    · refine (h.received q hq).append (show _ = s.sent ++ [obj] from ?_) rfl ?_ rfl
      · rw [hold, sent]
        simp only [hover, WriterPc.sending]
        exact List.take_length
      · simp [hover]

lemma Kept.send {obj : α} {before : List α} (h : s.Kept pickle) (hwriter : s.writer = .send obj)
    (hover : s.overflows pickle obj = true) (hbefore : s.enqueued = before ++ [obj]) :
    Kept pickle { s with
      writer := .idle
      readers := fun r => { s.readers r with
        socket := (s.readers r).socket ++ [pickle.dumps obj] } } := by
  refine ⟨?_, ?_, trivial, ?_, ?_⟩
  · exact h.ring.congr rfl rfl rfl rfl rfl (by rw [hwriter]; rfl) (by rw [hwriter]; rfl)
      (by rw [hwriter]; rfl) fun _ => ⟨rfl, rfl⟩
  · exact h.contents.congr rfl rfl rfl rfl (by rw [hwriter]; exact fun h => nomatch h)
  · exact fun q hq => (h.readers q hq).mono rfl rfl rfl rfl id List.prefix_rfl
  · intro q hq
    refine (h.received q hq).append (show _ = s.sent ++ [obj] from ?_) rfl ?_ rfl
    · have hlength : (before ++ [obj]).length - 1 = before.length := by simp
      simp only [sent, hwriter, hbefore, WriterPc.sending, hlength, List.take_left, Nat.sub_zero,
        List.take_length]
    · simp [hover]

lemma Kept.writerStep (h : s.Kept pickle) (hstep : s.writerStep pickle = some s') :
    s'.Kept pickle := by
  have hfacts := h.writer
  unfold WriterFacts at hfacts
  unfold State.writerStep at hstep
  cases hwriter : s.writer with
  | idle =>
    rw [hwriter] at hstep
    cases hstep
  | count obj i readCount =>
    rw [hwriter] at hfacts hstep
    dsimp only at hfacts hstep
    obtain ⟨hi, hle, hflags⟩ := hfacts
    have hclaim : s.writer.claim = 0 := by rw [hwriter]; rfl
    have hsending : s.writer.sending = 0 := by rw [hwriter]; rfl
    split_ifs at hstep with hlt hagain
    · obtain rfl := Option.some.inj hstep
      have hflag := Bool.toNat_le (s.buffer.metadata s.currentIdx (i + 1))
      refine h.setWriter hclaim hsending rfl rfl
        ⟨hlt, Nat.add_le_add hle hflag, fun heq r hr => ?_⟩
      change readCount + _ = i + 1 at heq
      rcases Nat.lt_succ_iff_lt_or_eq.mp hr with hr | rfl
      · exact hflags (by omega) r hr
      · have hone : (s.buffer.metadata s.currentIdx (r + 1)).toNat = 1 := by omega
        exact Bool.toNat_eq_one.mp hone
    · obtain rfl := Option.some.inj hstep
      exact h.setWriter hclaim hsending rfl rfl ⟨Nat.zero_le _, le_rfl,
        fun _ r hr => absurd hr (Nat.not_lt_zero r)⟩
    · obtain rfl := Option.some.inj hstep
      have hn : i = s.buffer.nReader := by omega
      subst hn
      refine h.of_writer ⟨rfl, rfl, rfl, fun _ _ => id⟩ rfl (by rw [hsending]; rfl) ?_ ?_ trivial
      · refine h.ring.claim hclaim fun q hq => h.chunk_free hwriter (fun hwritten => ?_) hq
        by_contra hne
        exact hagain ⟨hwritten, hne⟩
      · exact h.contents.congr rfl rfl rfl rfl (by rw [hwriter]; exact fun h => nomatch h)
  | clear obj =>
    rw [hwriter] at hstep
    obtain rfl := Option.some.inj hstep
    refine h.of_writer ⟨rfl, rfl, rfl, fun c q hflag => ?_⟩ rfl (by rw [hwriter]; rfl)
      (h.ring.clear hwriter) ?_ trivial
    · simpa using hflag
    · exact h.contents.congr rfl rfl rfl rfl fun _ => rfl
  | first obj =>
    have hlength := h.contents.length s.currentIdx
    have hwriting : s.writer.writing = true := by rw [hwriter]; rfl
    rw [hwriter] at hstep
    dsimp only at hstep
    cases hdata : s.buffer.data s.currentIdx with
    | nil =>
      rw [hdata] at hstep hlength
      obtain rfl := Option.some.inj hstep
      exact h.raise hwriter hlength.symm
    | cons b bytes =>
      rw [hdata] at hstep hlength
      dsimp only at hstep
      split_ifs at hstep with hover
      · obtain rfl := Option.some.inj hstep
        refine h.of_writer ⟨rfl, rfl, rfl, fun _ _ => id⟩ rfl (by rw [hwriter]; rfl) ?_
          (h.contents.setData h.ring rfl hlength) ⟨Nat.zero_le _, ?_⟩
        · exact h.ring.congr rfl rfl rfl rfl rfl (by rw [hwriter]; rfl) (by rw [hwriter]; rfl)
            (by rw [hwriter]; rfl) fun _ => ⟨rfl, rfl⟩
        · rw [setData_data_self]
          refine Holds.congr (s := s) rfl ?_
          rw [Holds, if_pos hover]
          exact ⟨bytes, rfl⟩
      · obtain rfl := Option.some.inj hstep
        refine h.of_writer ⟨rfl, rfl, rfl, fun _ _ => id⟩ rfl (by rw [hwriter]; rfl) ?_
          (h.contents.setData h.ring rfl hlength) ⟨Bool.eq_false_iff.mpr hover, bytes, ?_⟩
        · exact h.ring.congr rfl rfl rfl rfl rfl (by rw [hwriter]; rfl) (by rw [hwriter]; rfl)
            (by rw [hwriter]; rfl) fun _ => ⟨rfl, rfl⟩
        · exact setData_data_self ..
  | data obj =>
    rw [hwriter] at hfacts hstep
    obtain ⟨hover, rest, hdata⟩ := hfacts
    dsimp only at hstep
    rw [hdata] at hstep
    obtain rfl := Option.some.inj hstep
    have hlength := h.contents.length s.currentIdx
    have hfits : (pickle.dumps obj).length < s.buffer.maxChunkBytes := by
      simpa [overflows] using hover
    rw [hdata, List.length_cons] at hlength
    have hbytes : (0 :: rest).take 1 ++ pickle.dumps obj ++
        (0 :: rest).drop ((pickle.dumps obj).length + 1) =
        0 :: (pickle.dumps obj ++ rest.drop (pickle.dumps obj).length) := rfl
    rw [hbytes]
    refine h.of_writer ⟨rfl, rfl, rfl, fun _ _ => id⟩ rfl (by rw [hwriter]; rfl) ?_
      (h.contents.setData h.ring rfl ?_) ⟨Nat.zero_le _, ?_⟩
    · exact h.ring.congr rfl rfl rfl rfl rfl (by rw [hwriter]; rfl) (by rw [hwriter]; rfl)
        (by rw [hwriter]; rfl) fun _ => ⟨rfl, rfl⟩
    · rw [List.length_cons, List.length_append, List.length_drop]
      omega
    · rw [setData_data_self]
      refine Holds.congr (s := s) rfl ?_
      rw [Holds, hover, if_neg Bool.false_ne_true]
      exact ⟨_, rfl⟩
  | reset obj i =>
    rw [hwriter] at hfacts hstep
    obtain ⟨hi, hholds⟩ := hfacts
    dsimp only at hstep
    by_cases hlt : i < s.buffer.nReader
    · rw [if_pos hlt] at hstep
      obtain rfl := Option.some.inj hstep
      refine h.of_writer ⟨rfl, rfl, rfl, fun c q hflag => ?_⟩ rfl (by rw [hwriter]; rfl)
        (h.ring.reset hwriter) ?_ ⟨hlt, hholds.congr rfl⟩
      · simp only [setFlag_metadata]
        split_ifs
        · rfl
        · exact hflag
      · exact h.contents.congr rfl rfl rfl rfl fun _ => rfl
    · rw [if_neg hlt] at hstep
      obtain rfl := Option.some.inj hstep
      exact h.handOver hwriter (not_lt.mp hlt) hholds
  | send obj =>
    rw [hwriter] at hfacts hstep
    obtain ⟨hover, before, hbefore⟩ := hfacts
    obtain rfl := Option.some.inj hstep
    exact h.send hwriter hover hbefore

end WriterSteps

end State

end ShmBroadcast
