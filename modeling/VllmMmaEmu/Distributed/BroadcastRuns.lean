import Mathlib.Logic.Relation
import VllmMmaEmu.Distributed.BroadcastSteps
import VllmMmaEmu.Library.Runs

/-!
# Runs of the broadcast queue

In every state that is reached, a reader has obtained the first of the enqueued objects in
order. A reader that is behind goes on by steps of its own, and so does the writer when no
reader is a lap behind.
-/

namespace ShmBroadcast

open CircularBuffer

namespace State

variable {α : Type} {s s' : State α} {r : Nat}

section Runs

variable {pickle : Pickle α}

abbrev ReachedFrom (pickle : Pickle α) (buffer : ShmRingBuffer) : State α → Prop :=
  Runs.Reached (· = start buffer) (fun _ _ => True) fun s e s' => s.step pickle e = some s'

lemma Kept.start {nReader maxChunkBytes maxChunks : Nat} {buffer : ShmRingBuffer}
    (h : ShmRingBuffer.create nReader maxChunkBytes maxChunks = .ok buffer) :
    (State.start buffer).Kept pickle := by
  unfold ShmRingBuffer.create at h
  split_ifs at h with hsize
  obtain rfl := Except.ok.inj h
  have hchunks : 0 < maxChunks := by
    refine Nat.pos_of_ne_zero fun hzero => hsize ?_
    rw [hzero, Nat.mul_zero]
  refine ⟨?_, ?_, trivial, fun _ _ => trivial, fun _ _ => ⟨List.nil_prefix, rfl⟩⟩
  · exact ⟨hchunks, (Nat.zero_mod _).symm, fun _ _ => (Nat.zero_mod _).symm, fun _ _ => le_rfl,
      fun _ _ => Nat.zero_le _, fun _ ht => absurd ht (Nat.not_lt_zero _), fun _ _ _ => rfl,
      fun _ _ _ ht => absurd ht (Nat.not_lt_zero _), fun _ _ _ _ _ => rfl⟩
  · exact ⟨fun _ => List.length_replicate, fun hne => absurd rfl hne, fun _ _ h => nomatch h⟩

lemma Kept.step (hpickle : pickle.IgnoresRest) {e : Event α} (h : s.Kept pickle)
    (hstep : s.step pickle e = some s') : s'.Kept pickle := by
  cases e with
  | enqueue obj =>
    cases hwriter : s.writer with
    | idle =>
      simp only [State.step, hwriter] at hstep
      obtain rfl := Option.some.inj hstep
      split_ifs
      · exact h.setWriter (by rw [hwriter]; rfl) (by rw [hwriter]; rfl) rfl rfl
          ⟨Nat.zero_le _, le_rfl, fun _ q hq => absurd hq (Nat.not_lt_zero q)⟩
      · exact h.setWriter (by rw [hwriter]; rfl) (by rw [hwriter]; rfl) rfl rfl trivial
    | count | clear | first | data | reset | send =>
      simp only [State.step, hwriter] at hstep
      cases hstep
  | writer => exact h.writerStep hstep
  | reader r =>
    simp only [State.step] at hstep
    split_ifs at hstep with hr
    exact h.readerStep hpickle hr hstep

/-- How many steps a reader is away from its next object, when that is there. -/
def away : ReaderPc α → Nat
  | .checkWritten true => 6
  | .checkRead => 5
  | .checkWritten false => 4
  | .first => 3
  | .data => 2
  | .mark _ => 1
  | .recv => 0
  | .raised => 0

lemma next_of_behind (hbehind : (s.readers r).obtained.length < s.sent.length)
    (hreceiving : (s.readers r).pc.receiving = 0) :
    ∃ obj, s.enqueued[(s.readers r).reads]? = some obj := by
  have hle : s.sent.length ≤ s.enqueued.length := List.length_take_le' _ _
  rw [Reader.reads, hreceiving, add_zero]
  exact ⟨_, List.getElem?_eq_getElem (by omega)⟩

/-- A reader that is behind obtains an object or comes closer to it by a step. -/
lemma Kept.reader_advances (hpickle : pickle.IgnoresRest) (h : s.Kept pickle)
    (hr : r < s.buffer.nReader)
    (hbehind : (s.readers r).obtained.length < s.sent.length) :
    ∃ s', s.readerStep pickle r = some s' ∧
      ((∃ obj, (s'.readers r).obtained = (s.readers r).obtained ++ [obj]) ∨
        (s'.readers r).obtained = (s.readers r).obtained ∧
          away (s'.readers r).pc < away (s.readers r).pc) := by
  have hfacts := h.readers r hr
  unfold ReaderFacts at hfacts
  unfold State.readerStep
  dsimp only
  cases hpc : (s.readers r).pc with
  | checkRead =>
    obtain ⟨obj, hobj⟩ := next_of_behind hbehind (by rw [hpc]; rfl)
    have hflag := (h.ring.offered hr (List.getElem?_eq_some_iff.mp hobj).1).2.1
    refine ⟨_, rfl, Or.inr ?_⟩
    rw [setReader_self, hflag]
    exact ⟨rfl, show 4 < 5 by decide⟩
  | checkWritten readFlag =>
    obtain ⟨obj, hobj⟩ := next_of_behind hbehind (by rw [hpc]; rfl)
    have hwritten := (h.ring.offered hr (List.getElem?_eq_some_iff.mp hobj).1).1
    cases readFlag with
    | false =>
      simp only [hwritten, Bool.not_true, Bool.or_false, Bool.false_eq_true, if_false]
      refine ⟨_, rfl, Or.inr ?_⟩
      rw [setReader_self]
      exact ⟨rfl, show 3 < 4 by decide⟩
    | true =>
      simp only [Bool.or_true, if_true]
      refine ⟨_, rfl, Or.inr ?_⟩
      rw [setReader_self]
      exact ⟨rfl, show 5 < 6 by decide⟩
  | first =>
    obtain ⟨obj, hobj⟩ := next_of_behind hbehind (by rw [hpc]; rfl)
    obtain ⟨b, rest, hdata, -⟩ := h.first_reads hr hobj
    simp only [hdata]
    refine ⟨_, rfl, Or.inr ?_⟩
    rw [setReader_self]
    refine ⟨rfl, ?_⟩
    dsimp only
    split_ifs
    · exact show 1 < 3 by decide
    · exact show 2 < 3 by decide
  | data =>
    rw [hpc] at hfacts
    obtain ⟨obj, hobj, hover⟩ := hfacts
    simp only [h.data_loads hpickle hr hobj hover]
    refine ⟨_, rfl, Or.inr ?_⟩
    rw [setReader_self]
    exact ⟨rfl, show 1 < 2 by decide⟩
  | mark obj =>
    cases obj with
    | some obj =>
      refine ⟨_, rfl, Or.inl ⟨obj, ?_⟩⟩
      rw [setReader_self]
    | none =>
      refine ⟨_, rfl, Or.inr ?_⟩
      rw [setReader_self]
      exact ⟨rfl, show 0 < 1 by decide⟩
  | recv =>
    rw [hpc] at hfacts
    obtain ⟨obj, hobj, hover⟩ := hfacts
    have hnext : s.sent[(s.readers r).obtained.length] = obj := by
      have hget := getElem?_of_isPrefix (List.take_prefix _ s.enqueued)
        (List.getElem?_eq_getElem hbehind)
      exact Option.some.inj (hget.symm.trans hobj)
    have hsocket := (h.received r hr).socket
    rw [List.drop_eq_getElem_cons hbehind, hnext, List.filter_cons_of_pos hover,
      List.map_cons] at hsocket
    obtain ⟨obj', -, -, -, hloads⟩ := h.message hpickle hr hpc hsocket
    simp only [hsocket, hloads]
    refine ⟨_, rfl, Or.inl ⟨obj', ?_⟩⟩
    rw [setReader_self]
  | raised =>
    rw [hpc] at hfacts
    exact hfacts.elim

lemma Kept.reader_obtains (hpickle : pickle.IgnoresRest) (h : s.Kept pickle)
    (hr : r < s.buffer.nReader)
    (hbehind : (s.readers r).obtained.length < s.sent.length) :
    ∃ s' obj, Relation.ReflTransGen (fun s s' => s.step pickle (.reader r) = some s') s s' ∧
      (s'.readers r).obtained = (s.readers r).obtained ++ [obj] := by
  obtain ⟨n, hn⟩ : ∃ n, away (s.readers r).pc = n := ⟨_, rfl⟩
  induction n using Nat.strong_induction_on generalizing s with
  | _ n ih =>
    obtain ⟨s₁, hstep, hnext⟩ := h.reader_advances hpickle hr hbehind
    have hstep' : s.step pickle (.reader r) = some s₁ := by rw [State.step, if_pos hr, hstep]
    rcases hnext with ⟨obj, hobj⟩ | ⟨hsame, hcloser⟩
    · exact ⟨s₁, obj, .single hstep', hobj⟩
    · have hframe := readerStep_frame hstep
      obtain ⟨s', obj, hsteps, hobj⟩ := ih _ (hn ▸ hcloser) (h.readerStep hpickle hr hstep)
        (by rw [hframe.nReader]; exact hr) (by rw [hsame, hframe.sent]; exact hbehind) rfl
      exact ⟨s', obj, .head hstep' hsteps, by rw [hobj, hsame]⟩

/-- How many steps the writer is away from the end of its call, when its chunk is free. -/
def toGo (s : State α) : Nat :=
  let n := s.buffer.nReader
  match s.writer with
  | .count _ i readCount =>
    if readCount = i ∨ s.buffer.metadata s.currentIdx 0 = false then (n - i) + n + 7
    else (n - i) + 2 * n + 9
  | .clear _ => n + 6
  | .first _ => n + 5
  | .data _ => n + 4
  | .reset _ i => (n - i) + 2
  | .send _ => 1
  | .idle => 0

/-- No reader is a lap behind. -/
def Free (s : State α) : Prop :=
  ∀ r < s.buffer.nReader, s.enqueued.length < (s.readers r).reads + s.buffer.maxChunks

/-- The read flags of a chunk that was written and read by all. -/
lemma Ring.flags_of_free (h : s.Ring) (hclaim : s.writer.claim = 0)
    (hfree : s.Free) (hwritten : s.buffer.metadata s.currentIdx 0 = true) {q : Nat}
    (hq : q < s.buffer.nReader) : s.buffer.metadata s.currentIdx (q + 1) = true := by
  have hreset : ¬ q < s.writer.resetTo := by
    intro hlt
    rw [WriterPc.claim_of_writing (WriterPc.writing_of_resetTo hlt)] at hclaim
    cases hclaim
  rw [h.idx] at hwritten ⊢
  rcases Nat.lt_or_ge s.enqueued.length s.buffer.maxChunks with hlt | hge
  · rw [Nat.mod_eq_of_lt hlt, h.unwritten _ hlt le_rfl] at hwritten
    cases hwritten
  · have hchunks := h.chunks
    have hback := Nat.sub_add_cancel hge
    have hreads := hfree q hq
    rw [Nat.mod_eq_sub_mod hge, h.read q hq _ (by omega) hback.ge]
    exact ⟨by omega, fun hboth => hreset hboth.1⟩

/-- The writer ends its call or comes closer to that by a step. -/
lemma Kept.writer_advances (h : s.Kept pickle)
    (hfree : ∀ obj i readCount, s.writer = .count obj i readCount → s.Free)
    (hcalled : s.writer ≠ .idle) :
    ∃ s', s.writerStep pickle = some s' ∧ s'.toGo < s.toGo ∧
      ∀ obj i readCount, s'.writer = .count obj i readCount → s'.Free := by
  have hfacts := h.writer
  unfold WriterFacts at hfacts
  unfold State.writerStep
  cases hwriter : s.writer with
  | idle => exact absurd hwriter hcalled
  | count obj i readCount =>
    rw [hwriter] at hfacts
    obtain ⟨hi, hle, -⟩ := hfacts
    have hnow := hfree obj i readCount hwriter
    have hflags := fun hwritten q hq => h.ring.flags_of_free (by rw [hwriter]; rfl) hnow hwritten
      (q := q) hq
    dsimp only
    by_cases hlt : i < s.buffer.nReader
    · rw [if_pos hlt]
      refine ⟨_, rfl, ?_, fun _ _ _ _ => hnow⟩
      simp only [toGo, hwriter]
      cases hwritten : s.buffer.metadata s.currentIdx 0 with
      | false =>
        simp only [or_true, if_true]
        omega
      | true =>
        rw [hflags hwritten i hlt]
        simp only [Bool.toNat_true, Nat.add_right_cancel_iff, Bool.true_eq_false, or_false]
        split_ifs <;> omega
    · rw [if_neg hlt]
      by_cases hagain : s.buffer.metadata s.currentIdx 0 = true ∧ readCount ≠ s.buffer.nReader
      · rw [if_pos hagain]
        refine ⟨_, rfl, ?_, fun _ _ _ _ => hnow⟩
        simp only [toGo, hwriter, hagain.1, true_or, if_true]
        rw [if_neg (by simp; omega)]
        omega
      · rw [if_neg hagain]
        refine ⟨_, rfl, ?_, fun _ _ _ hcount => nomatch hcount⟩
        simp only [toGo, hwriter]
        split_ifs <;> omega
  | clear obj =>
    refine ⟨_, rfl, ?_, fun _ _ _ hcount => nomatch hcount⟩
    simp only [toGo, hwriter, setFlag_nReader]
    omega
  | first obj =>
    dsimp only
    cases hdata : s.buffer.data s.currentIdx with
    | nil =>
      refine ⟨_, rfl, ?_, fun _ _ _ hcount => nomatch hcount⟩
      simp only [toGo, hwriter]
      omega
    | cons b bytes =>
      by_cases hover : s.overflows pickle obj = true
      · simp only [hover, if_true]
        refine ⟨_, rfl, ?_, fun _ _ _ hcount => nomatch hcount⟩
        simp only [toGo, hwriter, setData_nReader]
        omega
      · simp only [hover]
        refine ⟨_, rfl, ?_, fun _ _ _ hcount => nomatch hcount⟩
        simp only [toGo, hwriter, setData_nReader]
        omega
  | data obj =>
    refine ⟨_, rfl, ?_, fun _ _ _ hcount => nomatch hcount⟩
    simp only [toGo, hwriter, setData_nReader]
    omega
  | reset obj i =>
    dsimp only
    by_cases hlt : i < s.buffer.nReader
    · rw [if_pos hlt]
      refine ⟨_, rfl, ?_, fun _ _ _ hcount => nomatch hcount⟩
      simp only [toGo, hwriter, setFlag_nReader]
      omega
    · rw [if_neg hlt]
      by_cases hover : s.overflows pickle obj = true
      · simp only [hover, if_true]
        refine ⟨_, rfl, ?_, fun _ _ _ hcount => nomatch hcount⟩
        simp only [toGo, hwriter]
        omega
      · simp only [hover, Bool.false_eq_true, if_false]
        refine ⟨_, rfl, ?_, fun _ _ _ hcount => nomatch hcount⟩
        simp only [toGo, hwriter]
        omega
  | send obj =>
    refine ⟨_, rfl, ?_, fun _ _ _ hcount => nomatch hcount⟩
    simp only [toGo, hwriter]
    omega

/-- The writer ends its call by steps of its own when no reader is a lap behind. -/
lemma Kept.writer_returns (h : s.Kept pickle)
    (hfree : ∀ obj i readCount, s.writer = .count obj i readCount → s.Free) :
    ∃ s', Relation.ReflTransGen (fun s s' => s.step pickle .writer = some s') s s' ∧
      s'.writer = .idle := by
  obtain ⟨n, hn⟩ : ∃ n, s.toGo = n := ⟨_, rfl⟩
  induction n using Nat.strong_induction_on generalizing s with
  | _ n ih =>
    by_cases hidle : s.writer = .idle
    · exact ⟨s, .refl, hidle⟩
    · obtain ⟨s₁, hstep, hcloser, hfree₁⟩ := h.writer_advances hfree hidle
      obtain ⟨s', hsteps, hdone⟩ := ih _ (hn ▸ hcloser) (h.writerStep hstep) hfree₁ rfl
      exact ⟨s', .head hstep hsteps, hdone⟩

/-- The reader reads the chunk, or the chunk is offered to it. -/
def MayRead (s : State α) (r c : Nat) : Prop :=
  (s.buffer.metadata c 0 = true ∧ s.buffer.metadata c (r + 1) = false) ∨
    ((s.readers r).currentIdx = c ∧
      match (s.readers r).pc with
      | .first | .data | .mark _ => True
      | .checkRead | .checkWritten _ | .recv | .raised => False)

lemma Ring.chunk_unwritten (h : s.Ring) (hwriting : s.writer.writing = true) :
    s.buffer.metadata s.currentIdx 0 = false := by
  rw [h.idx]
  rcases Nat.lt_or_ge s.enqueued.length s.buffer.maxChunks with hlt | hge
  · exact h.unwritten _ (Nat.mod_lt _ h.chunks) (by rw [Nat.mod_eq_of_lt hlt])
  · have hchunks := h.chunks
    have hback := Nat.sub_add_cancel hge
    refine Bool.eq_false_iff.mpr fun hwritten => ?_
    rw [Nat.mod_eq_sub_mod hge, h.written _ (by omega) hback.ge] at hwritten
    exact hwritten ⟨hwriting, hback⟩

lemma Kept.not_mayRead (h : s.Kept pickle) (hwriting : s.writer.writing = true)
    (hr : r < s.buffer.nReader) : ¬ s.MayRead r s.currentIdx := by
  rintro (⟨hwritten, -⟩ | ⟨hidx, hreading⟩)
  · rw [h.ring.chunk_unwritten hwriting] at hwritten
    cases hwritten
  · have hlt : (s.readers r).reads < s.enqueued.length := by
      have hfacts := h.readers r hr
      unfold ReaderFacts at hfacts
      cases hpc : (s.readers r).pc with
      | first =>
        rw [hpc] at hfacts
        exact hfacts
      | data =>
        rw [hpc] at hfacts
        obtain ⟨obj, hobj, -⟩ := hfacts
        exact (List.getElem?_eq_some_iff.mp hobj).1
      | mark obj =>
        rw [hpc] at hfacts
        cases obj with
        | some obj => exact (List.getElem?_eq_some_iff.mp hfacts.1).1
        | none =>
          obtain ⟨obj, hobj, -⟩ := hfacts
          exact (List.getElem?_eq_some_iff.mp hobj).1
      | checkRead | checkWritten | recv | raised =>
        rw [hpc] at hreading
        exact hreading.elim
    have hwindow := h.ring.window r hr
    rw [WriterPc.claim_of_writing hwriting] at hwindow
    rw [h.ring.readerIdx r hr, h.ring.idx] at hidx
    exact slot_ne hlt (by omega) hidx

/-- Only the writer changes data, and only that of its chunk while it writes. -/
lemma step_data {e : Event α} {c : Nat} (hstep : s.step pickle e = some s')
    (hdata : s'.buffer.data c ≠ s.buffer.data c) :
    c = s.currentIdx ∧ s.writer.writing = true := by
  cases e with
  | enqueue obj =>
    simp only [step] at hstep
    split at hstep
    · obtain rfl := Option.some.inj hstep
      exact absurd rfl hdata
    · cases hstep
  | reader r =>
    simp only [step] at hstep
    split_ifs at hstep
    exact absurd (congrFun (readerStep_frame hstep).data c) hdata
  | writer =>
    by_contra hnot
    refine hdata ?_
    simp only [step, writerStep] at hstep
    cases hwriter : s.writer with
    | first obj =>
      rw [hwriter] at hstep hnot
      have hne : c ≠ s.currentIdx := fun hc => hnot ⟨hc, rfl⟩
      dsimp only at hstep
      split at hstep
      · rw [← Option.some.inj hstep]
      · split_ifs at hstep
        · rw [← Option.some.inj hstep, setData_data_of_ne _ _ _ hne]
        · rw [← Option.some.inj hstep, setData_data_of_ne _ _ _ hne]
    | data obj =>
      rw [hwriter] at hstep hnot
      have hne : c ≠ s.currentIdx := fun hc => hnot ⟨hc, rfl⟩
      rw [← Option.some.inj hstep, setData_data_of_ne _ _ _ hne]
    | idle =>
      rw [hwriter] at hstep
      cases hstep
    | clear obj | send obj =>
      rw [hwriter] at hstep
      obtain rfl := Option.some.inj hstep
      rfl
    | reset obj i =>
      rw [hwriter] at hstep
      dsimp only at hstep
      split_ifs at hstep
      all_goals
        rw [← Option.some.inj hstep]
        rfl
    | count obj i readCount =>
      rw [hwriter] at hstep
      dsimp only at hstep
      split_ifs at hstep
      all_goals rw [← Option.some.inj hstep]

/-- The object of the call that the writer is in, before its chunk is marked as written. -/
def pending (s : State α) : List α :=
  match s.writer with
  | .count obj _ _ | .clear obj | .first obj | .data obj | .reset obj _ => [obj]
  | .idle | .send _ => []

/-- No call of `enqueue` is lost: with readers and with bytes in the chunks, its object is
enqueued or pending. -/
def Accounted (s : State α) : Prop :=
  0 < s.buffer.nReader → 0 < s.buffer.maxChunkBytes → s.called = s.enqueued ++ s.pending

lemma Accounted.step {e : Event α} (h : s.Accounted) (hkept : s.Kept pickle)
    (hstep : s.step pickle e = some s') : s'.Accounted := by
  cases e with
  | enqueue obj =>
    cases hwriter : s.writer with
    | idle =>
      simp only [State.step, hwriter] at hstep
      obtain rfl := Option.some.inj hstep
      intro hreader hbytes
      have hold := h hreader hbytes
      simp only [pending, hwriter, List.append_nil] at hold
      simp only [pending, hold, if_pos hreader]
    | count | clear | first | data | reset | send =>
      simp only [State.step, hwriter] at hstep
      cases hstep
  | reader r =>
    simp only [State.step] at hstep
    split_ifs at hstep
    have hframe := readerStep_frame hstep
    rw [Accounted, pending, hframe.nReader, hframe.maxChunkBytes, hframe.called, hframe.enqueued,
      hframe.writer]
    exact h
  | writer =>
    simp only [State.step, writerStep] at hstep
    cases hwriter : s.writer with
    | idle =>
      rw [hwriter] at hstep
      cases hstep
    | first obj =>
      have hlength := hkept.contents.length s.currentIdx
      rw [Accounted, pending, hwriter] at h
      rw [hwriter] at hstep
      dsimp only at hstep
      split at hstep
      · rename_i hdata
        obtain rfl := Option.some.inj hstep
        intro _ hbytes
        rw [hdata] at hlength
        exact absurd hlength hbytes.ne
      · split_ifs at hstep
        all_goals
          obtain rfl := Option.some.inj hstep
          exact h
    | reset obj i =>
      rw [Accounted, pending, hwriter] at h
      rw [hwriter] at hstep
      dsimp only at hstep
      split_ifs at hstep with hlt hover
      · obtain rfl := Option.some.inj hstep
        exact h
      all_goals
        obtain rfl := Option.some.inj hstep
        intro hreader hbytes
        simp only [pending, List.append_nil]
        exact h hreader hbytes
    | count obj i readCount =>
      rw [Accounted, pending, hwriter] at h
      rw [hwriter] at hstep
      dsimp only at hstep
      split_ifs at hstep
      all_goals
        obtain rfl := Option.some.inj hstep
        exact h
    | clear obj | data obj | send obj =>
      rw [Accounted, pending, hwriter] at h
      rw [hwriter] at hstep
      obtain rfl := Option.some.inj hstep
      exact h

lemma Kept.obtained_called (h : s.Kept pickle) (haccounted : s.Accounted)
    (hr : r < s.buffer.nReader) : (s.readers r).obtained <+: s.called := by
  have hobtained : (s.readers r).obtained <+: s.enqueued :=
    (h.received r hr).obtained.trans (List.take_prefix _ _)
  by_cases hempty : s.enqueued = []
  · rw [hempty] at hobtained
    rw [List.prefix_nil.mp hobtained]
    exact List.nil_prefix
  · rw [haccounted (Nat.zero_lt_of_lt hr) (h.contents.pos hempty)]
    exact hobtained.trans (List.prefix_append _ _)

/-- What the queue is for: a reader obtains the first of the objects in the order of the
calls of `enqueue`; when it is behind what was sent, it obtains the next one by steps of its
own. The writer ends its call by steps of its own when no reader is a lap behind, and then all
objects are sent. A chunk is modified only while nobody may read it. -/
structure Broadcasts (pickle : Pickle α) (s : State α) : Prop where
  order : ∀ r < s.buffer.nReader, (s.readers r).obtained <+: s.called
  reader : ∀ r < s.buffer.nReader, (s.readers r).obtained.length < s.sent.length →
    ∃ s' obj, Relation.ReflTransGen (fun s s' => s.step pickle (.reader r) = some s') s s' ∧
      (s'.readers r).obtained = (s.readers r).obtained ++ [obj]
  writer : (∀ r < s.buffer.nReader,
      s.enqueued.length < (s.readers r).obtained.length + s.buffer.maxChunks) →
    ∃ s', Relation.ReflTransGen (fun s s' => s.step pickle .writer = some s') s s' ∧
      s'.writer = .idle
  sent : 0 < s.buffer.nReader → 0 < s.buffer.maxChunkBytes → s.writer = .idle →
    s.sent = s.called
  untouched : ∀ e s', s.step pickle e = some s' → ∀ c, s'.buffer.data c ≠ s.buffer.data c →
    ∀ r < s.buffer.nReader, ¬ s.MayRead r c

/-- The queue broadcasts in every state that it reaches, for all numbers of readers and
chunks, in every order of steps. -/
theorem broadcasts_of_reached {nReader maxChunkBytes maxChunks : Nat} {buffer : ShmRingBuffer}
    (hpickle : pickle.IgnoresRest)
    (hcreate : ShmRingBuffer.create nReader maxChunkBytes maxChunks = .ok buffer)
    (h : ReachedFrom pickle buffer s) : s.Broadcasts pickle := by
  obtain ⟨hkept, haccounted⟩ : s.Kept pickle ∧ s.Accounted := by
    refine h.invariant (I := fun s => s.Kept pickle ∧ s.Accounted) ?_ fun s e s' hs _ hstep =>
      ⟨hs.1.step hpickle hstep, hs.2.step hs.1 hstep⟩
    rintro _ rfl
    exact ⟨Kept.start hcreate, fun _ _ => rfl⟩
  constructor
  · exact fun r hr => hkept.obtained_called haccounted hr
  · exact fun r hr => hkept.reader_obtains hpickle hr
  · intro hfree
    refine hkept.writer_returns fun _ _ _ _ r hr => ?_
    have := hfree r hr
    unfold Reader.reads
    omega
  · intro hreader hbytes hidle
    have hcalled := haccounted hreader hbytes
    rw [pending, hidle, List.append_nil] at hcalled
    rw [hcalled, State.sent, hidle]
    exact List.take_length
  · intro e s' hstep c hdata r hr
    obtain ⟨rfl, hwriting⟩ := step_data hstep hdata
    exact hkept.not_mayRead hwriting hr

/-- A pickle with one byte for `true` and three for `false`. -/
def boolPickle : Pickle Bool where
  dumps b := if b then [1] else [0, 0, 0]
  loads bytes := bytes.head?.map (· = 1)

/-- A small object and a large one through a queue with one chunk of two bytes. -/
theorem broadcasts_boolRun : ∃ s : State Bool,
    (s.readers 0).obtained = [true, false] ∧ s.Broadcasts boolPickle := by
  have hcreate : ShmRingBuffer.create 1 2 1 =
      .ok ⟨1, 2, 1, fun _ => List.replicate 2 0, fun _ _ => false⟩ := rfl
  have hpickle : boolPickle.IgnoresRest := by
    intro b rest
    cases b <;> rfl
  have hrun : (Runs.runEvents (fun s e => s.step boolPickle e)
      (start ⟨1, 2, 1, fun _ => List.replicate 2 0, fun _ _ => false⟩)
      (.enqueue true :: List.replicate 7 .writer ++ List.replicate 5 (.reader 0) ++
        .enqueue false :: List.replicate 7 .writer ++ List.replicate 5 (.reader 0))).map
      (fun s => (s.readers 0).obtained) = some [true, false] := by decide +kernel
  obtain ⟨s, hs, hobtained⟩ := Option.map_eq_some_iff.mp hrun
  exact ⟨s, hobtained, broadcasts_of_reached hpickle hcreate
    (.of_runEvents (.start rfl) (fun _ _ _ => trivial) hs)⟩

end Runs

end State

end ShmBroadcast
