import VllmMmaEmu.Distributed.TimedOut

/-!
# The order in which the readers obtain the objects

In a run without failing operations every reader, local or remote, obtains the first of the
objects of the calls of `enqueue`. With the failing operations taken back this holds of every
run in which none of them fails late.
-/

namespace ShmBroadcast

open Python Retraction Runs

variable {α : Type} {pickle : Pickle α}

/-- The object of the call of `enqueue`. -/
def WriterPc.object? : WriterPc α → Option α
  | .idle => none
  | .count obj _ _ | .clear obj | .first obj | .data obj | .reset obj _ | .send obj => some obj

namespace State

variable {s s' : State α} {r : Nat}

/-- A step of the writer for the local readers: it goes on with its object, it is done with it,
or there is no byte in the chunk that it could write to. -/
structure WriterAdvance (s s' : State α) : Prop where
  nReader : s'.buffer.nReader = s.buffer.nReader
  maxChunkBytes : s'.buffer.maxChunkBytes = s.buffer.maxChunkBytes
  called : s'.called = s.called
  object :
    (s'.writer.object? = s.writer.object? ∧ MessageQueue.passed s s' = none) ∨
    (s'.writer = .idle ∧ ∃ obj, s.writer.object? = some obj ∧
      MessageQueue.passed s s' = some obj ∧
      ((∃ i, s.writer = .reset obj i) ∨ s.writer = .send obj)) ∨
    (s'.writer = .idle ∧ MessageQueue.passed s s' = none ∧ s.buffer.data s.currentIdx = [])

lemma writerStep_advance (hstep : s.writerStep pickle = some s') : WriterAdvance s s' := by
  unfold writerStep at hstep
  cases hwriter : s.writer with
  | idle =>
    rw [hwriter] at hstep
    cases hstep
  | count obj i readCount =>
    rw [hwriter] at hstep
    dsimp only at hstep
    split_ifs at hstep
    all_goals
      obtain rfl := Option.some.inj hstep
      exact ⟨rfl, rfl, rfl, Or.inl ⟨by rw [hwriter]; rfl, by simp [MessageQueue.passed, hwriter]⟩⟩
  | clear obj | data obj =>
    rw [hwriter] at hstep
    obtain rfl := Option.some.inj hstep
    exact ⟨rfl, rfl, rfl, Or.inl ⟨by rw [hwriter]; rfl, by simp [MessageQueue.passed, hwriter]⟩⟩
  | first obj =>
    rw [hwriter] at hstep
    dsimp only at hstep
    split at hstep
    · rename_i hdata
      obtain rfl := Option.some.inj hstep
      exact ⟨rfl, rfl, rfl, Or.inr (Or.inr ⟨rfl, by simp [MessageQueue.passed, hwriter], hdata⟩)⟩
    · split_ifs at hstep
      all_goals
        obtain rfl := Option.some.inj hstep
        exact ⟨rfl, rfl, rfl, Or.inl ⟨by rw [hwriter]; rfl, by simp [MessageQueue.passed, hwriter]⟩⟩
  | reset obj i =>
    rw [hwriter] at hstep
    dsimp only at hstep
    split_ifs at hstep
    all_goals obtain rfl := Option.some.inj hstep
    · exact ⟨rfl, rfl, rfl, Or.inl ⟨by rw [hwriter]; rfl, by simp [MessageQueue.passed, hwriter]⟩⟩
    · exact ⟨rfl, rfl, rfl, Or.inl ⟨by rw [hwriter]; rfl, by simp [MessageQueue.passed, hwriter]⟩⟩
    · exact ⟨rfl, rfl, rfl, Or.inr (Or.inl ⟨rfl, obj, by rw [hwriter]; rfl,
        by simp [MessageQueue.passed, hwriter], Or.inl ⟨i, hwriter⟩⟩)⟩
  | send obj =>
    rw [hwriter] at hstep
    obtain rfl := Option.some.inj hstep
    exact ⟨rfl, rfl, rfl, Or.inr (Or.inl ⟨rfl, obj, by rw [hwriter]; rfl,
      by simp [MessageQueue.passed, hwriter], Or.inr hwriter⟩)⟩

lemma Kept.chunk_bytes (h : s.Kept pickle) {obj : α}
    (hwriter : (∃ i, s.writer = .reset obj i) ∨ s.writer = .send obj) :
    0 < s.buffer.maxChunkBytes := by
  have hfacts := h.writer
  rcases hwriter with ⟨i, hwriter⟩ | hwriter
  · rw [WriterFacts, hwriter] at hfacts
    have hlength := h.contents.length s.currentIdx
    have hbytes := hfacts.2
    unfold Holds at hbytes
    rw [← hlength]
    split_ifs at hbytes
    all_goals
      obtain ⟨rest, hrest⟩ := hbytes
      rw [hrest]
      exact Nat.zero_lt_succ _
  · rw [WriterFacts, hwriter] at hfacts
    obtain ⟨-, before, henqueued⟩ := hfacts
    exact h.contents.pos (by simp [henqueued])

end State

namespace MessageQueue

variable {q q' : MessageQueue α} {r : Nat}

/-- There are bytes for the writer, if it needs any. -/
def Usable (q : MessageQueue α) : Prop :=
  q.shm.buffer.nReader = 0 ∨ 0 < q.shm.buffer.maxChunkBytes

/-- The object of the call that the writer is in. -/
def pending (q : MessageQueue α) : Option α := q.remoteSend.or q.shm.writer.object?

/-- A remote reader has obtained the first of the objects that were sent; the others are on
their way. -/
structure Delivered (pickle : Pickle α) (sent : List α) (reader : RemoteReader α) : Prop where
  obtained : reader.obtained <+: sent
  socket : reader.socket = (sent.drop reader.obtained.length).map pickle.dumps

structure Kept (pickle : Pickle α) (sent : List α) (q : MessageQueue α) : Prop where
  shm : 0 < q.shm.buffer.nReader → q.shm.Kept pickle ∧ q.shm.Accounted
  idle : q.shm.buffer.nReader = 0 → q.shm.writer = .idle
  sending : q.remoteSend ≠ none → q.shm.writer = .idle ∧ q.Usable
  called : 0 < q.nRemoteReader → q.Usable → q.shm.called = sent ++ q.pending.toList
  unusable : ¬ q.Usable → sent = []
  calling : ∀ r, q.calling r = true → r < q.shm.buffer.nReader
  receiving : ∀ r, (q.remotes r).pc = .recv → r < q.nRemoteReader
  remotes : ∀ r < q.nRemoteReader, Delivered pickle sent (q.remotes r)

lemma Delivered.send {sent : List α} {reader : RemoteReader α} (h : Delivered pickle sent reader)
    (obj : α) : Delivered pickle (sent ++ [obj])
      { reader with socket := reader.socket ++ [pickle.dumps obj] } where
  obtained := h.obtained.trans (List.prefix_append _ _)
  socket := by
    rw [List.drop_append_of_le_length h.obtained.length_le, List.map_append, ← h.socket]
    rfl

lemma Delivered.receive (hpickle : pickle.IgnoresRest) {sent : List α} {reader : RemoteReader α}
    {message : List UInt8} {rest : List (List UInt8)} (h : Delivered pickle sent reader)
    (hsocket : reader.socket = message :: rest) : ∃ obj, pickle.loads message = some obj ∧
      Delivered pickle sent ⟨.idle, rest, reader.obtained ++ [obj]⟩ := by
  obtain ⟨obj, later, hdrop, rfl, hrest⟩ := List.map_eq_cons_iff.mp (h.socket.symm.trans hsocket)
  obtain ⟨done, hsent⟩ := h.obtained
  have hdone : done = obj :: later := by
    rw [← hsent, List.drop_left] at hdrop
    exact hdrop
  refine ⟨obj, by simpa using hpickle obj [], ⟨⟨later, ?_⟩, ?_⟩⟩
  · rw [← hsent, hdone, List.append_assoc]
    rfl
  · rw [← hrest, List.length_append, ← List.drop_drop, hdrop]
    rfl

lemma Kept.of_shm {sent : List α} {s : State α} {calling : Nat → Bool} (h : q.Kept pickle sent)
    (hshm : 0 < q.shm.buffer.nReader → s.Kept pickle ∧ s.Accounted)
    (hwriter : s.writer = q.shm.writer) (hcalled : s.called = q.shm.called)
    (hnReader : s.buffer.nReader = q.shm.buffer.nReader)
    (hbytes : s.buffer.maxChunkBytes = q.shm.buffer.maxChunkBytes)
    (hcalling : ∀ r, calling r = true → r < q.shm.buffer.nReader) :
    Kept pickle sent { q with shm := s, calling := calling } := by
  have husable : Usable { q with shm := s, calling := calling } ↔ q.Usable := by
    rw [Usable, Usable, hnReader, hbytes]
  obtain ⟨-, hidle, hsending, haccounted, hunusable, -, hreceiving, hremotes⟩ := h
  refine ⟨hnReader ▸ hshm, ?_, ?_, ?_, ?_, hnReader ▸ hcalling, hreceiving, hremotes⟩
  · rwa [hnReader, hwriter]
  · rwa [husable, hwriter]
  · rw [husable, pending, hwriter, hcalled]
    exact haccounted
  · rwa [husable]

lemma Kept.setRemote {sent : List α} {reader : RemoteReader α} (h : q.Kept pickle sent)
    (hr : r < q.nRemoteReader) (hreader : Delivered pickle sent reader) :
    (q.setRemote r reader).Kept pickle sent := by
  refine ⟨h.shm, h.idle, h.sending, h.called, h.unusable, h.calling, fun p hp => ?_,
    fun p hp => ?_⟩
  · by_cases hpr : p = r
    · exact hpr ▸ hr
    · exact h.receiving p (by simpa [MessageQueue.setRemote, hpr] using hp)
  · by_cases hpr : p = r
    · subst hpr
      simpa [MessageQueue.setRemote] using hreader
    · simpa [MessageQueue.setRemote, hpr] using h.remotes p hp

lemma Kept.enqueue (hpickle : pickle.IgnoresRest) {sent : List α} {obj : α} (h : q.Kept pickle sent)
    (hstep : q.step pickle (.enqueue obj) = some q') : q'.Kept pickle sent := by
  dsimp only [step] at hstep
  split at hstep
  · cases hstep
  · rename_i hsend
    obtain ⟨s, hs, rfl⟩ := Option.map_eq_some_iff.mp hstep
    have hshm : 0 < q.shm.buffer.nReader → s.Kept pickle ∧ s.Accounted := fun hpos =>
      ⟨(h.shm hpos).1.step hpickle hs, (h.shm hpos).2.step (h.shm hpos).1 hs⟩
    obtain ⟨hidle, rfl⟩ := State.step_enqueue hs
    have hcalled : 0 < q.nRemoteReader → q.Usable → q.shm.called = sent := by
      intro hpos husable
      have hold := h.called hpos husable
      rw [pending, hsend, hidle] at hold
      exact hold.trans (List.append_nil sent)
    split_ifs with hreader
    · rw [if_pos hreader] at hshm
      refine ⟨hshm, fun hzero => absurd hzero hreader.ne', fun hne => absurd hsend hne,
        fun hpos husable => ?_, h.unusable, h.calling,
        h.receiving, h.remotes⟩
      rw [pending, hsend]
      exact congrArg (· ++ [obj]) (hcalled hpos husable)
    · rw [if_neg hreader] at hshm
      have hzero := Nat.eq_zero_of_not_pos hreader
      refine ⟨hshm, fun _ => rfl, fun _ => ⟨rfl, Or.inl hzero⟩, fun hpos husable => ?_,
        h.unusable, h.calling,
        h.receiving, h.remotes⟩
      dsimp only [toRemote, pending] at hpos ⊢
      rw [if_pos hpos]
      exact congrArg (· ++ [obj]) (hcalled hpos husable)

lemma Kept.sendRemote {sent : List α} {obj : α} (h : q.Kept pickle sent)
    (hsend : q.remoteSend = some obj) : Kept pickle (sent ++ [obj]) { q with
      remoteSend := none
      remotes := fun r => { q.remotes r with
        socket := (q.remotes r).socket ++ [pickle.dumps obj] } } := by
  obtain ⟨hidle, husable⟩ := h.sending (by rw [hsend]; exact Option.some_ne_none obj)
  refine ⟨h.shm, h.idle, fun hne => absurd rfl hne, fun hpos _ => ?_, fun hno => absurd husable hno,
    h.calling, h.receiving, fun r hr => (h.remotes r hr).send obj⟩
  have hold := h.called hpos husable
  rw [pending, hsend] at hold
  rw [pending, hidle]
  exact hold.trans (List.append_nil _).symm

/-- The writer goes on with its object for the local readers. -/
lemma Kept.continueWith (hpickle : pickle.IgnoresRest) {sent : List α} {s : State α}
    (h : q.Kept pickle sent) (hwriter : q.shm.writer ≠ .idle)
    (hstep : q.shm.writerStep pickle = some s) : (q.continueWith s).Kept pickle sent := by
  have hpos : 0 < q.shm.buffer.nReader := Nat.pos_of_ne_zero fun hzero => hwriter (h.idle hzero)
  obtain ⟨hkept, haccounted⟩ := h.shm hpos
  have hkept' := hkept.step hpickle (e := .writer) hstep
  have haccounted' := haccounted.step hkept (e := .writer) hstep
  obtain ⟨hnReader, hbytes, hcalled, hobject⟩ := State.writerStep_advance hstep
  have hsend : q.remoteSend = none := by
    by_contra hne
    exact hwriter (h.sending hne).1
  have husable : s.buffer.nReader = 0 ∨ 0 < s.buffer.maxChunkBytes ↔ q.Usable := by
    rw [Usable, hnReader, hbytes]
  have hzero : s.buffer.nReader ≠ 0 := hnReader.symm ▸ hpos.ne'
  have hold : 0 < q.nRemoteReader → q.Usable → q.shm.called = sent ++ q.shm.writer.object?.toList := by
    have hold := h.called
    rwa [pending, hsend] at hold
  rcases hobject with ⟨hsame, hpassed⟩ | ⟨hidle, obj, hobj, hpassed, hpast⟩ | ⟨hidle, hpassed, hdata⟩
  · unfold MessageQueue.continueWith
    rw [hpassed]
    refine ⟨fun _ => ⟨hkept', haccounted'⟩, fun h => absurd h hzero, fun h => absurd hsend h,
      fun hremote huse => ?_, fun hno => h.unusable fun huse => hno (husable.mpr huse),
      hnReader.symm ▸ h.calling, h.receiving, h.remotes⟩
    rw [pending, hsend, Option.none_or, hsame, hcalled]
    exact hold hremote (husable.mp huse)
  · unfold MessageQueue.continueWith
    rw [hpassed]
    have huse : q.Usable := Or.inr (hkept.chunk_bytes hpast)
    refine ⟨fun _ => ⟨hkept', haccounted'⟩, fun h => absurd h hzero,
      fun _ => ⟨hidle, husable.mpr huse⟩, fun hremote _ => ?_,
      fun hno => absurd (husable.mpr huse) hno, hnReader.symm ▸ h.calling, h.receiving, h.remotes⟩
    have hcalls := hold hremote huse
    rw [hobj] at hcalls
    dsimp only [toRemote, pending] at hremote ⊢
    rw [if_pos hremote, hcalled, hcalls]
    rfl
  · unfold MessageQueue.continueWith
    rw [hpassed]
    refine ⟨fun _ => ⟨hkept', haccounted'⟩, fun h => absurd h hzero, fun h => absurd hsend h,
      fun _ huse => ?_, fun hno => h.unusable fun huse => hno (husable.mpr huse),
      hnReader.symm ▸ h.calling, h.receiving, h.remotes⟩
    -- without bytes in its chunk the writer raises an error
    have hlength := hkept.contents.length q.shm.currentIdx
    rw [hdata] at hlength
    rcases husable.mp huse with hnone | hsome
    · exact absurd hnone hpos.ne'
    · exact absurd hlength hsome.ne

lemma Kept.step (hpickle : pickle.IgnoresRest) {e : QueueEvent α} {sent : List α}
    (h : q.Kept pickle sent) (hstage : e.stage ≠ .failure) (hstep : q.step pickle e = some q') :
    ∃ sent', q'.Kept pickle sent' := by
  cases e with
  | writerTimeout | readTimeout | recvTimeout | remoteTimeout => exact absurd rfl hstage
  | enqueue obj => exact ⟨sent, h.enqueue hpickle hstep⟩
  | writer =>
    dsimp only [MessageQueue.step, writerStep] at hstep
    split at hstep
    · obtain ⟨obj, hobj, rfl⟩ := Option.map_eq_some_iff.mp hstep
      exact ⟨_, h.sendRemote hobj⟩
    · rename_i hwriter
      obtain ⟨s, hs, rfl⟩ := Option.map_eq_some_iff.mp hstep
      exact ⟨sent, h.continueWith hpickle hwriter hs⟩
  | dequeue r =>
    dsimp only [MessageQueue.step] at hstep
    split at hstep
    · split_ifs at hstep with hguard
      obtain rfl := Option.some.inj hstep
      refine ⟨sent, h.of_shm h.shm rfl rfl rfl rfl fun p hp => ?_⟩
      by_cases hpr : p = r
      · exact hpr ▸ hguard.1
      · exact h.calling p (by rwa [Function.update_of_ne hpr] at hp)
    · cases hstep
  | reader r =>
    dsimp only [MessageQueue.step, readerStep] at hstep
    split_ifs at hstep with hcalling
    obtain ⟨s, hs, rfl⟩ := Option.map_eq_some_iff.mp hstep
    have hframe := State.readerStep_frame hs
    have hr := h.calling r hcalling
    refine ⟨sent, h.of_shm (fun hpos => ?_) hframe.writer hframe.called hframe.nReader
      hframe.maxChunkBytes fun p hp => ?_⟩
    · have hevent : q.shm.step pickle (.reader r) = some s := (if_pos hr).trans hs
      exact ⟨(h.shm hpos).1.step hpickle hevent, (h.shm hpos).2.step (h.shm hpos).1 hevent⟩
    · by_cases hpr : p = r
      · exact hpr ▸ hr
      · exact h.calling p (by rwa [Function.update_of_ne hpr] at hp)
  | remoteDequeue r =>
    dsimp only [MessageQueue.step] at hstep
    split at hstep
    · split_ifs at hstep with hr
      obtain rfl := Option.some.inj hstep
      exact ⟨sent, h.setRemote hr ⟨(h.remotes r hr).obtained, (h.remotes r hr).socket⟩⟩
    · cases hstep
  | remote r =>
    dsimp only [MessageQueue.step, remoteStep] at hstep
    split at hstep
    · rename_i hpc hsocket
      have hr := h.receiving r hpc
      obtain ⟨obj, hobj, hreader⟩ := (h.remotes r hr).receive hpickle hsocket
      rw [hobj] at hstep
      obtain rfl := Option.some.inj hstep
      exact ⟨sent, h.setRemote hr hreader⟩
    · cases hstep

lemma Kept.start (pickle : Pickle α) {nReader nLocalReader maxChunkBytes maxChunks : Nat}
    (h : create nReader nLocalReader maxChunkBytes maxChunks = .ok q) :
    q.Kept pickle [] ∧ q.shm.called = [] ∧ ∀ p, ¬ Early p q := by
  have hidle : ∀ buffer, ∀ p, ¬ Early p ⟨State.start buffer, fun _ => false, nReader - nLocalReader,
      none, fun _ => (⟨.idle, [], []⟩ : RemoteReader α)⟩ := by
    intro buffer p hearly
    cases p with
    | writer =>
      obtain ⟨_, _, _, h⟩ := hearly
      cases h
    | reader => cases hearly.1
    | remote => cases hearly
  unfold create at h
  split_ifs at h with hlocal
  · cases hcreate : ShmRingBuffer.create nLocalReader maxChunkBytes maxChunks with
    | error e =>
      rw [hcreate] at h
      cases h
    | ok buffer =>
      rw [hcreate] at h
      obtain rfl := Except.ok.inj h
      exact ⟨⟨fun _ => ⟨State.Kept.start hcreate, fun _ _ => rfl⟩, fun _ => rfl,
        fun hne => absurd rfl hne, fun _ _ => rfl, fun _ => rfl, fun _ h => (nomatch h),
        fun _ h => (nomatch h), fun _ _ => ⟨List.nil_prefix, rfl⟩⟩, rfl, hidle buffer⟩
  · obtain rfl := Except.ok.inj h
    exact ⟨⟨fun h => absurd h (lt_irrefl 0), fun _ => rfl, fun hne => absurd rfl hne,
      fun _ _ => rfl, fun _ => rfl, fun _ h => (nomatch h), fun _ h => (nomatch h),
      fun _ _ => ⟨List.nil_prefix, rfl⟩⟩, rfl, hidle noBuffer⟩

lemma step_called {e : QueueEvent α} (hstage : e.stage ≠ .failure)
    (hstep : q.step pickle e = some q') :
    q'.shm.buffer.nReader = q.shm.buffer.nReader ∧ q'.nRemoteReader = q.nRemoteReader ∧
      q'.shm.called = q.shm.called ++ e.object?.toList := by
  cases e with
  | writerTimeout | readTimeout | recvTimeout | remoteTimeout => exact absurd rfl hstage
  | enqueue obj =>
    dsimp only [step] at hstep
    split at hstep
    · cases hstep
    · obtain ⟨s, hs, rfl⟩ := Option.map_eq_some_iff.mp hstep
      obtain ⟨-, rfl⟩ := State.step_enqueue hs
      split_ifs
      · exact ⟨rfl, rfl, rfl⟩
      · exact ⟨rfl, rfl, rfl⟩
  | writer =>
    dsimp only [step, writerStep] at hstep
    split at hstep
    · obtain ⟨obj, -, rfl⟩ := Option.map_eq_some_iff.mp hstep
      exact ⟨rfl, rfl, (List.append_nil _).symm⟩
    · obtain ⟨s, hs, rfl⟩ := Option.map_eq_some_iff.mp hstep
      obtain ⟨hnReader, -, hcalled, -⟩ := State.writerStep_advance hs
      rw [continueWith_shm, hnReader, hcalled]
      refine ⟨rfl, ?_, (List.append_nil _).symm⟩
      unfold continueWith
      split <;> rfl
  | reader r =>
    dsimp only [step, readerStep] at hstep
    split_ifs at hstep
    obtain ⟨s, hs, rfl⟩ := Option.map_eq_some_iff.mp hstep
    have hframe := State.readerStep_frame hs
    exact ⟨hframe.nReader, rfl, hframe.called.trans (List.append_nil _).symm⟩
  | dequeue r | remoteDequeue r =>
    dsimp only [step] at hstep
    split at hstep
    · split_ifs at hstep
      obtain rfl := Option.some.inj hstep
      exact ⟨rfl, rfl, (List.append_nil _).symm⟩
    · cases hstep
  | remote r =>
    dsimp only [step, remoteStep] at hstep
    split at hstep
    · split at hstep
      all_goals
        obtain rfl := Option.some.inj hstep
        exact ⟨rfl, rfl, (List.append_nil _).symm⟩
    · cases hstep

/-- The objects of the calls of `enqueue` among the events. -/
def objects (events : List (QueueEvent α)) : List α := events.filterMap QueueEvent.object?

lemma Kept.run (hpickle : pickle.IgnoresRest) {sent : List α} {events : List (QueueEvent α)}
    (h : q.Kept pickle sent) (hstages : ∀ e ∈ events, e.stage ≠ .failure)
    (hrun : runEvents (MessageQueue.step pickle) q events = some q') :
    (∃ sent', q'.Kept pickle sent') ∧ q'.shm.buffer.nReader = q.shm.buffer.nReader ∧
      q'.nRemoteReader = q.nRemoteReader ∧ q'.shm.called = q.shm.called ++ objects events := by
  induction events generalizing q sent with
  | nil =>
    obtain rfl := Option.some.inj hrun
    exact ⟨⟨sent, h⟩, rfl, rfl, (List.append_nil _).symm⟩
  | cons e rest ih =>
    obtain ⟨q₁, hstep, hrest⟩ := Option.bind_eq_some_iff.mp hrun
    have hstage := hstages e List.mem_cons_self
    obtain ⟨sent₁, h₁⟩ := h.step hpickle hstage hstep
    obtain ⟨hnReader, hnRemote, hcalled⟩ := step_called hstage hstep
    obtain ⟨hkept, hnReader', hnRemote', hcalled'⟩ :=
      ih h₁ (fun e' he' => hstages e' (List.mem_cons_of_mem e he')) hrest
    refine ⟨hkept, hnReader'.trans hnReader, hnRemote'.trans hnRemote, ?_⟩
    rw [hcalled', hcalled, List.append_assoc, objects, objects]
    cases hobj : e.object? with
    | none => rw [List.filterMap_cons_none hobj]; rfl
    | some obj => rw [List.filterMap_cons_some hobj]; rfl

lemma Kept.obtained {sent : List α} (h : q.Kept pickle sent) :
    (∀ r < q.shm.buffer.nReader, (q.shm.readers r).obtained <+: q.shm.called) ∧
      ∀ r < q.nRemoteReader, (q.remotes r).obtained <+: q.shm.called := by
  refine ⟨fun r hr => ?_, fun r hr => ?_⟩
  · obtain ⟨hkept, haccounted⟩ := h.shm (Nat.zero_lt_of_lt hr)
    exact hkept.obtained_called haccounted hr
  · have hobtained := (h.remotes r hr).obtained
    by_cases huse : q.Usable
    · rw [h.called (Nat.zero_lt_of_lt hr) huse]
      exact hobtained.trans (List.prefix_append _ _)
    · rw [h.unusable huse] at hobtained
      rw [List.prefix_nil.mp hobtained]
      exact List.nil_prefix

/-- The events without those of the operations that end by a timeout or a cancellation. -/
def succeeding (events : List (QueueEvent α)) : List (QueueEvent α) :=
  withoutFailed QueueEvent.party QueueEvent.stage events

/-- The operations that failed in a run have had no effect: without them the run reaches the
same state, and every reader has obtained the first of the objects of the other calls. -/
structure FailedWithoutEffect (pickle : Pickle α) (q₀ : MessageQueue α)
    (events : List (QueueEvent α)) (q : MessageQueue α) : Prop where
  same : runEvents (step pickle) q₀ (succeeding events) = some q
  readers : ∀ r < q₀.shm.buffer.nReader, (q.shm.readers r).obtained <+: objects (succeeding events)
  remotes : ∀ r < q₀.nRemoteReader, (q.remotes r).obtained <+: objects (succeeding events)

/-- In a run without timeouts at the local sockets, the operations that fail have no effect. -/
theorem failed_without_effect {nReader nLocalReader maxChunkBytes maxChunks : Nat}
    {q₀ : MessageQueue α} {events : List (QueueEvent α)} (hpickle : pickle.IgnoresRest)
    (hcreate : create nReader nLocalReader maxChunkBytes maxChunks = .ok q₀)
    (hallowed : ∀ e ∈ events, e.Allowed) (hrun : runEvents (step pickle) q₀ events = some q) :
    FailedWithoutEffect pickle q₀ events q := by
  obtain ⟨hkept, hcalled, hidle⟩ := Kept.start pickle hcreate
  have hsame := (retractable pickle).run_withoutFailed hidle hallowed hrun
  obtain ⟨⟨sent, hend⟩, hnReader, hnRemote, hcalls⟩ :=
    hkept.run hpickle (fun e he => (prune_subset _ _ events e he).2) hsame
  obtain ⟨hreaders, hremotes⟩ := hend.obtained
  rw [hcalls, hcalled, List.nil_append] at hreaders hremotes
  exact ⟨hsame, hnReader ▸ hreaders, hnRemote ▸ hremotes⟩

lemma boolPickle_ignoresRest : State.boolPickle.IgnoresRest := by
  intro b rest
  cases b <;> rfl

/-- A queue with chunks of two bytes for one local reader and, if any, remote ones. -/
def twoBytes (nReader maxChunks : Nat) : MessageQueue Bool where
  shm := State.start ⟨1, 2, maxChunks, fun _ => List.replicate 2 0, fun _ _ => false⟩
  calling := fun _ => false
  nRemoteReader := nReader - 1
  remoteSend := none
  remotes := fun _ => ⟨.idle, [], []⟩

/-- All waits but the excluded one end by a timeout: for a chunk to read, for one to write to,
and at the socket of a remote reader. -/
def timeouts : List (QueueEvent Bool) :=
  [.dequeue 0, .reader 0, .readTimeout 0, .enqueue true] ++ List.replicate 8 .writer ++
    [.enqueue false, .writer, .writerTimeout, .remoteDequeue 0, .remote 0, .remoteDequeue 0,
      .remoteTimeout 0, .dequeue 0] ++ List.replicate 5 (.reader 0)

theorem failed_without_effect_timeouts : ∃ q,
    ((q.shm.readers 0).obtained, (q.remotes 0).obtained) = ([true], [true]) ∧
      FailedWithoutEffect State.boolPickle (twoBytes 2 1) timeouts q := by
  have hrun : (runEvents (step State.boolPickle) (twoBytes 2 1) timeouts).map
      (fun q => ((q.shm.readers 0).obtained, (q.remotes 0).obtained)) =
        some ([true], [true]) := by decide +kernel
  obtain ⟨q, hq, hobtained⟩ := Option.map_eq_some_iff.mp hrun
  have hcreate : create 2 1 2 1 = .ok (twoBytes 2 1) := rfl
  refine ⟨q, hobtained, failed_without_effect boolPickle_ignoresRest hcreate ?_ hq⟩
  simp [timeouts, QueueEvent.Allowed]

/-- A large object, whose message is sent after the time of the reader is over, and a small
one. -/
def lateMessage : List (QueueEvent Bool) :=
  .enqueue false :: List.replicate 6 .writer ++ .dequeue 0 :: List.replicate 4 (.reader 0) ++
    [.recvTimeout 0, .writer, .enqueue true] ++ List.replicate 7 .writer ++
    .dequeue 0 :: List.replicate 5 (.reader 0)

/-- The next call of `dequeue` returns the small object. -/
theorem failed_with_effect_lateMessage : create 1 1 2 2 = .ok (twoBytes 1 2) ∧
    ∃ q, runEvents (step State.boolPickle) (twoBytes 1 2) lateMessage = some q ∧
      (q.shm.readers 0).obtained = [true] ∧ q.shm.called = [false, true] ∧
      ¬ FailedWithoutEffect State.boolPickle (twoBytes 1 2) lateMessage q := by
  have hrun : (runEvents (step State.boolPickle) (twoBytes 1 2) lateMessage).map
      (fun q => ((q.shm.readers 0).obtained, q.shm.called)) = some ([true], [false, true]) := by
    decide +kernel
  obtain ⟨q, hq, hseen⟩ := Option.map_eq_some_iff.mp hrun
  obtain ⟨hobtained, hcalled⟩ := Prod.ext_iff.mp hseen
  refine ⟨rfl, q, hq, hobtained, hcalled, fun h => ?_⟩
  have hprefix := h.readers 0 Nat.one_pos
  rw [show (q.shm.readers 0).obtained = [true] from hobtained] at hprefix
  exact absurd hprefix (by decide)

end MessageQueue

end ShmBroadcast
