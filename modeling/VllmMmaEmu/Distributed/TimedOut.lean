import VllmMmaEmu.Distributed.QueueTimeouts

/-!
# A timed-out operation has no effect

Before it writes anything an operation of the queue can be taken back, and all waits but one
are before that: a local reader waits for the message of a large object when it has already
marked the chunk as read.
-/

namespace ShmBroadcast

open Python Retraction Runs

variable {α : Type} {pickle : Pickle α}

namespace State

variable {s s' : State α} {r : Nat}

/-- The readers of `back` are before their calls. -/
def rewind (back : Nat → Bool) (s : State α) : State α :=
  { s with readers := fun r =>
      if back r then { s.readers r with pc := .checkRead } else s.readers r }

/-- The writer is before its call. -/
def cancelCall (s : State α) : State α :=
  { s with writer := .idle, called := s.called.dropLast }

lemma rewind_readers {back : Nat → Bool} (hr : back r = false) :
    (s.rewind back).readers r = s.readers r := if_neg (by simp [hr])

lemma rewind_setReader {back : Nat → Bool} (hr : back r = false) (reader : Reader α) :
    (s.setReader r reader).rewind back = (s.rewind back).setReader r reader := by
  have hreaders : (fun q => if back q then
        { Function.update s.readers r reader q with pc := .checkRead }
      else Function.update s.readers r reader q) =
      Function.update (fun q => if back q then { s.readers q with pc := .checkRead }
        else s.readers q) r reader := by
    funext q
    by_cases hq : q = r
    · subst hq
      simp [hr]
    · simp [hq]
  unfold rewind setReader
  rw [← hreaders]

lemma step_enqueue {obj : α} (hstep : s.step pickle (.enqueue obj) = some s') :
    s.writer = .idle ∧ s' = { s with
      writer := if s.buffer.nReader > 0 then .count obj 0 0 else .idle
      called := s.called ++ [obj] } := by
  cases hwriter : s.writer with
  | idle =>
    simp only [State.step, hwriter] at hstep
    exact ⟨rfl, (Option.some.inj hstep).symm⟩
  | count | clear | first | data | reset | send =>
    simp only [State.step, hwriter] at hstep
    cases hstep

lemma rewind_update {back : Nat → Bool} (hr : back r = false) :
    s.rewind (Function.update back r true) =
      (s.setReader r { s.readers r with pc := .checkRead }).rewind back := by
  refine congrArg (State.mk _ _ _ · _ _) (funext fun q => ?_)
  by_cases hq : q = r
  · subst hq
    simp [setReader, hr]
  · simp [setReader, hq]

lemma rewind_of_checkRead {back : Nat → Bool} (hpc : (s.readers r).pc = .checkRead)
    (hr : back r = true) : s.rewind (Function.update back r false) = s.rewind back := by
  refine congrArg (State.mk _ _ _ · _ _) (funext fun q => ?_)
  by_cases hq : q = r
  · subst hq
    simp [hr, ← hpc]
  · simp [hq]

lemma rewind_setReader_pc {back : Nat → Bool} (hr : back r = true) (pc : ReaderPc α) :
    (s.setReader r { s.readers r with pc := pc }).rewind back = s.rewind back := by
  refine congrArg (State.mk _ _ _ · _ _) (funext fun q => ?_)
  by_cases hq : q = r
  · subst hq
    simp [setReader, hr]
  · simp [setReader, hq]

lemma writerStep_pc (hstep : s.writerStep pickle = some s') (r : Nat) :
    (s'.readers r).pc = (s.readers r).pc := by
  unfold writerStep at hstep
  split at hstep
  · cases hstep
  · dsimp only at hstep
    split_ifs at hstep
    all_goals
      obtain rfl := Option.some.inj hstep
      rfl
  · obtain rfl := Option.some.inj hstep
    rfl
  · split at hstep
    · obtain rfl := Option.some.inj hstep
      rfl
    · split_ifs at hstep
      all_goals
        obtain rfl := Option.some.inj hstep
        rfl
  · obtain rfl := Option.some.inj hstep
    rfl
  · split_ifs at hstep
    all_goals
      obtain rfl := Option.some.inj hstep
      rfl
  · obtain rfl := Option.some.inj hstep
    rfl

lemma writerStep_count {obj : α} {i readCount : Nat} (hstep : s.writerStep pickle = some s')
    (hwriter' : s'.writer = .count obj i readCount) :
    (∃ obj' i' readCount', s.writer = .count obj' i' readCount') ∧
      s' = { s with writer := s'.writer } := by
  unfold writerStep at hstep
  cases hwriter : s.writer with
  | count obj' i' readCount' =>
    refine ⟨⟨obj', i', readCount', rfl⟩, ?_⟩
    rw [hwriter] at hstep
    dsimp only at hstep
    split_ifs at hstep
    all_goals
      obtain rfl := Option.some.inj hstep
      rfl
  | idle =>
    rw [hwriter] at hstep
    cases hstep
  | clear | data | send =>
    rw [hwriter] at hstep
    obtain rfl := Option.some.inj hstep
    cases hwriter'
  | first =>
    rw [hwriter] at hstep
    dsimp only at hstep
    split at hstep
    · obtain rfl := Option.some.inj hstep
      cases hwriter'
    · split_ifs at hstep
      all_goals
        obtain rfl := Option.some.inj hstep
        cases hwriter'
  | reset =>
    rw [hwriter] at hstep
    dsimp only at hstep
    split_ifs at hstep
    all_goals
      obtain rfl := Option.some.inj hstep
      cases hwriter'

lemma readerStep_wait (hstep : s.readerStep pickle r = some s')
    (hlast : (s.readers r).pc.last = false)
    (hpc' : (s'.readers r).pc = .checkRead ∨ ∃ readFlag, (s'.readers r).pc = .checkWritten readFlag) :
    ((s.readers r).pc = .checkRead ∨ ∃ readFlag, (s.readers r).pc = .checkWritten readFlag) ∧
      s' = s.setReader r { s.readers r with pc := (s'.readers r).pc } := by
  unfold readerStep at hstep
  dsimp only at hstep
  cases hpc : (s.readers r).pc with
  | checkRead =>
    rw [hpc] at hstep
    obtain rfl := Option.some.inj hstep
    exact ⟨Or.inl rfl, by rw [setReader_self]⟩
  | checkWritten readFlag =>
    rw [hpc] at hstep
    dsimp only at hstep
    split_ifs at hstep
    all_goals
      obtain rfl := Option.some.inj hstep
      exact ⟨Or.inr ⟨readFlag, rfl⟩, by rw [setReader_self]⟩
  | first =>
    rw [hpc] at hstep
    dsimp only at hstep
    split at hstep
    · obtain rfl := Option.some.inj hstep
      simp [setReader_self] at hpc'
    · obtain rfl := Option.some.inj hstep
      rw [setReader_self] at hpc'
      dsimp only at hpc'
      split_ifs at hpc' <;> simp at hpc'
  | data =>
    rw [hpc] at hstep
    dsimp only at hstep
    split at hstep
    all_goals
      obtain rfl := Option.some.inj hstep
      simp [setReader_self] at hpc'
  | mark obj =>
    rw [hpc] at hstep hlast
    cases obj with
    | none =>
      obtain rfl := Option.some.inj hstep
      simp [setReader_self] at hpc'
    | some obj => cases hlast
  | recv =>
    rw [hpc] at hlast
    cases hlast
  | raised =>
    rw [hpc] at hstep
    cases hstep

lemma writerStep_rewind (back : Nat → Bool) :
    (s.rewind back).writerStep pickle = (s.writerStep pickle).map (rewind back) := by
  have hwriter : (s.rewind back).writer = s.writer := rfl
  unfold writerStep
  rw [hwriter]
  cases s.writer with
  | idle => rfl
  | count obj i readCount | reset obj i =>
    dsimp only
    simp only [apply_ite (Option.map (rewind back))]
    rfl
  | clear obj | data obj => rfl
  | first obj =>
    have hdata : (s.rewind back).buffer.data (s.rewind back).currentIdx =
        s.buffer.data s.currentIdx := rfl
    dsimp only
    rw [hdata]
    cases s.buffer.data s.currentIdx with
    | nil => rfl
    | cons b bytes =>
      dsimp only
      rw [apply_ite (Option.map (rewind back))]
      rfl
  | send obj =>
    refine congrArg some (congrArg (State.mk _ _ _ · _ _) (funext fun r => ?_))
    dsimp only [rewind]
    cases back r <;> rfl

/-- The state of the queue without what a reader sees of it. -/
def elsewhere (s : State α) (writer : WriterPc α) (readers : Nat → Reader α) (called : List α) :
    State α := { s with writer := writer, readers := readers, called := called }

lemma enqueue_rewind (back : Nat → Bool) (obj : α) : (s.rewind back).step pickle (.enqueue obj) =
    (s.step pickle (.enqueue obj)).map (rewind back) := by
  have hwriter : (s.rewind back).writer = s.writer := rfl
  dsimp only [step]
  rw [hwriter]
  cases s.writer <;> rfl

lemma readerStep_local (hstep : s.readerStep pickle r = some s') : ∃ b reader,
    s' = setReader { s with buffer := b } r reader ∧
      ∀ writer readers called, readers r = s.readers r →
        (s.elsewhere writer readers called).readerStep pickle r =
          some (setReader { s.elsewhere writer readers called with buffer := b } r reader) := by
  unfold readerStep at hstep ⊢
  dsimp only [elsewhere] at hstep ⊢
  cases hpc : (s.readers r).pc with
  | checkRead =>
    rw [hpc] at hstep
    refine ⟨s.buffer, _, (Option.some.inj hstep).symm, fun _ _ _ hr => ?_⟩
    rw [hr, hpc]
  | checkWritten readFlag =>
    rw [hpc] at hstep
    dsimp only at hstep
    split_ifs at hstep with hagain
    · refine ⟨s.buffer, _, (Option.some.inj hstep).symm, fun _ _ _ hr => ?_⟩
      rw [hr, hpc]
      exact if_pos hagain
    · refine ⟨s.buffer, _, (Option.some.inj hstep).symm, fun _ _ _ hr => ?_⟩
      rw [hr, hpc]
      exact if_neg hagain
  | first =>
    rw [hpc] at hstep
    dsimp only at hstep
    cases hdata : s.buffer.data (s.readers r).currentIdx with
    | nil | cons =>
      rw [hdata] at hstep
      refine ⟨s.buffer, _, (Option.some.inj hstep).symm, fun _ _ _ hr => ?_⟩
      rw [hr, hpc]
      dsimp only
      rw [hdata]
  | data =>
    rw [hpc] at hstep
    dsimp only at hstep
    cases hobj : pickle.loads ((s.buffer.data (s.readers r).currentIdx).drop 1) with
    | none | some =>
      rw [hobj] at hstep
      refine ⟨s.buffer, _, (Option.some.inj hstep).symm, fun _ _ _ hr => ?_⟩
      rw [hr, hpc]
      dsimp only
      rw [hobj]
  | mark obj =>
    rw [hpc] at hstep
    cases obj with
    | none | some =>
      refine ⟨_, _, (Option.some.inj hstep).symm, fun _ _ _ hr => ?_⟩
      rw [hr, hpc]
  | recv =>
    rw [hpc] at hstep
    dsimp only at hstep
    cases hsocket : (s.readers r).socket with
    | nil =>
      rw [hsocket] at hstep
      cases hstep
    | cons message rest =>
      rw [hsocket] at hstep
      dsimp only at hstep
      cases hobj : pickle.loads message with
      | none | some =>
        rw [hobj] at hstep
        refine ⟨s.buffer, _, (Option.some.inj hstep).symm, fun _ _ _ hr => ?_⟩
        rw [hr, hpc, hsocket]
        dsimp only
        rw [hobj]
  | raised =>
    rw [hpc] at hstep
    cases hstep

lemma readerStep_rewind {back : Nat → Bool} (hr : back r = false)
    (hstep : s.readerStep pickle r = some s') :
    (s.rewind back).readerStep pickle r = some (s'.rewind back) := by
  obtain ⟨b, reader, rfl, hlocal⟩ := readerStep_local hstep
  rw [rewind_setReader hr]
  exact hlocal s.writer (s.rewind back).readers s.called (rewind_readers hr)

lemma readerStep_cancelCall (hstep : s.readerStep pickle r = some s') :
    s.cancelCall.readerStep pickle r = some s'.cancelCall := by
  obtain ⟨b, reader, rfl, hlocal⟩ := readerStep_local hstep
  exact hlocal .idle s.readers s.called.dropLast rfl

end State

namespace MessageQueue

variable {q q' : MessageQueue α} {r : Nat} {failing : Party → Bool}

/-- The operation of the party is in a wait before it has written anything. -/
def Early : Party → MessageQueue α → Prop
  | .writer, q => ∃ obj i readCount, q.shm.writer = .count obj i readCount
  | .reader r, q => q.calling r = true ∧
    ((q.shm.readers r).pc = .checkRead ∨ ∃ readFlag, (q.shm.readers r).pc = .checkWritten readFlag)
  | .remote r, q => (q.remotes r).pc = .recv

def undoShm (failing : Party → Bool) (s : State α) : State α :=
  if failing .writer then (s.rewind fun r => failing (.reader r)).cancelCall
  else s.rewind fun r => failing (.reader r)

/-- The parties of `failing` are before their calls. -/
def undo (failing : Party → Bool) (q : MessageQueue α) : MessageQueue α :=
  { q with
    shm := undoShm failing q.shm
    calling := fun r => q.calling r && !failing (.reader r)
    remotes := fun r =>
      if failing (.remote r) then { q.remotes r with pc := .idle } else q.remotes r }

lemma undoShm_of_writer (h : failing .writer = true) (s : State α) :
    undoShm failing s = (s.rewind fun r => failing (.reader r)).cancelCall := if_pos h

lemma undoShm_of_not_writer (h : failing .writer = false) (s : State α) :
    undoShm failing s = s.rewind fun r => failing (.reader r) := if_neg (by simp [h])

lemma continueWith_shm (s : State α) : (q.continueWith s).shm = s := by
  unfold continueWith
  split <;> rfl

lemma undo_setRemote (hr : failing (.remote r) = false) (reader : RemoteReader α) :
    (q.setRemote r reader).undo failing = (q.undo failing).setRemote r reader := by
  refine congrArg (MessageQueue.mk _ _ _ _) (funext fun q' => ?_)
  by_cases hq : q' = r
  · subst hq
    simp [setRemote, hr]
  · simp [setRemote, undo, hq]

lemma undo_remotes (hr : failing (.remote r) = false) :
    (q.undo failing).remotes r = q.remotes r := if_neg (by simp [hr])

lemma undo_readers (hr : failing (.reader r) = false) :
    (q.undo failing).shm.readers r = q.shm.readers r := by
  dsimp only [undo, undoShm]
  split_ifs
  · exact if_neg (by simp [hr])
  · exact if_neg (by simp [hr])

lemma undo_buffer : (q.undo failing).shm.buffer = q.shm.buffer := by
  dsimp only [undo, undoShm]
  split_ifs <;> rfl

lemma undo_remoteSend : (q.undo failing).remoteSend = q.remoteSend := rfl

lemma undo_writer (h : failing .writer = false) : (q.undo failing).shm.writer = q.shm.writer := by
  dsimp only [undo]
  rw [undoShm_of_not_writer h]
  rfl

lemma undo_continueWith (h : failing .writer = false) (s : State α) :
    (q.continueWith s).undo failing = (q.undo failing).continueWith (undoShm failing s) := by
  have hpassed : passed (q.undo failing).shm (undoShm failing s) = passed q.shm s := by
    dsimp only [passed]
    rw [undo_writer h, undoShm_of_not_writer h]
    rfl
  unfold continueWith
  rw [hpassed]
  split <;> rfl

lemma undo_calling (hr : failing (.reader r) = false) (calling : Bool) :
    (fun q' => Function.update q.calling r calling q' && !failing (.reader q')) =
      Function.update (q.undo failing).calling r calling := by
  funext q'
  by_cases hq : q' = r
  · subst hq
    simp [hr]
  · simp [undo, hq]

lemma undo_none : q.undo (fun _ => false) = q := by
  refine congrArg (MessageQueue.mk _ · _ _ _) (funext fun r => ?_)
  exact Bool.and_true _

lemma undo_giveUp (hr : failing (.reader r) = false) :
    q.undo (Function.update failing (.reader r) true) = (q.giveUp r).undo failing := by
  have hback : (fun p => Function.update failing (.reader r) true (.reader p)) =
      Function.update (fun p => failing (.reader p)) r true := by
    funext p
    by_cases hp : p = r
    · simp [hp]
    · simp [hp]
  have hcalling : (fun p => q.calling p && !Function.update failing (.reader r) true (.reader p)) =
      fun p => Function.update q.calling r false p && !failing (.reader p) := by
    funext p
    by_cases hp : p = r
    · simp [hp]
    · simp [hp]
  unfold undo undoShm giveUp
  rw [hback, hcalling, State.rewind_update hr]
  rfl

lemma early_of_failure {e : QueueEvent α} (hallowed : e.Allowed)
    (hstep : q.step pickle e = some q') (hstage : e.stage = .failure)
    (hnot : failing e.party = false) :
    Early e.party q ∧ ¬ Early e.party q' ∧
      q.undo (Function.update failing e.party true) = q'.undo failing := by
  cases e with
  | enqueue | writer | dequeue | reader | remoteDequeue | remote => cases hstage
  | recvTimeout => cases hallowed
  | writerTimeout =>
    dsimp only [step, writerTimeout] at hstep
    split at hstep
    · rename_i obj i readCount hwriter
      split_ifs at hstep
      obtain rfl := Option.some.inj hstep
      refine ⟨⟨obj, i, readCount, hwriter⟩, ?_, ?_⟩
      · rintro ⟨_, _, _, h⟩
        cases h
      · change failing .writer = false at hnot
        simp [undo, undoShm, hnot, QueueEvent.party, State.rewind, State.cancelCall]
    · cases hstep
  | readTimeout r =>
    dsimp only [step, readTimeout] at hstep
    split at hstep
    · rename_i readFlag hpc
      split_ifs at hstep with hguard
      obtain rfl := Option.some.inj hstep
      refine ⟨⟨hguard.1, Or.inr ⟨readFlag, hpc⟩⟩, ?_, undo_giveUp hnot⟩
      rintro ⟨hcalling, -⟩
      simp [giveUp] at hcalling
    · cases hstep
  | remoteTimeout r =>
    dsimp only [step] at hstep
    split at hstep
    · rename_i hpc _
      obtain rfl := Option.some.inj hstep
      refine ⟨hpc, ?_, ?_⟩
      · simp [Early, QueueEvent.party, setRemote]
      · change failing (.remote r) = false at hnot
        refine congrArg (MessageQueue.mk _ _ _ _) (funext fun p => ?_)
        by_cases hp : p = r
        · simp [setRemote, QueueEvent.party, hp, hnot]
        · simp [setRemote, QueueEvent.party, hp]
    · cases hstep

lemma undo_call {e : QueueEvent α} (hstep : q.step pickle e = some q') (hstage : e.stage = .call)
    (hearly : Early e.party q') (hfails : failing e.party = true) :
    q.undo (Function.update failing e.party false) = q'.undo failing := by
  cases e with
  | writer | reader | remote | writerTimeout | readTimeout | recvTimeout | remoteTimeout =>
    cases hstage
  | enqueue obj =>
    dsimp only [step] at hstep
    split at hstep
    · cases hstep
    · obtain ⟨s, hs, hq'⟩ := Option.map_eq_some_iff.mp hstep
      obtain ⟨hidle, rfl⟩ := State.step_enqueue hs
      change failing .writer = true at hfails
      by_cases hreader : q.shm.buffer.nReader > 0
      · rw [if_pos hreader, if_pos hreader] at hq'
        subst hq'
        simp [undo, undoShm, hfails, QueueEvent.party, State.rewind, State.cancelCall, ← hidle]
      · rw [if_neg hreader, if_neg hreader] at hq'
        subst hq'
        obtain ⟨_, _, _, hwriter⟩ := hearly
        cases hwriter
  | dequeue r =>
    dsimp only [step] at hstep
    split at hstep
    · rename_i hpc
      split_ifs at hstep with hguard
      obtain rfl := Option.some.inj hstep
      change failing (.reader r) = true at hfails
      have hback : (fun p => Function.update failing (.reader r) false (.reader p)) =
          Function.update (fun p => failing (.reader p)) r false := by
        funext p
        by_cases hp : p = r
        · simp [hp]
        · simp [hp]
      have hcalling : (fun p =>
            q.calling p && !Function.update failing (.reader r) false (.reader p)) =
          fun p => Function.update q.calling r true p && !failing (.reader p) := by
        funext p
        by_cases hp : p = r
        · simpa [hp, hfails] using hguard.2
        · simp [hp]
      unfold undo undoShm
      rw [QueueEvent.party, hback, hcalling, State.rewind_of_checkRead hpc hfails]
      rfl
    · cases hstep
  | remoteDequeue r =>
    dsimp only [step] at hstep
    split at hstep
    · rename_i hpc
      split_ifs at hstep with hguard
      obtain rfl := Option.some.inj hstep
      change failing (.remote r) = true at hfails
      refine congrArg (MessageQueue.mk _ _ _ _) (funext fun p => ?_)
      by_cases hp : p = r
      · simp [setRemote, QueueEvent.party, hp, hfails, ← hpc]
      · simp [setRemote, QueueEvent.party, hp]
    · cases hstep

lemma undo_inside {e : QueueEvent α} (hstep : q.step pickle e = some q')
    (hstage : e.stage = .inside) (hearly : Early e.party q') (hfails : failing e.party = true) :
    Early e.party q ∧ q.undo failing = q'.undo failing := by
  cases e with
  | enqueue | dequeue | remoteDequeue | writerTimeout | readTimeout | recvTimeout
  | remoteTimeout => cases hstage
  | writer =>
    obtain ⟨obj, i, readCount, hwriter'⟩ := hearly
    change failing .writer = true at hfails
    dsimp only [step, writerStep] at hstep
    split at hstep
    · rename_i hwriter
      obtain ⟨_, _, rfl⟩ := Option.map_eq_some_iff.mp hstep
      rw [hwriter] at hwriter'
      cases hwriter'
    · obtain ⟨s, hs, rfl⟩ := Option.map_eq_some_iff.mp hstep
      rw [continueWith_shm] at hwriter'
      obtain ⟨hwriter, hs'⟩ := State.writerStep_count hs hwriter'
      have hpassed : passed q.shm s = none := by
        unfold passed
        rw [hwriter']
        cases q.shm.writer <;> rfl
      refine ⟨hwriter, ?_⟩
      rw [continueWith, hpassed]
      unfold undo
      rw [undoShm_of_writer hfails, undoShm_of_writer hfails, hs']
      rfl
  | reader r =>
    obtain ⟨hcalling', hpc'⟩ := hearly
    change failing (.reader r) = true at hfails
    dsimp only [step, readerStep] at hstep
    split_ifs at hstep with hcalling
    obtain ⟨s, hs, rfl⟩ := Option.map_eq_some_iff.mp hstep
    simp only [Function.update_self, Bool.not_eq_true'] at hcalling'
    obtain ⟨hpc, hs'⟩ := State.readerStep_wait hs hcalling' hpc'
    refine ⟨⟨hcalling, hpc⟩, ?_⟩
    have hsame : Function.update q.calling r (!(q.shm.readers r).pc.last) = q.calling := by
      rw [hcalling', Bool.not_false, ← hcalling, Function.update_eq_self]
    unfold undo undoShm
    rw [hsame, hs', State.rewind_setReader_pc hfails]
  | remote r =>
    dsimp only [step, remoteStep] at hstep
    split at hstep
    · split at hstep
      all_goals
        obtain rfl := Option.some.inj hstep
        simp [Early, QueueEvent.party, setRemote] at hearly
    · cases hstep

/-- The other parties do not see which operations are taken back. -/
lemma undo_other {e : QueueEvent α} (hstep : q.step pickle e = some q') (hstage : e.stage ≠ .failure)
    (hnot : failing e.party = false) :
    (q.undo failing).step pickle e = some (q'.undo failing) := by
  cases e with
  | writerTimeout | readTimeout | recvTimeout | remoteTimeout => exact absurd rfl hstage
  | enqueue obj =>
    change failing .writer = false at hnot
    dsimp only [step] at hstep ⊢
    rw [undo_buffer, undo_remoteSend]
    split at hstep
    · cases hstep
    · obtain ⟨s, hs, rfl⟩ := Option.map_eq_some_iff.mp hstep
      have hshm : (undoShm failing q.shm).step pickle (.enqueue obj) = some (undoShm failing s) := by
        rw [undoShm_of_not_writer hnot, undoShm_of_not_writer hnot, State.enqueue_rewind, hs]
        rfl
      refine (congrArg (Option.map _) hshm).trans (congrArg some ?_)
      split_ifs <;> rfl
  | writer =>
    change failing .writer = false at hnot
    dsimp only [step, writerStep] at hstep ⊢
    rw [undo_writer hnot, undo_remoteSend]
    split at hstep
    · obtain ⟨obj, hobj, rfl⟩ := Option.map_eq_some_iff.mp hstep
      rw [hobj]
      refine congrArg some (congrArg (MessageQueue.mk _ _ _ _) (funext fun p => ?_))
      dsimp only [undo]
      cases failing (.remote p) <;> rfl
    · obtain ⟨s, hs, rfl⟩ := Option.map_eq_some_iff.mp hstep
      have hshm : (undoShm failing q.shm).writerStep pickle = some (undoShm failing s) := by
        rw [undoShm_of_not_writer hnot, undoShm_of_not_writer hnot, State.writerStep_rewind, hs]
        rfl
      exact (congrArg (Option.map _) hshm).trans (congrArg some (undo_continueWith hnot s).symm)
  | dequeue r =>
    change failing (.reader r) = false at hnot
    dsimp only [step] at hstep ⊢
    rw [undo_readers hnot, undo_buffer]
    split at hstep
    · split_ifs at hstep with hguard
      obtain rfl := Option.some.inj hstep
      have hguard' : r < q.shm.buffer.nReader ∧ (!(q.undo failing).calling r) = true := by
        simpa [undo, hnot] using hguard
      rw [if_pos hguard', ← undo_calling hnot true]
      rfl
    · cases hstep
  | reader r =>
    change failing (.reader r) = false at hnot
    dsimp only [step, readerStep] at hstep ⊢
    split_ifs at hstep with hcalling
    obtain ⟨s, hs, rfl⟩ := Option.map_eq_some_iff.mp hstep
    have hcalling' : (q.undo failing).calling r = true := by simp [undo, hcalling, hnot]
    have hshm : (undoShm failing q.shm).readerStep pickle r = some (undoShm failing s) := by
      unfold undoShm
      have hrewind : (q.shm.rewind fun p => failing (.reader p)).readerStep pickle r =
          some (s.rewind fun p => failing (.reader p)) := State.readerStep_rewind hnot hs
      split_ifs
      · exact State.readerStep_cancelCall hrewind
      · exact hrewind
    rw [if_pos hcalling', undo_readers hnot, ← undo_calling hnot]
    exact congrArg (Option.map _) hshm
  | remoteDequeue r =>
    change failing (.remote r) = false at hnot
    dsimp only [step] at hstep ⊢
    rw [undo_remotes hnot]
    split at hstep
    · split_ifs at hstep with hguard
      obtain rfl := Option.some.inj hstep
      rw [undo_setRemote hnot]
      exact if_pos hguard
    · cases hstep
  | remote r =>
    change failing (.remote r) = false at hnot
    dsimp only [step, remoteStep] at hstep ⊢
    rw [undo_remotes hnot]
    split at hstep
    · split at hstep
      all_goals
        obtain rfl := Option.some.inj hstep
        exact congrArg some (undo_setRemote hnot _).symm
    · cases hstep

/-- What an event leaves alone of the other parties. -/
structure PartyFrame (q q' : MessageQueue α) (party : Party) : Prop where
  writer : party ≠ .writer → q'.shm.writer = q.shm.writer
  reader : ∀ r, party ≠ .reader r → (q'.shm.readers r).pc = (q.shm.readers r).pc ∧
    q'.calling r = q.calling r
  remote : ∀ r, party ≠ .remote r → (q'.remotes r).pc = (q.remotes r).pc

lemma PartyFrame.continueWith {s : State α}
    (hpc : ∀ r, (s.readers r).pc = (q.shm.readers r).pc) :
    PartyFrame q (q.continueWith s) .writer := by
  unfold MessageQueue.continueWith
  split
  · exact ⟨fun h => absurd rfl h, fun r _ => ⟨hpc r, rfl⟩, fun _ _ => rfl⟩
  · exact ⟨fun h => absurd rfl h, fun r _ => ⟨hpc r, rfl⟩, fun _ _ => rfl⟩

lemma PartyFrame.setReader {s : State α} {calling : Bool} (hwriter : s.writer = q.shm.writer)
    (hothers : ∀ p ≠ r, s.readers p = q.shm.readers p) :
    PartyFrame q { q with shm := s, calling := Function.update q.calling r calling }
      (.reader r) where
  writer _ := hwriter
  reader p hp := by
    have hne : p ≠ r := fun h => hp (h ▸ rfl)
    exact ⟨congrArg Reader.pc (hothers p hne), Function.update_of_ne hne _ _⟩
  remote _ _ := rfl

lemma PartyFrame.setRemote (reader : RemoteReader α) :
    PartyFrame q (q.setRemote r reader) (.remote r) where
  writer _ := rfl
  reader _ _ := ⟨rfl, rfl⟩
  remote p hp := by
    have hne : p ≠ r := fun h => hp (h ▸ rfl)
    exact congrArg RemoteReader.pc (Function.update_of_ne hne _ _)

lemma partyFrame_of_step {e : QueueEvent α} (hstep : q.step pickle e = some q') :
    PartyFrame q q' e.party := by
  cases e with
  | enqueue obj =>
    dsimp only [step] at hstep
    split at hstep
    · cases hstep
    · obtain ⟨s, hs, rfl⟩ := Option.map_eq_some_iff.mp hstep
      obtain ⟨-, rfl⟩ := State.step_enqueue hs
      split_ifs
      · exact ⟨fun h => absurd rfl h, fun _ _ => ⟨rfl, rfl⟩, fun _ _ => rfl⟩
      · exact ⟨fun h => absurd rfl h, fun _ _ => ⟨rfl, rfl⟩, fun _ _ => rfl⟩
  | writer =>
    dsimp only [step, writerStep] at hstep
    split at hstep
    · obtain ⟨obj, -, rfl⟩ := Option.map_eq_some_iff.mp hstep
      exact ⟨fun h => absurd rfl h, fun _ _ => ⟨rfl, rfl⟩, fun _ _ => rfl⟩
    · obtain ⟨s, hs, rfl⟩ := Option.map_eq_some_iff.mp hstep
      exact .continueWith (State.writerStep_pc hs)
  | writerTimeout =>
    dsimp only [step, writerTimeout] at hstep
    split at hstep
    · split_ifs at hstep
      obtain rfl := Option.some.inj hstep
      exact ⟨fun h => absurd rfl h, fun _ _ => ⟨rfl, rfl⟩, fun _ _ => rfl⟩
    · cases hstep
  | dequeue r =>
    dsimp only [step] at hstep
    split at hstep
    · split_ifs at hstep
      obtain rfl := Option.some.inj hstep
      exact .setReader rfl fun _ _ => rfl
    · cases hstep
  | reader r =>
    dsimp only [step, readerStep] at hstep
    split_ifs at hstep
    obtain ⟨s, hs, rfl⟩ := Option.map_eq_some_iff.mp hstep
    have hframe := State.readerStep_frame hs
    exact .setReader hframe.writer fun p hp => (hframe.others p hp).1
  | readTimeout r =>
    dsimp only [step, readTimeout] at hstep
    split at hstep
    · split_ifs at hstep
      obtain rfl := Option.some.inj hstep
      exact .setReader rfl fun p hp => Function.update_of_ne hp _ _
    · cases hstep
  | recvTimeout r =>
    dsimp only [step, recvTimeout] at hstep
    split at hstep
    · split_ifs at hstep
      obtain rfl := Option.some.inj hstep
      exact .setReader rfl fun p hp => Function.update_of_ne hp _ _
    · cases hstep
  | remoteDequeue r =>
    dsimp only [step] at hstep
    split at hstep
    · split_ifs at hstep
      exact Option.some.inj hstep ▸ .setRemote _
    · cases hstep
  | remote r =>
    dsimp only [step, remoteStep] at hstep
    split at hstep
    · split at hstep
      · exact Option.some.inj hstep ▸ .setRemote _
      · exact Option.some.inj hstep ▸ .setRemote _
    · cases hstep
  | remoteTimeout r =>
    dsimp only [step] at hstep
    split at hstep
    · exact Option.some.inj hstep ▸ .setRemote _
    · cases hstep

lemma PartyFrame.early {party p : Party} (h : PartyFrame q q' party) (hp : p ≠ party)
    (hearly : Early p q') : Early p q := by
  cases p with
  | writer =>
    rw [Early, h.writer hp.symm] at hearly
    exact hearly
  | reader r =>
    obtain ⟨hpc, hcalling⟩ := h.reader r hp.symm
    rw [Early, hpc, hcalling] at hearly
    exact hearly
  | remote r =>
    rw [Early, h.remote r hp.symm] at hearly
    exact hearly

lemma retractable (pickle : Pickle α) :
    Retractable (step pickle) QueueEvent.party QueueEvent.stage QueueEvent.Allowed Early undo where
  undo_none _ := undo_none
  failure _ _ _ _ := early_of_failure
  call _ _ _ _ := undo_call
  inside _ _ _ _ := undo_inside
  other _ _ _ _ := undo_other
  early_other _ _ _ _ hstep hp hearly := (partyFrame_of_step hstep).early hp hearly

end MessageQueue

end ShmBroadcast
