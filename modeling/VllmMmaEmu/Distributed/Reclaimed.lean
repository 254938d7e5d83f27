import VllmMmaEmu.Distributed.LiveBufferRuns

/-!
# What `free_buf` gives back

The start of the window should be the oldest live buffer, so that freed buffers stand in no
one's way. `free_buf` leaves it at the last buffer that it freed: while no buffer is freed the
start is right, and the first call that frees one leaves it behind.
-/

namespace ShmObjectStorage

open Python CircularBuffer SingleWriterShmRingBuffer

namespace Session

/-- Where the oldest live buffer starts in the window that ends at `data_buffer_end`; the end
when none is live. -/
def oldest (s : Session) : Int :=
  match s.live with
  | [] => s.ring.dataBufferEnd
  | c :: _ => s.ring.dataBufferEnd - s.ring.dataBufferSize +
      (c.address - s.ring.dataBufferEnd) % s.ring.dataBufferSize

/-- The start is the oldest live buffer, modulo the size of the buffer, or the end when none is
live; and an allocation that fails would fail with the start there too. -/
structure Reclaimed (s : Session) : Prop where
  start_none : s.live = [] → s.ring.dataBufferStart = s.ring.dataBufferEnd
  start_head : ∀ c ∈ s.live.head?,
    s.ring.dataBufferStart % s.ring.dataBufferSize = c.address % s.ring.dataBufferSize
  space : ∀ size ring, s.ring.allocateBuf size = .error (.memoryError, ring) →
    ∃ ring', { s.ring with dataBufferStart := s.oldest }.allocateBuf size =
      .error (.memoryError, ring')

/-- No buffer is freed: there is none, no bytes are to be freed, or readers hold the first. -/
def FreesNothing (s : Session) : Op → Prop
  | .free isFreeFn nbytes => s.live = [] ∨ nbytes.getD s.ring.dataBufferSize ≤ 0 ∨
      ∀ address ∈ s.ring.metadata.get? s.ring.monotonicIdStart,
        isFreeFn s.ring.monotonicIdStart (s.ring.accessBuf address).1 = false
  | .allocate _ | .clear | .fill _ _ _ => True

/-- As long as no buffer is freed, the live buffers start at the beginning. -/
structure FromStart (s : Session) : Prop where
  size_pos : 0 < s.ring.dataBufferSize
  start_eq : s.ring.dataBufferStart = 0
  end_le : s.ring.dataBufferEnd ≤ s.ring.dataBufferSize
  end_none : s.live = [] → s.ring.dataBufferEnd = 0
  /-- The entry that a new buffer starts with. -/
  entries : s.live = [] → ∀ k, ∀ a ∈ s.ring.metadata.get? k, a = 0
  head : ∀ c ∈ s.live.head?, c.address = 0 ∧ 0 < s.ring.dataBufferEnd
  within : ∀ c ∈ s.live, 0 ≤ c.address ∧ c.address + (c.size + mdSize : Nat) ≤ s.ring.dataBufferEnd

variable {s s' : Session} {r r' : SingleWriterShmRingBuffer}

lemma FromStart.end_nonneg (h : s.FromStart) : 0 ≤ s.ring.dataBufferEnd := by
  cases hlive : s.live with
  | nil => exact (h.end_none hlive).ge
  | cons c rest => exact (h.head c (by rw [hlive]; rfl)).2.le

lemma FromStart.oldest_eq (h : s.FromStart) : s.oldest = s.ring.dataBufferStart := by
  have hstart := h.start_eq
  have hstop := h.end_le
  have hsize := h.size_pos
  unfold oldest
  split
  · next hlive => rw [h.end_none hlive, hstart]
  · next c rest hlive =>
    obtain ⟨haddress, hpos⟩ := h.head c (by rw [hlive]; rfl)
    rw [haddress, hstart, zero_sub]
    rcases lt_or_eq_of_le hstop with hlt | heq
    · rw [Int.neg_emod, if_neg fun hdvd => absurd (Int.le_of_dvd hpos hdvd) (not_le.mpr hlt),
        Int.emod_eq_of_lt hpos.le hlt]
      omega
    · rw [heq, Int.emod_eq_zero_of_dvd (Int.dvd_neg.mpr (Int.dvd_refl _))]
      omega

lemma FromStart.reclaimed (h : s.FromStart) : s.Reclaimed where
  start_none hlive := by rw [h.start_eq, h.end_none hlive]
  start_head c hc := by rw [h.start_eq, (h.head c hc).1]
  space size ring herror := ⟨ring, by rw [h.oldest_eq]; exact herror⟩

lemma FromStart.of_init {size : Nat} (h : init size = .ok r) : (start r).FromStart := by
  unfold init at h
  split_ifs at h with hsize
  obtain rfl := Except.ok.inj h
  refine ⟨Nat.pos_of_ne_zero hsize, rfl, Int.natCast_nonneg _, fun _ => rfl, ?_,
    fun c hc => (nomatch hc), fun c hc => nomatch hc⟩
  intro _ k a ha
  rw [Option.mem_def, start, Dict.get?_set] at ha
  split_ifs at ha
  · exact (Option.some.inj ha).symm
  · exact absurd ha (by simp)

/-- Behind the others there is room, or there is none at all. -/
lemma FromStart.address_eq {n : Nat} {address : Int} {id size : List UInt8} (h : s.FromStart)
    (halloc : Allocates s.ring r n address id size) :
    address = s.ring.dataBufferEnd ∧ address + n ≤ s.ring.dataBufferSize := by
  have hroom := halloc.room
  have haddress := halloc.start
  rw [h.start_eq, zero_add] at hroom
  unfold SingleWriterShmRingBuffer.bufferEndReset at haddress
  split_ifs at haddress with hreset
  · have hsize : (0 : Int) < s.ring.dataBufferSize := Int.natCast_pos.mpr h.size_pos
    have hlt := Int.emod_lt_of_pos s.ring.dataBufferEnd hsize
    have hlap : 0 ≤ s.ring.dataBufferEnd / s.ring.dataBufferSize * s.ring.dataBufferSize :=
      mul_nonneg (Int.ediv_nonneg h.end_nonneg hsize.le) hsize.le
    rw [haddress, add_mul, one_mul] at hroom
    omega
  · exact ⟨haddress, hroom⟩

/-- From the beginning on, a buffer is allocated right behind the others. -/
lemma FromStart.allocate {size address : Int} {id : Nat} (h : s.FromStart)
    (halloc : s.ring.allocateBuf size = .ok (address, id, r)) :
    FromStart { s with
      ring := r
      live := s.live ++ [⟨address, id, size.toNat⟩]
      allocated := s.allocated ++ [id]
      unused := false } := by
  obtain ⟨-, -, idBytes, sizeBytes, hallocates⟩ := allocateBuf_eq_ok halloc
  obtain ⟨haddress, hroom⟩ := h.address_eq hallocates
  have hmd : mdSize = 8 := rfl
  rw [hallocates.state]
  refine ⟨h.size_pos, h.start_eq, hroom, ?_, ?_, ?_, ?_⟩
  · exact fun hlive => absurd hlive (by simp)
  · exact fun hlive => absurd hlive (by simp)
  · intro c hc
    simp only at hc ⊢
    cases hlive : s.live with
    | nil =>
      rw [hlive] at hc
      obtain rfl := Option.some.inj hc
      have := h.end_none hlive
      simp only
      omega
    | cons c' rest =>
      rw [hlive] at hc
      obtain rfl := Option.some.inj hc
      have hhead := h.head c' (by rw [hlive]; rfl)
      refine ⟨hhead.1, ?_⟩
      omega
  · intro c hc
    have hend := h.end_nonneg
    simp only
    rcases List.mem_append.mp hc with hc | hc
    · have := h.within c hc
      omega
    · obtain rfl := List.mem_singleton.mp hc
      simp only
      omega

/-- Without live buffers the loop deletes only the entry that the buffer started with. -/
lemma freeLoop_of_zero (isFreeFn : Nat → List UInt8 → Bool) (nbytes freedBytes : Int)
    (fuel : Nat) (hstart : r.dataBufferStart = 0)
    (hzero : ∀ k, ∀ a ∈ r.metadata.get? k, a = 0) :
    ∃ metadata id, r.freeLoop isFreeFn nbytes fuel freedBytes =
        { r with metadata := metadata, monotonicIdStart := id } ∧
      ∀ k, ∀ a ∈ metadata.get? k, a = 0 := by
  induction fuel generalizing r freedBytes with
  | zero => exact ⟨r.metadata, r.monotonicIdStart, rfl, hzero⟩
  | succ fuel ih =>
    rw [freeLoop]
    split
    · exact ⟨r.metadata, r.monotonicIdStart, rfl, hzero⟩
    · next address haddress =>
      dsimp only
      split_ifs
      · obtain rfl := hzero _ address haddress
        obtain ⟨metadata, id, heq, hmetadata⟩ := ih (r := afterFree r 0)
          (freedBytes + (r.accessBuf 0).2.2) rfl fun k a ha => by
            rw [Option.mem_def, afterFree, Dict.get?_erase] at ha
            split_ifs at ha
            exact hzero k a ha
        refine ⟨metadata, id, ?_, hmetadata⟩
        rw [show ({ r with
          metadata := r.metadata.erase r.monotonicIdStart
          monotonicIdStart := (r.monotonicIdStart + 1) % idMax
          dataBufferStart := 0 } : SingleWriterShmRingBuffer) = afterFree r 0 from rfl, heq,
          afterFree, hstart]
      · exact ⟨r.metadata, r.monotonicIdStart, rfl, hzero⟩
      · exact ⟨r.metadata, r.monotonicIdStart, rfl, hzero⟩

lemma freeLoop_of_held {isFreeFn : Nat → List UInt8 → Bool} {nbytes : Int}
    (h : nbytes ≤ 0 ∨ ∀ address ∈ r.metadata.get? r.monotonicIdStart,
      isFreeFn r.monotonicIdStart (r.accessBuf address).1 = false) (fuel : Nat) :
    r.freeLoop isFreeFn nbytes fuel 0 = r := by
  cases fuel with
  | zero => rfl
  | succ fuel =>
    rw [freeLoop]
    split
    · rfl
    · next address haddress =>
      dsimp only
      split_ifs with hbytes hfree
      · rcases h with h | h
        · omega
        · rw [h address haddress] at hfree
          cases hfree
      · rfl
      · rfl

lemma FromStart.free {isFreeFn : Nat → List UInt8 → Bool} {nbytes : Option Int} {ids : List Nat}
    (h : s.FromStart) (hnothing : s.FreesNothing (.free isFreeFn nbytes))
    (hfree : s.ring.freeBuf isFreeFn nbytes = (ids, r)) :
    FromStart { s with
      ring := r
      live := s.live.filter fun c => c.id ∉ ids
      reported := s.reported ++ ids } := by
  have hsize : (0 : Int) < s.ring.dataBufferSize := Int.natCast_pos.mpr h.size_pos
  rcases hnothing with hlive | hheld
  · obtain ⟨metadata, id, hloop, hzero⟩ := freeLoop_of_zero isFreeFn
      (nbytes.getD s.ring.dataBufferSize) 0 s.ring.metadata.entries.length h.start_eq
      (h.entries hlive)
    simp only [SingleWriterShmRingBuffer.freeBuf] at hfree
    rw [hloop, wrapAround_of_lt (h.start_eq ▸ hsize)] at hfree
    obtain ⟨-, rfl⟩ := Prod.mk.inj hfree
    refine ⟨h.size_pos, h.start_eq, h.end_le, fun _ => h.end_none hlive, fun _ => hzero, ?_, ?_⟩
    · intro c hc
      simp [hlive] at hc
    · intro c hc
      simp [hlive] at hc
  · simp only [SingleWriterShmRingBuffer.freeBuf] at hfree
    rw [freeLoop_of_held hheld, wrapAround_of_lt (h.start_eq ▸ hsize)] at hfree
    obtain ⟨rfl, rfl⟩ := Prod.mk.inj hfree
    have hfilter : (s.live.filter fun c => c.id ∉ idRange s.ring.monotonicIdStart
        s.ring.monotonicIdStart) = s.live := by
      simp [idRange]
    rw [hfilter]
    exact ⟨h.size_pos, h.start_eq, h.end_le, h.end_none, h.entries, h.head, h.within⟩

lemma FromStart.clear (h : s.FromStart) : FromStart { Session.start s.ring.clear with unused := false } where
  size_pos := h.size_pos
  start_eq := rfl
  end_le := Int.natCast_nonneg _
  end_none _ := rfl
  entries _ k a ha := by simp [Session.start, SingleWriterShmRingBuffer.clear] at ha
  head c hc := nomatch hc
  within c hc := nomatch hc

lemma FromStart.step {op : Op} (h : s.FromStart) (hnothing : s.FreesNothing op)
    (hstep : s.step op = .ok s') : s'.FromStart := by
  cases op with
  | allocate size =>
    simp only [Session.step] at hstep
    cases halloc : s.ring.allocateBuf size with
    | ok result =>
      rw [halloc] at hstep
      obtain rfl := Except.ok.inj hstep
      exact h.allocate halloc
    | error failure =>
      obtain ⟨e, ring⟩ := failure
      cases e with
      | memoryError =>
        rw [halloc, allocateBuf_memoryError halloc] at hstep
        obtain rfl := Except.ok.inj hstep
        exact h
      | assertionError | valueError | overflowError =>
        rw [halloc] at hstep
        cases hstep
  | free isFreeFn nbytes =>
    obtain rfl := Except.ok.inj hstep
    exact h.free hnothing rfl
  | clear =>
    obtain rfl := Except.ok.inj hstep
    exact h.clear
  | fill c offset bytes =>
    obtain rfl := Except.ok.inj hstep
    exact ⟨h.size_pos, h.start_eq, h.end_le, h.end_none, h.entries, h.head, h.within⟩

/-- The start is the oldest live buffer in every state reached while no buffer is freed. -/
theorem reclaimed_of_frees_nothing {dataBufferSize : Nat}
    (h : ReachedBy dataBufferSize FreesNothing s) : s.Reclaimed := by
  have hfrom : s.FromStart := by
    refine h.invariant ?_ fun s op s' hs hop hstep => hs.step hop hstep
    rintro _ ⟨ring, hinit, rfl⟩
    exact FromStart.of_init hinit
  exact hfrom.reclaimed

lemma Kept.freedBy_ne_nil {isFreeFn : Nat → List UInt8 → Bool} {nbytes : Option Int} (h : s.Kept)
    (hused : s.unused = false) (hfrees : ¬ s.FreesNothing (.free isFreeFn nbytes)) :
    s.freedBy isFreeFn nbytes ≠ [] := by
  simp only [FreesNothing, not_or, not_forall, not_le] at hfrees
  obtain ⟨hlive, hbytes, address, haddress, hfree⟩ := hfrees
  obtain ⟨c, rest, hcons⟩ := List.exists_cons_of_ne_nil hlive
  have hid : c.id = s.ring.monotonicIdStart := (hcons ▸ h.numbered).head_id
  have hget := (h.recorded hused c.id c.address).mpr ⟨c, by simp [hcons], rfl, rfl⟩
  rw [hid, haddress] at hget
  rw [Option.some.inj hget, ← hid, Bool.not_eq_false] at hfree
  rw [freedBy, hcons, toFree, if_pos ⟨hbytes, hfree⟩]
  exact List.cons_ne_nil _ _

lemma toFree_length_le (view : Int → List UInt8) (isFreeFn : Nat → List UInt8 → Bool)
    (nbytes freedBytes : Int) (live : List Chunk) :
    (toFree view isFreeFn nbytes freedBytes live).length ≤ live.length := by
  induction live generalizing freedBytes with
  | nil => exact le_rfl
  | cons c rest ih =>
    rw [toFree]
    split_ifs
    · exact Nat.succ_le_succ (ih _)
    · exact Nat.zero_le _

/-- The start is left at the last buffer freed, which is neither the oldest live one nor the
end. -/
theorem not_reclaimed_of_frees {isFreeFn : Nat → List UInt8 → Bool} {nbytes : Option Int}
    (hfrom : s.FromStart) (h : s.Kept) (hroom : s.live.length < idMax)
    (hfrees : ¬ s.FreesNothing (.free isFreeFn nbytes))
    (hstep : s.step (.free isFreeFn nbytes) = .ok s') : ¬ s'.Reclaimed := by
  have hlive : s.live ≠ [] := fun hnil => hfrees (Or.inl hnil)
  have hused : s.unused = false := by
    obtain hnew | hused := s.unused.eq_false_or_eq_true
    · exact absurd (h.new hnew).1 hlive
    · exact hused
  have hfreed := h.freedBy_ne_nil hused hfrees
  obtain ⟨d, hd⟩ := Option.ne_none_iff_exists'.mp fun hnone =>
    hfreed (List.getLast?_eq_none_iff.mp hnone)
  have hlength : (s.freedBy isFreeFn nbytes).length ≤ s.live.length :=
    toFree_length_le _ _ _ _ s.live
  obtain ⟨rest, r', happend, hspec, hfree⟩ := h.freeBuf hused (hlength.trans_lt hroom)
  have hdmem : d ∈ s.live := happend ▸ List.mem_append_left rest (List.mem_of_getLast? hd)
  obtain ⟨hdpos, hdend⟩ := hfrom.within d hdmem
  have hend := hfrom.end_le
  have hmd : mdSize = 8 := rfl
  have hstart : r'.wrapAround.dataBufferStart = d.address ∧
      r'.wrapAround.dataBufferEnd = s.ring.dataBufferEnd ∧
      r'.wrapAround.dataBufferSize = s.ring.dataBufferSize := by
    have hstate := hspec.state
    simp only [hd, Option.map_some, Option.getD_some] at hstate
    rw [hstate, wrapAround_of_lt (by simp only; omega)]
    exact ⟨rfl, rfl, rfl⟩
  simp only [Session.step, hfree] at hstep
  obtain rfl := Except.ok.inj hstep
  have hfilter : (s.live.filter fun c => c.id ∉ (s.freedBy isFreeFn nbytes).map (·.id)) = rest := by
    conv_lhs => rw [happend]
    exact filter_reported (happend ▸ h.numbered)
  intro hreclaimed
  cases rest with
  | nil =>
    have hnone := hreclaimed.start_none hfilter
    simp only [hstart.1, hstart.2.1] at hnone
    omega
  | cons c rest =>
    have hhead := hreclaimed.start_head c (by simp only [hfilter]; rfl)
    have hcmem : c ∈ s.live := happend ▸ List.mem_append_right _ List.mem_cons_self
    obtain ⟨hcpos, hcend⟩ := hfrom.within c hcmem
    simp only [hstart.1, hstart.2.2] at hhead
    have hapart := h.intact.apart
    rw [happend, List.pairwise_append] at hapart
    have hclash := hapart.2.2 d (List.mem_of_getLast? hd) c List.mem_cons_self
    simp only [Apart, Chunk.interval] at hclash
    omega

instance (s : Session) : (op : Op) → Decidable (s.FreesNothing op)
  | .free isFreeFn nbytes => inferInstanceAs (Decidable (s.live = [] ∨
      nbytes.getD s.ring.dataBufferSize ≤ 0 ∨
      ∀ address ∈ s.ring.metadata.get? s.ring.monotonicIdStart,
        isFreeFn s.ring.monotonicIdStart (s.ring.accessBuf address).1 = false))
  | .allocate _ | .clear | .fill _ _ _ => inferInstanceAs (Decidable True)

/-- Readers hold the first buffer. -/
def heldRun : List Op := [.allocate 20, .allocate 30, freeBelow 0]

/-- The second scenario of the class comment: the first of two buffers is freed. -/
def scenarioTwo : List Op := [.allocate 20, .allocate 30, freeBelow 1]

theorem reclaimed_heldRun :
    ∃ s : Session, s.live = [⟨0, 0, 20⟩, ⟨28, 1, 30⟩] ∧ s.Reclaimed := by
  obtain ⟨s, hreached, hlive⟩ := reachedBy_of_run (by decide)
    (show (Runs.runAllowed FreesNothing step (start (firstRing 100)) heldRun).map Session.live =
      some [⟨0, 0, 20⟩, ⟨28, 1, 30⟩] by decide +kernel)
  exact ⟨s, hlive, reclaimed_of_frees_nothing hreached⟩

/-- The start stays at 0 where the second buffer, at 28, is the oldest. -/
theorem not_reclaimed_scenarioTwo :
    ¬ ∀ dataBufferSize s, ReachedBy dataBufferSize Fills s → s.Reclaimed := by
  intro hreclaimed
  obtain ⟨s, hreached, hseen⟩ := reachedBy_of_run (by decide)
    (show (Runs.runAllowed Fills step (start (firstRing 100)) scenarioTwo).map
      (fun s => (s.live, s.ring.dataBufferStart, s.ring.dataBufferSize)) =
      some ([⟨28, 1, 30⟩], 0, 100) by decide +kernel)
  obtain ⟨hlive, hring⟩ := Prod.mk.inj hseen
  obtain ⟨hstart, hsize⟩ := Prod.mk.inj hring
  have hhead := (hreclaimed 100 s hreached).start_head ⟨28, 1, 30⟩ (by rw [hlive]; rfl)
  rw [hstart, hsize] at hhead
  exact absurd hhead (by decide)

end Session

end ShmObjectStorage
