import Mathlib.Data.List.Pairwise
import Mathlib.Data.List.Perm.Subperm
import VllmMmaEmu.Distributed.LiveBuffers

/-!
# Runs of the shared ring buffer

Every operation that the ring buffer copes with keeps the invariant, so the live buffers are
intact after every run of such operations. A run that frees a buffer recorded before the
pointers went back takes them too far.
-/

namespace ShmObjectStorage

open Python CircularBuffer SingleWriterShmRingBuffer

namespace Session

variable {r r' : SingleWriterShmRingBuffer} {live freed rest old recent : List Chunk}
  {isFreeFn : Nat → List UInt8 → Bool} {nbytes freedBytes : Int}

/-- The state after the oldest buffer, at `address`, is freed. -/
def afterFree (r : SingleWriterShmRingBuffer) (address : Int) : SingleWriterShmRingBuffer :=
  { r with
    metadata := r.metadata.erase r.monotonicIdStart
    monotonicIdStart := (r.monotonicIdStart + 1) % idMax
    dataBufferStart := address }

/-- What the loop of `free_buf` did when it freed the first of the live buffers. -/
structure Frees (r r' : SingleWriterShmRingBuffer) (freed rest : List Chunk) : Prop where
  state : r' = { r with
    metadata := r'.metadata
    monotonicIdStart := (r.monotonicIdStart + freed.length) % idMax
    dataBufferStart := ((freed.getLast?).map (·.address)).getD r.dataBufferStart }
  recorded : Recorded r' rest

lemma Numbered.ids_append (h : Numbered r (freed ++ rest)) :
    freed.map (·.id) = (List.range freed.length).map (fun k => (r.monotonicIdStart + k) % idMax) ∧
      rest.map (·.id) = (List.range rest.length).map fun k =>
        (r.monotonicIdStart + (freed.length + k)) % idMax := by
  have hids := h.ids
  rw [List.map_append, List.length_append, List.range_add, List.map_append, List.map_map] at hids
  exact List.append_inj hids (by simp)

lemma Frees.refl (hnumbered : Numbered r live) (hrecorded : Recorded r live) :
    Frees r r [] live := by
  refine ⟨?_, hrecorded⟩
  simp only [List.length_nil, add_zero, Nat.mod_eq_of_lt hnumbered.idStart_lt,
    List.getLast?_nil, Option.map_none, Option.getD_none]

/-- The loop goes on with the rest after it has freed the oldest buffer. -/
lemma Frees.cons {c : Chunk} (hfreed : Frees (afterFree r c.address) r' freed rest) :
    Frees r r' (c :: freed) rest := by
  refine ⟨?_, hfreed.recorded⟩
  have hstate := hfreed.state
  have hlast : (((c :: freed).getLast?).map (·.address)).getD r.dataBufferStart =
      ((freed.getLast?).map (·.address)).getD c.address := by
    rw [List.getLast?_cons]
    cases freed.getLast? <;> rfl
  have hid : (r.monotonicIdStart + (c :: freed).length) % idMax =
      ((r.monotonicIdStart + 1) % idMax + freed.length) % idMax := by
    rw [List.length_cons, Nat.mod_add_mod, add_right_comm, add_assoc]
  rw [hlast, hid]
  exact hstate

/-- The buffers behind the freed ones are numbered from the new start on. -/
lemma Numbered.drop (h : Numbered r (freed ++ rest))
    (hstart : r'.monotonicIdStart = (r.monotonicIdStart + freed.length) % idMax)
    (hend : r'.monotonicIdEnd = r.monotonicIdEnd) : Numbered r' rest := by
  have hroom := h.room
  have hidEnd := h.idEnd
  rw [List.length_append] at hroom hidEnd
  constructor
  · rw [h.ids_append.2, hstart]
    refine List.map_congr_left fun k _ => ?_
    rw [Nat.mod_add_mod, add_assoc]
  · rw [hend, hidEnd, hstart, Nat.mod_add_mod, add_assoc]
  · rw [hstart]
    exact Nat.mod_lt _ (by decide)
  · omega

lemma Numbered.head_id {c : Chunk} (h : Numbered r (c :: rest)) : c.id = r.monotonicIdStart := by
  have hids := h.ids
  rw [List.length_cons, List.range_succ_eq_map, List.map_cons, List.map_cons] at hids
  rw [(List.cons.inj hids).1, add_zero, Nat.mod_eq_of_lt h.idStart_lt]

lemma Recorded.erase_head {c : Chunk} (h : Recorded r (c :: rest)) (hnumbered : Numbered r (c :: rest))
    (hmetadata : r'.metadata = r.metadata.erase c.id) : Recorded r' rest := by
  have hnodup := hnumbered.nodup
  rw [List.map_cons, List.nodup_cons] at hnodup
  intro k a
  rw [hmetadata, Dict.get?_erase]
  split_ifs with hk
  · simp only [false_iff]
    rintro ⟨c', hc', hid, -⟩
    exact hnodup.1 (List.mem_map.mpr ⟨c', hc', hid.trans hk.symm⟩)
  · rw [h k a]
    constructor
    · rintro ⟨c', hc', hid, ha⟩
      rcases List.mem_cons.mp hc' with rfl | hc'
      · exact absurd hid hk
      · exact ⟨c', hc', hid, ha⟩
    · rintro ⟨c', hc', hid, ha⟩
      exact ⟨c', List.mem_cons_of_mem _ hc', hid, ha⟩

lemma freeLoop_spec (isFreeFn : Nat → List UInt8 → Bool) (nbytes freedBytes : Int) {fuel : Nat}
    (hsize : 0 < r.dataBufferSize) (hrecorded : Recorded r live)
    (hnumbered : Numbered r live) (hheaders : ∀ c ∈ live, HeaderOk r c)
    (hinside : ∀ c ∈ live, Inside r.dataBufferSize c.interval) (hfuel : live.length ≤ fuel) :
    ∃ rest, live = toFree (fun a => (r.accessBuf a).1) isFreeFn nbytes freedBytes live ++ rest ∧
      Frees r (freeLoop isFreeFn nbytes fuel r freedBytes)
        (toFree (fun a => (r.accessBuf a).1) isFreeFn nbytes freedBytes live) rest := by
  induction fuel generalizing r live freedBytes with
  | zero =>
    obtain rfl := List.eq_nil_of_length_eq_zero (Nat.le_zero.mp hfuel)
    exact ⟨[], rfl, Frees.refl hnumbered hrecorded⟩
  | succ fuel ih =>
    cases live with
    | nil =>
      have hnone : r.metadata.get? r.monotonicIdStart = none := by
        refine Option.eq_none_iff_forall_ne_some.mpr fun a ha => ?_
        obtain ⟨c, hc, -⟩ := (hrecorded _ a).mp ha
        cases hc
      simp only [freeLoop, hnone]
      exact ⟨[], rfl, Frees.refl hnumbered hrecorded⟩
    | cons c rest =>
      have hid := hnumbered.head_id
      have hsome : r.metadata.get? r.monotonicIdStart = some c.address :=
        (hrecorded _ _).mpr ⟨c, by simp, hid, rfl⟩
      obtain ⟨-, -, hread⟩ := (hheaders c (by simp)).accessBuf hsize (hinside c (by simp))
      simp only [freeLoop, hsome, toFree, hid, hread]
      by_cases hbytes : freedBytes < nbytes
      swap
      · simp only [hbytes, if_false, false_and]
        exact ⟨c :: rest, rfl, Frees.refl hnumbered hrecorded⟩
      by_cases hfree : isFreeFn r.monotonicIdStart (r.accessBuf c.address).1 = true
      swap
      · simp only [hbytes, hfree, if_true]
        exact ⟨c :: rest, rfl, Frees.refl hnumbered hrecorded⟩
      simp only [hbytes, hfree, if_true, and_self]
      have hnumbered' : Numbered (afterFree r c.address) rest :=
        Numbered.drop (show Numbered r ([c] ++ rest) from hnumbered) rfl rfl
      have hrecorded' : Recorded (afterFree r c.address) rest :=
        hrecorded.erase_head hnumbered (by rw [hid, afterFree])
      obtain ⟨left, heq, hfrees⟩ := ih (r := afterFree r c.address)
        (freedBytes + (c.size + mdSize : Nat)) hsize hrecorded' hnumbered'
        (fun c' hc' => hheaders c' (List.mem_cons_of_mem _ hc'))
        (fun c' hc' => hinside c' (List.mem_cons_of_mem _ hc')) (Nat.le_of_succ_le_succ hfuel)
      exact ⟨left, congrArg (c :: ·) heq, hfrees.cons⟩

/-- The range of freed ids, also when the ids have wrapped around. -/
lemma idRange_eq {before k : Nat} (hbefore : before < idMax) (hk : k < idMax) :
    idRange before ((before + k) % idMax) = (List.range k).map fun j => (before + j) % idMax := by
  rcases Nat.lt_or_ge (before + k) idMax with hlt | hge
  · rw [Nat.mod_eq_of_lt hlt, idRange, if_pos (by omega), Nat.add_sub_cancel_left,
      List.range'_eq_map_range]
    refine List.map_congr_left fun j hj => ?_
    rw [Nat.mod_eq_of_lt (by have := List.mem_range.mp hj; omega)]
  · have hafter : (before + k) % idMax = before + k - idMax := by
      rw [Nat.mod_eq_sub_mod hge, Nat.mod_eq_of_lt (by omega)]
    have hsplit : k = (idMax - before) + (before + k - idMax) := by omega
    rw [hafter, idRange, if_neg (by omega)]
    conv_rhs => rw [hsplit, List.range_add, List.map_append, List.map_map]
    rw [List.range'_eq_map_range, List.range'_eq_map_range]
    refine congrArg₂ (· ++ ·) (List.map_congr_left fun j hj => ?_)
      (List.map_congr_left fun j hj => ?_)
    · have hj := List.mem_range.mp hj
      rw [Nat.mod_eq_of_lt (by omega)]
    · have hj := List.mem_range.mp hj
      simp only [Function.comp_apply, zero_add]
      rw [Nat.mod_eq_sub_mod (by omega), Nat.mod_eq_of_lt (by omega)]
      omega

lemma filter_reported (hnumbered : Numbered r (freed ++ rest)) :
    ((freed ++ rest).filter fun c => c.id ∉ freed.map (·.id)) = rest := by
  have hnodup := hnumbered.nodup
  rw [List.map_append, List.nodup_append'] at hnodup
  rw [List.filter_append, List.filter_eq_nil_iff.mpr, List.filter_eq_self.mpr, List.nil_append]
  · intro c hc
    exact decide_eq_true fun hmem => hnodup.2.2 hmem (List.mem_map_of_mem hc)
  · intro c hc
    simpa using ⟨c, hc, rfl⟩

lemma wrapAround_of_lt (h : r.dataBufferStart < r.dataBufferSize) : r.wrapAround = r :=
  if_neg (not_le.mpr h)

lemma Frees.placed_nil (hplaced : Placed r old recent) (h : Frees r r' [] rest) :
    Placed r'.wrapAround old recent := by
  have hlt : r'.dataBufferStart < r'.dataBufferSize := by
    rw [h.state]
    exact hplaced.start_lt
  rw [wrapAround_of_lt hlt, h.state]
  exact ⟨hplaced.laid, hplaced.window, hplaced.start_lt⟩

/-- When the last freed buffer was recorded since the pointers last went back, so was every
buffer that is left; these count as recorded before when the pointers go back again. -/
lemma Frees.placed {c : Chunk} (hplaced : Placed r old recent) (hlive : old ++ recent = freed ++ rest)
    (h : Frees r r' freed rest) (hlast : freed.getLast? = some c)
    (haddress : c.address < r.dataBufferEnd) :
    ∃ old' recent', rest = old' ++ recent' ∧ Placed r'.wrapAround old' recent' := by
  have hmem : c ∈ freed := List.mem_of_getLast? hlast
  obtain ⟨first, hfreed, hrecent⟩ : ∃ first, freed = old ++ first ∧ recent = first ++ rest := by
    rcases List.append_eq_append_iff.mp hlive with ⟨first, hfreed, hrecent⟩ | ⟨left, hold, -⟩
    · exact ⟨first, hfreed, hrecent⟩
    · exact absurd (hold ▸ List.mem_append_left _ hmem) (hplaced.not_old haddress)
  have hfirst : c ∈ first := by
    rw [hfreed] at hmem
    exact (List.mem_append.mp hmem).resolve_left (hplaced.not_old haddress)
  have hlaid := hplaced.laid
  rw [hrecent, List.map_append] at hlaid
  have hstart := (hlaid.mem (List.mem_append_right _
    (List.mem_append_left _ (List.mem_map_of_mem hfirst)))).1
  have hrest : Laid r.dataBufferSize c.address (rest.map (·.interval)) r.dataBufferEnd :=
    (hlaid.append_right.of_append (List.mem_map_of_mem hfirst)).weaken
      (by simp only [Chunk.interval]; omega) le_rfl
  have hwindow := hplaced.window
  have hlt := hplaced.start_lt
  simp only [Chunk.interval] at hstart
  have hstate := h.state
  simp only [hlast, Option.map_some, Option.getD_some] at hstate
  rcases lt_or_ge c.address (r.dataBufferSize : Int) with hwrap | hwrap
  · refine ⟨[], rest, rfl, ?_⟩
    rw [hstate, wrapAround_of_lt hwrap]
    exact ⟨hrest, by simp only; omega, hwrap⟩
  · refine ⟨rest, [], (List.append_nil rest).symm, ?_⟩
    rw [hstate, wrapAround, if_pos hwrap]
    refine ⟨?_, by simp only; omega, by simp only; omega⟩
    have hshift := hrest.shift
    rw [List.map_map] at hshift
    rwa [List.map_nil, List.append_nil]

lemma wrapAround_frame (r : SingleWriterShmRingBuffer) :
    ∃ start stop, r.wrapAround = { r with dataBufferStart := start, dataBufferEnd := stop } := by
  unfold wrapAround
  split_ifs
  · exact ⟨_, _, rfl⟩
  · exact ⟨r.dataBufferStart, r.dataBufferEnd, rfl⟩

lemma Frees.headers (h : Frees r r' freed rest) {c : Chunk} (hc : HeaderOk r c) :
    HeaderOk r'.wrapAround c := by
  obtain ⟨id, size, hid, hsize, hholds⟩ := hc
  obtain ⟨start, stop, hwrap⟩ := wrapAround_frame r'
  rw [hwrap, h.state]
  exact ⟨id, size, hid, hsize, hholds⟩

section Operations

variable {s s' : Session}

lemma Recorded.length_le (hrecorded : Recorded r live) (hnumbered : Numbered r live) :
    live.length ≤ r.metadata.entries.length := by
  have hsubset : live.map (·.id) ⊆ r.metadata.keys := by
    intro k hk
    obtain ⟨c, hc, hid⟩ := List.mem_map.mp hk
    exact Dict.mem_keys_iff.mpr ⟨c.address, (hrecorded k _).mpr ⟨c, hc, hid, rfl⟩⟩
  have hlength := (hnumbered.nodup.subperm hsubset).length_le
  rwa [List.length_map, Dict.keys, List.length_map] at hlength

lemma init_metadata {size : Nat} (h : init size = .ok r) : r.metadata = Dict.empty.set 0 0 := by
  unfold init at h
  split_ifs at h
  rw [← Except.ok.inj h]

lemma init_idEnd {size : Nat} (h : init size = .ok r) : r.monotonicIdEnd = 0 := by
  unfold init at h
  split_ifs at h
  rw [← Except.ok.inj h]

lemma byte2int_replicate_zero (n : Nat) : byte2int (List.replicate n 0) = 0 := by
  have hzero : fromBytes (List.replicate n 0) = 0 := by
    induction n with
    | zero => rfl
    | succ n ih => rw [List.replicate_succ, fromBytes, ih, UInt8.toNat_zero, mul_zero, add_zero]
  rw [byte2int, hzero, if_pos (by positivity), Nat.cast_zero]

lemma accessBuf_zero (h : r.sharedMemory = fun _ => 0) : (r.accessBuf 0).1 = [] := by
  have hread : ∀ start stop, ∃ n,
      r.sharedMemory.read r.dataBufferSize start stop = List.replicate n 0 := by
    intro start stop
    rw [h, Memory.read, List.map_const']
    exact ⟨_, rfl⟩
  obtain ⟨n, hn⟩ := hread (0 % r.dataBufferSize) (0 % r.dataBufferSize + mdSize)
  simp only [SingleWriterShmRingBuffer.accessBuf, hn, slice, List.drop_replicate,
    List.take_replicate, byte2int_replicate_zero]
  simp [Memory.read, clampIndex]

/-- The entry that a new buffer starts with is not freed. -/
lemma freeBuf_init {size : Nat} {nbytes : Option Int} (h : init size = .ok r)
    (hcopes : nbytes.getD r.dataBufferSize ≤ 0 ∨ isFreeFn 0 [] = false) :
    r.freeBuf isFreeFn nbytes = ([], r) := by
  unfold init at h
  split_ifs at h with hsize
  obtain hr := Except.ok.inj h
  have haccess : (r.accessBuf 0).1 = [] := accessBuf_zero (by rw [← hr])
  have hentry : r.metadata.get? r.monotonicIdStart = some 0 := by rw [← hr]; rfl
  have hentries : r.metadata.entries.length = 1 := by rw [← hr]; rfl
  have hloop : r.freeLoop isFreeFn (nbytes.getD r.dataBufferSize) 1 0 = r := by
    simp only [freeLoop, hentry]
    split_ifs with hbytes hfree
    · have hid : r.monotonicIdStart = 0 := by rw [← hr]
      rw [hid, haccess] at hfree
      rcases hcopes with hcopes | hcopes
      · omega
      · rw [hcopes] at hfree
        cases hfree
    · rfl
    · rfl
  have hstart : r.dataBufferStart < r.dataBufferSize := by
    rw [← hr]
    simp only
    omega
  rw [SingleWriterShmRingBuffer.freeBuf, hentries]
  simp only [hloop, wrapAround_of_lt hstart, idRange, le_refl, if_true, Nat.sub_self,
    List.range'_zero]

lemma Kept.allocate {size address : Int} {id : Nat} {ring : SingleWriterShmRingBuffer}
    (h : s.Kept) (hroom : s.live.length < idMax)
    (halloc : s.ring.allocateBuf size = .ok (address, id, ring)) :
    Kept { s with
      ring := ring
      live := s.live ++ [⟨address, id, size.toNat⟩]
      allocated := s.allocated ++ [id]
      unused := false } := by
  obtain ⟨-, hid, idBytes, sizeBytes, hallocates⟩ := allocateBuf_eq_ok halloc
  obtain ⟨old, recent, hlive, hplaced⟩ := h.placed
  have hplaced' := hallocates.placed (c := ⟨address, id, size.toNat⟩) h.size hplaced rfl rfl
  have hsize : ring.dataBufferSize = s.ring.dataBufferSize := by rw [hallocates.state]
  have hapart := hplaced'.apart (by rw [hsize]; exact h.size)
  rw [← List.append_assoc, ← hlive, List.pairwise_append] at hapart
  constructor
  · rw [hsize]
    exact h.size
  · exact ⟨old, _, by rw [hlive, List.append_assoc], hplaced'⟩
  · exact hallocates.numbered h.numbered hroom hid
  · intro _ k a
    have hmetadata : ring.metadata = s.ring.metadata.set s.ring.monotonicIdEnd address := by
      rw [hallocates.state, Nat.mod_eq_of_lt h.numbered.idEnd_lt]
    have hothers : s.ring.monotonicIdEnd ≠ k →
        (s.ring.metadata.get? k = some a ↔ ∃ c ∈ s.live, c.id = k ∧ c.address = a) := by
      obtain hnew | hused := s.unused.eq_false_or_eq_true
      · intro hk
        obtain ⟨hempty, hinit⟩ := h.new hnew
        rw [hempty, init_metadata hinit, Dict.get?_set_of_ne (init_idEnd hinit ▸ hk)]
        simp
      · exact fun _ => h.recorded hused k a
    rw [hmetadata, Dict.get?_set]
    split_ifs with hk
    · constructor
      · intro ha
        exact ⟨_, List.mem_append_right _ (List.mem_singleton_self _), hid.trans hk,
          Option.some.inj ha⟩
      · rintro ⟨c, hc, hck, rfl⟩
        rcases List.mem_append.mp hc with hc | hc
        · exact absurd (hck.trans hk.symm) (h.numbered.id_ne hroom hc)
        · rw [List.mem_singleton.mp hc]
    · rw [hothers hk]
      constructor
      · rintro ⟨c, hc, hca⟩
        exact ⟨c, List.mem_append_left _ hc, hca⟩
      · rintro ⟨c, hc, hck, ha⟩
        rcases List.mem_append.mp hc with hc | hc
        · exact ⟨c, hc, hck, ha⟩
        · rw [List.mem_singleton.mp hc] at hck
          exact absurd (hid.symm.trans hck) hk
  · exact fun hunused => nomatch hunused
  · intro c hc
    rcases List.mem_append.mp hc with hc | hc
    · refine hallocates.header_other h.size (h.headers c hc) (Nat.le_add_left _ _) ?_
      have hcross := hapart.2.2 c hc _ (List.mem_singleton_self _)
      rwa [hsize] at hcross
    · obtain rfl := List.mem_singleton.mp hc
      exact hallocates.header_new rfl rfl hid
  · simp only [List.map_append, List.map_cons, List.map_nil, ← List.append_assoc, h.order]

lemma Kept.freeBuf {isFreeFn : Nat → List UInt8 → Bool} {nbytes : Option Int} (h : s.Kept)
    (hused : s.unused = false) (hcount : (s.freedBy isFreeFn nbytes).length < idMax) :
    ∃ rest r', s.live = s.freedBy isFreeFn nbytes ++ rest ∧
      Frees s.ring r' (s.freedBy isFreeFn nbytes) rest ∧
      s.ring.freeBuf isFreeFn nbytes =
        ((s.freedBy isFreeFn nbytes).map (·.id), r'.wrapAround) := by
  have hrecorded := h.recorded hused
  obtain ⟨rest, hlive, hfrees⟩ := freeLoop_spec isFreeFn (nbytes.getD s.ring.dataBufferSize) 0
    h.size hrecorded h.numbered h.headers h.intact.inside (hrecorded.length_le h.numbered)
  refine ⟨rest, _, hlive, hfrees, ?_⟩
  have hnumbered : Numbered s.ring (s.freedBy isFreeFn nbytes ++ rest) := hlive ▸ h.numbered
  have hids : idRange s.ring.monotonicIdStart _ = (s.freedBy isFreeFn nbytes).map (·.id) :=
    (idRange_eq h.numbered.idStart_lt hcount).trans hnumbered.ids_append.1.symm
  rw [SingleWriterShmRingBuffer.freeBuf]
  refine Prod.ext ?_ rfl
  rw [← hids]
  refine congrArg (idRange s.ring.monotonicIdStart) ?_
  rw [hfrees.state]
  rfl

lemma Kept.free {isFreeFn : Nat → List UInt8 → Bool} {nbytes : Option Int} {ids : List Nat}
    {ring : SingleWriterShmRingBuffer} (h : s.Kept) (hcopes : s.Copes (.free isFreeFn nbytes))
    (hfree : s.ring.freeBuf isFreeFn nbytes = (ids, ring)) :
    Kept { s with
      ring := ring
      live := s.live.filter fun c => c.id ∉ ids
      reported := s.reported ++ ids } := by
  obtain ⟨hunused, hcount, hlast⟩ := hcopes
  obtain hnew | hused := s.unused.eq_false_or_eq_true
  · obtain ⟨hlive, hinit⟩ := h.new hnew
    rw [freeBuf_init hinit (hunused hnew)] at hfree
    obtain ⟨rfl, rfl⟩ := Prod.mk.inj hfree
    have hfilter : (s.live.filter fun c => c.id ∉ ([] : List Nat)) = s.live := by
      rw [hlive, List.filter_nil]
    rw [hfilter, List.append_nil]
    exact h
  obtain ⟨rest, r', hlive, hfrees, hspec⟩ := h.freeBuf hused hcount
  rw [hspec] at hfree
  obtain ⟨rfl, rfl⟩ := Prod.mk.inj hfree
  have hnumbered : Numbered s.ring (s.freedBy isFreeFn nbytes ++ rest) := hlive ▸ h.numbered
  have hfilter : (s.live.filter fun c => c.id ∉ (s.freedBy isFreeFn nbytes).map (·.id)) = rest := by
    conv_lhs => rw [hlive]
    exact filter_reported hnumbered
  rw [hfilter]
  obtain ⟨start, stop, hwrap⟩ := wrapAround_frame r'
  have hstate := hfrees.state
  constructor
  · rw [hwrap, hstate]
    exact h.size
  · obtain ⟨old, recent, heq, hplaced⟩ := h.placed
    cases hlastFreed : (s.freedBy isFreeFn nbytes).getLast? with
    | none =>
      have hnil := List.getLast?_eq_none_iff.mp hlastFreed
      rw [hnil] at hfrees hlive
      exact ⟨old, recent, hlive.symm.trans heq, hfrees.placed_nil hplaced⟩
    | some c =>
      exact hfrees.placed hplaced (heq.symm.trans hlive) hlastFreed (hlast c (by simp [hlastFreed]))
  · exact hnumbered.drop (by rw [hwrap, hstate]) (by rw [hwrap, hstate])
  · intro _ k a
    have hrecorded := hfrees.recorded k a
    rw [hwrap]
    exact hrecorded
  · intro hunused
    rw [hused] at hunused
    cases hunused
  · intro c hc
    exact hfrees.headers (h.headers c (hlive ▸ List.mem_append_right _ hc))
  · have horder := h.order
    rw [hlive, List.map_append] at horder
    rw [← horder, List.append_assoc]

lemma Kept.clear (h : s.Kept) : Kept { start s.ring.clear with unused := false } where
  size := h.size
  placed := ⟨[], [], rfl, ⟨le_rfl, by simp [start, SingleWriterShmRingBuffer.clear], by
    simpa [start, SingleWriterShmRingBuffer.clear] using h.size⟩⟩
  numbered := ⟨rfl, rfl, show 0 < idMax by decide, Nat.zero_le _⟩
  recorded _ k a := by simp [start, SingleWriterShmRingBuffer.clear]
  new hunused := nomatch hunused
  headers c hc := nomatch hc
  order := rfl

/-- Writing into the data of a live buffer touches no header. -/
lemma Kept.fill {c : Chunk} {offset : Nat} {bytes : List UInt8} (h : s.Kept) (hc : c ∈ s.live)
    (hlength : offset + bytes.length ≤ c.size) :
    Kept { s with ring := { s.ring with
      sharedMemory := s.ring.sharedMemory.write
        ((c.address % s.ring.dataBufferSize).toNat + mdSize + offset) bytes } } := by
  refine ⟨h.size, ?_, ?_, h.recorded, ?_, ?_, h.order⟩
  · obtain ⟨old, recent, hlive, hplaced⟩ := h.placed
    exact ⟨old, recent, hlive, hplaced.laid, hplaced.window, hplaced.start_lt⟩
  · exact ⟨h.numbered.ids, h.numbered.idEnd, h.numbered.idStart_lt, h.numbered.room⟩
  · intro hunused
    rw [(h.new hunused).1] at hc
    cases hc
  · intro c' hc'
    obtain ⟨id, size, hid, hsize, hholds⟩ := h.headers c' hc'
    refine ⟨id, size, hid, hsize, hholds.write_apart ?_⟩
    have hlength' : (id ++ size).length = mdSize := by
      rw [List.length_append, (int2byte_spec hid).1, (int2byte_spec hsize).1]
      rfl
    rw [hlength']
    by_cases heq : c = c'
    · subst heq
      right
      omega
    · have hsymm : Std.Symm fun c c' : Chunk =>
          Apart s.ring.dataBufferSize c.interval c'.interval := ⟨fun _ _ => Apart.symm⟩
      have hapart := h.intact.apart.forall hc hc' heq
      have hne : (s.ring.dataBufferSize : Int) ≠ 0 := by have := h.size; omega
      have hstart := Int.toNat_of_nonneg (Int.emod_nonneg c.address hne)
      have hstart' := Int.toNat_of_nonneg (Int.emod_nonneg c'.address hne)
      simp only [Apart, Chunk.interval] at hapart
      omega

lemma Kept.step {op : Op} (h : s.Kept) (hfills : s.Fills op) (hcopes : s.Copes op)
    (hstep : s.step op = .ok s') : s'.Kept := by
  cases op with
  | allocate size =>
    simp only [Session.step] at hstep
    cases halloc : s.ring.allocateBuf size with
    | ok result =>
      obtain ⟨address, id, ring⟩ := result
      rw [halloc] at hstep
      obtain rfl := Except.ok.inj hstep
      exact h.allocate hcopes halloc
    | error failure =>
      obtain ⟨e, ring⟩ := failure
      cases e with
      | memoryError =>
        rw [halloc, allocateBuf_memoryError halloc] at hstep
        obtain rfl := Except.ok.inj hstep
        exact h
      | assertionError | valueError | overflowError =>
        rw [halloc] at hstep
        cases hstep
  | free isFreeFn nbytes =>
    obtain rfl := Except.ok.inj hstep
    exact h.free hcopes rfl
  | clear =>
    obtain rfl := Except.ok.inj hstep
    exact h.clear
  | fill c offset bytes =>
    obtain rfl := Except.ok.inj hstep
    exact h.fill hfills.1 hfills.2

lemma Kept.of_init {size : Nat} (h : init size = .ok r) : (start r).Kept := by
  unfold init at h
  split_ifs at h with hsize
  obtain rfl := Except.ok.inj h
  have hpos := Nat.pos_of_ne_zero hsize
  constructor
  · exact hpos
  · refine ⟨[], [], rfl, le_rfl, ?_, ?_⟩
    · simp [start]
    · exact Int.natCast_pos.mpr hpos
  · exact ⟨rfl, rfl, show 0 < idMax by decide, Nat.zero_le _⟩
  · exact fun hused => nomatch hused
  · exact fun _ => ⟨rfl, if_neg hsize⟩
  · exact fun c hc => nomatch hc
  · rfl

end Operations

/-- The live buffers are intact in every state that the ring buffer reaches by operations that
it copes with. -/
theorem intact_of_copes {dataBufferSize : Nat} {s : Session}
    (h : ReachedBy dataBufferSize (fun s op => s.Fills op ∧ s.Copes op) s) : s.Intact := by
  have hkept : s.Kept := by
    refine h.invariant ?_ fun s op s' hs hop hstep => hs.step hop.1 hop.2 hstep
    rintro _ ⟨ring, hinit, rfl⟩
    exact Kept.of_init hinit
  exact hkept.intact

instance (s : Session) : (op : Op) → Decidable (s.Fills op)
  | .fill chunk offset bytes =>
    inferInstanceAs (Decidable (chunk ∈ s.live ∧ offset + bytes.length ≤ chunk.size))
  | .allocate _ | .free _ _ | .clear => inferInstanceAs (Decidable True)

instance (s : Session) : (op : Op) → Decidable (s.Copes op)
  | .allocate _ => inferInstanceAs (Decidable (s.live.length < idMax))
  | .free isFreeFn nbytes => inferInstanceAs (Decidable (
      (s.unused = true → nbytes.getD s.ring.dataBufferSize ≤ 0 ∨ isFreeFn 0 [] = false) ∧
      (s.freedBy isFreeFn nbytes).length < idMax ∧
      ∀ c ∈ (s.freedBy isFreeFn nbytes).getLast?, c.address < s.ring.dataBufferEnd))
  | .clear | .fill _ _ _ => inferInstanceAs (Decidable True)

def firstRing (dataBufferSize : Nat) : SingleWriterShmRingBuffer where
  dataBufferSize := dataBufferSize
  monotonicIdEnd := 0
  monotonicIdStart := 0
  dataBufferStart := 0
  dataBufferEnd := 0
  metadata := Dict.empty.set 0 0
  sharedMemory := fun _ => 0

def freeBelow (n : Nat) : Op := .free (fun id _ => id < n) none

/-- The third call of `free_buf` takes the pointers back while a buffer is live. -/
def lapRun : List Op :=
  [.allocate 20, .allocate 20, .allocate 20, freeBelow 2, .allocate 20, freeBelow 3, .allocate 20,
    freeBelow 4]

/-- The address of that buffer is stale. When it is freed, the pointers go back once more, and
the third of the next chunks is put on a live one. -/
def staleRun : List Op :=
  lapRun ++ [.allocate 20, freeBelow 5, .allocate 20, .allocate 20, .allocate 20]

lemma reachedBy_of_run {dataBufferSize : Nat} (hsize : dataBufferSize ≠ 0)
    {allowed : Session → Op → Prop} [∀ s op, Decidable (allowed s op)] {events : List Op}
    {α : Type} {view : Session → α} {seen : α}
    (h : (Runs.runAllowed allowed step (start (firstRing dataBufferSize)) events).map view =
      some seen) : ∃ s, ReachedBy dataBufferSize allowed s ∧ view s = seen := by
  obtain ⟨s, hrun, hs⟩ := Option.map_eq_some_iff.mp h
  exact ⟨s, .of_runAllowed (.start ⟨_, if_neg hsize, rfl⟩) hrun, hs⟩

theorem intact_lapRun : ∃ s : Session, s.live = [⟨128, 4, 20⟩] ∧ s.Intact := by
  obtain ⟨s, hreached, hlive⟩ := reachedBy_of_run (by decide)
    (show (Runs.runAllowed (fun s op => s.Fills op ∧ s.Copes op) step (start (firstRing 100))
      lapRun).map Session.live = some [⟨128, 4, 20⟩] by decide +kernel)
  exact ⟨s, hlive, intact_of_copes hreached⟩

theorem not_intact_staleRun : ¬ ∀ dataBufferSize s, ReachedBy dataBufferSize Fills s → s.Intact := by
  intro hintact
  obtain ⟨s, hreached, hseen⟩ := reachedBy_of_run (by decide)
    (show (Runs.runAllowed Fills step (start (firstRing 100)) staleRun).map
      (fun s => (s.live, s.ring.dataBufferSize)) =
      some ([⟨56, 5, 20⟩, ⟨0, 6, 20⟩, ⟨28, 7, 20⟩, ⟨56, 8, 20⟩], 100) by decide +kernel)
  obtain ⟨hlive, hsize⟩ := Prod.mk.inj hseen
  have hapart := (hintact 100 s hreached).apart
  rw [hlive, hsize] at hapart
  have hclash := (List.pairwise_cons.mp hapart).1 ⟨56, 8, 20⟩ (by simp)
  exact absurd hclash (by unfold Apart; decide)

end Session

end ShmObjectStorage
