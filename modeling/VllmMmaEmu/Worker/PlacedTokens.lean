import VllmMmaEmu.Worker.InputIds

/-!
# Where the sampled tokens go

The slice and the scatter of `_prepare_input_ids` put the same tokens at the same positions. The mark
that a position holds a token is set by the slice only.
-/

namespace VllmV1.Worker

open Python Numpy Segments

namespace InputPreparation

variable {Embedding : Type} {s : InputPreparation Embedding} {numTokens : List Nat}

/-- The position of the last scheduled token of a request. -/
def lastPosition (numTokens : List Nat) (index : Nat) : Nat := start numTokens (index + 1) - 1

/-- The sum and the preparation for the numbers of scheduled tokens. -/
def prepareFor (s : InputPreparation Embedding) (numTokens : List Nat) :
    Except PyError (InputPreparation Embedding) := do
  let (cuNumTokens, _) ← getCumsumAndArange numTokens
  s.prepareInputIds numTokens.sum cuNumTokens

/-- A batch with a token for each request, after a batch whose sampled tokens are on the device. -/
structure Batch (s : InputPreparation Embedding) (numTokens : List Nat)
    (prev : Dict String Nat) (sampled : List Int) : Prop where
  nonempty : numTokens ≠ []
  pos : ∀ n ∈ numTokens, 0 < n
  index_lt : ∀ entry ∈ s.reqIdToIndex.entries, entry.2 < numTokens.length
  index_nodup : (s.reqIdToIndex.entries.map Prod.snd).Nodup
  prev_eq : s.prevReqIdToIndex = some prev
  sampled_eq : s.prevSampledTokenIds = some sampled
  prev_lt : ∀ entry ∈ prev.entries, entry.2 < sampled.length
  inputIds_size : numTokens.sum ≤ s.inputIds.cpu.length
  inputsEmbeds_size : numTokens.sum ≤ s.inputsEmbeds.cpu.length
  isTokenIds_size : numTokens.sum ≤ s.isTokenIds.cpu.length

/-- The requests of both batches: the index of the sampled token and the position it goes to. -/
def common (s : InputPreparation Embedding) (numTokens : List Nat) (prev : Dict String Nat) :
    List (Nat × Nat) :=
  s.reqIdToIndex.entries.filterMap fun entry =>
    (prev.get? entry.1).map fun prevIndex => (prevIndex, lastPosition numTokens entry.2)

/-- Sampled tokens are at the last positions of their requests and marked as tokens, and all other
positions are as they were prepared on the CPU. -/
structure Placed (s s' : InputPreparation Embedding) (numTokens : List Nat)
    (prev : Dict String Nat) (sampled : List Int) : Prop where
  token : ∀ reqId index prevIndex, s.reqIdToIndex.get? reqId = some index →
    prev.get? reqId = some prevIndex →
      s'.inputIds.gpu[lastPosition numTokens index]? = sampled[prevIndex]?
  marked : ∀ reqId index, s.reqIdToIndex.get? reqId = some index → (prev.get? reqId).isSome →
    s'.isTokenIds.gpu[lastPosition numTokens index]? = some true
  others : ∀ t < numTokens.sum, (∀ reqId index, s.reqIdToIndex.get? reqId = some index →
      (prev.get? reqId).isSome → t ≠ lastPosition numTokens index) →
    s'.inputIds.gpu[t]? = s.inputIds.cpu[t]? ∧
      s'.inputsEmbeds.gpu[t]? = s.inputsEmbeds.cpu[t]? ∧
        s'.isTokenIds.gpu[t]? = s.isTokenIds.cpu[t]?

/-- The sampled tokens are a prefix, in the order of the positions. -/
def Sliced (common : List (Nat × Nat)) : Prop :=
  ∀ c ∈ common, c.1 = c.2 ∧ c.2 < common.length

/-- The positions of the sampled tokens are marked before the tokens are put there: on the CPU if
the buffers are copied, else on the device from the step before. -/
def MarkedBefore (s : InputPreparation Embedding) (numTokens : List Nat)
    (common : List (Nat × Nat)) : Prop :=
  ∀ c ∈ common,
    (if common.length < numTokens.sum then s.isTokenIds.cpu else s.isTokenIds.gpu)[c.2]? = some true

instance (s : InputPreparation Embedding) (numTokens : List Nat) (common : List (Nat × Nat)) :
    Decidable (s.MarkedBefore numTokens common) :=
  inferInstanceAs (Decidable (∀ c ∈ common, _ = some true))

lemma lastPosition_lt {i : Nat} (hpos : ∀ n ∈ numTokens, 0 < n) (hi : i < numTokens.length) :
    start numTokens i ≤ lastPosition numTokens i ∧
      lastPosition numTokens i < start numTokens (i + 1) := by
  have hlen := hpos _ (List.mem_of_getElem? (getElem?_len hi))
  have hsucc := start_succ numTokens i
  rw [lastPosition]
  omega

lemma lastPosition_inj {i j : Nat} (hpos : ∀ n ∈ numTokens, 0 < n) (hi : i < numTokens.length)
    (hj : j < numTokens.length) (h : lastPosition numTokens i = lastPosition numTokens j) :
    i = j := by
  have hi' := lastPosition_lt hpos hi
  have hj' := lastPosition_lt hpos hj
  rcases Nat.lt_trichotomy i j with hij | hij | hij
  · have hmono : start numTokens (i + 1) ≤ start numTokens j := start_mono numTokens hij
    omega
  · exact hij
  · have hmono : start numTokens (j + 1) ≤ start numTokens i := start_mono numTokens hij
    omega

variable {prev : Dict String Nat} {sampled : List Int}

lemma mem_common {c : Nat × Nat} :
    c ∈ s.common numTokens prev ↔ ∃ reqId index, s.reqIdToIndex.get? reqId = some index ∧
      prev.get? reqId = some c.1 ∧ c.2 = lastPosition numTokens index := by
  rw [common, List.mem_filterMap]
  constructor
  · rintro ⟨⟨reqId, index⟩, hmem, hsome⟩
    obtain ⟨prevIndex, hprev, rfl⟩ := Option.map_eq_some_iff.mp hsome
    exact ⟨reqId, index, Dict.get?_eq_some_iff.mpr hmem, hprev, rfl⟩
  · rintro ⟨reqId, index, hget, hprev, hlast⟩
    exact ⟨(reqId, index), Dict.get?_eq_some_iff.mp hget, by simp [hprev, ← hlast]⟩

lemma exists_mem_common (numTokens : List Nat) {reqId : String} {index : Nat}
    (hget : s.reqIdToIndex.get? reqId = some index) (hprev : (prev.get? reqId).isSome) :
    ∃ prevIndex, (prevIndex, lastPosition numTokens index) ∈ s.common numTokens prev := by
  obtain ⟨prevIndex, hprev⟩ := Option.isSome_iff_exists.mp hprev
  exact ⟨prevIndex, mem_common.mpr ⟨reqId, index, hget, hprev, rfl⟩⟩

lemma ne_of_others {t : Nat}
    (h : ∀ reqId index, s.reqIdToIndex.get? reqId = some index → (prev.get? reqId).isSome →
      t ≠ lastPosition numTokens index) {c : Nat × Nat} (hc : c ∈ s.common numTokens prev) :
    c.2 ≠ t := by
  obtain ⟨reqId, index, hget, hprev, hlast⟩ := mem_common.mp hc
  have hne := h reqId index hget (Option.isSome_iff_exists.mpr ⟨_, hprev⟩)
  exact fun heq => hne (heq ▸ hlast)

lemma Batch.common_lt (h : Batch s numTokens prev sampled) {c : Nat × Nat}
    (hc : c ∈ s.common numTokens prev) : c.1 < sampled.length ∧ c.2 < numTokens.sum := by
  obtain ⟨reqId, index, hget, hprev, hlast⟩ := mem_common.mp hc
  have hindex : index < numTokens.length := h.index_lt _ (Dict.get?_eq_some_iff.mp hget)
  have hlt := (lastPosition_lt h.pos hindex).2
  have hsum := start_le_sum numTokens (index + 1)
  exact ⟨h.prev_lt _ (Dict.get?_eq_some_iff.mp hprev), by omega⟩

lemma Batch.positions_nodup (h : Batch s numTokens prev sampled) :
    ((s.common numTokens prev).map Prod.snd).Nodup := by
  have hsorted : ∀ entries : List (String × Nat),
      (∀ entry ∈ entries, entry.2 < numTokens.length) → (entries.map Prod.snd).Nodup →
        ((entries.filterMap fun entry => (prev.get? entry.1).map fun prevIndex =>
          (prevIndex, lastPosition numTokens entry.2)).map Prod.snd).Nodup := by
    intro entries hlt hnodup
    induction entries with
    | nil => exact List.nodup_nil
    | cons entry rest ih =>
      have hrest := ih (fun e he => hlt e (List.mem_cons_of_mem _ he))
        (List.nodup_cons.mp hnodup).2
      rw [List.filterMap_cons]
      cases hprev : prev.get? entry.1 with
      | none => simpa [hprev] using hrest
      | some prevIndex =>
        simp only [Option.map_some, List.map_cons, List.nodup_cons]
        refine ⟨fun hmem => ?_, hrest⟩
        obtain ⟨c, hc, hlast⟩ := List.mem_map.mp hmem
        obtain ⟨other, hother, hsome⟩ := List.mem_filterMap.mp hc
        obtain ⟨_, _, rfl⟩ := Option.map_eq_some_iff.mp hsome
        have hsame := lastPosition_inj h.pos (hlt other (List.mem_cons_of_mem _ hother))
          (hlt entry List.mem_cons_self) hlast
        exact (List.nodup_cons.mp hnodup).1 (List.mem_map.mpr ⟨other, hother, hsame⟩)
  exact hsorted _ h.index_lt h.index_nodup

/-- No more requests are common than tokens are scheduled, and if as many are, every position is
that of a sampled token. -/
lemma Batch.common_length_le (h : Batch s numTokens prev sampled) :
    (s.common numTokens prev).length ≤ numTokens.sum := by
  have hsub : (s.common numTokens prev).map Prod.snd ⊆ List.range numTokens.sum := by
    intro t ht
    obtain ⟨c, hc, rfl⟩ := List.mem_map.mp ht
    exact List.mem_range.mpr (h.common_lt hc).2
  have hle := (List.subperm_of_subset h.positions_nodup hsub).length_le
  simpa using hle

lemma Batch.mem_positions (h : Batch s numTokens prev sampled)
    (hall : ∀ c ∈ s.common numTokens prev, c.2 < (s.common numTokens prev).length) {t : Nat}
    (ht : t < (s.common numTokens prev).length) : ∃ c ∈ s.common numTokens prev, c.2 = t := by
  have hmem := mem_of_nodup_of_lt h.positions_nodup (i := t) (by
    intro i hi
    obtain ⟨c, hc, rfl⟩ := List.mem_map.mp hi
    rw [List.length_map]
    exact hall c hc) (by rwa [List.length_map])
  exact List.mem_map.mp hmem

lemma foldlM_commonStep {cuNumTokens : List Nat} (prev : Dict String Nat)
    (hcu : ∀ i < numTokens.length, cuNumTokens[i]? = some (start numTokens (i + 1)))
    (entries : List (String × Nat)) (hlt : ∀ entry ∈ entries, entry.2 < numTokens.length)
    (acc : Common) :
    let cs := entries.filterMap fun entry =>
      (prev.get? entry.1).map fun prevIndex => (prevIndex, lastPosition numTokens entry.2)
    entries.foldlM (commonStep prev cuNumTokens) acc = .ok
      { flattenedIndices := acc.flattenedIndices ++ cs.map Prod.snd
        prevCommonReqIndices := acc.prevCommonReqIndices ++ cs.map Prod.fst
        indicesMatch := acc.indicesMatch && cs.all fun c => decide (c.1 = c.2)
        maxFlattenedIndex := cs.foldl (fun m c => max m (c.2 : Int)) acc.maxFlattenedIndex } := by
  induction entries generalizing acc with
  | nil => simp
  | cons entry rest ih =>
    have hrest := ih fun e he => hlt e (List.mem_cons_of_mem _ he)
    cases hprev : prev.get? entry.1 with
    | none => simpa [commonStep, hprev] using hrest acc
    | some prevIndex =>
      have hindex := hcu _ (hlt entry List.mem_cons_self)
      have hone : commonStep prev cuNumTokens acc entry = .ok
          { flattenedIndices := acc.flattenedIndices ++ [lastPosition numTokens entry.2]
            prevCommonReqIndices := acc.prevCommonReqIndices ++ [prevIndex]
            indicesMatch := acc.indicesMatch && decide (prevIndex = lastPosition numTokens entry.2)
            maxFlattenedIndex :=
              max acc.maxFlattenedIndex (lastPosition numTokens entry.2 : Int) } := by
        rw [commonStep, hprev]
        simp only [pyIndex, hindex, ok_bind]
        rfl
      rw [List.foldlM_cons, hone]
      refine (hrest _).trans ?_
      simp [hprev, List.append_assoc, Bool.and_assoc]

lemma foldl_max_le {cs : List (Nat × Nat)} {m b : Int} :
    cs.foldl (fun m c => max m (c.2 : Int)) m ≤ b ↔ m ≤ b ∧ ∀ c ∈ cs, (c.2 : Int) ≤ b := by
  induction cs generalizing m with
  | nil => simp
  | cons c rest ih =>
    rw [List.foldl_cons, ih, max_le_iff, List.forall_mem_cons, and_assoc]

/-- The greatest index decides whether the positions are a prefix. -/
lemma Batch.max_eq_iff (h : Batch s numTokens prev sampled)
    (hsome : s.common numTokens prev ≠ []) :
    (s.common numTokens prev).foldl (fun m c => max m (c.2 : Int)) (-1) =
        ((s.common numTokens prev).length : Int) - 1 ↔
      ∀ c ∈ s.common numTokens prev, c.2 < (s.common numTokens prev).length := by
  have hpos := List.length_pos_iff.mpr hsome
  constructor
  · intro hmax c hc
    have hle := (foldl_max_le.mp hmax.le).2 c hc
    omega
  · intro hall
    apply le_antisymm
    · refine foldl_max_le.mpr ⟨by omega, fun c hc => ?_⟩
      have := hall c hc
      omega
    · obtain ⟨c, hc, hlast⟩ :=
        h.mem_positions hall (Nat.sub_lt hpos Nat.one_pos)
      have hle := (foldl_max_le.mp (le_refl
        ((s.common numTokens prev).foldl (fun m c => max m (c.2 : Int)) (-1)))).2 c hc
      omega

/-- The buffers after the copy that comes first, if it is needed. -/
def copied (s : InputPreparation Embedding) (numTokens : List Nat) (prev : Dict String Nat) :
    InputPreparation Embedding :=
  if (s.common numTokens prev).length < numTokens.sum then s.copyAll numTokens.sum else s

/-- What is left to do after the copy. -/
def placeSampled (s : InputPreparation Embedding) (common : List (Nat × Nat))
    (sampled : List Int) : Except PyError (InputPreparation Embedding) :=
  if common.length = 0 then .ok s
  else if (common.all fun c => decide (c.1 = c.2)) ∧
      common.foldl (fun m c => max m (c.2 : Int)) (-1) = (common.length : Int) - 1 then do
    let inputIds ← s.inputIds.copyPrefix common.length (sampled.take common.length)
    let isTokenIds ← s.isTokenIds.copyPrefix common.length [true]
    return { s with inputIds := inputIds, isTokenIds := isTokenIds }
  else do
    let src ← (common.map Prod.fst).mapM fun prevIndex => pyIndex sampled prevIndex
    let inputIds ← s.inputIds.scatterGpu ((common.map Prod.snd).zip src)
    return { s with inputIds := inputIds }

lemma Batch.prepareFor_eq (h : Batch s numTokens prev sampled) :
    s.prepareFor numTokens =
      (s.copied numTokens prev).placeSampled (s.common numTokens prev) sampled := by
  have hcu : ∀ i < numTokens.length,
      (cumsum numTokens)[i]? = some (start numTokens (i + 1)) := fun i hi =>
    getElem?_cumsum numTokens hi
  have hloop := foldlM_commonStep prev hcu s.reqIdToIndex.entries h.index_lt
    ⟨[], [], true, -1⟩
  simp only [List.nil_append, Bool.true_and] at hloop
  rw [prepareFor, getCumsumAndArange, getLast?_cumsum h.nonempty]
  simp only [ok_bind, prepareInputIds, h.prev_eq, h.sampled_eq, hloop, List.length_map]
  rfl

lemma Batch.copied_others (h : Batch s numTokens prev sampled) {t : Nat} (ht : t < numTokens.sum)
    (hother : ∀ c ∈ s.common numTokens prev, c.2 ≠ t) :
    (s.copied numTokens prev).inputIds.gpu[t]? = s.inputIds.cpu[t]? ∧
      (s.copied numTokens prev).inputsEmbeds.gpu[t]? = s.inputsEmbeds.cpu[t]? ∧
        (s.copied numTokens prev).isTokenIds.gpu[t]? = s.isTokenIds.cpu[t]? := by
  have hlt : (s.common numTokens prev).length < numTokens.sum := by
    refine lt_of_le_of_ne h.common_length_le fun heq => ?_
    obtain ⟨c, hc, hct⟩ := h.mem_positions (fun c hc => heq ▸ (h.common_lt hc).2) (heq ▸ ht)
    exact hother c hc hct
  rw [copied, if_pos hlt]
  exact ⟨CpuGpuBuffer.getElem?_copyToGpu h.inputIds_size ht,
    CpuGpuBuffer.getElem?_copyToGpu h.inputsEmbeds_size ht,
    CpuGpuBuffer.getElem?_copyToGpu h.isTokenIds_size ht⟩

/-- The marks at the positions of sampled tokens after the copy. -/
lemma Batch.copied_marked (h : Batch s numTokens prev sampled) :
    (∀ c ∈ s.common numTokens prev,
        (s.copied numTokens prev).isTokenIds.gpu[c.2]? = some true) ↔
      s.MarkedBefore numTokens (s.common numTokens prev) := by
  refine forall₂_congr fun c hc => ?_
  rw [copied]
  split_ifs with hlt
  · rw [copyAll, CpuGpuBuffer.getElem?_copyToGpu h.isTokenIds_size (h.common_lt hc).2]
  · rfl

lemma copied_size (s : InputPreparation Embedding) (numTokens : List Nat)
    (prev : Dict String Nat) : (s.copied numTokens prev).inputIds.cpu = s.inputIds.cpu ∧
    (s.copied numTokens prev).isTokenIds.cpu = s.isTokenIds.cpu := by
  rw [copied]
  split_ifs
  · exact ⟨rfl, rfl⟩
  · exact ⟨rfl, rfl⟩

/-- The slice puts every token where it belongs and marks it. -/
lemma Batch.placed_of_sliced (h : Batch s numTokens prev sampled)
    (hsome : s.common numTokens prev ≠ []) (hsliced : Sliced (s.common numTokens prev)) :
    ∃ s', (s.copied numTokens prev).placeSampled (s.common numTokens prev) sampled = .ok s' ∧
      Placed s s' numTokens prev sampled := by
  have hpos := List.length_pos_iff.mpr hsome
  have hall : ∀ c ∈ s.common numTokens prev, c.2 < (s.common numTokens prev).length :=
    fun c hc => (hsliced c hc).2
  have hmatch : (s.common numTokens prev).all (fun c => decide (c.1 = c.2)) = true := by
    rw [List.all_eq_true]
    exact fun c hc => decide_eq_true (hsliced c hc).1
  have hsampled : (s.common numTokens prev).length ≤ sampled.length := by
    obtain ⟨last, hlast, hlastEq⟩ := h.mem_positions hall (Nat.sub_lt hpos Nat.one_pos)
    have hlt := (h.common_lt hlast).1
    have hsame := (hsliced last hlast).1
    omega
  obtain ⟨hinputs, hmarks⟩ := copied_size s numTokens prev
  have hsize : (s.common numTokens prev).length ≤
      (s.copied numTokens prev).inputIds.cpu.length :=
    hinputs ▸ h.common_length_le.trans h.inputIds_size
  have hsize' : (s.common numTokens prev).length ≤
      (s.copied numTokens prev).isTokenIds.cpu.length :=
    hmarks ▸ h.common_length_le.trans h.isTokenIds_size
  have htake := List.length_take_of_le hsampled
  obtain ⟨inputIds, hcopy, hgpu, -⟩ := CpuGpuBuffer.copyPrefix_eq hsize htake
  obtain ⟨isTokenIds, hmark, hmarkGpu, -⟩ := CpuGpuBuffer.copyPrefix_singleton hsize' true
  refine ⟨{ s.copied numTokens prev with inputIds := inputIds, isTokenIds := isTokenIds }, ?_, ?_⟩
  · rw [placeSampled, if_neg (by omega), if_pos ⟨hmatch, (h.max_eq_iff hsome).mpr hall⟩, hcopy,
      hmark]
    rfl
  · constructor
    · intro reqId index prevIndex hget hprev
      have hmem : (prevIndex, lastPosition numTokens index) ∈ s.common numTokens prev :=
        mem_common.mpr ⟨reqId, index, hget, hprev, rfl⟩
      have hc := hsliced _ hmem
      simp only at hc ⊢
      rw [hgpu, List.getElem?_append_left (by omega), List.getElem?_take_of_lt hc.2, hc.1]
    · intro reqId index hget hprev
      obtain ⟨prevIndex, hc⟩ := exists_mem_common numTokens hget hprev
      have hlt := hall _ hc
      simp only at hlt ⊢
      rw [hmarkGpu, List.getElem?_append_left (by rwa [List.length_replicate]),
        List.getElem?_replicate, if_pos hlt]
    · intro t ht hothers
      have hne := fun c hc => ne_of_others hothers (c := c) hc
      have hge : (s.common numTokens prev).length ≤ t := by
        by_contra! hlt
        obtain ⟨c, hc, hct⟩ := h.mem_positions hall hlt
        exact hne c hc hct
      obtain ⟨hin, hemb, his⟩ := h.copied_others ht hne
      refine ⟨?_, hemb, ?_⟩
      · simp only
        rw [hgpu, List.getElem?_append_right (by omega), htake, List.getElem?_drop,
          Nat.add_sub_cancel' hge, hin]
      · simp only
        rw [hmarkGpu, List.getElem?_append_right (by rwa [List.length_replicate]),
          List.length_replicate, List.getElem?_drop, Nat.add_sub_cancel' hge, his]

/-- The writes of the scatter. -/
def sampledWrites (common : List (Nat × Nat)) (sampled : List Int) : List (Nat × Int) :=
  common.map fun c => (c.2, sampled.getD c.1 0)

lemma map_fst_sampledWrites (common : List (Nat × Nat)) (sampled : List Int) :
    (sampledWrites common sampled).map Prod.fst = common.map Prod.snd := by
  rw [sampledWrites, List.map_map]
  rfl

lemma Batch.placeSampled_of_not_sliced (h : Batch s numTokens prev sampled)
    (hsome : s.common numTokens prev ≠ []) (hnot : ¬Sliced (s.common numTokens prev)) :
    ∃ s', (s.copied numTokens prev).placeSampled (s.common numTokens prev) sampled = .ok s' ∧
      s'.inputIds.gpu = scatter (s.copied numTokens prev).inputIds.gpu
        (sampledWrites (s.common numTokens prev) sampled) ∧
      s'.inputsEmbeds = (s.copied numTokens prev).inputsEmbeds ∧
      s'.isTokenIds = (s.copied numTokens prev).isTokenIds := by
  have hpos := List.length_pos_iff.mpr hsome
  have hcond : ¬(((s.common numTokens prev).all fun c => decide (c.1 = c.2)) = true ∧
      (s.common numTokens prev).foldl (fun m c => max m (c.2 : Int)) (-1) =
        ((s.common numTokens prev).length : Int) - 1) := by
    rintro ⟨hmatch, hmax⟩
    apply hnot
    intro c hc
    have hlt := (h.max_eq_iff hsome).mp hmax c hc
    exact ⟨of_decide_eq_true (List.all_eq_true.mp hmatch c hc), hlt⟩
  have hsrc : ((s.common numTokens prev).map Prod.fst).mapM (fun i => pyIndex sampled i) =
      .ok (((s.common numTokens prev).map Prod.fst).map fun i => sampled.getD i 0) := by
    apply mapM_of_forall
    intro i hi
    obtain ⟨c, hc, rfl⟩ := List.mem_map.mp hi
    have hlt := (h.common_lt hc).1
    exact pyIndex_eq_ok.mpr (by rw [List.getElem?_eq_getElem hlt, List.getD_eq_getElem _ _ hlt])
  have hzip : ((s.common numTokens prev).map Prod.snd).zip
      (((s.common numTokens prev).map Prod.fst).map fun i => sampled.getD i 0) =
        sampledWrites (s.common numTokens prev) sampled := by
    rw [List.map_map, List.zip_map']
    rfl
  have hsize := (s.copied numTokens prev).inputIds.size_eq
  rw [(copied_size s numTokens prev).1] at hsize
  have hwrites : ∀ write ∈ sampledWrites (s.common numTokens prev) sampled,
      write.1 < (s.copied numTokens prev).inputIds.gpu.length := by
    intro write hwrite
    obtain ⟨c, hc, rfl⟩ := List.mem_map.mp hwrite
    have hlt := (h.common_lt hc).2
    exact hsize ▸ hlt.trans_le h.inputIds_size
  obtain ⟨inputIds, hscatter, hgpu, -⟩ := CpuGpuBuffer.scatterGpu_eq hwrites
  refine ⟨{ s.copied numTokens prev with inputIds := inputIds }, ?_, hgpu, rfl, rfl⟩
  rw [placeSampled, if_neg (by omega), if_neg hcond, hsrc]
  simp only [ok_bind]
  rw [hzip, hscatter]
  rfl

/-- The scatter puts every token where it belongs, but leaves the marks. -/
lemma Batch.placed_iff_of_scatter (h : Batch s numTokens prev sampled)
    {s' : InputPreparation Embedding}
    (hgpu : s'.inputIds.gpu = scatter (s.copied numTokens prev).inputIds.gpu
      (sampledWrites (s.common numTokens prev) sampled))
    (hembeds : s'.inputsEmbeds = (s.copied numTokens prev).inputsEmbeds)
    (hmarks : s'.isTokenIds = (s.copied numTokens prev).isTokenIds) :
    Placed s s' numTokens prev sampled ↔ s.MarkedBefore numTokens (s.common numTokens prev) := by
  rw [← h.copied_marked]
  constructor
  · intro hplaced c hc
    obtain ⟨reqId, index, hget, hprev, hlast⟩ := mem_common.mp hc
    rw [← hmarks, hlast]
    exact hplaced.marked reqId index hget (Option.isSome_iff_exists.mpr ⟨_, hprev⟩)
  · intro hmarked
    constructor
    · intro reqId index prevIndex hget hprev
      have hc : (prevIndex, lastPosition numTokens index) ∈ s.common numTokens prev :=
        mem_common.mpr ⟨reqId, index, hget, hprev, rfl⟩
      have hlt := h.common_lt hc
      have hsize := (s.copied numTokens prev).inputIds.size_eq
      rw [(copied_size s numTokens prev).1] at hsize
      have hwrite : (lastPosition numTokens index, sampled.getD prevIndex 0) ∈
          sampledWrites (s.common numTokens prev) sampled :=
        List.mem_map.mpr ⟨_, hc, rfl⟩
      have hnodup := h.positions_nodup
      rw [← map_fst_sampledWrites _ sampled] at hnodup
      rw [hgpu, getElem?_scatter_of_mem hnodup hwrite (hsize ▸ hlt.2.trans_le h.inputIds_size),
        List.getD_eq_getElem _ _ hlt.1, List.getElem?_eq_getElem hlt.1]
    · intro reqId index hget hprev
      obtain ⟨prevIndex, hc⟩ := exists_mem_common numTokens hget hprev
      rw [hmarks]
      exact hmarked _ hc
    · intro t ht hothers
      have hne := fun c hc => ne_of_others hothers (c := c) hc
      have hnot : t ∉ (sampledWrites (s.common numTokens prev) sampled).map Prod.fst := by
        rw [map_fst_sampledWrites]
        intro hmem
        obtain ⟨c, hc, hct⟩ := List.mem_map.mp hmem
        exact hne c hc hct
      rw [hgpu, getElem?_scatter_of_notMem hnot, hembeds, hmarks]
      exact h.copied_others ht hne

lemma Batch.placed_of_empty (h : Batch s numTokens prev sampled)
    (hnone : s.common numTokens prev = []) :
    Placed s (s.copied numTokens prev) numTokens prev sampled := by
  have hnot : ∀ reqId index, s.reqIdToIndex.get? reqId = some index →
      ¬(prev.get? reqId).isSome := by
    intro reqId index hget hprev
    obtain ⟨prevIndex, hc⟩ := exists_mem_common numTokens hget hprev
    rw [hnone] at hc
    exact List.not_mem_nil hc
  constructor
  · intro reqId index prevIndex hget hprev
    exact absurd (Option.isSome_iff_exists.mpr ⟨_, hprev⟩) (hnot reqId index hget)
  · intro reqId index hget hprev
    exact absurd hprev (hnot reqId index hget)
  · intro t ht _
    apply h.copied_others ht
    rw [hnone]
    exact fun c hc => absurd hc List.not_mem_nil

/-- The preparation succeeds, and every sampled token is at its place and marked, and all else is
as prepared on the CPU, if and only if the slice was taken or the marks were there before. -/
theorem prepareFor_placed_iff (h : Batch s numTokens prev sampled) :
    ∃ s', s.prepareFor numTokens = .ok s' ∧
      (Placed s s' numTokens prev sampled ↔
        Sliced (s.common numTokens prev) ∨
          s.MarkedBefore numTokens (s.common numTokens prev)) := by
  rw [h.prepareFor_eq]
  by_cases hnone : s.common numTokens prev = []
  · refine ⟨s.copied numTokens prev, by rw [placeSampled, hnone]; rfl, ?_⟩
    have hsliced : Sliced (s.common numTokens prev) := by
      rw [hnone]
      exact fun c hc => absurd hc List.not_mem_nil
    exact iff_of_true (h.placed_of_empty hnone) (.inl hsliced)
  · by_cases hsliced : Sliced (s.common numTokens prev)
    · obtain ⟨s', hrun, hplaced⟩ := h.placed_of_sliced hnone hsliced
      exact ⟨s', hrun, iff_of_true hplaced (.inl hsliced)⟩
    · obtain ⟨s', hrun, hgpu, hembeds, hmarks⟩ := h.placeSampled_of_not_sliced hnone hsliced
      refine ⟨s', hrun, (h.placed_iff_of_scatter hgpu hembeds hmarks).trans ?_⟩
      exact ⟨.inr, fun hor => hor.resolve_left hsliced⟩

/-- A buffer of two places. -/
def bufferOf {α : Type} (cpu gpu : α × α) : CpuGpuBuffer α where
  cpu := [cpu.1, cpu.2]
  gpu := [gpu.1, gpu.2]
  size_eq := rfl

/-- The batch before held `x`, `a` and `b`, and place 0 then held an embedding of `x`. Now `x` is
finished and `b` has moved into its place. -/
def movedBatch : InputPreparation Nat where
  inputIds := bufferOf (-1, -1) (7, 8)
  inputsEmbeds := bufferOf (0, 0) (5, 0)
  isTokenIds := bufferOf (true, true) (false, true)
  reqIdToIndex := ⟨[("a", 1), ("b", 0)], by decide⟩
  prevSampledTokenIds := some [10, 11, 12]
  prevReqIdToIndex := some ⟨[("x", 0), ("a", 1), ("b", 2)], by decide⟩

lemma movedBatch_batch :
    Batch movedBatch [1, 1] ⟨[("x", 0), ("a", 1), ("b", 2)], by decide⟩ [10, 11, 12] where
  nonempty := by decide
  pos := by decide
  index_lt := by decide
  index_nodup := by decide
  prev_eq := rfl
  sampled_eq := rfl
  prev_lt := by decide
  inputIds_size := by decide
  inputsEmbeds_size := by decide
  isTokenIds_size := by decide

/-- The same batches, but nothing of `x` was an embedding. -/
def movedMarked : InputPreparation Nat :=
  { movedBatch with isTokenIds := bufferOf (true, true) (true, true) }

theorem prepareFor_placed_iff_moved :
    ∃ s', movedMarked.prepareFor [1, 1] = .ok s' ∧
      Placed movedMarked s' [1, 1] ⟨[("x", 0), ("a", 1), ("b", 2)], by decide⟩ [10, 11, 12] := by
  have hbatch : Batch movedMarked [1, 1] ⟨[("x", 0), ("a", 1), ("b", 2)], by decide⟩
      [10, 11, 12] := { movedBatch_batch with isTokenIds_size := by decide }
  obtain ⟨s', hrun, hiff⟩ := prepareFor_placed_iff hbatch
  refine ⟨s', hrun, hiff.mpr (.inr ?_)⟩
  decide

/-- The token of `b` is put at place 0, which still counts as an embedding. -/
theorem prepareFor_not_placed_moved :
    Batch movedBatch [1, 1] ⟨[("x", 0), ("a", 1), ("b", 2)], by decide⟩ [10, 11, 12] ∧
      ∃ s', movedBatch.prepareFor [1, 1] = .ok s' ∧
        s'.inputIds.gpu = [12, 11] ∧ s'.isTokenIds.cpu = [true, true] ∧
        s'.isTokenIds.gpu = [false, true] ∧
        ¬Placed movedBatch s' [1, 1] ⟨[("x", 0), ("a", 1), ("b", 2)], by decide⟩
          [10, 11, 12] := by
  refine ⟨movedBatch_batch, _, rfl, by decide, by decide, by decide, fun hplaced => ?_⟩
  have hmarked := hplaced.marked "b" 0 (by decide) (by decide)
  revert hmarked
  decide

end InputPreparation

end VllmV1.Worker
