import VllmMmaEmu.Worker.RowKept

/-!
# Condensing the batch

The moves of `condense` are fixed by the empty rows. Each takes the last request down into
the lowest empty row, and in the end the requests are on the first rows.
-/

namespace VllmV1.Worker

open Python

variable {F : Type} {heap : Heap}

/-- The moves that the loop of `condense` makes, from its empty rows. -/
def condenseMoves : (fuel : Nat) → (removed : List Nat) → (stop : Nat) → List (Nat × Nat)
  | 0, _, _ => []
  | fuel + 1, removed, stop =>
    match removed.getLast? with
    | none => []
    | some emptyIndex =>
      let stop := InputBatch.skipEmpty removed stop
      if emptyIndex + 1 ≥ stop then []
      else (stop - 1, emptyIndex) :: condenseMoves fuel removed.dropLast (stop - 1)

section Moves

variable {R : Type} {rows : Nat → Option R} {removed : List Nat} {stop n fuel : Nat}

lemma skipEmpty_le (removed : List Nat) (stop : Nat) : InputBatch.skipEmpty removed stop ≤ stop := by
  induction stop with
  | zero => exact le_rfl
  | succ last ih =>
    rw [InputBatch.skipEmpty]
    split_ifs
    · omega
    · exact le_rfl

lemma not_mem_of_skipEmpty {last : Nat} (h : InputBatch.skipEmpty removed stop = last + 1) :
    last ∉ removed := by
  induction stop with
  | zero => cases h
  | succ stop ih =>
    rw [InputBatch.skipEmpty] at h
    split_ifs at h with hmem
    · exact ih h
    · obtain rfl := Nat.succ.inj h
      exact hmem

lemma holes_skipEmpty (h : Rows.Holes rows stop n removed) :
    Rows.Holes rows (InputBatch.skipEmpty removed stop) n removed := by
  induction stop with
  | zero => exact h
  | succ stop ih =>
    rw [InputBatch.skipEmpty]
    split_ifs with hmem
    · exact ih (h.skip hmem)
    · exact h

/-- Targets are empty rows, and sources come from behind them and below the bound. -/
lemma condenseMoves_between {m : Nat × Nat} (hm : m ∈ condenseMoves fuel removed stop) :
    m.2 ∈ removed ∧ m.2 < m.1 ∧ m.1 < stop := by
  induction fuel generalizing removed stop with
  | zero => cases hm
  | succ fuel ih =>
    have hle := skipEmpty_le removed stop
    rw [condenseMoves] at hm
    split at hm
    · cases hm
    · rename_i e hlast
      dsimp only at hm
      split_ifs at hm with hend
      · cases hm
      rcases List.mem_cons.mp hm with rfl | hm
      · exact ⟨List.mem_of_getLast? hlast, by dsimp only; omega, by dsimp only; omega⟩
      · obtain ⟨hmem, hlt, hbound⟩ := ih hm
        exact ⟨List.mem_of_mem_dropLast hmem, hlt, by omega⟩

end Moves

namespace InputBatch

variable {b b' : InputBatch F} {rows : Seats F} {r : CachedRequestState F} {src tgt : Nat}

/-- One turn of the loop. -/
def moveInto (b : InputBatch F) (src tgt : Nat) : Except PyError (InputBatch F) :=
  moveDown { b with batchUpdateBuilder := b.batchUpdateBuilder.popRemoved.2 } src tgt

/-- What is known of a move when the loop makes it, and of the moves after it. -/
structure CanMove (b : InputBatch F) (rows : Seats F) (src tgt : Nat)
    (later : List (Nat × Nat)) : Prop where
  taken : ∃ r, rows src = some r
  empty : rows tgt = none
  lt : tgt < src
  popped : b.batchUpdateBuilder.popRemoved.2 =
    { b.batchUpdateBuilder with removed := b.batchUpdateBuilder.removed.dropLast }
  mem : tgt ∈ b.batchUpdateBuilder.removed
  not_mem : tgt ∉ b.batchUpdateBuilder.removed.dropLast
  src_not_mem : src ∉ b.batchUpdateBuilder.removed
  later : ∀ m ∈ later, tgt < m.2 ∧ m.2 < m.1 ∧ m.1 < src

/-- A pop from a list that was read before takes its last entry. -/
lemma popRemoved_sorted {u : BatchUpdateBuilder F} (hsorted : u.isRemovedSorted = true)
    {e : Nat} {u' : BatchUpdateBuilder F} (hpop : u.popRemoved = (some e, u')) :
    u.removed.getLast? = some e ∧ u'.removed = u.removed.dropLast := by
  unfold BatchUpdateBuilder.popRemoved at hpop
  split_ifs at hpop
  · rw [BatchUpdateBuilder.ensureRemovedSorted, if_pos hsorted] at hpop
    obtain ⟨hlast, rfl⟩ := Prod.mk.inj hpop
    exact ⟨hlast, rfl⟩
  · cases (Prod.mk.inj hpop).1

/-- The loop ends, with the requests on the first rows, and keeps what every move keeps. -/
theorem condenseLoop_run {motive : InputBatch F → Seats F → List (Nat × Nat) → Prop}
    (hmove : ∀ b rows src tgt later, CanMove b rows src tgt later →
      motive b rows ((src, tgt) :: later) → ∃ b', b.moveInto src tgt = .ok b' ∧
        b'.batchUpdateBuilder.removed = b.batchUpdateBuilder.removed.dropLast ∧
        b'.batchUpdateBuilder.isRemovedSorted = b.batchUpdateBuilder.isRemovedSorted ∧
        motive b' (Rows.moveOccupant rows src tgt) later)
    {fuel stop n : Nat} (hholes : Rows.Holes rows stop n b.batchUpdateBuilder.removed)
    (hsorted : b.batchUpdateBuilder.isRemovedSorted = true)
    (hdescending : b.batchUpdateBuilder.Descending)
    (hfuel : b.batchUpdateBuilder.removed.length ≤ fuel)
    (hmotive : motive b rows (condenseMoves fuel b.batchUpdateBuilder.removed stop)) :
    ∃ b' rows', condenseLoop fuel b stop = .ok b' ∧ motive b' rows' [] ∧ Rows.Full rows' n := by
  induction fuel generalizing b rows stop with
  | zero =>
    have hnil := List.length_eq_zero_iff.mp (Nat.le_zero.mp hfuel)
    rw [hnil] at hholes
    exact ⟨b, rows, rfl, hmotive, (hholes.full (by simp)).2⟩
  | succ fuel ih =>
    by_cases hnil : b.batchUpdateBuilder.removed = []
    · rw [hnil] at hholes
      refine ⟨b, rows, by rw [condenseLoop, if_pos hnil], ?_, (hholes.full (by simp)).2⟩
      rw [hnil] at hmotive
      exact hmotive
    obtain ⟨e, l, hpop, hperm, hlowest, hpairwise⟩ :=
      BatchUpdateBuilder.popRemoved_ok hdescending hnil
    have hpeek : b.batchUpdateBuilder.peekRemoved.1 = some e := by
      rw [BatchUpdateBuilder.peekRemoved_fst, hpop]
    obtain ⟨hlast, hl⟩ : b.batchUpdateBuilder.removed.getLast? = some e ∧
        l = b.batchUpdateBuilder.removed.dropLast := popRemoved_sorted hsorted hpop
    have hskip := holes_skipEmpty hholes
    have hmem : e ∈ b.batchUpdateBuilder.removed := hperm.symm.subset (List.mem_cons_self ..)
    simp only [condenseMoves, hlast] at hmotive
    by_cases hend : e + 1 ≥ skipEmpty b.batchUpdateBuilder.removed stop
    · -- the lowest empty row is behind the last request
      refine ⟨b, rows, by simp only [condenseLoop, hnil, if_false, hpeek, hend, if_true], ?_, ?_⟩
      · rwa [if_pos hend] at hmotive
      · refine (hskip.full fun k hk => ?_).2
        have hek : e ≤ k := by
          rcases List.mem_cons.mp (hperm.subset hk) with rfl | hk
          · exact le_rfl
          · exact hlowest k hk
        by_contra hlt
        exact not_mem_of_skipEmpty (show skipEmpty b.batchUpdateBuilder.removed stop = k + 1 by omega) hk
    · obtain ⟨last, hstop⟩ : ∃ last, skipEmpty b.batchUpdateBuilder.removed stop = last + 1 :=
        ⟨_, (Nat.succ_pred_eq_of_pos (by omega)).symm⟩
      rw [if_neg hend, hstop, Nat.add_sub_cancel] at hmotive
      rw [hstop] at hend hskip
      have hlastmem := not_mem_of_skipEmpty hstop
      have hnodup := (hperm.nodup_iff.mp hholes.nodup)
      have hcan : CanMove b rows last e
          (condenseMoves fuel b.batchUpdateBuilder.removed.dropLast last) := by
        refine ⟨?_, ?_, by omega, ?_, hmem, ?_, hlastmem, fun m hm => ?_⟩
        · refine Option.ne_none_iff_exists'.mp fun hnone => hlastmem ?_
          exact (hskip.empty last (Nat.lt_succ_self _)).mp hnone
        · exact (hskip.empty e (by omega)).mpr hmem
        · rw [hpop, ← hl, ← hsorted]
        · rw [← hl]
          exact (List.nodup_cons.mp hnodup).1
        · obtain ⟨hm2, hlt, hbound⟩ := condenseMoves_between hm
          rw [← hl] at hm2
          have hne : m.2 ≠ e := fun heq => (List.nodup_cons.mp hnodup).1 (heq ▸ hm2)
          have hle := hlowest _ hm2
          exact ⟨by omega, hlt, hbound⟩
      obtain ⟨b₁, hb₁, hremoved, hsorted₁, hmotive₁⟩ := hmove b rows last e _ hcan hmotive
      have hholes₁ : Rows.Holes (Rows.moveOccupant rows last e) last n
          b₁.batchUpdateBuilder.removed := by
        rw [hremoved, ← hl]
        refine (hskip.perm hperm).moveDown (by omega) fun hmem' => hlastmem ?_
        exact hperm.symm.subset (List.mem_cons_of_mem _ hmem')
      obtain ⟨b', rows', hloop, hdone⟩ := ih hholes₁ (hsorted₁.trans hsorted)
        (fun _ => by rw [hremoved, ← hl]; exact hpairwise)
        (by
          have hlen := hperm.length_eq
          rw [List.length_cons] at hlen
          rw [hremoved, ← hl]
          omega)
        (by rwa [hremoved])
      refine ⟨b', rows', ?_, hdone⟩
      rw [moveInto] at hb₁
      simp only [condenseLoop, hnil, if_false, hpeek, hstop, hend, Nat.add_sub_cancel, hb₁, ok_bind]
      exact hloop

/-- The batch after a turn of the loop. -/
def moved (b : InputBatch F) (src tgt : Nat) (reqId : String) : InputBatch F :=
  let b := { b with batchUpdateBuilder := b.batchUpdateBuilder.popRemoved.2 }
  if b.isPoolingModel then b.withRowMoved src tgt reqId
  else (b.withRowMoved src tgt reqId).moveSampling src tgt

lemma Kept.moveInto (h : Kept heap b rows) (hi : rows src = some r) :
    b.moveInto src tgt = .ok (b.moved src tgt r.reqId) := moveDown_ok (h.linked.getElem?_reqIds hi)

lemma Kept.withRowMoved (h : Kept heap b rows) (hsrc : rows src = some r) (htgt : rows tgt = none)
    (hlt : tgt < src) :
    Kept heap (b.withRowMoved src tgt r.reqId) (Rows.moveOccupant rows src tgt) := by
  have hlen := h.linked.lt_length hsrc
  refine ⟨h.linked.moveDown hsrc htgt (by omega),
    h.lora.rearrange fun r => Rows.seated_moveOccupant htgt (by omega), ?_⟩
  obtain ⟨hothers, hblocks⟩ := MultiGroupBlockTable.moveRow_rows b.blockTable src tgt
  have hcarries := h.carries hsrc
  rw [Rows.moveOccupant, Rows.move, hsrc]
  refine (h.data.of_update (fun k hk => ?_) (Rows.Occupied.some ?_)).update_rows src
    Rows.Occupied.none
  · simp [rowData, InputBatch.withRowMoved, Rows.move, hk, hothers k hk]
  · have hnum : b.numTokens src = r.numTokens heap := hcarries.numTokens
    refine ⟨fun j t ht hj => ?_, fun j hj hmax => ?_, ?_, ?_, ?_, ?_, ?_, fun g row hrow => ?_⟩
    · have hlt : j < b.numTokens src := hnum ▸ CachedRequestState.lt_of_tokenAt ht
      simpa [rowData, InputBatch.withRowMoved, copyFirst, hlt] using hcarries.tokenIds j t ht hj
    · have hlt : j < b.numTokens src := hnum ▸ hj
      simpa [rowData, InputBatch.withRowMoved, copyFirst, hlt] using hcarries.isTokenIds j hj hmax
    · simpa [rowData, InputBatch.withRowMoved, Rows.move] using hnum
    · simpa [rowData, InputBatch.withRowMoved, Rows.move] using hcarries.numTokensNoSpec
    · simpa [rowData, InputBatch.withRowMoved, Rows.move] using hcarries.numPromptTokens
    · simpa [rowData, InputBatch.withRowMoved, Rows.move] using hcarries.numComputedTokens
    · simpa [rowData, InputBatch.withRowMoved, Rows.move] using hcarries.loraId
    · obtain ⟨row', hrow', hmoved⟩ := hblocks g row hrow
      obtain ⟨ids, hids, hrowcarries⟩ := hcarries.blocks g row' hrow'
      exact ⟨ids, hids, hmoved ids hrowcarries⟩

lemma Kept.popped (h : Kept heap b rows) {u : BatchUpdateBuilder F} :
    Kept heap { b with batchUpdateBuilder := u } rows := ⟨h.linked, h.lora, h.data⟩

lemma Kept.moved (h : Kept heap b rows) (hsrc : rows src = some r) (htgt : rows tgt = none)
    (hlt : tgt < src) : Kept heap (b.moved src tgt r.reqId) (Rows.moveOccupant rows src tgt) := by
  have hrow := (h.popped (u := b.batchUpdateBuilder.popRemoved.2)).withRowMoved hsrc htgt hlt
  simp only [InputBatch.moved]
  split_ifs
  · exact hrow
  · rw [moveSampling_frame]
    exact hrow.withSampling

lemma moved_frame (b : InputBatch F) (src tgt : Nat) (reqId : String) :
    (b.moved src tgt reqId).isPoolingModel = b.isPoolingModel ∧
      (b.moved src tgt reqId).reqIds.length = b.reqIds.length ∧
      (b.moved src tgt reqId).reqIdToIndex = b.reqIdToIndex.set reqId tgt ∧
      (b.moved src tgt reqId).batchUpdateBuilder.removed =
        b.batchUpdateBuilder.popRemoved.2.removed ∧
      (b.moved src tgt reqId).batchUpdateBuilder.isRemovedSorted =
        b.batchUpdateBuilder.popRemoved.2.isRemovedSorted := by
  have hlen : ((b.reqIds.set tgt (some reqId)).set src none).length = b.reqIds.length := by
    rw [List.length_set, List.length_set]
  simp only [InputBatch.moved]
  split_ifs
  · exact ⟨rfl, hlen, rfl, rfl, rfl⟩
  · exact ⟨rfl, hlen, rfl, rfl, rfl⟩

/-- The moves that `condense` makes, from the rows that are empty. -/
def condensePlan (b : InputBatch F) : List (Nat × Nat) :=
  let removed := b.batchUpdateBuilder.ensureRemovedSorted.removed
  condenseMoves removed.length removed (b.numReqs + removed.length)

lemma condenseMoves_of_empty {removed : List Nat} {fuel stop n : Nat}
    (hholes : Rows.Holes rows stop n removed) (hrows : ∀ i, rows i = none) :
    condenseMoves fuel removed stop = [] := by
  cases fuel with
  | zero => rfl
  | succ fuel =>
    rw [condenseMoves]
    split
    · rfl
    · dsimp only
      split_ifs with hend
      · rfl
      · obtain ⟨last, hstop⟩ : ∃ last, skipEmpty removed stop = last + 1 :=
          ⟨_, (Nat.succ_pred_eq_of_pos (by omega)).symm⟩
        have hskip := holes_skipEmpty hholes
        rw [hstop] at hskip
        exact absurd ((hskip.empty last (Nat.lt_succ_self _)).mp (hrows last))
          (not_mem_of_skipEmpty hstop)

lemma Kept.settled (h : Kept heap b rows) {n : Nat} (hnum : b.numReqs = n)
    (hle : n ≤ b.reqIds.length) (hfull : Rows.Full rows n) :
    Settled heap { b with
      reqIds := b.reqIds.take n
      reqOutputTokenIds := b.reqOutputTokenIds.take n } rows := by
  subst hnum
  exact ⟨⟨h.linked.take fun i hi => (hfull i).mpr hi, h.lora, h.data⟩,
    List.length_take_of_le hle, hfull⟩

lemma Kept.rows_eq_none (h : Kept heap b rows) (hzero : b.numReqs = 0) (i : Nat) :
    rows i = none := by
  rw [Option.eq_none_iff_forall_ne_some]
  intro r hi
  have hmem := Dict.get?_eq_some_iff.mp (h.get?_reqId hi)
  rw [List.length_eq_zero_iff.mp hzero] at hmem
  cases hmem

/-- `condense` makes its moves, and the requests are on the first rows then. What every move
keeps is kept. -/
theorem Open.condense {motive : InputBatch F → Seats F → List (Nat × Nat) → Prop}
    (h : Open heap b rows)
    (hmove : ∀ b rows src tgt r later, Kept heap b rows → CanMove b rows src tgt later →
      rows src = some r → motive b rows ((src, tgt) :: later) →
      motive (b.moved src tgt r.reqId) (Rows.moveOccupant rows src tgt) later)
    (hmotive : motive { b with batchUpdateBuilder := b.batchUpdateBuilder.ensureRemovedSorted }
      rows b.condensePlan) :
    ∃ b' rows', b.condense = .ok { b' with
        reqIds := b'.reqIds.take b.numReqs
        reqOutputTokenIds := b'.reqOutputTokenIds.take b.numReqs } ∧
      motive b' rows' [] ∧ Settled heap { b' with
        reqIds := b'.reqIds.take b.numReqs
        reqOutputTokenIds := b'.reqOutputTokenIds.take b.numReqs } rows' := by
  obtain ⟨l, hl, hperm, hpairwise⟩ := BatchUpdateBuilder.ensureRemovedSorted_ok h.descending
  have hholes := h.holes.perm hperm
  have hstop : b.numReqs + l.length = b.reqIds.length := by
    have hcount := hholes.count
    rwa [List.filter_eq_self.mpr] at hcount
    intro k hk
    simpa using h.lt k (hperm.symm.subset hk)
  have hkept : Kept heap { b with batchUpdateBuilder := b.batchUpdateBuilder.ensureRemovedSorted }
      rows := h.toKept.popped
  rw [condensePlan, hl] at hmotive
  dsimp only at hmotive
  rw [hstop] at hmotive
  rw [hl] at hkept
  by_cases hnil : l = []
  · subst hnil
    have hlen : b.reqIds.length = b.numReqs := hstop.symm
    refine ⟨_, rows, ?_, hmotive, ?_⟩
    · simp only [InputBatch.condense, hl, if_true]
      rw [List.take_of_length_le hlen.le,
        List.take_of_length_le (h.linked.lengths.trans hlen).le]
      rfl
    · exact hkept.settled rfl hlen.ge (hlen ▸ (hholes.full (by simp)).2)
  by_cases hzero : b.numReqs = 0
  · have hrows := h.toKept.rows_eq_none hzero
    rw [condenseMoves_of_empty hholes hrows] at hmotive
    refine ⟨_, rows, ?_, hmotive, ?_⟩
    · simp only [InputBatch.condense, hl, hnil, if_false, hzero, if_true, List.take_zero]
      rfl
    · exact hkept.settled rfl (show b.numReqs ≤ _ by omega) fun i => by
        simp [hrows, hzero]
  have hrun := condenseLoop_run (n := b.numReqs) (motive := fun b' rows' later =>
    Kept heap b' rows' ∧ b'.numReqs = b.numReqs ∧ b'.reqIds.length = b.reqIds.length ∧
      motive b' rows' later) ?_ hholes rfl (fun _ => hpairwise) le_rfl ⟨hkept, rfl, rfl, hmotive⟩
  · obtain ⟨b', rows', hloop, ⟨hkept', hnum, hlen, hmotive'⟩, hfull⟩ := hrun
    refine ⟨b', rows', ?_, hmotive', ?_⟩
    · simp only [InputBatch.condense, hl, hnil, if_false, hzero, hstop, hloop]
      rfl
    · exact hkept'.settled hnum (by omega) hfull
  · -- one turn of the loop
    rintro b₁ rows₁ src tgt later hcan ⟨hkept₁, hnum, hlen, hmotive₁⟩
    obtain ⟨r, hr⟩ := hcan.taken
    obtain ⟨-, hlen', hindex, hremoved, hsorted⟩ := moved_frame b₁ src tgt r.reqId
    refine ⟨_, hkept₁.moveInto hr, ?_, ?_, hkept₁.moved hr hcan.empty hcan.lt, ?_, ?_, ?_⟩
    · rw [hremoved, hcan.popped]
    · rw [hsorted, hcan.popped]
    · rw [← hnum, numReqs, hindex]
      exact Dict.length_set (hkept₁.get?_reqId hr) tgt
    · rw [hlen', hlen]
    · exact hmove b₁ rows₁ src tgt r later hkept₁ hcan hr hmotive₁

end InputBatch

end VllmV1.Worker
