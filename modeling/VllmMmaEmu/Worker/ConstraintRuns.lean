import VllmMmaEmu.Worker.ConstraintSteps

/-!
# Runs with constraints

When no operation meets what an earlier request left behind, every row has the sampling state
of its request and no other's. Runs that meet a leftover break this: the mask is swapped
through views, prompt embeddings stay behind, and a flag is not moved.
-/

namespace VllmV1.Worker

open Python

variable {F : Type} {fl : FloatOps F}

namespace Session

variable {s s' : Session F} {rows : Seats F} {op : Op F}

/-- Requests fit the model, and only models that sample accept tokens. -/
def Fitting (s : Session F) : Op F → Prop
  | .add request => InputBatch.Fits s.batch.isPoolingModel request
  | .accepted _ => s.batch.isPoolingModel = false
  | _ => True

/-- A request moves to a row without meeting embeddings or a flag that are not its own. -/
def CleanMove (b : InputBatch F) (src tgt : Nat) : Prop :=
  (b.reqPromptEmbeds.get? src = none → b.reqPromptEmbeds.get? tgt = none) ∧
    b.logitsProcessingNeedsTokenIds src = b.logitsProcessingNeedsTokenIds tgt

/-- An operation that meets nothing that an earlier request left on a row, and swaps only rows
that have the same mask and the same flag. -/
def Undisturbed (s : Session F) : Op F → Prop
  | .add request =>
    (request.promptEmbeds = none → s.batch.reqPromptEmbeds.get? s.batch.nextRow = none) ∧
      (request.allowedTokenIds = [] → ∀ m ∈ s.batch.allowedTokenIdsMaskCpuTensor,
        ∀ t < s.batch.vocabSize, m s.batch.nextRow t = false)
  | .condense => ∀ m ∈ s.batch.condensePlan, CleanMove s.batch m.1 m.2
  | .swap i1 i2 =>
    (∀ m ∈ s.batch.allowedTokenIdsMaskCpuTensor, ∀ t < s.batch.vocabSize, m i1 t = m i2 t) ∧
      s.batch.logitsProcessingNeedsTokenIds i1 = s.batch.logitsProcessingNeedsTokenIds i2
  | _ => True

/-- Every row has the sampling state of its request. -/
structure Constrained (fl : FloatOps F) (s : Session F) (rows : Seats F) : Prop where
  agrees : Rows.Agrees (RowSampling.Allowed fl s.batch.vocabSize s.numAccepted) rows
    s.batch.rowSampling
  mask : MaskLinked s.batch.vocabSize s.batch.allowedTokenIdsMaskCpuTensor rows
  fits : ∀ i r, rows i = some r → InputBatch.Fits s.batch.isPoolingModel r
  unused : s.batch.Unused

namespace Constrained

lemma carries (h : Constrained fl s rows) {i : Nat} {r : CachedRequestState F}
    (hi : rows i = some r) :
    (s.batch.rowSampling i).Carries fl s.batch.vocabSize s.numAccepted r := by
  have hrow := h.agrees i
  rw [hi] at hrow
  exact hrow

lemma start (h : Start fl s) : Constrained fl s fun _ => none := by
  obtain ⟨hb, -⟩ := h
  refine ⟨fun i => ⟨?_, ?_⟩, ⟨fun m hm => ?_, fun _ _ _ hr => (nomatch hr)⟩,
    fun _ _ hr => (nomatch hr), fun _ => ⟨hb.generators, hb.badWordsTokenIds,
      hb.allowedTokenIdsMaskCpuTensor, hb.numAcceptedTokensCpu⟩,
    fun _ => hb.logitsProcessingNeedsTokenIds⟩
  · show s.batch.generators.get? i = none
    rw [hb.generators]
    rfl
  · show s.batch.badWordsTokenIds.get? i = none
    rw [hb.badWordsTokenIds]
    rfl
  · rw [hb.allowedTokenIdsMaskCpuTensor] at hm
    cases hm

lemma fits_update {i : Nat} {o : Option (CachedRequestState F)} {isPoolingModel : Bool}
    (h : ∀ i r, rows i = some r → InputBatch.Fits isPoolingModel r)
    (ho : ∀ r, o = some r → InputBatch.Fits isPoolingModel r) :
    ∀ k r, Function.update rows i o k = some r → InputBatch.Fits isPoolingModel r := by
  intro k r hk
  rcases Rows.update_eq_some hk with ⟨-, hr⟩ | ⟨-, hr⟩
  · exact ho r hr
  · exact h k r hr

lemma remove {reqId : String} (h : Constrained fl s rows) (htracks : Tracks s rows)
    (hok : s.Ordered (.remove reqId)) (hstep : s.step fl (.remove reqId) = .ok s') :
    Constrained fl s' (s.seatsAfter rows (.remove reqId)) := by
  obtain ⟨batch, hbatch, hret⟩ := bind_eq_ok.mp hstep
  obtain rfl := Except.ok.inj hret
  have hopen := htracks.opened (Tracks.ne_condensed hok)
  simp only [seatsAfter]
  cases hget : s.batch.reqIdToIndex.get? reqId with
  | none =>
    rw [InputBatch.removeRequest_unknown hget] at hbatch
    obtain rfl := Except.ok.inj hbatch
    exact ⟨h.agrees, h.mask, h.fits, h.unused⟩
  | some i =>
    obtain ⟨r, hi, rfl⟩ := hopen.linked.get?_eq_some.mp hget
    obtain ⟨loraIds, hremove, -⟩ := hopen.remove (htracks.unread hok) hi
    obtain ⟨hothers, hrow, hmask, hvocab, hpooling, hunused⟩ :=
      InputBatch.removed_rowSampling h.unused (Except.ok.inj (hbatch.symm.trans hremove))
    refine ⟨?_, ?_, ?_, hunused⟩
    · rw [hvocab]
      exact h.agrees.of_update hothers hrow
    · rw [hvocab]
      rcases hmask with hmask | hmask
      · rw [hmask]
        exact h.mask.leave
      · rw [hmask]
        exact h.mask.leave.clear (Function.update_self ..)
    · rw [hpooling]
      exact fits_update h.fits (by simp)

lemma advance {reqId : String} {n : Nat} {new : Option (List (List Nat))}
    (h : Constrained fl s rows) (htracks : Tracks s rows)
    (hstep : s.step fl (.advance reqId n new) = .ok s') :
    Constrained fl s' (s.seatsAfter rows (.advance reqId n new)) := by
  obtain ⟨i, hget, hrest⟩ := bind_eq_ok.mp hstep
  obtain ⟨batch, hbatch, hret⟩ := bind_eq_ok.mp hrest
  obtain rfl := Except.ok.inj hret
  rw [Dict.getItem_eq_ok] at hget
  obtain ⟨r, hi, rfl⟩ := htracks.kept.linked.get?_eq_some.mp hget
  simp only [seatsAfter, hget, hi, Option.map_some]
  obtain ⟨tables, rfl, -⟩ := InputBatch.advance_ok hbatch
  have hcarries := h.carries hi
  refine ⟨h.agrees.update_rows i ?_, h.mask.replace hi rfl, fits_update h.fits ?_,
    h.unused.pooling, h.unused.sampling⟩
  · exact ⟨hcarries.params, hcarries.numAcceptedTokens, hcarries.generator,
      hcarries.badWordsTokenIds, hcarries.promptEmbeds, hcarries.needsTokenIds⟩
  · rintro _ ⟨⟩
    exact h.fits i r hi

lemma add {request : CachedRequestState F} (h : Constrained fl s rows) (htracks : Tracks s rows)
    (hok : s.Ordered (.add request)) (hfits : s.Fitting (.add request))
    (hclean : s.Undisturbed (.add request)) (hstep : s.step fl (.add request) = .ok s') :
    Constrained fl s' (s.seatsAfter rows (.add request)) := by
  obtain ⟨batch, hbatch, hret⟩ := bind_eq_ok.mp hstep
  obtain rfl := Except.ok.inj hret
  have hopen := htracks.opened hok.1
  have hempty := h.agrees s.batch.nextRow
  rw [hopen.nextRow_ok.1] at hempty
  have hadds := InputBatch.addRequest_sampling hbatch h.unused hfits hempty.1 hempty.2 hclean.1
  refine ⟨fun k => ?_, ?_, ?_, hadds.unused⟩
  · dsimp only [seatsAfter]
    rw [hadds.vocabSize]
    by_cases hk : k = s.batch.nextRow
    · rw [hk, Function.update_self]
      exact hadds.row _ (Function.update_self ..)
    · rw [Function.update_of_ne hk, hadds.others k hk]
      have hold := h.agrees k
      cases hrow : rows k with
      | none =>
        rw [hrow] at hold
        exact hold
      | some q =>
        rw [hrow] at hold
        have hid : q.reqId ≠ request.reqId := fun hid => by
          have hget := hopen.get?_reqId hrow
          rw [hid, hok.2.1] at hget
          cases hget
        refine ⟨hold.params, ?_, hold.generator, hold.badWordsTokenIds, hold.promptEmbeds,
          hold.needsTokenIds⟩
        rw [Function.update_of_ne hid]
        exact hold.numAcceptedTokens
  · dsimp only [seatsAfter]
    rw [hadds.vocabSize, hadds.mask]
    split_ifs with hnone
    · exact h.mask.add_none hnone (hclean.2 hnone)
    · exact h.mask.add_some hnone
  · dsimp only [seatsAfter]
    rw [hadds.isPoolingModel]
    refine fits_update h.fits ?_
    rintro _ ⟨⟩
    exact hfits

lemma moved {b : InputBatch F} {src tgt : Nat} {r : CachedRequestState F}
    {later : List (Nat × Nat)} {numAccepted : String → Nat}
    (hagrees : Rows.Agrees (RowSampling.Allowed fl b.vocabSize numAccepted) rows b.rowSampling)
    (hmask : MaskLinked b.vocabSize b.allowedTokenIdsMaskCpuTensor rows)
    (hfits : ∀ i r, rows i = some r → InputBatch.Fits b.isPoolingModel r) (hunused : b.Unused)
    (hclean : ∀ m ∈ (src, tgt) :: later, CleanMove b m.1 m.2)
    (hcan : InputBatch.CanMove b rows src tgt later) (hr : rows src = some r) :
    let b' := b.moved src tgt r.reqId
    let rows' := Rows.moveOccupant rows src tgt
    Rows.Agrees (RowSampling.Allowed fl b'.vocabSize numAccepted) rows' b'.rowSampling ∧
      MaskLinked b'.vocabSize b'.allowedTokenIdsMaskCpuTensor rows' ∧
      (∀ i r, rows' i = some r → InputBatch.Fits b'.isPoolingModel r) ∧ b'.Unused ∧
      ∀ m ∈ later, CleanMove b' m.1 m.2 := by
  have hne := hcan.lt.ne'
  have hempty := hagrees tgt
  rw [hcan.empty] at hempty
  have hmove := hclean (src, tgt) (List.mem_cons_self ..)
  obtain ⟨hothers, hpasses, hsrc, hmask', hvocab, hpooling, hunused'⟩ :=
    InputBatch.moved_rowSampling fl r.reqId hunused hne hempty.1 hempty.2
      hmove.1 hmove.2
  refine ⟨fun k => ?_, ?_, fun k q hk => ?_, hunused', fun m hm => ?_⟩
  · rw [hvocab, Rows.moveOccupant, Rows.move]
    by_cases hks : k = src
    · rw [hks, Function.update_self]
      exact hsrc
    · rw [Function.update_of_ne hks]
      by_cases hkt : k = tgt
      · rw [hkt, Function.update_self, hr]
        have hold := hagrees src
        rw [hr] at hold
        exact hpasses numAccepted r (hfits src r hr) hold
      · rw [Function.update_of_ne hkt, hothers k hks hkt]
        exact hagrees k
  · rw [hvocab, hmask']
    exact hmask.move
  · rw [hpooling]
    rcases Rows.moveOccupant_eq_some hk with ⟨-, hq⟩ | ⟨-, hq⟩
    · exact hfits src q hq
    · exact hfits k q hq
  · obtain ⟨htgt, hlt, hbound⟩ := hcan.later m hm
    have hfirst := hothers m.1 (by omega) (by omega)
    have hsecond := hothers m.2 (by omega) (by omega)
    obtain ⟨hembeds, hneeds⟩ := hclean m (List.mem_cons_of_mem _ hm)
    have hembeds₁ := congrArg RowSampling.promptEmbeds hfirst
    have hembeds₂ := congrArg RowSampling.promptEmbeds hsecond
    have hneeds₁ := congrArg RowSampling.needsTokenIds hfirst
    have hneeds₂ := congrArg RowSampling.needsTokenIds hsecond
    exact ⟨fun hnone => hembeds₂.trans (hembeds (hembeds₁.symm.trans hnone)),
      hneeds₁.trans (hneeds.trans hneeds₂.symm)⟩

lemma condense (h : Constrained fl s rows) (htracks : Tracks s rows)
    (hok : s.Ordered .condense) (hclean : s.Undisturbed .condense)
    (hstep : s.step fl .condense = .ok s') :
    Constrained fl s' (s.seatsAfter rows .condense) := by
  obtain ⟨batch, hbatch, hret⟩ := bind_eq_ok.mp hstep
  obtain rfl := Except.ok.inj hret
  have hrun := (htracks.opened hok).condense (motive := fun b' rows' later =>
    later.foldl (fun rows m => Rows.moveOccupant rows m.1 m.2) rows' =
      s.seatsAfter rows .condense ∧
    Rows.Agrees (RowSampling.Allowed fl b'.vocabSize s.numAccepted) rows' b'.rowSampling ∧
    MaskLinked b'.vocabSize b'.allowedTokenIdsMaskCpuTensor rows' ∧
    (∀ i r, rows' i = some r → InputBatch.Fits b'.isPoolingModel r) ∧ b'.Unused ∧
    ∀ m ∈ later, CleanMove b' m.1 m.2) ?_
    ⟨rfl, h.agrees, h.mask, h.fits, ⟨h.unused.pooling, h.unused.sampling⟩, hclean⟩
  · obtain ⟨b', rows', hbatch', ⟨hrows, hagrees, hmask, hfits, hunused, -⟩, -⟩ := hrun
    rw [List.foldl_nil] at hrows
    subst hrows
    obtain rfl := Except.ok.inj (hbatch'.symm.trans hbatch)
    exact ⟨hagrees, hmask, hfits, hunused.pooling, hunused.sampling⟩
  · rintro b₁ rows₁ src tgt r later - hcan hr ⟨hfold, hagrees, hmask, hfits, hunused, hclean₁⟩
    exact ⟨hfold, moved hagrees hmask hfits hunused hclean₁ hcan hr⟩

lemma swap {i1 i2 : Nat} (h : Constrained fl s rows) (htracks : Tracks s rows)
    (hok : s.Ordered (.swap i1 i2)) (hclean : s.Undisturbed (.swap i1 i2))
    (hstep : s.step fl (.swap i1 i2) = .ok s') :
    Constrained fl s' (s.seatsAfter rows (.swap i1 i2)) := by
  obtain ⟨batch, hbatch, hret⟩ := bind_eq_ok.mp hstep
  obtain rfl := Except.ok.inj hret
  obtain ⟨r₁, r₂, hr₁, hr₂, hb'⟩ := (htracks.settled hok).toKept.swapStates hbatch
  obtain ⟨hothers, hpass₁, hpass₂, hmask, hvocab, hpooling, hunused⟩ :=
    InputBatch.swapped_rowSampling fl h.unused hclean.2 hb'
  refine ⟨fun k => ?_, ?_, fun k q hk => ?_, hunused⟩
  · dsimp only [seatsAfter]
    rw [hvocab, Rows.swap_apply]
    split_ifs with hk2 hk1
    · rw [hk2, hr₁]
      exact hpass₁ _ r₁ (h.fits i1 r₁ hr₁) (h.carries hr₁)
    · rw [hk1, hr₂]
      exact hpass₂ _ r₂ (h.fits i2 r₂ hr₂) (h.carries hr₂)
    · rw [hothers k hk1 hk2]
      exact h.agrees k
  · dsimp only [seatsAfter]
    rw [hvocab, hmask]
    exact h.mask.swap hclean.1
  · dsimp only [seatsAfter] at hk ⊢
    rw [hpooling]
    rw [Rows.swap_apply] at hk
    split_ifs at hk
    · exact h.fits i1 q hk
    · exact h.fits i2 q hk
    · exact h.fits k q hk

lemma refresh (h : Constrained fl s rows) (hstep : s.step fl .refresh = .ok s') :
    Constrained fl s' (s.seatsAfter rows .refresh) := by
  obtain rfl := Except.ok.inj hstep
  have hframe := InputBatch.refreshMetadata_frame fl s.heap s.batch
  rw [hframe]
  exact ⟨h.agrees, h.mask, h.fits, h.unused.pooling, h.unused.sampling⟩

lemma sampled {i : Nat} {ids : List Int} (h : Constrained fl s rows)
    (hstep : s.step fl (.sampled i ids) = .ok s') :
    Constrained fl s' (s.seatsAfter rows (.sampled i ids)) := by
  simp only [Session.step] at hstep
  split at hstep
  · cases hstep
  obtain ⟨batch, hbatch, hret⟩ := bind_eq_ok.mp hstep
  obtain rfl := Except.ok.inj hret
  obtain ⟨row, -, rfl⟩ := InputBatch.recordSampled_ok hbatch
  exact ⟨h.agrees, h.mask, h.fits, h.unused.pooling, h.unused.sampling⟩

lemma accepted {counts : List Nat} (h : Constrained fl s rows) (htracks : Tracks s rows)
    (hfits : s.Fitting (.accepted counts)) (hstep : s.step fl (.accepted counts) = .ok s') :
    Constrained fl s' (s.seatsAfter rows (.accepted counts)) := by
  obtain rfl := Except.ok.inj hstep
  have hmodel : s.batch.isPoolingModel = false := hfits
  refine ⟨fun k => ?_, h.mask, h.fits, fun hc => ?_, h.unused.sampling⟩
  · have hold := h.agrees k
    dsimp only [seatsAfter]
    cases hrow : rows k with
    | none =>
      rw [hrow] at hold
      exact hold
    | some q =>
      rw [hrow] at hold
      refine ⟨fun params hparams => ?_, ?_, hold.generator, hold.badWordsTokenIds,
        hold.promptEmbeds, hold.needsTokenIds⟩
      · have hstores := hold.params params hparams
        exact ⟨hstores.1, hstores.2, hstores.3, hstores.4, hstores.5, hstores.6⟩
      rw [htracks.kept.get?_reqId hrow]
      dsimp only
      rw [← hold.numAcceptedTokens]
      rfl
  · exact absurd (hmodel.symm.trans hc) Bool.false_ne_true

theorem step (h : Constrained fl s rows) (htracks : Tracks s rows) (hok : s.Ordered op)
    (hfits : s.Fitting op) (hclean : s.Undisturbed op) (hstep : s.step fl op = .ok s') :
    Constrained fl s' (s.seatsAfter rows op) := by
  cases op with
  | remove reqId => exact h.remove htracks hok hstep
  | advance reqId n new => exact h.advance htracks hstep
  | add request => exact h.add htracks hok hfits hclean hstep
  | condense => exact h.condense htracks hok hclean hstep
  | swap i1 i2 => exact h.swap htracks hok hclean hstep
  | refresh => exact h.refresh hstep
  | sampled i ids => exact h.sampled hstep
  | accepted counts => exact h.accepted htracks hfits hstep

end Constrained

/-- Every request of the batch has the sampling state of its row for itself. -/
def OwnConstraints (fl : FloatOps F) (s : Session F) : Prop :=
  ∀ (i : Nat) (id : String), s.batch.reqIds[i]? = some (some id) → ∃ r, s.requests id = some r ∧
    (s.batch.rowSampling i).Carries fl s.batch.vocabSize s.numAccepted r ∧
    (∀ m ∈ s.batch.allowedTokenIdsMaskCpuTensor, ∀ t < s.batch.vocabSize, m i t = r.bans t) ∧
    (s.batch.allowedTokenIdsMaskCpuTensor = none → r.allowedTokenIds = [])

/-- In every run that is never disturbed, each row has its request's constraints. -/
theorem ownConstraints_of_undisturbed (h : Runs.Reached (Start fl)
      (fun s op => s.Ordered op ∧ s.Fitting op ∧ s.Undisturbed op)
      (fun s op s' => s.step fl op = .ok s') s) :
    s.OwnConstraints fl := by
  obtain ⟨rows, htracks, hconstrained⟩ : ∃ rows, Tracks s rows ∧ Constrained fl s rows := by
    refine h.invariant (I := fun s => ∃ rows, Tracks s rows ∧ Constrained fl s rows) ?_ ?_
    · exact fun s hstart => ⟨_, Tracks.start hstart, Constrained.start hstart⟩
    · rintro s op s' ⟨rows, htracks, hconstrained⟩ ⟨hok, hfits, hclean⟩ hstep
      exact ⟨_, htracks.step hok hstep, hconstrained.step htracks hok hfits hclean hstep⟩
  intro i id hid
  obtain ⟨r, hi, rfl⟩ := htracks.kept.linked.exists_of_getElem? hid
  exact ⟨r, htracks.requests r ⟨i, hi⟩, hconstrained.carries hi,
    fun m hm t ht => hconstrained.mask.row m hm i r hi t ht,
    fun hnone => hconstrained.mask.unused hnone i r hi⟩

instance (s : Session F) : (op : Op F) → Decidable (s.Fitting op)
  | .add request => inferInstanceAs (Decidable (InputBatch.Fits s.batch.isPoolingModel request))
  | .accepted _ => inferInstanceAs (Decidable (s.batch.isPoolingModel = false))
  | .remove _ | .advance _ _ _ | .condense | .swap _ _ | .refresh | .sampled _ _ =>
    inferInstanceAs (Decidable True)

instance (b : InputBatch F) (src tgt : Nat) : Decidable (CleanMove b src tgt) :=
  inferInstanceAs (Decidable (_ ∧ _))

instance (s : Session F) : (op : Op F) → Decidable (s.Undisturbed op)
  | .add _ => inferInstanceAs (Decidable (_ ∧ _))
  | .condense => inferInstanceAs (Decidable (∀ m ∈ s.batch.condensePlan, CleanMove s.batch m.1 m.2))
  | .swap _ _ => inferInstanceAs (Decidable (_ ∧ _))
  | .remove _ | .advance _ _ _ | .refresh | .sampled _ _ | .accepted _ =>
    inferInstanceAs (Decidable True)

/-- A request that allows one token only. -/
def strictRequest : CachedRequestState Nat :=
  plainRequest "strict" 0 { plainParams 0 with allowedTokenIds := some [1] }

def freeRequest : CachedRequestState Nat := plainRequest "free" 1 (plainParams 0)

/-- The request with the mask leaves, and the other one moves down to its row. -/
def leaveRun : List (Op Nat) :=
  [.add strictRequest, .add freeRequest, .condense, .refresh, .remove "strict", .condense, .refresh]

theorem ownConstraints_leaveRun : ∃ s : Session Nat, s.batch.reqIds = [some "free"] ∧
    s.OwnConstraints natFloatOps := by
  have hrun : (Runs.runAllowed (fun s op => s.Ordered op ∧ s.Fitting op ∧ s.Undisturbed op)
      (fun s op => s.step natFloatOps op) (emptySession Nat natFloatOps) leaveRun).map
      (fun s => s.batch.reqIds) = some [some "free"] := by decide +kernel
  obtain ⟨s, hs, hids⟩ := Option.map_eq_some_iff.mp hrun
  exact ⟨s, hids, ownConstraints_of_undisturbed
    (.of_runAllowed (.start (start_emptySession natFloatOps)) hs)⟩

/-- The rows of a request with a mask and of one without are swapped. -/
def maskRun : List (Op Nat) :=
  [.add strictRequest, .add freeRequest, .condense, .swap 1 0, .refresh]

/-- After the swap the other request has the mask too. -/
theorem not_ownConstraints_maskRun : ∃ s : Session Nat,
    Runs.runAllowed (fun s op => s.Ordered op ∧ s.Fitting op) (fun s op => s.step natFloatOps op)
      (emptySession Nat natFloatOps) maskRun = some s ∧
    s.stage = .ready ∧ ¬ s.OwnConstraints natFloatOps := by
  have hrun : (Runs.runAllowed (fun s op => s.Ordered op ∧ s.Fitting op)
      (fun s op => s.step natFloatOps op) (emptySession Nat natFloatOps) maskRun).map
      (fun s => (s.stage, s.batch.reqIds[0]?, s.batch.vocabSize, (s.requests "free").map (·.bans 0),
        s.batch.allowedTokenIdsMaskCpuTensor.map fun m => m 0 0)) =
      some (.ready, some (some "free"), 4, some false, some true) := by decide +kernel
  obtain ⟨s, hs, hseen⟩ := Option.map_eq_some_iff.mp hrun
  simp only [Prod.mk.injEq] at hseen
  obtain ⟨hstage, hid, hvocab, hbans, hmask⟩ := hseen
  refine ⟨s, hs, hstage, fun hown => ?_⟩
  obtain ⟨r, hr, -, hrow, -⟩ := hown 0 "free" hid
  obtain ⟨m, hm, htrue⟩ := Option.map_eq_some_iff.mp hmask
  rw [hr, Option.map_some, Option.some.injEq] at hbans
  have hrow := hrow m hm 0 (by rw [hvocab]; decide)
  rw [htrue, hbans] at hrow
  cases hrow

end Session

end VllmV1.Worker
