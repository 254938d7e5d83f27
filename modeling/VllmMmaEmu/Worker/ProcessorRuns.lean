import VllmMmaEmu.Worker.ConstraintRuns
import VllmMmaEmu.Worker.ProcessorSteps

/-!
# Runs with logits processors

Through a step the builder's log leads from the requests that the processors know to those
on the rows. So the update that a refresh hands out brings every processor to what the batch
prescribes, unless a minimum probability was added that is stored as zero.
-/

namespace VllmV1.Worker

open Python

variable {F : Type} {fl : FloatOps F} {heap : Heap}

def CachedRequestState.member (r : CachedRequestState F) : Option (BatchMember F) :=
  r.samplingParams.map fun params => ⟨params, r.promptTokenIds, r.outputTokenIds⟩

def members (rows : Seats F) : Members F := fun i => (rows i).bind CachedRequestState.member

namespace BatchUpdateBuilder

variable {u : BatchUpdateBuilder F}

/-- The update that the builder hands out. -/
def update (u : BatchUpdateBuilder F) (batchSize : Nat) : BatchUpdate F :=
  ⟨batchSize, u.removed, u.added, u.moved⟩

def changes (u : BatchUpdateBuilder F) : Rows.Changes (BatchMember F) := (u.update 0).changes

lemma getAndReset_fst (u : BatchUpdateBuilder F) (n : Nat) :
    (u.getAndReset n).1 = some (u.update n) ∨
      (u.getAndReset n).1 = none ∧ u.changes = ⟨[], [], []⟩ := by
  unfold getAndReset
  split_ifs with h
  · obtain ⟨hremoved, hmoved, hadded⟩ := h
    rw [List.isEmpty_iff] at hadded
    refine Or.inr ⟨rfl, ?_⟩
    simp only [changes, update, BatchUpdate.changes, hremoved, hmoved, hadded, List.map_nil]
  · exact Or.inl rfl

end BatchUpdateBuilder

lemma members_update (rows : Seats F) (i : Nat) (o : Option (CachedRequestState F)) :
    members (Function.update rows i o) =
      Function.update (members rows) i (o.bind CachedRequestState.member) := by
  funext k
  by_cases hk : k = i
  · subst hk
    simp [members]
  · simp [members, hk]

lemma members_swap (rows : Seats F) (i j : Nat) :
    members (Rows.swap rows i j) = Rows.swap (members rows) i j := by
  rw [Rows.swap, members_update, members_update]
  rfl

lemma members_moveOccupant (rows : Seats F) (src tgt : Nat) :
    members (Rows.moveOccupant rows src tgt) = Rows.moveOccupant (members rows) src tgt := by
  rw [Rows.moveOccupant, Rows.move, members_update, members_update]
  rfl

namespace InputBatch

variable {b b' : InputBatch F} {rows rows' : Seats F} {start : Members F}
  {r : CachedRequestState F} {i j src tgt : Nat}

/-- What only a refresh changes. -/
structure SameProcessors (b b' : InputBatch F) : Prop where
  logitsprocs : b'.logitsprocs = b.logitsprocs
  isPoolingModel : b'.isPoolingModel = b.isPoolingModel
  maxNumReqs : b'.maxNumReqs = b.maxNumReqs

/-- The requests on the rows are requests for samples, below the number of rows. -/
def Samples (n : Nat) (rows : Seats F) : Prop :=
  ∀ i r, rows i = some r → i < n ∧ r.samplingParams.isSome

lemma Samples.update {n : Nat} (h : Samples n rows) {o : Option (CachedRequestState F)}
    (ho : ∀ r, o = some r → i < n ∧ r.samplingParams.isSome) :
    Samples n (Function.update rows i o) := by
  intro k r hk
  rcases Rows.update_eq_some hk with ⟨rfl, hr⟩ | ⟨-, hr⟩
  · exact ho r hr
  · exact h k r hr

lemma Samples.member {n : Nat} (h : Samples n rows) (hi : rows i = some r) :
    ∃ params, r.samplingParams = some params ∧
      members rows i = some ⟨params, r.promptTokenIds, r.outputTokenIds⟩ := by
  obtain ⟨params, hparams⟩ := Option.isSome_iff_exists.mp (h i r hi).2
  refine ⟨params, hparams, ?_⟩
  simp only [members, hi, Option.bind_some, CachedRequestState.member, hparams, Option.map_some]

/-- The processors follow the requests at the start of the step, and the log leads from there
to those on the rows. -/
structure Logged (fl : FloatOps F) (heap : Heap) (b : InputBatch F) (start : Members F)
    (rows : Seats F) : Prop where
  model : b.isPoolingModel = false
  records : Rows.Records start b.batchUpdateBuilder.changes (members rows)
  within : (b.batchUpdateBuilder.update 0).Within b.maxNumReqs
  keeps : ∀ a ∈ b.batchUpdateBuilder.added, fl.Keeps a.params.minP
  follow : b.logitsprocs.Follow fl heap b.maxNumReqs start
  outside : ∀ i, b.maxNumReqs ≤ i → start i = none
  samples : Samples b.maxNumReqs rows

namespace Logged

lemma of_same (h : Logged fl heap b start rows) (hsame : SameProcessors b b')
    (hrecords : Rows.Records start b'.batchUpdateBuilder.changes (members rows'))
    (hwithin : (b'.batchUpdateBuilder.update 0).Within b.maxNumReqs)
    (hkeeps : ∀ a ∈ b'.batchUpdateBuilder.added, fl.Keeps a.params.minP)
    (hsamples : Samples b.maxNumReqs rows') : Logged fl heap b' start rows' := by
  obtain ⟨hlogits, hpooling, hmax⟩ := hsame
  refine ⟨hpooling.trans h.model, hrecords, ?_, hkeeps, ?_, ?_, ?_⟩
  · rwa [hmax]
  · rw [hlogits, hmax]
    exact h.follow
  · rw [hmax]
    exact h.outside
  · rwa [hmax]

lemma grow {heap' : Heap} (h : Logged fl heap b start rows)
    (hle : ∀ ref, (heap ref).length ≤ (heap' ref).length) : Logged fl heap' b start rows :=
  ⟨h.model, h.records, h.within, h.keeps,
    ⟨h.follow.minP, h.follow.logitBias, fun i => (h.follow.minTokens i).grow hle⟩, h.outside,
    h.samples⟩

lemma remove (h : Logged fl heap b start rows) (hmoved : b.batchUpdateBuilder.moved = [])
    (hi : rows i = some r) (loraIds : Dict Nat (Finset String)) :
    Logged fl heap ((b.withoutRow i r.reqId loraIds).removeSampling i) start
      (Function.update rows i none) := by
  refine h.of_same ⟨rfl, rfl, rfl⟩ ?_ ⟨h.within.added, fun k hk => ?_, h.within.moved⟩ h.keeps ?_
  · rw [members_update]
    exact h.records.leave (by simp [BatchUpdateBuilder.changes, BatchUpdateBuilder.update,
      BatchUpdate.changes, hmoved])
  · rcases List.mem_append.mp hk with hk | hk
    · exact h.within.removed k hk
    · rw [List.mem_singleton.mp hk]
      exact (h.samples i r hi).1
  · exact h.samples.update (by simp)

lemma replace {r' : CachedRequestState F} (h : Logged fl heap b start rows) (hi : rows i = some r)
    (hsame : SameProcessors b b') (hbuilder : b'.batchUpdateBuilder = b.batchUpdateBuilder)
    (hmember : r'.member = r.member) : Logged fl heap b' start (Function.update rows i (some r')) := by
  have hmembers : members (Function.update rows i (some r')) = members rows := by
    rw [members_update, Function.update_eq_self_iff, members, hi]
    exact hmember
  refine h.of_same hsame ?_ ?_ ?_ ?_
  · rw [hmembers, hbuilder]
    exact h.records
  · rw [hbuilder]
    exact h.within
  · rw [hbuilder]
    exact h.keeps
  · refine h.samples.update ?_
    rintro _ ⟨⟩
    refine ⟨(h.samples i r hi).1, ?_⟩
    have hsome := congrArg Option.isSome hmember
    rw [CachedRequestState.member, CachedRequestState.member, Option.isSome_map,
      Option.isSome_map] at hsome
    rw [hsome]
    exact (h.samples i r hi).2

end Logged

lemma addMask_builder {ids : Option (List Nat)} (h : b.addMask i ids = .ok b') :
    b'.batchUpdateBuilder = b.batchUpdateBuilder :=
  (congrArg InputBatch.batchUpdateBuilder (addMask_ok h)).trans rfl

lemma addParams_builder (h : b.addParams fl i r = .ok b') :
    b'.batchUpdateBuilder = b.batchUpdateBuilder := by
  unfold addParams at h
  split at h
  · obtain ⟨b₁, hmask, hret⟩ := bind_eq_ok.mp h
    obtain rfl := Except.ok.inj hret
    exact (addMask_builder hmask).trans rfl
  · obtain rfl := Except.ok.inj h
    rfl
  · cases h

lemma addRequest_log (h : b.addRequest fl heap r = .ok b') :
    b.nextRow < b.maxNumReqs ∧ SameProcessors b b' ∧
      b'.batchUpdateBuilder = { b.batchUpdateBuilder.popRemoved.2 with
        batchChanged := true
        added := b.batchUpdateBuilder.popRemoved.2.added ++ (r.samplingParams.map fun params =>
          ⟨b.nextRow, params, r.promptTokenIds, r.outputTokenIds⟩).toList } := by
  obtain ⟨i, row, isRow, tables, s, rfl, hlt, -, -, -, hparams, rfl⟩ := addRequest_ok h
  have hbuilder := addParams_builder hparams
  have hframe := addParams_frame hparams
  have hlogits : s.logitsprocs = b.logitsprocs := (congrArg InputBatch.logitsprocs hframe).trans rfl
  have hpooling : s.isPoolingModel = b.isPoolingModel :=
    (congrArg InputBatch.isPoolingModel hframe).trans rfl
  have hmax : s.maxNumReqs = b.maxNumReqs := (congrArg InputBatch.maxNumReqs hframe).trans rfl
  refine ⟨hlt, ?_, ?_⟩
  · cases r.loraRequest with
    | none => exact ⟨hlogits, hpooling, hmax⟩
    | some lora => exact ⟨hlogits, hpooling, hmax⟩
  · rw [(addLora_frame r.loraRequest r.reqId).1]
    exact hbuilder

/-- The builder without the row that the next request takes. -/
lemma Open.popRemoved_ok (h : Open heap b rows) :
    ∃ l sorted, b.batchUpdateBuilder.popRemoved.2 =
        { b.batchUpdateBuilder with removed := l, isRemovedSorted := sorted } ∧
      (∀ k, k ≠ b.nextRow → (k ∈ b.batchUpdateBuilder.removed ↔ k ∈ l)) ∧ b.nextRow ∉ l := by
  by_cases hnil : b.batchUpdateBuilder.removed = []
  · refine ⟨[], b.batchUpdateBuilder.isRemovedSorted, ?_, fun k _ => by rw [hnil],
      List.not_mem_nil⟩
    rw [BatchUpdateBuilder.popRemoved_nil hnil, ← hnil]
  · obtain ⟨e, l, hpop, hperm, -, -⟩ := BatchUpdateBuilder.popRemoved_ok h.descending hnil
    have hrow : b.nextRow = e := by rw [nextRow, hpop, Option.getD_some]
    have hnodup := hperm.nodup_iff.mp h.holes.nodup
    refine ⟨l, true, by rw [hpop], fun k hk => ?_, ?_⟩
    · rw [hperm.mem_iff, List.mem_cons, or_iff_right (hrow ▸ hk)]
    · rw [hrow]
      exact (List.nodup_cons.mp hnodup).1

lemma Logged.add (h : Logged fl heap b start rows) (hopen : Open heap b rows)
    (hmoved : b.batchUpdateBuilder.moved = []) (hadd : b.addRequest fl heap r = .ok b')
    {params : SamplingParams F} (hparams : r.samplingParams = some params)
    (hkeeps : fl.Keeps params.minP) :
    Logged fl heap b' start (Function.update rows b.nextRow (some r)) ∧
      b'.batchUpdateBuilder.moved = [] := by
  obtain ⟨hlt, hsame, hbuilder⟩ := addRequest_log hadd
  obtain ⟨l, sorted, hpop, hothers, hnot⟩ := hopen.popRemoved_ok
  have hbuilder' : b'.batchUpdateBuilder = { b.batchUpdateBuilder with
      removed := l
      isRemovedSorted := sorted
      batchChanged := true
      added := b.batchUpdateBuilder.added ++
        [⟨b.nextRow, params, r.promptTokenIds, r.outputTokenIds⟩] } := by
    rw [hbuilder, hpop, hparams]
    rfl
  refine ⟨h.of_same hsame ?_ ⟨fun a ha => ?_, fun k hk => ?_, ?_⟩ (fun a ha => ?_) ?_, ?_⟩
  · have hrecords := h.records.take
      (r := (⟨params, r.promptTokenIds, r.outputTokenIds⟩ : BatchMember F))
      (by simp [BatchUpdateBuilder.changes, BatchUpdateBuilder.update, BatchUpdate.changes, hmoved])
      hothers hnot
    rw [members_update, Option.bind_some, CachedRequestState.member, hparams, Option.map_some]
    rw [show b'.batchUpdateBuilder.changes = _ from by rw [hbuilder']]
    simpa [BatchUpdateBuilder.changes, BatchUpdateBuilder.update, BatchUpdate.changes,
      AddedRequest.member] using hrecords
  · rw [hbuilder'] at ha
    rcases List.mem_append.mp ha with ha | ha
    · exact h.within.added a ha
    · rw [List.mem_singleton.mp ha]
      exact hlt
  · rw [hbuilder'] at hk
    have hne : k ≠ b.nextRow := fun heq => hnot (heq ▸ hk)
    exact h.within.removed k ((hothers k hne).mpr hk)
  · rw [hbuilder']
    exact h.within.moved
  · rw [hbuilder'] at ha
    rcases List.mem_append.mp ha with ha | ha
    · exact h.keeps a ha
    · rw [List.mem_singleton.mp ha]
      exact hkeeps
  · refine h.samples.update ?_
    rintro _ ⟨⟩
    exact ⟨hlt, by rw [hparams]; rfl⟩
  · rw [hbuilder']
    exact hmoved

lemma Logged.moved {later : List (Nat × Nat)} (h : Logged fl heap b start rows)
    (hcan : CanMove b rows src tgt later) (hr : rows src = some r) :
    Logged fl heap (b.moved src tgt r.reqId) start (Rows.moveOccupant rows src tgt) := by
  obtain ⟨params, -, hmember⟩ := h.samples.member hr
  have hbuilder : (b.moved src tgt r.reqId).batchUpdateBuilder = { b.batchUpdateBuilder with
      removed := b.batchUpdateBuilder.removed.dropLast
      moved := b.batchUpdateBuilder.moved ++ [⟨src, tgt, .unidirectional⟩] } := by
    simp only [InputBatch.moved, h.model, Bool.false_eq_true, if_false, hcan.popped]
    rfl
  have hsame : SameProcessors b (b.moved src tgt r.reqId) := by
    simp only [InputBatch.moved]
    split_ifs
    · exact ⟨rfl, rfl, rfl⟩
    · exact ⟨rfl, rfl, rfl⟩
  have hothers : ∀ k, k ≠ tgt → (k ∈ b.batchUpdateBuilder.removed ↔
      k ∈ b.batchUpdateBuilder.removed.dropLast) := by
    intro k hk
    refine ⟨fun hmem => ?_, List.mem_of_mem_dropLast⟩
    have hne := List.ne_nil_of_mem hmem
    have htgt := hcan.mem
    rw [← List.dropLast_append_getLast hne, List.mem_append] at hmem htgt
    rcases htgt with htgt | htgt
    · exact absurd htgt hcan.not_mem
    · rcases hmem with hmem | hmem
      · exact hmem
      · exact absurd ((List.mem_singleton.mp hmem).trans (List.mem_singleton.mp htgt).symm) hk
  refine h.of_same hsame ?_ ?_ ?_ ?_
  · rw [members_moveOccupant, hbuilder]
    have hrecords := h.records.moveDown hmember hcan.mem hothers hcan.not_mem
    simpa [BatchUpdateBuilder.changes, BatchUpdateBuilder.update, BatchUpdate.changes,
      MovedRequest.shift] using hrecords
  · rw [hbuilder]
    refine ⟨h.within.added, fun k hk => h.within.removed k (List.mem_of_mem_dropLast hk),
      fun m hm => ?_⟩
    rcases List.mem_append.mp hm with hm | hm
    · exact h.within.moved m hm
    · rw [List.mem_singleton.mp hm]
      have hlt := (h.samples src r hr).1
      exact ⟨hlt, hcan.lt.trans hlt, fun heq => absurd heq hcan.lt.ne'⟩
  · rw [hbuilder]
    exact h.keeps
  · intro k q hk
    rcases Rows.moveOccupant_eq_some hk with ⟨rfl, hq⟩ | ⟨-, hq⟩
    · exact ⟨hcan.lt.trans (h.samples src q hq).1, (h.samples src q hq).2⟩
    · exact h.samples k q hq

lemma Logged.swap {r₁ r₂ : CachedRequestState F} (h : Logged fl heap b start rows)
    (hi : rows i = some r₁) (hj : rows j = some r₂) :
    Logged fl heap (((b.withIdsSwapped i j r₁ r₂).withRowsSwapped i j).swapSampling i j) start
      (Rows.swap rows i j) := by
  obtain ⟨_, -, hmember₁⟩ := h.samples.member hi
  obtain ⟨_, -, hmember₂⟩ := h.samples.member hj
  have hbuilder : (((b.withIdsSwapped i j r₁ r₂).withRowsSwapped i j).swapSampling i
      j).batchUpdateBuilder = { b.batchUpdateBuilder with
        moved := b.batchUpdateBuilder.moved ++ [⟨i, j, .swap⟩] } := rfl
  refine h.of_same ⟨rfl, rfl, rfl⟩ ?_ ⟨h.within.added, h.within.removed, fun m hm => ?_⟩ h.keeps ?_
  · rw [members_swap, hbuilder]
    have hrecords := h.records.swap hmember₁ hmember₂
    simpa [BatchUpdateBuilder.changes, BatchUpdateBuilder.update, BatchUpdate.changes,
      MovedRequest.shift] using hrecords
  · rcases List.mem_append.mp hm with hm | hm
    · exact h.within.moved m hm
    · rw [List.mem_singleton.mp hm]
      exact ⟨(h.samples i r₁ hi).1, (h.samples j r₂ hj).1, fun _ => rfl⟩
  · intro k q hk
    rw [Rows.swap_apply] at hk
    split_ifs at hk with hkj hki
    · exact ⟨hkj ▸ (h.samples j r₂ hj).1, (h.samples i q hk).2⟩
    · exact ⟨hki ▸ (h.samples i r₁ hi).1, (h.samples j q hk).2⟩
    · exact h.samples k q hk

/-- The processors follow the requests on the rows after a refresh. -/
theorem Logged.refresh (h : Logged fl heap b start rows) (hfl : fl.Lawful) :
    Logged fl heap (b.refreshMetadata fl heap) (members rows) rows ∧
      ∀ i, (b.refreshMetadata fl heap).logitsprocs.minTokens.minToks.get? i =
        (members rows i).bind (MinTokensLogitsProcessor.owed heap) := by
  have hrefresh : (b.refreshMetadata fl heap).logitsprocs =
      b.logitsprocs.updateState fl heap (b.batchUpdateBuilder.getAndReset b.numReqs).1 := by
    unfold refreshMetadata
    rw [if_neg (by rw [h.model]; exact Bool.false_ne_true)]
  have hframe := refreshMetadata_frame fl heap b
  have hmembers : ∀ i, b.maxNumReqs ≤ i → members rows i = none := by
    intro i hi
    cases hrow : rows i with
    | none => simp only [members, hrow, Option.bind_none]
    | some r => exact absurd (h.samples i r hrow).1 (Nat.not_lt.mpr hi)
  obtain ⟨hfollow, howed⟩ : (b.refreshMetadata fl heap).logitsprocs.Follow fl heap b.maxNumReqs
      (members rows) ∧ ∀ i, (b.refreshMetadata fl heap).logitsprocs.minTokens.minToks.get? i =
        (members rows i).bind (MinTokensLogitsProcessor.owed heap) := by
    rw [hrefresh]
    have hresult := h.records.result
    rcases b.batchUpdateBuilder.getAndReset_fst b.numReqs with hsome | ⟨hnone, hnil⟩
    · rw [hsome, ← hresult]
      refine h.follow.updateState (u := some (b.batchUpdateBuilder.update b.numReqs)) hfl
        (fun v hv => ?_) (fun v hv => ?_) h.outside
      · obtain rfl := Option.some.inj hv
        exact ⟨h.within.added, h.within.removed, h.within.moved⟩
      · obtain rfl := Option.some.inj hv
        exact h.keeps
    · rw [hnil] at hresult
      rw [hnone, ← hresult]
      exact h.follow.updateState (u := none) hfl (fun v hv => (nomatch hv))
        (fun v hv => (nomatch hv)) h.outside
  refine ⟨?_, howed⟩
  rw [hframe]
  exact ⟨h.model, Rows.Records.nil _, ⟨fun _ hm => (nomatch hm), fun _ hm => (nomatch hm),
    fun _ hm => (nomatch hm)⟩, fun _ hm => (nomatch hm), hfollow, hmembers, h.samples⟩

end InputBatch

namespace Session

variable {s s' : Session F} {rows : Seats F} {start : Members F} {op : Op F}

/-- No minimum probability is added that is stored as zero without being zero. -/
def KeepsMinP (fl : FloatOps F) : Op F → Prop
  | .add request => ∀ params ∈ request.samplingParams, fl.Keeps params.minP
  | _ => True

/-- No move is recorded before `condense`. -/
structure Logging (fl : FloatOps F) (s : Session F) (start : Members F) (rows : Seats F) : Prop
    extends s.batch.Logged fl s.heap start rows where
  unmoved : s.stage ≠ .condensed → s.batch.batchUpdateBuilder.moved = []

namespace Logging

lemma of_start (h : Start fl s) (hfl : fl.Lawful) (hmodel : s.batch.isPoolingModel = false) :
    Logging fl s (fun _ => none) fun _ => none := by
  obtain ⟨hb, -⟩ := h
  have hzero : fl.truthy fl.zero = false := (hfl.truthy_zero _).mpr rfl
  refine ⟨⟨hmodel, ?_, ?_, ?_, ?_, fun _ _ => rfl, fun _ _ hr => (nomatch hr)⟩, fun _ => ?_⟩
  · rw [hb.batchUpdateBuilder]
    exact Rows.Records.nil _
  · rw [hb.batchUpdateBuilder]
    exact ⟨fun _ hm => (nomatch hm), fun _ hm => (nomatch hm), fun _ hm => (nomatch hm)⟩
  · rw [hb.batchUpdateBuilder]
    exact fun _ hm => (nomatch hm)
  · rw [hb.logitsprocs]
    refine ⟨⟨fun _ => rfl, ?_⟩, fun _ => rfl, fun _ => rfl⟩
    simp [MinPLogitsProcessor.nonZeros, LogitsProcessors.init, MinPLogitsProcessor.init, hzero]
  · rw [hb.batchUpdateBuilder]

lemma remove {reqId : String} (h : Logging fl s start rows) (htracks : Tracks s rows)
    (hok : s.Ordered (.remove reqId)) (hstep : s.step fl (.remove reqId) = .ok s') :
    Logging fl s' start (s.seatsAfter rows (.remove reqId)) := by
  obtain ⟨batch, hbatch, hret⟩ := bind_eq_ok.mp hstep
  obtain rfl := Except.ok.inj hret
  have hstage := Tracks.ne_condensed hok
  simp only [seatsAfter]
  cases hget : s.batch.reqIdToIndex.get? reqId with
  | none =>
    rw [InputBatch.removeRequest_unknown hget] at hbatch
    obtain rfl := Except.ok.inj hbatch
    exact ⟨h.toLogged, fun _ => h.unmoved hstage⟩
  | some i =>
    obtain ⟨r, hi, rfl⟩ := (htracks.opened hstage).linked.get?_eq_some.mp hget
    obtain ⟨loraIds, hremove, -⟩ := (htracks.opened hstage).remove (htracks.unread hok) hi
    obtain rfl := Except.ok.inj (hremove.symm.trans hbatch)
    rw [h.model]
    exact ⟨h.toLogged.remove (h.unmoved hstage) hi loraIds, fun _ => h.unmoved hstage⟩

lemma advance {reqId : String} {n : Nat} {new : Option (List (List Nat))}
    (h : Logging fl s start rows) (htracks : Tracks s rows) (hok : s.Ordered (.advance reqId n new))
    (hstep : s.step fl (.advance reqId n new) = .ok s') :
    Logging fl s' start (s.seatsAfter rows (.advance reqId n new)) := by
  obtain ⟨i, hget, hrest⟩ := bind_eq_ok.mp hstep
  obtain ⟨batch, hbatch, hret⟩ := bind_eq_ok.mp hrest
  obtain rfl := Except.ok.inj hret
  rw [Dict.getItem_eq_ok] at hget
  obtain ⟨r, hi, rfl⟩ := htracks.kept.linked.get?_eq_some.mp hget
  simp only [seatsAfter, hget, hi, Option.map_some]
  obtain ⟨tables, rfl, -⟩ := InputBatch.advance_ok hbatch
  exact ⟨h.toLogged.replace hi ⟨rfl, rfl, rfl⟩ rfl rfl,
    fun _ => h.unmoved (Tracks.ne_condensed hok)⟩

lemma add {request : CachedRequestState F} (h : Logging fl s start rows) (htracks : Tracks s rows)
    (hok : s.Ordered (.add request)) (hfits : s.Fitting (.add request))
    (hkeeps : KeepsMinP fl (.add request)) (hstep : s.step fl (.add request) = .ok s') :
    Logging fl s' start (s.seatsAfter rows (.add request)) := by
  obtain ⟨batch, hbatch, hret⟩ := bind_eq_ok.mp hstep
  obtain rfl := Except.ok.inj hret
  simp only [Fitting, InputBatch.Fits, h.model, Bool.false_eq_true, if_false] at hfits
  obtain ⟨params, hparams⟩ := Option.isSome_iff_exists.mp hfits
  obtain ⟨hlogged, hmoved⟩ := h.toLogged.add (htracks.opened hok.1) (h.unmoved hok.1) hbatch hparams
    (hkeeps params hparams)
  exact ⟨hlogged, fun _ => hmoved⟩

lemma condense (h : Logging fl s start rows) (htracks : Tracks s rows)
    (hok : s.Ordered .condense) (hstep : s.step fl .condense = .ok s') :
    Logging fl s' start (s.seatsAfter rows .condense) := by
  obtain ⟨batch, hbatch, hret⟩ := bind_eq_ok.mp hstep
  obtain rfl := Except.ok.inj hret
  have hopen := htracks.opened hok
  obtain ⟨l, hl, hperm, -⟩ := BatchUpdateBuilder.ensureRemovedSorted_ok hopen.descending
  have hrun := hopen.condense (motive := fun b' rows' later =>
    later.foldl (fun rows m => Rows.moveOccupant rows m.1 m.2) rows' =
      s.seatsAfter rows .condense ∧ b'.Logged fl s.heap start rows') ?_ ⟨rfl, ?_⟩
  · obtain ⟨b', rows', hbatch', ⟨hrows, hlogged⟩, -⟩ := hrun
    rw [List.foldl_nil] at hrows
    subst hrows
    obtain rfl := Except.ok.inj (hbatch'.symm.trans hbatch)
    exact ⟨hlogged.of_same ⟨rfl, rfl, rfl⟩ hlogged.records hlogged.within hlogged.keeps
      hlogged.samples, fun hc => absurd rfl hc⟩
  · rintro b₁ rows₁ src tgt r later - hcan hr ⟨hfold, hlogged⟩
    exact ⟨hfold, hlogged.moved hcan hr⟩
  · rw [hl]
    refine h.toLogged.of_same ⟨rfl, rfl, rfl⟩ (h.records.perm fun k => hperm.mem_iff)
      ⟨h.within.added, fun k hk => h.within.removed k (hperm.mem_iff.mpr hk), h.within.moved⟩
      h.keeps h.samples

lemma swap {i1 i2 : Nat} (h : Logging fl s start rows) (htracks : Tracks s rows)
    (hok : s.Ordered (.swap i1 i2)) (hstep : s.step fl (.swap i1 i2) = .ok s') :
    Logging fl s' start (s.seatsAfter rows (.swap i1 i2)) := by
  obtain ⟨batch, hbatch, hret⟩ := bind_eq_ok.mp hstep
  obtain rfl := Except.ok.inj hret
  obtain ⟨r₁, r₂, hr₁, hr₂, rfl⟩ := (htracks.settled hok).toKept.swapStates hbatch
  rw [h.model]
  exact ⟨h.toLogged.swap hr₁ hr₂, fun hc => absurd hok hc⟩

lemma refresh (h : Logging fl s start rows) (hfl : fl.Lawful)
    (hstep : s.step fl .refresh = .ok s') :
    Logging fl s' (members rows) rows ∧
      ∀ i, s'.batch.logitsprocs.minTokens.minToks.get? i =
        (members rows i).bind (MinTokensLogitsProcessor.owed s'.heap) := by
  obtain rfl := Except.ok.inj hstep
  obtain ⟨hlogged, howed⟩ := h.toLogged.refresh hfl
  refine ⟨⟨hlogged, fun _ => ?_⟩, howed⟩
  have hframe := InputBatch.refreshMetadata_frame fl s.heap s.batch
  dsimp only
  rw [hframe]

lemma sampled {i : Nat} {ids : List Int} (h : Logging fl s start rows)
    (hstep : s.step fl (.sampled i ids) = .ok s') :
    Logging fl s' start (s.seatsAfter rows (.sampled i ids)) := by
  simp only [Session.step] at hstep
  split at hstep
  · cases hstep
  rename_i r hr
  obtain ⟨batch, hbatch, hret⟩ := bind_eq_ok.mp hstep
  obtain rfl := Except.ok.inj hret
  obtain ⟨row, -, rfl⟩ := InputBatch.recordSampled_ok hbatch
  have hgrow : ∀ ref, (s.heap ref).length ≤
      (Function.update s.heap r.outputTokenIds (s.heap r.outputTokenIds ++ ids) ref).length := by
    intro ref
    by_cases href : ref = r.outputTokenIds
    · subst href
      rw [Function.update_self, List.length_append]
      exact Nat.le_add_right ..
    · rw [Function.update_of_ne href]
  exact ⟨(h.toLogged.grow hgrow).of_same ⟨rfl, rfl, rfl⟩ h.records h.within h.keeps h.samples,
    h.unmoved⟩

lemma accepted {counts : List Nat} (h : Logging fl s start rows)
    (hstep : s.step fl (.accepted counts) = .ok s') :
    Logging fl s' start (s.seatsAfter rows (.accepted counts)) := by
  obtain rfl := Except.ok.inj hstep
  exact ⟨h.toLogged.of_same ⟨rfl, rfl, rfl⟩ h.records h.within h.keeps h.samples, h.unmoved⟩

theorem step (h : Logging fl s start rows) (hfl : fl.Lawful) (htracks : Tracks s rows)
    (hok : s.Ordered op) (hfits : s.Fitting op) (hkeeps : KeepsMinP fl op)
    (hstep : s.step fl op = .ok s') :
    ∃ start', Logging fl s' start' (s.seatsAfter rows op) := by
  cases op with
  | remove reqId => exact ⟨start, h.remove htracks hok hstep⟩
  | advance reqId n new => exact ⟨start, h.advance htracks hok hstep⟩
  | add request => exact ⟨start, h.add htracks hok hfits hkeeps hstep⟩
  | condense => exact ⟨start, h.condense htracks hok hstep⟩
  | swap i1 i2 => exact ⟨start, h.swap htracks hok hstep⟩
  | refresh => exact ⟨members rows, (h.refresh hfl hstep).1⟩
  | sampled i ids => exact ⟨start, h.sampled hstep⟩
  | accepted counts => exact ⟨start, h.accepted hstep⟩

end Logging

/-- The processors have what the requests of the batch prescribe for their rows, and nothing
for other rows. -/
structure ProcessorsFollow (fl : FloatOps F) (s : Session F) : Prop where
  rows : ∀ i < s.batch.numReqs, ∃ id r params, s.batch.reqIds[i]? = some (some id) ∧
    s.requests id = some r ∧ r.samplingParams = some params ∧
    s.batch.logitsprocs.minP.minPCpu i = fl.toFloat32 params.minP ∧
    s.batch.logitsprocs.logitBias.biases.get? i =
      LogitBiasLogitsProcessor.newState params r.promptTokenIds r.outputTokenIds ∧
    s.batch.logitsprocs.minTokens.minToks.get? i =
      MinTokensLogitsProcessor.addRequest s.heap params r.promptTokenIds r.outputTokenIds
  others : ∀ i, s.batch.numReqs ≤ i → s.batch.logitsprocs.minP.minPCpu i = fl.zero ∧
    s.batch.logitsprocs.logitBias.biases.get? i = none ∧
    s.batch.logitsprocs.minTokens.minToks.get? i = none
  count : s.batch.logitsprocs.minP.minPCount =
    MinPLogitsProcessor.nonZeros fl s.batch.maxNumReqs s.batch.logitsprocs.minP.minPCpu

/-- In every run in which no minimum probability vanishes when it is stored, each refresh
brings the processors to what the batch prescribes. -/
theorem processorsFollow_of_refresh (hfl : fl.Lawful)
    (h : Runs.Reached (fun s => Start fl s ∧ s.batch.isPoolingModel = false)
      (fun s op => s.Ordered op ∧ s.Fitting op ∧ KeepsMinP fl op)
      (fun s op s' => s.step fl op = .ok s') s)
    (hok : s.Ordered .refresh) (hstep : s.step fl .refresh = .ok s') : s'.ProcessorsFollow fl := by
  obtain ⟨rows, start, htracks, hlogging⟩ : ∃ rows start, Tracks s rows ∧
      Logging fl s start rows := by
    refine h.invariant (I := fun s => ∃ rows start, Tracks s rows ∧ Logging fl s start rows) ?_ ?_
    · exact fun s ⟨hstart, hmodel⟩ => ⟨_, _, Tracks.start hstart, Logging.of_start hstart hfl hmodel⟩
    · rintro s op s' ⟨rows, start, htracks, hlogging⟩ ⟨hok, hfits, hkeeps⟩ hstep
      obtain ⟨start', hlogging'⟩ := hlogging.step hfl htracks hok hfits hkeeps hstep
      exact ⟨_, start', htracks.step hok hstep, hlogging'⟩
  have htracks' : Tracks s' rows := htracks.refresh hok hstep
  obtain ⟨hlogging', howed⟩ := hlogging.refresh hfl hstep
  have hready : s'.stage = .ready := by
    obtain rfl := Except.ok.inj hstep
    rfl
  have hsettled := htracks'.settled_of (Or.inl hready)
  have hfollow := hlogging'.follow
  refine ⟨fun i hi => ?_, fun i hi => ?_, hfollow.minP.count⟩
  · obtain ⟨r, hr⟩ := hsettled.full.isSome_iff.mpr hi
    obtain ⟨params, hparams, hmember⟩ := hlogging'.samples.member hr
    refine ⟨r.reqId, r, params, hsettled.linked.getElem?_reqIds hr,
      htracks'.requests r ⟨i, hr⟩, hparams, ?_, ?_, ?_⟩
    · rw [hfollow.minP.cpu, hmember]
      rfl
    · rw [hfollow.logitBias, hmember]
      rfl
    · rw [howed, hmember]
      rfl
  · have hnone : members rows i = none := by
      rw [members, (hsettled.full i).mpr hi]
      rfl
    refine ⟨?_, ?_, ?_⟩
    · rw [hfollow.minP.cpu, hnone]
      rfl
    · rw [hfollow.logitBias, hnone]
      rfl
    · rw [howed, hnone]
      rfl

section Runs

variable [DecidableEq F]

instance (fl : FloatOps F) (x : F) : Decidable (fl.Keeps x) :=
  inferInstanceAs (Decidable (x ≠ fl.zero → fl.toFloat32 x ≠ fl.zero))

instance : (op : Op F) → Decidable (KeepsMinP fl op)
  | .add request => inferInstanceAs (Decidable (∀ params ∈ request.samplingParams,
      fl.Keeps params.minP))
  | .remove _ | .advance _ _ _ | .condense | .swap _ _ | .refresh | .sampled _ _ | .accepted _ =>
    inferInstanceAs (Decidable True)

end Runs

/-- A request with a minimum probability and a minimum length, without a seed. -/
def choosyRequest (reqId : String) (outputTokenIds : ListRef) (zero one minP : F) :
    CachedRequestState F :=
  plainRequest reqId outputTokenIds { plainParams zero with
    greedy := false
    temperature := one
    minP := minP
    minTokens := 1 }

lemma natFloatOps_lawful : natFloatOps.Lawful := by
  refine ⟨fun x => ?_, rfl, fun x => rfl, fun x y h => ?_⟩
  · simp [FloatOps.truthy, natFloatOps]
  · have heq : x = y := by simpa [natFloatOps] using h
    rw [heq]

/-- Of two requests with minimum probabilities the first one leaves and the second one moves
down, while a request without one joins. -/
def moveDownRun : List (Op Nat) :=
  [.add (choosyRequest "a" 0 0 1 1), .add (choosyRequest "b" 1 0 1 2),
    .add (choosyRequest "c" 2 0 1 3), .condense, .refresh, .sampled 2 [3], .remove "a", .remove "b",
    .add (plainRequest "d" 3 (plainParams 0)), .condense, .swap 0 1]

theorem processorsFollow_moveDownRun : ∃ s : Session Nat,
    s.batch.reqIds = [some "c", some "d"] ∧ s.ProcessorsFollow natFloatOps := by
  have hrun : (Runs.runAllowed (fun s op => s.Ordered op ∧ s.Fitting op ∧ KeepsMinP natFloatOps op)
      (fun s op => s.step natFloatOps op) (emptySession Nat natFloatOps) moveDownRun).map
      (fun s => (s.stage, s.batch.reqIds)) = some (.condensed, [some "c", some "d"]) := by
    decide +kernel
  obtain ⟨s, hs, hseen⟩ := Option.map_eq_some_iff.mp hrun
  obtain ⟨hstage, hids⟩ := Prod.mk.inj hseen
  refine ⟨{ s with batch := s.batch.refreshMetadata natFloatOps s.heap, stage := .ready }, ?_, ?_⟩
  · have hframe := InputBatch.refreshMetadata_frame natFloatOps s.heap s.batch
    exact (congrArg InputBatch.reqIds hframe).trans hids
  · exact processorsFollow_of_refresh natFloatOps_lawful
      (.of_runAllowed (.start ⟨start_emptySession natFloatOps, rfl⟩) hs) hstage rfl

/-- Rational numbers, of which the smallest are stored as zero. -/
def ratFloatOps : FloatOps ℚ where
  zero := 0
  ne x y := decide (x ≠ y)
  toFloat32 x := if |x| ≤ 1 / 2 ^ 150 then 0 else x

lemma ratFloatOps_lawful : ratFloatOps.Lawful := by
  have hidem : ∀ x, ratFloatOps.toFloat32 (ratFloatOps.toFloat32 x) = ratFloatOps.toFloat32 x := by
    intro x
    simp only [ratFloatOps]
    by_cases hx : |x| ≤ 1 / 2 ^ 150
    · rw [if_pos hx, if_pos (by rw [abs_zero]; positivity)]
    · rw [if_neg hx, if_neg hx]
  refine ⟨fun x => ?_, ?_, hidem, fun x y h => ?_⟩
  · simp [FloatOps.truthy, ratFloatOps]
  · exact if_pos (by rw [show ratFloatOps.zero = 0 from rfl, abs_zero]; positivity)
  · have heq : ratFloatOps.toFloat32 x = y := by simpa [ratFloatOps] using h
    rw [← heq, hidem]

/-- A request with a minimum probability leaves, and one with a tiny one takes its row. -/
def tinyRun : List (Op ℚ) :=
  [.add (choosyRequest "a" 0 0 1 (1 / 2)), .condense, .refresh, .remove "a",
    .add (choosyRequest "b" 1 0 1 (1 / 10 ^ 50)), .condense, .refresh]

/-- The processor still counts one minimum probability, and has none. -/
theorem not_processorsFollow_tinyRun : ratFloatOps.Lawful ∧ ∃ s : Session ℚ,
    Runs.runAllowed (fun s op => s.Ordered op ∧ s.Fitting op) (fun s op => s.step ratFloatOps op)
      (emptySession ℚ ratFloatOps) tinyRun = some s ∧
    s.stage = .ready ∧ ¬ s.ProcessorsFollow ratFloatOps := by
  have hrun : (Runs.runAllowed (fun s op => s.Ordered op ∧ s.Fitting op)
      (fun s op => s.step ratFloatOps op) (emptySession ℚ ratFloatOps) tinyRun).map
      (fun s => (s.stage, s.batch.logitsprocs.minP.minPCount,
        MinPLogitsProcessor.nonZeros ratFloatOps s.batch.maxNumReqs
          s.batch.logitsprocs.minP.minPCpu)) = some (.ready, 1, 0) := by decide +kernel
  obtain ⟨s, hs, hseen⟩ := Option.map_eq_some_iff.mp hrun
  simp only [Prod.mk.injEq] at hseen
  obtain ⟨hstage, hcount, hzeros⟩ := hseen
  refine ⟨ratFloatOps_lawful, s, hs, hstage, fun hfollow => ?_⟩
  have hclaim := hfollow.count
  rw [hcount, hzeros] at hclaim
  cases hclaim

end Session

end VllmV1.Worker
