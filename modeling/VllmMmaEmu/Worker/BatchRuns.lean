import VllmMmaEmu.Library.Runs
import VllmMmaEmu.Worker.Condense
import VllmMmaEmu.Worker.RowProgress

/-!
# Runs of the model runner's batch

Every operation moves the requests among the rows in a way that the state before it fixes,
and keeps the rows' data with them. So after every run of steps the batch is what the
requests on its rows prescribe.
-/

namespace VllmV1.Worker

open Python

variable {F : Type} {fl : FloatOps F}

namespace Session

variable {s s' : Session F} {rows : Seats F} {op : Op F}

/-- The requests on the rows after an operation. -/
def seatsAfter (s : Session F) (rows : Seats F) : Op F → Seats F
  | .remove reqId => match s.batch.reqIdToIndex.get? reqId with
    | some i => Function.update rows i none
    | none => rows
  | .advance reqId n newBlockIds => match s.batch.reqIdToIndex.get? reqId with
    | some i => Function.update rows i ((rows i).map (·.advanced n newBlockIds))
    | none => rows
  | .add request => Function.update rows s.batch.nextRow (some request)
  | .condense => s.batch.condensePlan.foldl (fun rows m => Rows.moveOccupant rows m.1 m.2) rows
  | .swap i1 i2 => Rows.swap rows i1 i2
  | .refresh => rows
  | .sampled _ _ => rows
  | .accepted _ => rows

/-- The batch keeps the requests on the rows, as far as the step has come, and the runner
knows them. -/
structure Tracks (s : Session F) (rows : Seats F) : Prop where
  opened : s.stage ≠ .condensed → s.batch.Open s.heap rows
  settled : s.stage = .condensed → s.batch.Settled s.heap rows
  unread : s.stage = .ready ∨ s.stage = .removing →
    s.batch.batchUpdateBuilder.isRemovedSorted = false
  idle : s.stage = .ready → s.batch.batchUpdateBuilder.removed = []
  requests : ∀ r, Rows.Seated rows r → s.requests r.reqId = some r
  unshared : ∀ r q, Rows.Seated rows r → Rows.Seated rows q →
    q.outputTokenIds = r.outputTokenIds → q.reqId = r.reqId

namespace Tracks

lemma kept (h : Tracks s rows) : s.batch.Kept s.heap rows := by
  by_cases hstage : s.stage = .condensed
  · exact (h.settled hstage).toKept
  · exact (h.opened hstage).toKept

lemma settled_of (h : Tracks s rows) (hstage : s.stage = .ready ∨ s.stage = .condensed) :
    s.batch.Settled s.heap rows := by
  rcases hstage with hready | hcondensed
  · have hopen := h.opened (by rw [hready]; exact Stage.noConfusion)
    have hholes := hopen.holes
    rw [h.idle hready] at hholes
    obtain ⟨hlen, hfull⟩ := hholes.full (by simp)
    exact ⟨hopen.toKept, hlen, hfull⟩
  · exact h.settled hcondensed

lemma start (h : Start fl s) : Tracks s fun _ => none := by
  obtain ⟨hb, hstage⟩ := h
  have hkept : s.batch.Kept s.heap fun _ => none := by
    refine ⟨?_, ?_, fun i => Rows.Occupied.none⟩
    · rw [hb.reqIds, hb.reqOutputTokenIds, hb.reqIdToIndex]
      exact Linked.empty
    · rw [hb.loraIdToRequestIds]
      exact LoraLinked.empty
  have hnum : s.batch.numReqs = 0 := by
    rw [InputBatch.numReqs, hb.reqIdToIndex]
    rfl
  refine ⟨fun _ => ⟨hkept, ?_, ?_, ?_⟩, fun hc => ?_, fun _ => ?_, fun _ => ?_, ?_, ?_⟩
  · rw [hb.reqIds, hnum, hb.batchUpdateBuilder]
    exact Rows.Holes.empty_rows
  · rw [hb.batchUpdateBuilder]
    exact fun i hi => absurd hi List.not_mem_nil
  · rw [hb.batchUpdateBuilder]
    intro hs
    cases hs
  · rw [hstage] at hc
    cases hc
  · rw [hb.batchUpdateBuilder]
  · rw [hb.batchUpdateBuilder]
  · rintro r ⟨i, hi⟩
    cases hi
  · rintro r q ⟨i, hi⟩
    cases hi

lemma ne_condensed (h : s.stage = .ready ∨ s.stage = .removing) : s.stage ≠ .condensed := by
  rcases h with hs | hs
  · rw [hs]
    exact Stage.noConfusion
  · rw [hs]
    exact Stage.noConfusion

lemma remove {reqId : String} (h : Tracks s rows) (hok : s.Ordered (.remove reqId))
    (hstep : s.step fl (.remove reqId) = .ok s') : Tracks s' (s.seatsAfter rows (.remove reqId)) := by
  obtain ⟨batch, hbatch, hret⟩ := bind_eq_ok.mp hstep
  obtain rfl := Except.ok.inj hret
  have hopen := h.opened (ne_condensed hok)
  simp only [seatsAfter]
  cases hget : s.batch.reqIdToIndex.get? reqId with
  | none =>
    rw [InputBatch.removeRequest_unknown hget] at hbatch
    obtain rfl := Except.ok.inj hbatch
    exact ⟨fun _ => hopen, fun hc => (nomatch hc), fun _ => h.unread hok, fun hc => (nomatch hc),
      h.requests, h.unshared⟩
  | some i =>
    obtain ⟨r, hi, rfl⟩ := hopen.linked.get?_eq_some.mp hget
    obtain ⟨loraIds, hremove, hopen'⟩ := hopen.remove (h.unread hok) hi
    have hsub : ∀ q, Rows.Seated (Function.update rows i none) q → Rows.Seated rows q :=
      fun q hq => ((Rows.seated_update_none hi fun k hk =>
        hopen.linked.unique hk hi rfl).mp hq).2
    obtain rfl := Except.ok.inj (hremove.symm.trans hbatch)
    refine ⟨fun _ => ?_, fun hc => (nomatch hc), fun _ => ?_, fun hc => (nomatch hc),
      fun q hq => h.requests q (hsub q hq), fun q q' hq hq' => h.unshared q q' (hsub q hq) (hsub q' hq')⟩
    · dsimp only
      split_ifs
      · exact hopen'
      · rw [InputBatch.removeSampling_frame]
        exact hopen'.withSampling
    · dsimp only
      split_ifs
      · exact h.unread hok
      · exact h.unread hok

/-- The requests on the rows after one of them was brought up to date. -/
lemma seated_replace {i : Nat} {r p q : CachedRequestState F} (hi : rows i = some r)
    (hunique : ∀ k, rows k = some r → k = i) :
    Rows.Seated (Function.update rows i (some p)) q ↔ q = p ∨ q ≠ r ∧ Rows.Seated rows q := by
  have hempty : Function.update rows i none i = none := Function.update_self ..
  have hseated := Rows.seated_update_some (r := q) (q := p) hempty
  rw [Function.update_idem] at hseated
  rw [hseated, Rows.seated_update_none hi hunique]

lemma advance {reqId : String} {n : Nat} {new : Option (List (List Nat))} (h : Tracks s rows)
    (hok : s.Ordered (.advance reqId n new)) (hstep : s.step fl (.advance reqId n new) = .ok s') :
    Tracks s' (s.seatsAfter rows (.advance reqId n new)) := by
  obtain ⟨i, hget, hrest⟩ := bind_eq_ok.mp hstep
  obtain ⟨batch, hbatch, hret⟩ := bind_eq_ok.mp hrest
  obtain rfl := Except.ok.inj hret
  rw [Dict.getItem_eq_ok] at hget
  have hopen := h.opened (ne_condensed hok)
  obtain ⟨r, hi, rfl⟩ := hopen.linked.get?_eq_some.mp hget
  have hseated := fun q => seated_replace (q := q) (p := r.advanced n new) hi
    fun k hk => hopen.linked.unique hk hi rfl
  simp only [seatsAfter, hget, hi, Option.map_some]
  have hopen' := hopen.advance hi hbatch
  refine ⟨fun _ => hopen', fun hc => (nomatch hc), fun _ => ?_, fun hc => (nomatch hc),
    fun q hq => ?_, fun q q' hq hq' hout => ?_⟩
  · obtain ⟨tables, rfl, -⟩ := InputBatch.advance_ok hbatch
    exact h.unread hok
  · rcases (hseated q).mp hq with rfl | ⟨hne, hq⟩
    · show Function.update s.requests r.reqId _ r.reqId = _
      rw [Function.update_self, h.requests r ⟨i, hi⟩]
      rfl
    · have hid : q.reqId ≠ r.reqId := fun hid => by
        obtain ⟨k, hk⟩ := hq
        obtain rfl := hopen.linked.unique hk hi hid
        exact hne (Option.some.inj (hk.symm.trans hi))
      show Function.update s.requests r.reqId _ q.reqId = _
      rw [Function.update_of_ne hid, h.requests q hq]
  · have hold : ∀ q, q = r.advanced n new ∨ q ≠ r ∧ Rows.Seated rows q →
        ∃ q₀, Rows.Seated rows q₀ ∧ q₀.reqId = q.reqId ∧ q₀.outputTokenIds = q.outputTokenIds := by
      rintro q (rfl | ⟨-, hq⟩)
      · exact ⟨r, ⟨i, hi⟩, rfl, rfl⟩
      · exact ⟨q, hq, rfl, rfl⟩
    obtain ⟨q₀, hq₀, hid, hout₀⟩ := hold q ((hseated q).mp hq)
    obtain ⟨q₁, hq₁, hid', hout₁⟩ := hold q' ((hseated q').mp hq')
    rw [← hid, ← hid']
    exact h.unshared q₀ q₁ hq₀ hq₁ (by rw [hout₀, hout₁, hout])

lemma add {request : CachedRequestState F} (h : Tracks s rows) (hok : s.Ordered (.add request))
    (hstep : s.step fl (.add request) = .ok s') :
    Tracks s' (s.seatsAfter rows (.add request)) := by
  obtain ⟨batch, hbatch, hret⟩ := bind_eq_ok.mp hstep
  obtain rfl := Except.ok.inj hret
  obtain ⟨hstage, hnew, hlist⟩ := hok
  have hopen := h.opened hstage
  have hseated := fun q => Rows.seated_update_some (r := q) (q := request) hopen.nextRow_ok.1
  have hothers : ∀ q, Rows.Seated rows q →
      q.reqId ≠ request.reqId ∧ q.outputTokenIds ≠ request.outputTokenIds := by
    rintro q ⟨k, hk⟩
    refine ⟨fun hid => ?_, fun hout => hlist ?_⟩
    · rw [← hid, hopen.get?_reqId hk] at hnew
      cases hnew
    · rw [← hout]
      exact List.mem_of_getElem? (hopen.linked.getElem?_outputs hk)
  refine ⟨fun _ => hopen.add hnew hbatch, fun hc => (nomatch hc), fun hc => ?_,
    fun hc => (nomatch hc), fun q hq => ?_, fun q q' hq hq' hout => ?_⟩
  · rcases hc with hc | hc
    · cases hc
    · cases hc
  · show Function.update s.requests request.reqId _ q.reqId = _
    rcases (hseated q).mp hq with rfl | hq
    · rw [Function.update_self]
    · rw [Function.update_of_ne (hothers q hq).1, h.requests q hq]
  · rcases (hseated q).mp hq with heq | hold
    · rcases (hseated q').mp hq' with heq' | hold'
      · rw [heq, heq']
      · exact absurd (heq ▸ hout) (hothers q' hold').2
    · rcases (hseated q').mp hq' with heq' | hold'
      · exact absurd (heq' ▸ hout).symm (hothers q hold).2
      · exact h.unshared q q' hold hold' hout

/-- `condense` never raises, and its moves are those of the plan. -/
lemma condense_ok (h : Tracks s rows) (hstage : s.stage ≠ .condensed) :
    ∃ batch, s.batch.condense = .ok batch ∧
      batch.Settled s.heap (s.seatsAfter rows .condense) ∧
      ∀ r, Rows.Seated (s.seatsAfter rows .condense) r ↔ Rows.Seated rows r := by
  have hrun := (h.opened hstage).condense (motive := fun _ rows' later =>
    later.foldl (fun rows m => Rows.moveOccupant rows m.1 m.2) rows' =
      s.seatsAfter rows .condense ∧ ∀ r, Rows.Seated rows' r ↔ Rows.Seated rows r) ?_
    ⟨rfl, fun _ => Iff.rfl⟩
  · obtain ⟨batch, rows', hbatch, ⟨hrows, hseated⟩, hsettled⟩ := hrun
    rw [List.foldl_nil] at hrows
    subst hrows
    exact ⟨_, hbatch, hsettled, hseated⟩
  · rintro b₁ rows₁ src tgt r later - hcan - ⟨hfold, hseated⟩
    rw [List.foldl_cons] at hfold
    refine ⟨hfold, fun q => ?_⟩
    rw [Rows.seated_moveOccupant hcan.empty hcan.lt.ne', hseated]

lemma condense (h : Tracks s rows) (hok : s.Ordered .condense)
    (hstep : s.step fl .condense = .ok s') : Tracks s' (s.seatsAfter rows .condense) := by
  obtain ⟨batch, hbatch, hret⟩ := bind_eq_ok.mp hstep
  obtain rfl := Except.ok.inj hret
  obtain ⟨batch', hbatch', hsettled, hseated⟩ := h.condense_ok hok
  obtain rfl := Except.ok.inj (hbatch'.symm.trans hbatch)
  refine ⟨fun hc => absurd rfl hc, fun _ => hsettled, fun hc => ?_, fun hc => (nomatch hc),
    fun q hq => h.requests q ((hseated q).mp hq), fun q q' hq hq' =>
      h.unshared q q' ((hseated q).mp hq) ((hseated q').mp hq')⟩
  rcases hc with hc | hc
  · cases hc
  · cases hc

lemma swap {i1 i2 : Nat} (h : Tracks s rows) (hok : s.Ordered (.swap i1 i2))
    (hstep : s.step fl (.swap i1 i2) = .ok s') : Tracks s' (s.seatsAfter rows (.swap i1 i2)) := by
  obtain ⟨batch, hbatch, hret⟩ := bind_eq_ok.mp hstep
  obtain rfl := Except.ok.inj hret
  have hstage : s.stage = .condensed := hok
  refine ⟨fun hc => absurd hstage hc, fun _ => (h.settled hstage).swap hbatch, fun hc => ?_,
    fun hc => ?_, fun q hq => h.requests q (Rows.seated_swap.mp hq), fun q q' hq hq' =>
      h.unshared q q' (Rows.seated_swap.mp hq) (Rows.seated_swap.mp hq')⟩
  · exact absurd hstage (ne_condensed hc)
  · exact absurd hstage (ne_condensed (Or.inl hc))

lemma refresh (h : Tracks s rows) (hok : s.Ordered .refresh)
    (hstep : s.step fl .refresh = .ok s') : Tracks s' (s.seatsAfter rows .refresh) := by
  obtain rfl := Except.ok.inj hstep
  have hsettled := h.settled hok
  have hframe := InputBatch.refreshMetadata_frame fl s.heap s.batch
  have hopen : (s.batch.refreshMetadata fl s.heap).Open s.heap rows := by
    rw [hframe]
    refine ⟨⟨hsettled.linked, hsettled.lora, hsettled.data⟩, ?_, fun i hi => (nomatch hi),
      fun hs => (nomatch hs)⟩
    show Rows.Holes rows s.batch.reqIds.length s.batch.numReqs []
    rw [hsettled.length]
    exact hsettled.full.to_holes
  refine ⟨fun _ => hopen, fun hc => (nomatch hc), fun _ => ?_, fun _ => ?_, h.requests, h.unshared⟩
  · dsimp only
    rw [hframe]
  · dsimp only
    rw [hframe]

lemma sampled {i : Nat} {ids : List Int} (h : Tracks s rows) (hok : s.Ordered (.sampled i ids))
    (hstep : s.step fl (.sampled i ids) = .ok s') :
    Tracks s' (s.seatsAfter rows (.sampled i ids)) := by
  have hsettled := h.settled_of (Or.inl hok.1)
  simp only [Session.step] at hstep
  split at hstep
  · cases hstep
  rename_i r hr
  obtain ⟨batch, hbatch, hret⟩ := bind_eq_ok.mp hstep
  obtain rfl := Except.ok.inj hret
  have hi : rows i = some r := by
    obtain ⟨id, hid, hr⟩ := Option.bind_eq_some_iff.mp hr
    obtain ⟨q, hq, rfl⟩ := hsettled.linked.exists_of_getElem? (Rows.entry_eq_some.mp hid)
    rw [h.requests q ⟨i, hq⟩] at hr
    rw [hq, hr]
  have hkept := hsettled.toKept.recordSampled hi (fun k q hk hout => by
    have hid := h.unshared r q ⟨i, hi⟩ ⟨k, hk⟩ hout
    exact hsettled.linked.unique hk hi hid) hbatch
  have hopen := h.opened (ne_condensed (Or.inl hok.1))
  obtain ⟨row, -, rfl⟩ := InputBatch.recordSampled_ok hbatch
  exact ⟨fun _ => ⟨hkept, hopen.holes, hopen.lt, hopen.descending⟩,
    fun hc => absurd hc (ne_condensed (Or.inl hok.1)), h.unread, h.idle, h.requests, h.unshared⟩

lemma accepted {counts : List Nat} (h : Tracks s rows) (hok : s.Ordered (.accepted counts))
    (hstep : s.step fl (.accepted counts) = .ok s') :
    Tracks s' (s.seatsAfter rows (.accepted counts)) := by
  obtain rfl := Except.ok.inj hstep
  have hopen := (h.opened (ne_condensed (Or.inl hok))).withSampling
    (s := s.batch.recordAccepted counts)
  exact ⟨fun _ => hopen, fun hc => absurd hc (ne_condensed (Or.inl hok)), h.unread, h.idle,
    h.requests, h.unshared⟩

/-- Every operation of a step keeps the batch and the runner together. -/
theorem step (h : Tracks s rows) (hok : s.Ordered op) (hstep : s.step fl op = .ok s') :
    Tracks s' (s.seatsAfter rows op) := by
  cases op with
  | remove reqId => exact h.remove hok hstep
  | advance reqId n new => exact h.advance hok hstep
  | add request => exact h.add hok hstep
  | condense => exact h.condense hok hstep
  | swap i1 i2 => exact h.swap hok hstep
  | refresh => exact h.refresh hok hstep
  | sampled i ids => exact h.sampled hok hstep
  | accepted counts => exact h.accepted hok hstep

end Tracks

abbrev ReachedFrom (fl : FloatOps F) : Session F → Prop :=
  Runs.Reached (Start fl) Ordered fun s op s' => s.step fl op = .ok s'

lemma tracks_of_reached (h : ReachedFrom fl s) : ∃ rows, Tracks s rows :=
  h.invariant (I := fun s => ∃ rows, Tracks s rows) (fun _ hstart => ⟨_, Tracks.start hstart⟩)
    fun _ _ _ ⟨_, htracks⟩ hok hstep => ⟨_, htracks.step hok hstep⟩

/-- Between two steps: the rows are the requests of the batch without gaps, the index is the
inverse of their names, and each row has the data of its request. -/
structure Together (s : Session F) : Prop where
  length : s.batch.reqIds.length = s.batch.numReqs
  active : none ∉ s.batch.reqIds
  inverse : ∀ id i, s.batch.reqIdToIndex.get? id = some i ↔ s.batch.reqIds[i]? = some (some id)
  row : ∀ i id, s.batch.reqIds[i]? = some (some id) → ∃ r, s.requests id = some r ∧ r.reqId = id ∧
    s.batch.reqOutputTokenIds[i]? = some (some r.outputTokenIds) ∧
    (s.batch.rowData i).Carries s.heap s.batch.maxModelLen r
  lora : ∀ l ids, s.batch.loraIdToRequestIds.get? l = some ids ↔ ids.Nonempty ∧ ∀ id, id ∈ ids ↔
    ∃ (i : Nat) (r : CachedRequestState F), s.batch.reqIds[i]? = some (some id) ∧
      s.requests id = some r ∧ r.loraRequest.map (·.loraIntId) = some l

lemma Tracks.together (h : Tracks s rows) (hstage : s.stage = .ready ∨ s.stage = .condensed) :
    s.Together := by
  have hsettled := h.settled_of hstage
  have hlinked := hsettled.linked
  have hlora : ∀ l id, id ∈ (s.batch.loraIdToRequestIds.get? l).getD ∅ ↔
      ∃ (i : Nat) (r : CachedRequestState F), s.batch.reqIds[i]? = some (some id) ∧
        s.requests id = some r ∧ r.loraRequest.map (·.loraIntId) = some l := by
    intro l id
    rw [hsettled.lora.ids]
    constructor
    · rintro ⟨r, ⟨i, hi⟩, rfl, hl⟩
      exact ⟨i, r, hlinked.getElem?_reqIds hi, h.requests r ⟨i, hi⟩, hl⟩
    · rintro ⟨i, r, hid, hr, hl⟩
      obtain ⟨q, hq, rfl⟩ := hlinked.exists_of_getElem? hid
      obtain rfl := Option.some.inj ((h.requests q ⟨i, hq⟩).symm.trans hr)
      exact ⟨q, ⟨i, hq⟩, rfl, hl⟩
  refine ⟨hsettled.length, fun hmem => ?_, fun id i => ?_, fun i id hid => ?_, fun l ids => ?_⟩
  · obtain ⟨i, hi⟩ := List.mem_iff_getElem?.mp hmem
    have hlt := (List.getElem?_eq_some_iff.mp hi).1
    obtain ⟨r, hr⟩ := hsettled.full.isSome_iff.mpr (hsettled.length ▸ hlt)
    rw [hlinked.getElem?_reqIds hr] at hi
    cases hi
  · rw [hlinked.get?_eq_some]
    constructor
    · rintro ⟨r, hi, rfl⟩
      exact hlinked.getElem?_reqIds hi
    · exact hlinked.exists_of_getElem?
  · obtain ⟨r, hi, rfl⟩ := hlinked.exists_of_getElem? hid
    exact ⟨r, h.requests r ⟨i, hi⟩, rfl, hlinked.getElem?_outputs hi, hsettled.carries hi⟩
  · simp only [← hlora]
    constructor
    · intro hget
      rw [hget]
      refine ⟨Finset.nonempty_of_ne_empty fun hempty => ?_, fun id => Iff.rfl⟩
      exact hsettled.lora.nonempty l (hempty ▸ hget)
    · rintro ⟨⟨id, hid⟩, hids⟩
      have heq : ids = (s.batch.loraIdToRequestIds.get? l).getD ∅ := Finset.ext hids
      cases hget : s.batch.loraIdToRequestIds.get? l with
      | none =>
        rw [hget, Option.getD_none] at heq
        rw [heq] at hid
        exact absurd hid (Finset.notMem_empty id)
      | some ids' =>
        rw [hget, Option.getD_some] at heq
        rw [heq]

/-- In every run, rows and requests are together between two steps and between the swaps, and
neither a removal nor `condense` raises. -/
theorem together_of_reached (h : ReachedFrom fl s) :
    (s.stage = .ready ∨ s.stage = .condensed → s.Together) ∧
      (s.stage = .ready ∨ s.stage = .removing →
        ∀ reqId, ∃ batch, s.batch.removeRequest reqId = .ok batch) ∧
      (s.stage ≠ .condensed → ∃ batch, s.batch.condense = .ok batch) := by
  obtain ⟨rows, htracks⟩ := tracks_of_reached h
  refine ⟨htracks.together, fun hstage reqId => ?_, fun hstage => ?_⟩
  · have hopen := htracks.opened (Tracks.ne_condensed hstage)
    cases hget : s.batch.reqIdToIndex.get? reqId with
    | none => exact ⟨_, InputBatch.removeRequest_unknown hget⟩
    | some i =>
      obtain ⟨r, hi, rfl⟩ := hopen.linked.get?_eq_some.mp hget
      obtain ⟨loraIds, hremove, -⟩ := hopen.remove (htracks.unread hstage) hi
      exact ⟨_, hremove⟩
  · obtain ⟨batch, hbatch, -⟩ := htracks.condense_ok hstage
    exact ⟨batch, hbatch⟩

/-- Numbers of which every stored one keeps its value. -/
def natFloatOps : FloatOps Nat := ⟨0, fun x y => decide (x ≠ y), id⟩

/-- An empty batch for four requests of at most eight tokens, with one group of blocks. -/
def emptyBatch (F : Type) (fl : FloatOps F) : InputBatch F where
  isPoolingModel := false
  maxNumReqs := 4
  maxModelLen := 8
  vocabSize := 4
  reqIds := []
  reqIdToIndex := Dict.empty
  tokenIdsCpu := fun _ _ => 0
  isTokenIds := fun _ _ => false
  reqPromptEmbeds := Dict.empty
  numTokens := fun _ => 0
  numTokensNoSpec := fun _ => 0
  numPromptTokens := fun _ => 0
  numComputedTokensCpu := fun _ => 0
  blockTable := [⟨4, fun _ _ => 0, fun _ => 0⟩]
  temperatureCpu := fun _ => fl.zero
  topPCpu := fun _ => fl.zero
  topKCpu := fun _ => 0
  frequencyPenaltiesCpu := fun _ => fl.zero
  presencePenaltiesCpu := fun _ => fl.zero
  repetitionPenaltiesCpu := fun _ => fl.zero
  numAcceptedTokensCpu := fun _ => 1
  requestLoraMapping := fun _ => 0
  loraIdToRequestIds := Dict.empty
  generators := Dict.empty
  batchUpdateBuilder := {}
  allowedTokenIdsMaskCpuTensor := none
  badWordsTokenIds := Dict.empty
  logitsProcessingNeedsTokenIds := fun _ => false
  reqOutputTokenIds := []
  logitsprocs := .init fl

def emptySession (F : Type) (fl : FloatOps F) : Session F :=
  ⟨emptyBatch F fl, fun _ => [], fun _ => none, fun _ => 1, .ready⟩

lemma start_emptySession (fl : FloatOps F) : (emptySession F fl).Start fl :=
  ⟨⟨rfl, rfl, rfl, rfl, rfl, rfl, rfl, rfl, rfl, rfl, rfl, rfl, rfl⟩, rfl⟩

/-- Parameters that ask for nothing. -/
def plainParams (zero : F) : SamplingParams F where
  greedy := true
  temperature := zero
  topP := zero
  topK := 0
  frequencyPenalty := zero
  presencePenalty := zero
  repetitionPenalty := zero
  minP := zero
  minTokens := 0
  allStopTokenIds := []
  logitBias := none
  allowedTokenIds := none
  badWordsTokenIds := none

/-- A request with a prompt of two tokens and one block. -/
def plainRequest (reqId : String) (outputTokenIds : ListRef) (params : SamplingParams F) :
    CachedRequestState F where
  reqId := reqId
  promptTokenIds := some [1, 2]
  promptEmbeds := none
  samplingParams := some params
  poolingParams := none
  generator := none
  blockIds := [[7]]
  numComputedTokens := 0
  outputTokenIds := outputTokenIds
  loraRequest := none

/-- Three requests come, the first one leaves, and the last one moves down. -/
def slideRun : List (Op Nat) :=
  [.add (plainRequest "a" 0 (plainParams 0)), .add (plainRequest "b" 1 (plainParams 0)),
    .add { plainRequest "c" 2 (plainParams 0) with loraRequest := some ⟨5, by decide⟩ },
    .condense, .refresh, .sampled 2 [3], .remove "a", .condense, .swap 0 1, .refresh]

theorem together_slideRun : ∃ s : Session Nat,
    s.batch.reqIds = [some "b", some "c"] ∧ s.Together := by
  have hrun : (Runs.runAllowed Ordered (fun s op => s.step natFloatOps op)
      (emptySession Nat natFloatOps) slideRun).map
      (fun s => (s.stage, s.batch.reqIds)) = some (.ready, [some "b", some "c"]) := by decide +kernel
  obtain ⟨s, hs, hids⟩ := Option.map_eq_some_iff.mp hrun
  obtain ⟨hstage, hids⟩ := Prod.mk.inj hids
  exact ⟨s, hids, (together_of_reached
    (.of_runAllowed (.start (start_emptySession natFloatOps)) hs)).1 (Or.inl hstage)⟩

end Session

end VllmV1.Worker
