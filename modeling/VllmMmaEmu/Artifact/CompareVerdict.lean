import VllmMmaEmu.Artifact.Compare

/-!
# What a match of the comparison says

`compare` returns a match exactly when everything it looks at agrees. It looks at the last
record of each document and at the logprobs up to the shorter list, so a match says that
all records agree exactly when nothing else differs.
-/

namespace Artifact

open Python

variable {F : Type} [PyFloat F]

/-- The records agree as far as the script looks: the same prompt, and the same logprobs up
to the length of the shorter list. -/
def VisiblyAgree (a b : Sample F) : Prop :=
  a.promptHash = b.promptHash ∧ ∃ xs ys, sampleLogprobs a = .ok xs ∧ sampleLogprobs b = .ok ys ∧
    ∀ p ∈ xs.zip ys, (p.1 == p.2) = true

/-- The records agree: the same prompt, and logprobs of the same number, equal one by one. -/
def Agree (a b : Sample F) : Prop :=
  a.promptHash = b.promptHash ∧ ∃ xs ys, sampleLogprobs a = .ok xs ∧ sampleLogprobs b = .ok ys ∧
    List.Forall₂ (fun x y => (x == y) = true) xs ys

/-- As many logprobs on both sides. -/
def SameNumber (a b : Sample F) : Prop :=
  ∀ xs ys, sampleLogprobs a = .ok xs → sampleLogprobs b = .ok ys → xs.length = ys.length

lemma agree_iff {a b : Sample F} : Agree a b ↔ VisiblyAgree a b ∧ SameNumber a b := by
  constructor
  · rintro ⟨hhash, xs, ys, hx, hy, hall⟩
    refine ⟨⟨hhash, xs, ys, hx, hy, ?_⟩, ?_⟩
    · exact fun p hp => (List.forall₂_iff_zip.mp hall).2 hp
    · intro xs' ys' hx' hy'
      obtain rfl : xs = xs' := Except.ok.inj (hx.symm.trans hx')
      obtain rfl : ys = ys' := Except.ok.inj (hy.symm.trans hy')
      exact hall.length_eq
  · rintro ⟨⟨hhash, xs, ys, hx, hy, hall⟩, hlen⟩
    refine ⟨hhash, xs, ys, hx, hy, List.forall₂_iff_zip.mpr ⟨hlen xs ys hx hy, ?_⟩⟩
    exact fun {x y} hp => hall (x, y) hp

namespace TaskStats

/-- Nothing that was counted differed. -/
def Clean (st : TaskStats F) : Prop := st.identical = st.total ∧ st.hashMismatches = 0

end TaskStats

lemma foldl_countPair (l : List (F × F)) (st : TaskStats F) (hle : st.identical ≤ st.total) :
    (l.foldl countPair st).identical ≤ (l.foldl countPair st).total ∧
    ((l.foldl countPair st).Clean ↔ st.Clean ∧ ∀ p ∈ l, (p.1 == p.2) = true) ∧
    (l.foldl countPair st).unmatched = st.unmatched := by
  induction l generalizing st with
  | nil => simpa using hle
  | cons p rest ih =>
    rw [List.foldl_cons]
    by_cases hp : (p.1 == p.2) = true
    · obtain ⟨h₁, h₂, h₃⟩ := ih (countPair st p) (by simp [countPair, hp, hle])
      refine ⟨h₁, h₂.trans ?_, h₃.trans (by simp [countPair, hp])⟩
      simp [countPair, hp, TaskStats.Clean]
    · obtain ⟨h₁, h₂, h₃⟩ := ih (countPair st p) (by simp [countPair, hp]; omega)
      refine ⟨h₁, h₂.trans ?_, h₃.trans (by simp [countPair, hp])⟩
      -- the counters are apart for good after a difference
      have hne : st.identical ≠ st.total + 1 := by omega
      simp [countPair, hp, TaskStats.Clean, hne]

lemma countSample_ok {st st' : TaskStats F} {a b : Sample F} (hle : st.identical ≤ st.total)
    (h : countSample st a b = .ok st') :
    st'.identical ≤ st'.total ∧ (st'.Clean ↔ st.Clean ∧ VisiblyAgree a b) ∧
      st'.unmatched = st.unmatched := by
  simp only [countSample, bind_eq_ok, pure_eq, Except.ok.injEq] at h
  obtain ⟨xs, hx, ys, hy, rfl⟩ := h
  have hvis : VisiblyAgree a b ↔
      a.promptHash = b.promptHash ∧ ∀ p ∈ xs.zip ys, (p.1 == p.2) = true := by
    simp [VisiblyAgree, hx, hy]
  by_cases hhash : a.promptHash = b.promptHash
  · obtain ⟨h₁, h₂, h₃⟩ := foldl_countPair (xs.zip ys) st hle
    simp only [hhash, ne_eq, not_true_eq_false, if_false, hvis, true_and]
    exact ⟨h₁, h₂, h₃⟩
  · obtain ⟨h₁, h₂, h₃⟩ := foldl_countPair (xs.zip ys)
      { st with hashMismatches := st.hashMismatches + 1 } hle
    simp only [hhash, ne_eq, not_false_eq_true, if_true, hvis, false_and, and_false, iff_false]
    refine ⟨h₁, fun hc => ?_, h₃⟩
    exact absurd (h₂.mp hc).1.2 (Nat.succ_ne_zero _)

lemma exists_countSample (st : TaskStats F) {a b : Sample F} (h : VisiblyAgree a b) :
    ∃ st', countSample st a b = .ok st' := by
  obtain ⟨-, xs, ys, hx, hy, -⟩ := h
  exact ⟨_, by simp only [countSample, hx, hy, ok_bind, pure_eq]; rfl⟩

lemma countIds_clean_iff (left right : Dict (Option Int) (Sample F)) (ids : List (Option Int))
    (st : TaskStats F) (hids : ∀ i ∈ ids, i ∈ left.keys ∧ i ∈ right.keys)
    (hle : st.identical ≤ st.total) :
    (∃ st', countIds left right ids st = .ok st' ∧ st'.Clean ∧ st'.unmatched = 0) ↔
      st.Clean ∧ st.unmatched = 0 ∧ ∀ i ∈ ids, ∀ a b, left.get? i = some a →
        right.get? i = some b → VisiblyAgree a b := by
  induction ids generalizing st with
  | nil => simp [countIds]
  | cons i ids ih =>
    obtain ⟨⟨a, ha⟩, ⟨b, hb⟩⟩ : (∃ a, left.get? i = some a) ∧ ∃ b, right.get? i = some b := by
      obtain ⟨hl, hr⟩ := hids i (by simp)
      exact ⟨Dict.mem_keys_iff.mp hl, Dict.mem_keys_iff.mp hr⟩
    have hrest : ∀ j ∈ ids, j ∈ left.keys ∧ j ∈ right.keys :=
      fun j hj => hids j (List.mem_cons_of_mem _ hj)
    have hcons : countIds left right (i :: ids) st =
        countSample st a b >>= countIds left right ids := by
      simp only [countIds, List.foldlM_cons, ha, hb]
      rfl
    rw [hcons]
    constructor
    · rintro ⟨st', hrun, hclean, hun⟩
      obtain ⟨st₁, hstep, htail⟩ := bind_eq_ok.mp hrun
      obtain ⟨hle₁, hiff, hun₁⟩ := countSample_ok hle hstep
      obtain ⟨hc₁, hu₁, hall⟩ := (ih _ hrest hle₁).mp ⟨st', htail, hclean, hun⟩
      obtain ⟨hc, hvis⟩ := hiff.mp hc₁
      refine ⟨hc, hun₁ ▸ hu₁, ?_⟩
      intro j hj a' b' ha' hb'
      rcases List.mem_cons.mp hj with rfl | hj
      · obtain rfl : a = a' := Option.some.inj (ha.symm.trans ha')
        obtain rfl : b = b' := Option.some.inj (hb.symm.trans hb')
        exact hvis
      · exact hall j hj a' b' ha' hb'
    · rintro ⟨hc, hu, hall⟩
      have hvis := hall i (by simp) a b ha hb
      obtain ⟨st₁, hstep⟩ := exists_countSample st hvis
      obtain ⟨hle₁, hiff, hun₁⟩ := countSample_ok hle hstep
      obtain ⟨st', htail, hclean, hun⟩ := (ih _ hrest hle₁).mpr
        ⟨hiff.mpr ⟨hc, hvis⟩, hun₁.trans hu, fun j hj => hall j (List.mem_cons_of_mem _ hj)⟩
      exact ⟨st', bind_eq_ok.mpr ⟨st₁, hstep, htail⟩, hclean, hun⟩

/-- The records of a document, in the order of the log. -/
def recordsOf (samples : List (Sample F)) (i : Option Int) : List (Sample F) :=
  samples.filter fun s => s.docId = i

/-- The record `logprob_task_stats` uses for a document: the last one. -/
def lastRecord (samples : List (Sample F)) (i : Option Int) : Option (Sample F) :=
  (recordsOf samples i).getLast?

/-- The two logs of a task agree as far as the script looks. -/
structure LogsVisiblyAgree (ll rl : List (Sample F)) : Prop where
  sameIds : ∀ i, i ∈ ll.map Sample.docId ↔ i ∈ rl.map Sample.docId
  sortable : (∃ s ∈ ll, s.docId = none) → ∀ s ∈ ll, s.docId = none
  records : ∀ i a b, lastRecord ll i = some a → lastRecord rl i = some b → VisiblyAgree a b

omit [PyFloat F] in
lemma get?_byDocId (samples : List (Sample F)) (i : Option Int) :
    (byDocId samples).get? i = lastRecord samples i := by
  rw [byDocId, Dict.get?_ofPairs, List.filter_map, List.getLast?_map, Option.map_map]
  rw [lastRecord, recordsOf]
  have hid : (Prod.snd ∘ fun s : Sample F => (s.docId, s)) = id := rfl
  rw [hid, Option.map_id]
  rfl

omit [PyFloat F] in
lemma mem_keys_byDocId (samples : List (Sample F)) (i : Option Int) :
    i ∈ (byDocId samples).keys ↔ i ∈ samples.map Sample.docId := by
  rw [byDocId, Dict.mem_keys_ofPairs, List.map_map]
  rfl

lemma sortedDocIds_isOk {ids : List (Option Int)} (hn : ids.Nodup) :
    (∃ l, sortedDocIds ids = .ok l) ↔ (none ∈ ids → ∀ i ∈ ids, i = none) := by
  unfold sortedDocIds
  split_ifs with h
  · obtain ⟨hmem, hlen⟩ := h
    simp only [exists_false, false_iff]
    intro hall
    have hrep : ids = List.replicate ids.length none :=
      List.eq_replicate_iff.mpr ⟨rfl, hall hmem⟩
    rw [hrep, List.nodup_replicate] at hn
    omega
  · simp only [Except.ok.injEq, exists_eq', true_iff]
    intro hmem i hi
    by_contra hne
    apply h
    refine ⟨hmem, ?_⟩
    have hsub : [none, i].Subperm ids :=
      List.subperm_of_subset (by simp [Ne.symm hne]) (by simp [hmem, hi])
    exact hsub.length_le

lemma sortedDocIds_mem {ids l : List (Option Int)} (h : sortedDocIds ids = .ok l) (i : Option Int) :
    i ∈ l ↔ i ∈ ids := by
  unfold sortedDocIds at h
  split_ifs at h
  rw [← Except.ok.inj h]
  exact List.mem_insertionSort _

lemma length_filter_eq_zero_iff {α : Type*} {l : List α} {p : α → Prop} [DecidablePred p] :
    (l.filter fun a => ¬ p a).length = 0 ↔ ∀ a ∈ l, p a := by
  rw [List.length_eq_zero_iff, List.filter_eq_nil_iff]
  simp

omit [PyFloat F] in
lemma unmatched_eq_zero_iff (ll rl : List (Sample F)) :
    ((byDocId ll).keys.filter (· ∉ (byDocId rl).keys)).length
        + ((byDocId rl).keys.filter (· ∉ (byDocId ll).keys)).length = 0 ↔
      ∀ i, i ∈ ll.map Sample.docId ↔ i ∈ rl.map Sample.docId := by
  rw [Nat.add_eq_zero_iff, length_filter_eq_zero_iff, length_filter_eq_zero_iff]
  simp only [mem_keys_byDocId]
  constructor
  · rintro ⟨hl, hr⟩ i
    exact ⟨hl i, hr i⟩
  · intro h
    exact ⟨fun i => (h i).mp, fun i => (h i).mpr⟩

lemma logprobTaskStats_clean_iff (ll rl : List (Sample F)) :
    (∃ st, logprobTaskStats ll rl = .ok st ∧ st.Clean ∧ st.unmatched = 0) ↔
      LogsVisiblyAgree ll rl := by
  have hnodup : ((byDocId ll).keys.filter (· ∈ (byDocId rl).keys)).Nodup :=
    (byDocId ll).keys_nodup.filter _
  have hcommon : ∀ i, i ∈ (byDocId ll).keys.filter (· ∈ (byDocId rl).keys) ↔
      i ∈ ll.map Sample.docId ∧ i ∈ rl.map Sample.docId := by
    intro i
    rw [List.mem_filter, decide_eq_true_eq, mem_keys_byDocId, mem_keys_byDocId]
  have hkeys : ∀ {ids}, sortedDocIds ((byDocId ll).keys.filter (· ∈ (byDocId rl).keys)) = .ok ids →
      ∀ i ∈ ids, i ∈ (byDocId ll).keys ∧ i ∈ (byDocId rl).keys := by
    intro ids hids i hi
    rw [sortedDocIds_mem hids, List.mem_filter, decide_eq_true_eq] at hi
    exact hi
  have hunm := unmatched_eq_zero_iff ll rl
  constructor
  · rintro ⟨st, hrun, hclean, hun⟩
    obtain ⟨ids, hids, hcount⟩ := bind_eq_ok.mp hrun
    obtain ⟨-, hzero, hall⟩ := (countIds_clean_iff _ _ ids _ (hkeys hids) le_rfl).mp
      ⟨st, hcount, hclean, hun⟩
    have hsame := hunm.mp hzero
    refine ⟨hsame, ?_, ?_⟩
    · rintro ⟨s, hs, hnone⟩ s' hs'
      have hmem : ∀ t ∈ ll, t.docId ∈ (byDocId ll).keys.filter (· ∈ (byDocId rl).keys) := by
        intro t ht
        have htl : t.docId ∈ ll.map Sample.docId := List.mem_map_of_mem ht
        exact (hcommon _).mpr ⟨htl, (hsame _).mp htl⟩
      have hsort := (sortedDocIds_isOk hnodup).mp ⟨ids, hids⟩
      exact hsort (hnone ▸ hmem s hs) _ (hmem s' hs')
    · intro i a b ha hb
      rw [← get?_byDocId] at ha hb
      have hi : i ∈ ids := by
        rw [sortedDocIds_mem hids, List.mem_filter, decide_eq_true_eq]
        exact ⟨Dict.mem_keys_iff.mpr ⟨a, ha⟩, Dict.mem_keys_iff.mpr ⟨b, hb⟩⟩
      exact hall i hi a b ha hb
  · rintro ⟨hsame, hsortable, hrecords⟩
    have hsort : none ∈ (byDocId ll).keys.filter (· ∈ (byDocId rl).keys) →
        ∀ i ∈ (byDocId ll).keys.filter (· ∈ (byDocId rl).keys), i = none := by
      intro hnone i hi
      obtain ⟨s, hs, hsn⟩ := List.mem_map.mp ((hcommon _).mp hnone).1
      obtain ⟨t, ht, rfl⟩ := List.mem_map.mp ((hcommon _).mp hi).1
      exact hsortable ⟨s, hs, hsn⟩ t ht
    obtain ⟨ids, hids⟩ := (sortedDocIds_isOk hnodup).mpr hsort
    obtain ⟨st, hcount, hclean, hun⟩ := (countIds_clean_iff (byDocId ll) (byDocId rl)
      ids ⟨0, 0, PyFloat.zero, 0, _⟩ (hkeys hids) le_rfl).mpr
      ⟨⟨rfl, rfl⟩, hunm.mpr hsame, fun i _ a b ha hb => hrecords i a b
        (by rwa [← get?_byDocId]) (by rwa [← get?_byDocId])⟩
    exact ⟨st, bind_eq_ok.mpr ⟨ids, hids, hcount⟩, hclean, hun⟩

/-- The scores of a task are equal, metric by metric. -/
def SameScores (lm rm : Dict (String × String) F) (task : String) : Prop :=
  ∀ m, sameScore (lm.get? (task, m)) (rm.get? (task, m)) = true

omit [PyFloat F] in
lemma mem_sortedSet {xs : List String} {x : String} : x ∈ sortedSet xs ↔ x ∈ xs := by
  rw [sortedSet, List.mem_insertionSort, List.mem_dedup]

lemma all_sameScore_iff (lm rm : Dict (String × String) F) (task : String) :
    (taskMetrics lm rm task).all (fun m => sameScore (lm.get? (task, m)) (rm.get? (task, m))) =
      true ↔ SameScores lm rm task := by
  rw [List.all_eq_true]
  constructor
  · intro h m
    by_cases hm : m ∈ taskMetrics lm rm task
    · exact h m hm
    · -- a metric in neither result
      rw [taskMetrics, mem_sortedSet, List.mem_append, not_or] at hm
      have hl : lm.get? (task, m) = none := by
        rw [Dict.get?_eq_none_iff]
        intro hk
        exact hm.1 (List.mem_map.mpr ⟨(task, m), by simp [hk], rfl⟩)
      have hr : rm.get? (task, m) = none := by
        rw [Dict.get?_eq_none_iff]
        intro hk
        exact hm.2 (List.mem_map.mpr ⟨(task, m), by simp [hk], rfl⟩)
      rw [hl, hr]
      rfl
  · exact fun h m _ => h m

/-- Both sides logged the task, and the logs agree as far as the script looks. -/
def TaskLogsVisiblyAgree (lsamp rsamp : Samples F) (task : String) : Prop :=
  ∃ ll rl, lsamp.get? task = some ll ∧ rsamp.get? task = some rl ∧ LogsVisiblyAgree ll rl

/-- Every task so far agreed and nothing was missing. -/
def Progress.Clean (p : Progress) : Prop := p.tasksOk = p.nTasks ∧ p.incomplete = []

omit [PyFloat F] in
lemma clean_count_iff {st : TaskStats F} :
    (st.identical = st.total ∧ st.hashMismatches = 0 ∧ st.unmatched = 0) ↔
      st.Clean ∧ st.unmatched = 0 := and_assoc.symm

/-- Counters of the tasks stay in order, and a reason is never dropped. -/
lemma compareTask_ok {lm rm : Dict (String × String) F} {samples : Option (Samples F × Samples F)}
    {p p' : Progress} {task : String} (hle : p.tasksOk ≤ p.nTasks)
    (h : compareTask lm rm samples p task = .ok p') :
    p'.tasksOk ≤ p'.nTasks ∧ (p'.incomplete = [] → p.incomplete = []) := by
  obtain ⟨⟨lpOk, q⟩, hlogs, hp'⟩ := bind_eq_ok.mp h
  have hq : q.tasksOk = p.tasksOk ∧ q.nTasks = p.nTasks ∧
      (q.incomplete = [] → p.incomplete = []) := by
    unfold compareLogs at hlogs
    split at hlogs
    · obtain ⟨-, rfl⟩ := Prod.mk.inj (Except.ok.inj hlogs)
      exact ⟨rfl, rfl, id⟩
    · split at hlogs
      · obtain ⟨st, -, hst⟩ := bind_eq_ok.mp hlogs
        obtain ⟨-, rfl⟩ := Prod.mk.inj (Except.ok.inj hst)
        exact ⟨rfl, rfl, id⟩
      · obtain ⟨-, rfl⟩ := Prod.mk.inj (Except.ok.inj hlogs)
        exact ⟨rfl, rfl, by simp⟩
  obtain rfl := Except.ok.inj hp'
  refine ⟨?_, hq.2.2⟩
  simp only [hq.1, hq.2.1]
  split <;> omega

lemma compareTask_clean_iff {lm rm : Dict (String × String) F} {lsamp rsamp : Samples F}
    {p : Progress} (hle : p.tasksOk ≤ p.nTasks) (task : String) :
    (∃ p', compareTask lm rm (some (lsamp, rsamp)) p task = .ok p' ∧ p'.Clean) ↔
      p.Clean ∧ SameScores lm rm task ∧ TaskLogsVisiblyAgree lsamp rsamp task := by
  rw [← all_sameScore_iff]
  set scoreOk := (taskMetrics lm rm task).all fun m =>
    sameScore (lm.get? (task, m)) (rm.get? (task, m)) with hscore
  have hone : ∀ b : Bool, p.tasksOk + (if b then 1 else 0) = p.nTasks + 1 ↔
      p.tasksOk = p.nTasks ∧ b = true := by
    rintro (_ | _)
    · simp
      omega
    · simp
  cases hl : lsamp.get? task with
  | none =>
    simp [compareTask, compareLogs, hl, Progress.Clean, TaskLogsVisiblyAgree]
  | some ll =>
    cases hr : rsamp.get? task with
    | none => simp [compareTask, compareLogs, hl, hr, Progress.Clean, TaskLogsVisiblyAgree]
    | some rl =>
      have hstats := logprobTaskStats_clean_iff ll rl
      have hagree : TaskLogsVisiblyAgree lsamp rsamp task ↔ LogsVisiblyAgree ll rl := by
        simp [TaskLogsVisiblyAgree, hl, hr]
      rw [hagree, ← hstats]
      constructor
      · rintro ⟨p', hrun, hok, hinc⟩
        obtain ⟨⟨lpOk, q⟩, hlogs, hp'⟩ := bind_eq_ok.mp hrun
        simp only [compareLogs, hl, hr] at hlogs
        obtain ⟨st, hst, hpair⟩ := bind_eq_ok.mp hlogs
        obtain ⟨rfl, rfl⟩ := Prod.mk.inj (Except.ok.inj hpair)
        obtain rfl := Except.ok.inj hp'
        obtain ⟨htasks, hboth⟩ := (hone _).mp hok
        rw [Bool.and_eq_true, decide_eq_true_eq, clean_count_iff] at hboth
        exact ⟨⟨htasks, hinc⟩, hboth.1, st, hst, hboth.2⟩
      · rintro ⟨⟨htasks, hinc⟩, hsc, st, hst, hclean⟩
        rw [← clean_count_iff] at hclean
        refine ⟨?_, ?_, ?_⟩
        pick_goal 2
        · simp only [compareTask, compareLogs, hl, hr, hst, ok_bind, pure_eq]
          rfl
        · exact ⟨(hone _).mpr ⟨htasks, by simp [← hscore, hsc, hclean]⟩, hinc⟩

lemma foldlM_compareTask_clean_iff {lm rm : Dict (String × String) F} {lsamp rsamp : Samples F}
    (tasks : List String) {p : Progress} (hle : p.tasksOk ≤ p.nTasks) :
    (∃ p', tasks.foldlM (compareTask lm rm (some (lsamp, rsamp))) p = .ok p' ∧ p'.Clean) ↔
      p.Clean ∧ ∀ task ∈ tasks, SameScores lm rm task ∧ TaskLogsVisiblyAgree lsamp rsamp task := by
  induction tasks generalizing p with
  | nil => simp
  | cons task tasks ih =>
    rw [List.foldlM_cons, List.forall_mem_cons]
    constructor
    · rintro ⟨p', hrun, hclean⟩
      obtain ⟨p₁, hstep, htail⟩ := bind_eq_ok.mp hrun
      obtain ⟨hclean₁, hall⟩ := (ih (compareTask_ok hle hstep).1).mp ⟨p', htail, hclean⟩
      obtain ⟨hp, htask⟩ := (compareTask_clean_iff hle task).mp ⟨p₁, hstep, hclean₁⟩
      exact ⟨hp, htask, hall⟩
    · rintro ⟨hp, htask, hall⟩
      obtain ⟨p₁, hstep, hclean₁⟩ := (compareTask_clean_iff hle task).mpr ⟨hp, htask⟩
      obtain ⟨p', htail, hclean⟩ := (ih (compareTask_ok hle hstep).1).mpr ⟨hclean₁, hall⟩
      exact ⟨p', bind_eq_ok.mpr ⟨p₁, hstep, htail⟩, hclean⟩

lemma foldlM_compareTask_ok {lm rm : Dict (String × String) F}
    {samples : Option (Samples F × Samples F)} (tasks : List String) {p p' : Progress}
    (hle : p.tasksOk ≤ p.nTasks) (h : tasks.foldlM (compareTask lm rm samples) p = .ok p') :
    p'.tasksOk ≤ p'.nTasks ∧ (p'.incomplete = [] → p.incomplete = []) := by
  induction tasks generalizing p with
  | nil =>
    obtain rfl := Except.ok.inj h
    exact ⟨hle, id⟩
  | cons task tasks ih =>
    obtain ⟨p₁, hstep, htail⟩ := bind_eq_ok.mp (List.foldlM_cons.symm.trans h)
    obtain ⟨hle₁, hinc₁⟩ := compareTask_ok hle hstep
    obtain ⟨hle', hinc'⟩ := ih hle₁ htail
    exact ⟨hle', hinc₁ ∘ hinc'⟩

/-- Both results and both logs are there, from the right devices, with some score, and
everything the script looks at agrees. -/
structure VisiblyEqual (l r : Side F) (lres rres : Result F) (lsamp rsamp : Samples F) : Prop where
  leftResult : l.result = some lres
  rightResult : r.result = some rres
  leftArch : archOf lres = l.expectedArch
  rightArch : archOf rres = r.expectedArch
  leftSamples : l.samples = some lsamp
  rightSamples : r.samples = some rsamp
  scored : scoredTasks (collectMetrics lres) (collectMetrics rres) ≠ []
  tasks : ∀ task ∈ scoredTasks (collectMetrics lres) (collectMetrics rres),
    SameScores (collectMetrics lres) (collectMetrics rres) task ∧
      TaskLogsVisiblyAgree lsamp rsamp task

/-- `compare` returns with the status `EXIT_MATCH`. -/
def ReturnsMatch (l r : Side F) : Prop := ∃ p, compare l r = .ok (p, .exitMatch)

lemma verdict_eq_match_iff {p : Progress} (hle : p.tasksOk ≤ p.nTasks) :
    verdict (decide (p.tasksOk < p.nTasks)) p.incomplete = .exitMatch ↔ p.Clean := by
  unfold verdict Progress.Clean
  by_cases hlt : p.tasksOk < p.nTasks
  · simp [hlt, hlt.ne]
  · have heq : p.tasksOk = p.nTasks := by omega
    by_cases hinc : p.incomplete = [] <;> simp [heq, hinc]

omit [PyFloat F] in
lemma sideIncomplete_eq_nil_iff {side : Side F} :
    sideIncomplete side = [] ↔ ∃ res, side.result = some res ∧ archOf res = side.expectedArch := by
  unfold sideIncomplete
  cases side.result with
  | none => simp
  | some res => by_cases h : archOf res = side.expectedArch <;> simp [h]

omit [PyFloat F] in
lemma bothSamples_missing_iff {l r : Side F} :
    (bothSamples l r).2 = [] ↔
      ∃ ls rs, l.samples = some ls ∧ r.samples = some rs ∧ (bothSamples l r).1 = some (ls, rs) := by
  unfold bothSamples
  cases l.samples with
  | none => simp
  | some ls => cases r.samples <;> simp

lemma noTasks_eq_nil_iff {tasks : List String} :
    (if tasks = [] then ["no task scores in either result"] else []) = [] ↔ tasks ≠ [] := by
  by_cases h : tasks = [] <;> simp [h]

lemma returnsMatch_iff (l r : Side F) :
    ReturnsMatch l r ↔ ∃ lres rres lsamp rsamp, VisiblyEqual l r lres rres lsamp rsamp := by
  constructor
  · rintro ⟨p, hrun⟩
    unfold compare at hrun
    split at hrun
    · rename_i lres rres hl hr
      obtain ⟨p', hfold, hv⟩ := bind_eq_ok.mp hrun
      obtain ⟨rfl, hverdict⟩ := Prod.mk.inj (Except.ok.inj hv)
      obtain ⟨hle, hinc⟩ := foldlM_compareTask_ok _ le_rfl hfold
      have hclean := (verdict_eq_match_iff hle).mp hverdict
      have hnil := hinc hclean.2
      simp only [List.append_eq_nil_iff, noTasks_eq_nil_iff, sideIncomplete_eq_nil_iff, hl, hr,
        bothSamples_missing_iff, Option.some.injEq, exists_eq_left'] at hnil
      obtain ⟨⟨⟨hal, har⟩, lsamp, rsamp, hls, hrs, hboth⟩, hscored⟩ := hnil
      rw [hboth] at hfold
      obtain ⟨-, htasks⟩ := (foldlM_compareTask_clean_iff _ le_rfl).mp ⟨p', hfold, hclean⟩
      exact ⟨lres, rres, lsamp, rsamp, hl, hr, hal, har, hls, hrs, hscored, htasks⟩
    · rename_i hmissing
      obtain ⟨-, hverdict⟩ := Prod.mk.inj (Except.ok.inj hrun)
      -- one result is missing, so there is a reason
      have hnil : sideIncomplete l ++ sideIncomplete r = [] := by
        by_contra hne
        simp [verdict, hne] at hverdict
      rw [List.append_eq_nil_iff, sideIncomplete_eq_nil_iff, sideIncomplete_eq_nil_iff] at hnil
      obtain ⟨⟨lres, hl, -⟩, rres, hr, -⟩ := hnil
      exact absurd hr (hmissing lres rres hl)
  · rintro ⟨lres, rres, lsamp, rsamp, h⟩
    have hil : sideIncomplete l = [] := sideIncomplete_eq_nil_iff.mpr ⟨_, h.leftResult, h.leftArch⟩
    have hir : sideIncomplete r = [] := sideIncomplete_eq_nil_iff.mpr ⟨_, h.rightResult, h.rightArch⟩
    have hboth : bothSamples l r = (some (lsamp, rsamp), []) := by
      simp [bothSamples, h.leftSamples, h.rightSamples]
    obtain ⟨p, hfold, hclean⟩ := (foldlM_compareTask_clean_iff (p := ⟨0, 0, 0, 0, []⟩)
      (scoredTasks (collectMetrics lres) (collectMetrics rres)) le_rfl).mpr ⟨⟨rfl, rfl⟩, h.tasks⟩
    have hverdict := (verdict_eq_match_iff (foldlM_compareTask_ok _ le_rfl hfold).1).mpr hclean
    refine ⟨p, ?_⟩
    simp only [compare, h.leftResult, h.rightResult, hil, hir, hboth, h.scored, if_false,
      List.append_nil, hfold, ok_bind, hverdict, pure_eq]

/-- The two logs of a task agree: of every document they have the same number of records, which
agree one by one. -/
def LogsAgree (ll rl : List (Sample F)) : Prop :=
  ∀ i, List.Forall₂ Agree (recordsOf ll i) (recordsOf rl i)

/-- What a match is to say: for every task with a score in either result the metrics are
equal and the logs agree. -/
def SidesAgree (l r : Side F) : Prop :=
  ∃ lres rres, l.result = some lres ∧ r.result = some rres ∧
    ∀ task ∈ scoredTasks (collectMetrics lres) (collectMetrics rres),
      SameScores (collectMetrics lres) (collectMetrics rres) task ∧
      ∃ lsamp rsamp ll rl, l.samples = some lsamp ∧ r.samples = some rsamp ∧
        lsamp.get? task = some ll ∧ rsamp.get? task = some rl ∧ LogsAgree ll rl

/-- Nothing differs where the script does not look: the last records of a document have as
many logprobs on both sides, and the records before them, which they replace, agree one by one. -/
def NothingHidden (ll rl : List (Sample F)) : Prop :=
  ∀ i, (∀ a b, lastRecord ll i = some a → lastRecord rl i = some b → SameNumber a b) ∧
    List.Forall₂ Agree (recordsOf ll i).dropLast (recordsOf rl i).dropLast

lemma forall₂_concat {α β : Type*} {R : α → β → Prop} {xs : List α} {ys : List β} {x : α} {y : β} :
    List.Forall₂ R (xs ++ [x]) (ys ++ [y]) ↔ List.Forall₂ R xs ys ∧ R x y := by
  rw [← List.forall₂_reverse_iff, List.reverse_append, List.reverse_append, List.reverse_singleton,
    List.reverse_singleton, List.singleton_append, List.singleton_append, List.forall₂_cons,
    List.forall₂_reverse_iff, and_comm]

omit [PyFloat F] in
lemma recordsOf_eq_nil_iff {samples : List (Sample F)} {i : Option Int} :
    recordsOf samples i = [] ↔ i ∉ samples.map Sample.docId := by
  simp [recordsOf]

omit [PyFloat F] in
lemma exists_lastRecord {samples : List (Sample F)} {i : Option Int}
    (h : recordsOf samples i ≠ []) : ∃ a, lastRecord samples i = some a ∧
      recordsOf samples i = (recordsOf samples i).dropLast ++ [a] :=
  ⟨_, List.getLast?_eq_some_getLast h, (List.dropLast_append_getLast h).symm⟩

lemma logsAgree_iff {ll rl : List (Sample F)} (h : LogsVisiblyAgree ll rl) :
    LogsAgree ll rl ↔ NothingHidden ll rl := by
  apply forall_congr'
  intro i
  by_cases hl : recordsOf ll i = []
  · have hr : recordsOf rl i = [] := by
      rw [recordsOf_eq_nil_iff, ← h.sameIds, ← recordsOf_eq_nil_iff]
      exact hl
    simp [lastRecord, hl, hr]
  · have hr : recordsOf rl i ≠ [] := by
      rwa [Ne, recordsOf_eq_nil_iff, ← h.sameIds, ← recordsOf_eq_nil_iff]
    obtain ⟨a, ha, hla⟩ := exists_lastRecord hl
    obtain ⟨b, hb, hrb⟩ := exists_lastRecord hr
    have hvis := h.records i a b ha hb
    rw [hla, hrb, forall₂_concat, agree_iff, and_iff_right hvis, and_comm, List.dropLast_concat,
      List.dropLast_concat, ha, hb]
    simp

/-- A match is sound exactly for the inputs on which something the script looks at differs
or is missing, or nothing is hidden in the logs of a scored task. -/
theorem returnsMatch_sound_iff (l r : Side F) :
    (ReturnsMatch l r → SidesAgree l r) ↔
      ∀ lres rres lsamp rsamp, VisiblyEqual l r lres rres lsamp rsamp →
        ∀ task ∈ scoredTasks (collectMetrics lres) (collectMetrics rres), ∀ ll rl,
          lsamp.get? task = some ll → rsamp.get? task = some rl → NothingHidden ll rl := by
  constructor
  · intro hsound lres rres lsamp rsamp h task htask ll rl hll hrl
    obtain ⟨lres', rres', hl, hr, hall⟩ :=
      hsound ((returnsMatch_iff l r).mpr ⟨lres, rres, lsamp, rsamp, h⟩)
    obtain rfl : lres = lres' := Option.some.inj (h.leftResult.symm.trans hl)
    obtain rfl : rres = rres' := Option.some.inj (h.rightResult.symm.trans hr)
    obtain ⟨-, lsamp', rsamp', ll', rl', hls, hrs, hll', hrl', hagree⟩ := hall task htask
    obtain rfl : lsamp = lsamp' := Option.some.inj (h.leftSamples.symm.trans hls)
    obtain rfl : rsamp = rsamp' := Option.some.inj (h.rightSamples.symm.trans hrs)
    obtain rfl : ll = ll' := Option.some.inj (hll.symm.trans hll')
    obtain rfl : rl = rl' := Option.some.inj (hrl.symm.trans hrl')
    obtain ⟨ll'', rl'', hll'', hrl'', hvis⟩ := (h.tasks task htask).2
    obtain rfl : ll = ll'' := Option.some.inj (hll.symm.trans hll'')
    obtain rfl : rl = rl'' := Option.some.inj (hrl.symm.trans hrl'')
    exact (logsAgree_iff hvis).mp hagree
  · intro hhidden hmatch
    obtain ⟨lres, rres, lsamp, rsamp, h⟩ := (returnsMatch_iff l r).mp hmatch
    refine ⟨lres, rres, h.leftResult, h.rightResult, fun task htask => ?_⟩
    obtain ⟨hscores, ll, rl, hll, hrl, hvis⟩ := h.tasks task htask
    refine ⟨hscores, lsamp, rsamp, ll, rl, h.leftSamples, h.rightSamples, hll, hrl, ?_⟩
    exact (logsAgree_iff hvis).mpr (hhidden lres rres lsamp rsamp h task htask ll rl hll hrl)

section ShorterLog

/-- Whole numbers as floats. -/
local instance : PyFloat Int where
  zero := 0
  absDiff a b := (a - b).natAbs
  max a b := if a ≤ b then b else a

/-- A side with one scored task and one logged document. -/
def oneDocument (heading arch : String) (sm : Int) (logprobs : List Int) : Side Int where
  heading := heading
  expectedArch := arch
  result := some
    { tasks := [{ taskName := some "arc", metrics := [("acc", .number 1)] }]
      device := some { sm := some sm } }
  samples := some (Dict.empty.set "arc" [{
    docId := some 0
    promptHash := some "p"
    filteredResps := logprobs.map fun x => .list (some x) }])

/-- Two answer choices on one side and one on the other: a match, although the second
logprob has no counterpart. -/
theorem returnsMatch_shorter_log :
    ReturnsMatch (oneDocument "emulate_hopper" "blackwell" 120 [-1, -2])
      (oneDocument "h100 native" "hopper" 90 [-1]) ∧
    ¬ SidesAgree (oneDocument "emulate_hopper" "blackwell" 120 [-1, -2])
      (oneDocument "h100 native" "hopper" 90 [-1]) := by
  refine ⟨⟨_, rfl⟩, ?_⟩
  rintro ⟨lres, rres, hl, hr, hall⟩
  obtain rfl := Option.some.inj hl
  obtain rfl := Option.some.inj hr
  obtain ⟨-, lsamp, rsamp, ll, rl, hls, hrs, hll, hrl, hagree⟩ := hall "arc" (by decide +kernel)
  obtain rfl := Option.some.inj hls
  obtain rfl := Option.some.inj hrs
  obtain rfl := Option.some.inj hll
  obtain rfl := Option.some.inj hrl
  obtain ⟨-, xs, ys, hx, hy, hforall⟩ := (List.forall₂_cons.mp (hagree (some 0))).1
  obtain rfl := Except.ok.inj hx
  obtain rfl := Except.ok.inj hy
  exact absurd hforall.length_eq (by decide)

end ShorterLog

end Artifact
