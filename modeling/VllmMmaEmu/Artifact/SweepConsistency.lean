import VllmMmaEmu.Artifact.ConfigHistory

/-!
# Crash consistency of the sweep

A complete result and the samples file next to it come from the same execution, whatever the
configurations and precisions of the invocations are, in every state that is reached without
saving over files that the new ones could be mixed with. Saving new samples next to a result
that is already good and stopping between the two replacements leaves a mixed pair.
-/

namespace Artifact

open Runs

/-- A combination that is reported as complete for one of the configs has its result and its
samples from one execution. -/
def Consistent (configs : Set ExperimentConfig) (dir : Dir) : Prop :=
  ∀ config ∈ configs, ∀ precision : Precision, config.logSamples = true →
    ∀ combo ∈ generateSweepCombinations config.toConfig,
      completedResultStatus precision.key dir (getRunName combo config.toConfig) combo
        config.toConfig = none →
      ∃ result samples, dir (outputPath (getRunName combo config.toConfig)) = some result ∧
        dir (samplesPath (getRunName combo config.toConfig)) = some samples ∧
        result.writtenBy = samples.writtenBy

/-- The file passes the checks on the result of this name, for some precision and some
combination of one of the configs that logs samples. -/
def Completable (configs : Set ExperimentConfig) (runName : String) (file : Option File) : Prop :=
  ∃ config ∈ configs, ∃ precision : Precision, config.logSamples = true ∧
    ∃ combo ∈ generateSweepCombinations config.toConfig, getRunName combo config.toConfig = runName ∧
      resultStatus precision.key file combo config.toConfig = none

/-- The files of an execution that is about to be saved are mixed with no others: its samples do
not come next to an earlier result, nor its result next to earlier samples, nor does its result
pass for the samples of another run. -/
structure SavesApart (configs : Set ExperimentConfig) (dir : Dir) (x : Execution) (withSamples : Bool) : Prop where
  result : withSamples = true → ¬ Completable configs x.runName (dir (outputPath x.runName))
  samples : withSamples = false → Completable configs x.runName (some ⟨.result x.result, x.id⟩) →
    dir (samplesPath x.runName) = none
  other : ∀ n, n ++ "_samples" = x.runName → ¬ Completable configs n (dir (outputPath n))

/-- The execution of the item, when its benchmark returns. -/
def Sweep.nextExecution (config : Config) (s : Sweep) (precision : String) (item : PlanItem)
    (evaluate : String → TaskRecord) : Execution where
  id := s.executions
  runName := item.runName
  result := resultJson config precision item.combo evaluate
  phase := if hasSamples config evaluate then .openSamples else .openResult

/-- An execution is saved only where its files are mixed with no others. -/
def StartsFresh (configs : Set ExperimentConfig) (h : History) : Action → Prop
  | .goOn (.benchmarkReturns evaluate) => ∀ p, h.sweep.process = some p → ∀ item ∈ p.plan.head?,
      SavesApart configs h.sweep.dir (h.sweep.nextExecution h.config.toConfig p.precision item evaluate)
        (hasSamples h.config.toConfig evaluate)
  | _ => True

variable {configs : Set ExperimentConfig}

lemma samplesPath_injective {n n' : String} (h : samplesPath n = samplesPath n') : n = n' := by
  have hstem : n ++ "_samples" = n' ++ "_samples" := congrArg Path.stem h
  have hlist := congrArg String.toList hstem
  rw [String.toList_append, String.toList_append, List.append_left_inj] at hlist
  exact String.toList_injective hlist

lemma outputPath_injective {n n' : String} (h : outputPath n = outputPath n') : n = n' :=
  congrArg Path.stem h

lemma tmpPath_ne_outputPath (p : Path) (n : String) : outputPath n ≠ p.tmpPath := by
  intro h
  exact absurd (congrArg Path.tmp h) (by simp [outputPath, Path.tmpPath])

lemma tmpPath_ne_samplesPath (p : Path) (n : String) : samplesPath n ≠ p.tmpPath := by
  intro h
  exact absurd (congrArg Path.tmp h) (by simp [samplesPath, Path.tmpPath])

lemma samplesPath_ne_outputPath (n : String) : samplesPath n ≠ outputPath n := by
  intro h
  have hlength := congrArg String.length (congrArg Path.stem h)
  simp [samplesPath, outputPath] at hlength

lemma completedResultStatus_eq_none {config : Config} (hlog : config.logSamples = true)
    {precision : String} {dir : Dir} {n : String} {combo : Combo} :
    completedResultStatus precision dir n combo config = none ↔
      resultStatus precision (dir (outputPath n)) combo config = none ∧
        ∃ f, dir (samplesPath n) = some f := by
  unfold completedResultStatus
  cases resultStatus precision (dir (outputPath n)) combo config with
  | some reason => simp
  | none => cases dir (samplesPath n) <;> simp [hlog]

lemma Completable.isResult {n : String} {file : Option File} (h : Completable configs n file) :
    ∃ f r, file = some f ∧ f.contents = .result r := by
  obtain ⟨config, -, precision, -, combo, -, -, hstatus⟩ := h
  obtain ⟨f, r, hf, hr, -⟩ := resultStatus_none hstatus
  exact ⟨f, r, hf, hr⟩

lemma not_completable_none (n : String) : ¬ Completable configs n none := by
  rintro h
  obtain ⟨f, r, hf, -⟩ := h.isResult
  cases hf

/-- A result that passes its checks has the writer of the samples next to it. -/
def Paired (configs : Set ExperimentConfig) (dir : Dir) : Prop :=
  ∀ n result samples, dir (outputPath n) = some result → dir (samplesPath n) = some samples →
    Completable configs n (some result) → result.writtenBy = samples.writtenBy

lemma Paired.consistent {dir : Dir} (h : Paired configs dir) : Consistent configs dir := by
  intro config hconfig precision hlog combo hcombo hstatus
  obtain ⟨hresult, samples, hsamples⟩ := (completedResultStatus_eq_none hlog).mp hstatus
  obtain ⟨result, -, hfile, -⟩ := resultStatus_none hresult
  refine ⟨result, samples, hfile, hsamples, ?_⟩
  exact h _ result samples hfile hsamples
    ⟨config, hconfig, precision, hlog, combo, hcombo, rfl, hfile ▸ hresult⟩

/-- What holds of an execution between its file operations. Up to the replacement of the samples
the old result is no good; from then on the samples are its own unless its result fails
the checks. -/
structure ExecOk (configs : Set ExperimentConfig) (dir : Dir) (x : Execution) : Prop where
  early : x.phase = .openSamples ∨ x.phase = .dumpSamples ∨ x.phase = .replaceSamples →
    ¬ Completable configs x.runName (dir (outputPath x.runName))
  late : x.phase = .openResult ∨ x.phase = .dumpResult ∨ x.phase = .replaceResult →
    Completable configs x.runName (some ⟨.result x.result, x.id⟩) →
    ∀ f, dir (samplesPath x.runName) = some f → f.writtenBy = x.id
  tmpSamples : x.phase = .replaceSamples →
    ∀ f, dir (samplesPath x.runName).tmpPath = some f → f = ⟨.samples, x.id⟩
  tmpResult : x.phase = .replaceResult →
    ∀ f, dir (outputPath x.runName).tmpPath = some f → f = ⟨.result x.result, x.id⟩
  other : ∀ n, n ++ "_samples" = x.runName → ¬ Completable configs n (dir (outputPath n))

structure SweepOk (configs : Set ExperimentConfig) (s : Sweep) : Prop where
  paired : Paired configs s.dir
  current : ∀ p, s.process = some p → ∀ x, p.current = some x → ExecOk configs s.dir x

/-- Every file of `dir'` is one of `dir`. -/
def Dir.Sub (dir' dir : Dir) : Prop := ∀ p f, dir' p = some f → dir p = some f

lemma Dir.put_none_sub (dir : Dir) (p : Path) : (dir.put p none).Sub dir := by
  intro q f h
  by_cases hq : q = p
  · simp [hq] at h
  · rwa [Dir.put_of_ne dir none hq] at h

lemma Paired.sub {dir dir' : Dir} (h : Paired configs dir) (hsub : dir'.Sub dir) : Paired configs dir' :=
  fun n result samples hr hs => h n result samples (hsub _ _ hr) (hsub _ _ hs)

lemma Dir.Sub.not_completable {dir dir' : Dir} (hsub : dir'.Sub dir) {n : String} {p : Path}
    (h : ¬ Completable configs n (dir p)) : ¬ Completable configs n (dir' p) := by
  intro hcompletable
  cases hfile : dir' p with
  | none => exact not_completable_none n (hfile ▸ hcompletable)
  | some f => exact h (by rwa [hsub _ _ hfile, ← hfile])

lemma ExecOk.sub {dir dir' : Dir} {x : Execution} (h : ExecOk configs dir x)
    (hsub : dir'.Sub dir) : ExecOk configs dir' x where
  early hphase := hsub.not_completable (h.early hphase)
  late hphase hre f hf := h.late hphase hre f (hsub _ _ hf)
  tmpSamples hphase f hf := h.tmpSamples hphase f (hsub _ _ hf)
  tmpResult hphase f hf := h.tmpResult hphase f (hsub _ _ hf)
  other n hn := hsub.not_completable (h.other n hn)

lemma SweepOk.delete {s : Sweep} (h : SweepOk configs s) (p : Path) :
    SweepOk configs { s with dir := s.dir.put p none } where
  paired := h.paired.sub (Dir.put_none_sub _ _)
  current q hq x hx := (h.current q hq x hx).sub (Dir.put_none_sub _ _)

/-- Writing a temporary file changes no result and no samples file. -/
lemma put_tmp_outputPath (dir : Dir) (p : Path) (f : Option File) (n : String) :
    dir.put p.tmpPath f (outputPath n) = dir (outputPath n) :=
  Dir.put_of_ne dir f (tmpPath_ne_outputPath p n)

lemma put_tmp_samplesPath (dir : Dir) (p : Path) (f : Option File) (n : String) :
    dir.put p.tmpPath f (samplesPath n) = dir (samplesPath n) :=
  Dir.put_of_ne dir f (tmpPath_ne_samplesPath p n)

lemma not_completable_put_tmp {dir : Dir} {n : String} (h : ¬ Completable configs n (dir (outputPath n)))
    (p : Path) (f : Option File) : ¬ Completable configs n (dir.put p.tmpPath f (outputPath n)) := by
  rwa [put_tmp_outputPath]

lemma Paired.put_tmp {dir : Dir} (h : Paired configs dir) (p : Path) (f : Option File) :
    Paired configs (dir.put p.tmpPath f) := by
  intro n result samples hr hs
  rw [put_tmp_outputPath] at hr
  rw [put_tmp_samplesPath] at hs
  exact h n result samples hr hs

lemma not_completable_put_samples {dir : Dir} {n n' : String} {id : Nat}
    (h : n' ≠ n → ¬ Completable configs n' (dir (outputPath n')))
    (hself : ¬ Completable configs n (dir (outputPath n))) :
    ¬ Completable configs n' (dir.put (samplesPath n) (some ⟨.samples, id⟩) (outputPath n')) := by
  by_cases hpath : outputPath n' = samplesPath n
  · rw [hpath, Dir.put_self]
    intro hcompletable
    obtain ⟨f, r, hf, hr⟩ := hcompletable.isResult
    rw [← Option.some.inj hf] at hr
    cases hr
  · rw [Dir.put_of_ne _ _ hpath]
    by_cases heq : n' = n
    · exact heq ▸ hself
    · exact h heq

section Advance

variable {dir : Dir} {x : Execution} (hpaired : Paired configs dir) (hx : ExecOk configs dir x)

include hpaired hx in
lemma replaceSamples_paired (hphase : x.phase = .replaceSamples) :
    Paired configs (dir.put (samplesPath x.runName) (some ⟨.samples, x.id⟩)) := by
  intro n result samples hr hs hre
  by_cases heq : n = x.runName
  · subst heq
    rw [Dir.put_of_ne _ _ (samplesPath_ne_outputPath _).symm] at hr
    exact absurd (hr ▸ hre) (hx.early (by simp [hphase]))
  · rw [Dir.put_of_ne _ _ fun h => heq (samplesPath_injective h)] at hs
    by_cases hpath : outputPath n = samplesPath x.runName
    · rw [hpath, Dir.put_self, Option.some.injEq] at hr
      obtain ⟨f, r, hf, hcontents⟩ := hre.isResult
      rw [← Option.some.inj hf, ← hr] at hcontents
      cases hcontents
    · rw [Dir.put_of_ne _ _ hpath] at hr
      exact hpaired n result samples hr hs hre

include hpaired hx in
lemma replaceResult_paired (hphase : x.phase = .replaceResult) :
    Paired configs (dir.put (outputPath x.runName) (some ⟨.result x.result, x.id⟩)) := by
  intro n result samples hr hs hre
  by_cases heq : n = x.runName
  · subst heq
    rw [Dir.put_self, Option.some.injEq] at hr
    subst hr
    rw [Dir.put_of_ne _ _ (samplesPath_ne_outputPath _)] at hs
    exact (hx.late (by simp [hphase]) hre samples hs).symm
  · rw [Dir.put_of_ne _ _ fun h => heq (outputPath_injective h)] at hr
    by_cases hpath : samplesPath n = outputPath x.runName
    · exact absurd (hr ▸ hre) (hx.other n (congrArg Path.stem hpath))
    · rw [Dir.put_of_ne _ _ hpath] at hs
      exact hpaired n result samples hr hs hre

include hpaired hx in
/-- A file operation of a run keeps the pairs and what holds of the run. -/
lemma advance_ok : Paired configs (x.advance dir).1 ∧
    ∀ y, (x.advance dir).2 = some y → ExecOk configs (x.advance dir).1 y := by
  unfold Execution.advance
  cases hphase : x.phase with
  | openSamples =>
    dsimp only
    refine ⟨hpaired.put_tmp _ _, ?_⟩
    rintro y ⟨⟩
    exact ⟨fun _ => not_completable_put_tmp (hx.early (by simp [hphase])) _ _, by simp, by simp,
      by simp, fun n hn => not_completable_put_tmp (hx.other n hn) _ _⟩
  | dumpSamples =>
    dsimp only
    refine ⟨hpaired.put_tmp _ _, ?_⟩
    rintro y ⟨⟩
    refine ⟨fun _ => not_completable_put_tmp (hx.early (by simp [hphase])) _ _, by simp, ?_,
      by simp, fun n hn => not_completable_put_tmp (hx.other n hn) _ _⟩
    rintro - f hf
    rw [Dir.put_self, Option.some.injEq] at hf
    exact hf.symm
  | replaceSamples =>
    cases htmp : dir (samplesPath x.runName).tmpPath with
    | none => exact ⟨by simpa only [htmp] using hpaired, by simp [htmp]⟩
    | some f =>
      simp only [htmp]
      obtain rfl := hx.tmpSamples hphase f htmp
      have hpaired' := replaceSamples_paired hpaired hx hphase
      refine ⟨hpaired'.put_tmp _ _, ?_⟩
      rintro y ⟨⟩
      refine ⟨by simp, ?_, by simp, by simp, fun n hn => ?_⟩
      · rintro - - g hg
        rw [put_tmp_samplesPath, Dir.put_self, Option.some.injEq] at hg
        exact hg ▸ rfl
      · rw [put_tmp_outputPath]
        exact not_completable_put_samples (fun _ => hx.other n hn) (hx.early (by simp [hphase]))
  | openResult =>
    dsimp only
    refine ⟨hpaired.put_tmp _ _, ?_⟩
    rintro y ⟨⟩
    refine ⟨by simp, ?_, by simp, by simp, fun n hn => not_completable_put_tmp (hx.other n hn) _ _⟩
    rintro - hre f hf
    rw [put_tmp_samplesPath] at hf
    exact hx.late (by simp [hphase]) hre f hf
  | dumpResult =>
    dsimp only
    refine ⟨hpaired.put_tmp _ _, ?_⟩
    rintro y ⟨⟩
    refine ⟨by simp, ?_, by simp, ?_, fun n hn => not_completable_put_tmp (hx.other n hn) _ _⟩
    · rintro - hre f hf
      rw [put_tmp_samplesPath] at hf
      exact hx.late (by simp [hphase]) hre f hf
    · rintro - f hf
      rw [Dir.put_self, Option.some.injEq] at hf
      exact hf.symm
  | replaceResult =>
    cases htmp : dir (outputPath x.runName).tmpPath with
    | none => exact ⟨by simpa only [htmp] using hpaired, by simp [htmp]⟩
    | some f =>
      simp only [htmp]
      obtain rfl := hx.tmpResult hphase f htmp
      exact ⟨(replaceResult_paired hpaired hx hphase).put_tmp _ _, by simp⟩

end Advance

lemma SavesApart.execOk {dir : Dir} {x : Execution} {withSamples : Bool}
    (h : SavesApart configs dir x withSamples)
    (hphase : x.phase = if withSamples then .openSamples else .openResult) : ExecOk configs dir x := by
  cases withSamples with
  | true =>
    simp only [if_true] at hphase
    exact ⟨fun _ => h.result rfl, by simp [hphase], by simp [hphase], by simp [hphase], h.other⟩
  | false =>
    simp only [Bool.false_eq_true, if_false] at hphase
    refine ⟨by simp [hphase], ?_, by simp [hphase], by simp [hphase], h.other⟩
    rintro - hre f hf
    rw [h.samples rfl hre] at hf
    cases hf

/-- The same files, and no execution that is being saved. -/
lemma SweepOk.idle {s s' : Sweep} (h : SweepOk configs s) (hdir : s'.dir = s.dir)
    (hidle : ∀ p, s'.process = some p → p.current = none) : SweepOk configs s' := by
  refine ⟨hdir ▸ h.paired, fun p hp x hx => ?_⟩
  rw [hidle p hp] at hx
  cases hx

lemma start_sweepOk {s s' : Sweep} {config : Config} {overwrite : Bool} {precision : String}
    (hs : SweepOk configs s) (hstep : s.step config (.start overwrite precision) = some s') :
    SweepOk configs s' := by
  simp only [Sweep.step] at hstep
  split at hstep
  · cases hstep
  · obtain rfl := Option.some.inj hstep
    refine hs.idle rfl ?_
    rintro p ⟨⟩
    rfl

lemma goOn_sweepOk {h : History} {e : Event} {s' : Sweep} (hs : SweepOk configs h.sweep)
    (hfresh : StartsFresh configs h (.goOn e)) (hstep : h.sweep.step h.config.toConfig e = some s') :
    SweepOk configs s' := by
  cases e with
  | start overwrite precision => exact start_sweepOk hs hstep
  | skip | benchmarkFails =>
    simp only [Sweep.step] at hstep
    split at hstep
    · split_ifs at hstep
      obtain rfl := Option.some.inj hstep
      refine hs.idle rfl ?_
      rintro p ⟨⟩
      rfl
    · cases hstep
  | benchmarkReturns evaluate =>
    simp only [Sweep.step] at hstep
    split at hstep
    · rename_i precision item plan hproc
      by_cases hskip : item.skip = true
      · simp [hskip] at hstep
      rw [if_neg hskip] at hstep
      obtain rfl := Option.some.inj hstep
      refine ⟨hs.paired, ?_⟩
      rintro p ⟨⟩ x ⟨⟩
      exact (hfresh _ hproc item rfl).execOk rfl
    · cases hstep
  | fileOperation =>
    simp only [Sweep.step] at hstep
    split at hstep
    · rename_i precision plan x hproc
      obtain rfl := Option.some.inj hstep
      obtain ⟨hpaired, hcurrent⟩ := advance_ok hs.paired (hs.current _ hproc x rfl)
      refine ⟨hpaired, ?_⟩
      rintro p ⟨⟩
      exact hcurrent
    · cases hstep
  | savingFails =>
    simp only [Sweep.step] at hstep
    split at hstep
    · obtain rfl := Option.some.inj hstep
      refine hs.idle rfl ?_
      rintro p ⟨⟩
      rfl
    · cases hstep
  | stop =>
    simp only [Sweep.step] at hstep
    split at hstep
    · obtain rfl := Option.some.inj hstep
      exact hs.idle rfl (by simp)
    · cases hstep
  | delete p =>
    obtain rfl := Option.some.inj hstep
    exact hs.delete p

/-- In every state reached by saving executions only where their files are mixed with no others,
a combination reported as complete has its two files from one execution. -/
theorem consistent_of_startsFresh (configs : Set ExperimentConfig) (h : History)
    (hreached : Reached (· = History.initial) (StartsFresh configs) (fun h a h' => h.step a = some h') h) :
    Consistent configs h.sweep.dir := by
  have hok : SweepOk configs h.sweep := by
    refine Reached.invariant (I := fun h => SweepOk configs h.sweep) ?_ ?_ hreached
    · rintro _ rfl
      refine ⟨?_, by rintro p ⟨⟩⟩
      rintro n result samples ⟨⟩
    · rintro h a h' hs hfresh hstep
      cases a with
      | invoke config overwrite precision =>
        obtain ⟨s, hstart, rfl⟩ := Option.map_eq_some_iff.mp hstep
        exact start_sweepOk hs hstart
      | goOn e =>
        cases e with
        | start => cases hstep
        | _ =>
          simp only [History.step] at hstep
          split_ifs at hstep
          obtain ⟨s, hgoes, rfl⟩ := Option.map_eq_some_iff.mp hstep
          exact goOn_sweepOk hs hfresh hgoes
  exact hok.paired.consistent

/-- One task with samples and no sweep: the run is called `cutlass`. -/
def oneRun : ExperimentConfig := { tasks := some ["arc_easy"], logSamples := true }

/-- The file operations of an execution with samples, and the end of its invocation. -/
def savedRun : List Action :=
  [.goOn .fileOperation, .goOn .fileOperation, .goOn .fileOperation, .goOn .fileOperation,
    .goOn .fileOperation, .goOn .fileOperation, .goOn .stop]

/-- The state before the benchmark of the first invocation returns. -/
def firstInvocation : History :=
  ⟨⟨fun _ => none, 0, some ⟨"fp8", [⟨[], "cutlass", false⟩], none⟩⟩, oneRun, .fp8, []⟩

/-- A complete first invocation: its result is reported as complete and the theorem pairs
the two files. -/
theorem consistent_first_invocation :
    ∃ h, Reached (· = History.initial) (StartsFresh {oneRun}) (fun h a h' => h.step a = some h') h ∧
      completedResultStatus "fp8" h.sweep.dir "cutlass" [] oneRun.toConfig = none ∧
      Consistent {oneRun} h.sweep.dir := by
  have hsome : ((runEvents History.step firstInvocation
      (.goOn (.benchmarkReturns fun _ => .evaluated true) :: savedRun)).map fun h =>
        completedResultStatus "fp8" h.sweep.dir "cutlass" [] oneRun.toConfig) = some none := by
    decide +kernel
  obtain ⟨h, hrun, hstatus⟩ := Option.map_eq_some_iff.mp hsome
  obtain ⟨h₁, hreturns, hsaved⟩ := Option.bind_eq_some_iff.mp hrun
  have hfresh : StartsFresh {oneRun} firstInvocation (.goOn (.benchmarkReturns fun _ => .evaluated true)) := by
    rintro p ⟨⟩ item -
    exact ⟨fun _ => not_completable_none _, fun _ _ => rfl, fun _ _ => not_completable_none _⟩
  have hbefore : Reached (· = History.initial) (StartsFresh {oneRun}) (fun h a h' => h.step a = some h')
      firstInvocation := .step (e := .invoke oneRun false .fp8) (.start rfl) trivial rfl
  have hreached := (hbefore.step hfresh hreturns).of_runEvents (by simp [savedRun, StartsFresh])
    hsaved
  exact ⟨h, hreached, hstatus, consistent_of_startsFresh {oneRun} h hreached⟩

/-- A complete invocation, then one with `--overwrite` that stops after it has replaced the
samples file. -/
def stoppedOverwrite : List Action :=
  [.invoke oneRun false .fp8, .goOn (.benchmarkReturns fun _ => .evaluated true)] ++ savedRun ++
    [.invoke oneRun true .fp8, .goOn (.benchmarkReturns fun _ => .evaluated true),
      .goOn .fileOperation, .goOn .fileOperation, .goOn .fileOperation, .goOn .stop]

/-- The new samples lie next to the old result, which is still reported as complete. -/
theorem not_consistent_stopped_overwrite :
    ∃ h, HistoryReached h ∧ ¬ Consistent {oneRun} h.sweep.dir := by
  have hsome : ((runEvents History.step .initial stoppedOverwrite).map fun h =>
      (completedResultStatus "fp8" h.sweep.dir "cutlass" [] oneRun.toConfig,
        (h.sweep.dir (outputPath "cutlass")).map File.writtenBy,
        (h.sweep.dir (samplesPath "cutlass")).map File.writtenBy)) =
      some (none, some 0, some 1) := by decide +kernel
  obtain ⟨h, hrun, hfiles⟩ := Option.map_eq_some_iff.mp hsome
  simp only [Prod.mk.injEq] at hfiles
  obtain ⟨hstatus, hresult, hsamples⟩ := hfiles
  refine ⟨h, Reached.of_runEvents (.start rfl) (by simp) hrun, fun hcons => ?_⟩
  obtain ⟨result, samples, hr, hs, hsame⟩ := hcons oneRun rfl .fp8 rfl [] (by decide +kernel) hstatus
  change h.sweep.dir (outputPath "cutlass") = _ at hr
  change h.sweep.dir (samplesPath "cutlass") = _ at hs
  rw [hr] at hresult
  rw [hs] at hsamples
  simp only [Option.map_some, Option.some.injEq] at hresult hsamples
  omega

end Artifact
