import Mathlib.Data.Rat.Defs
import VllmMmaEmu.Artifact.RunExperiment
import VllmMmaEmu.Library.Dict
import VllmMmaEmu.Library.Runs

/-!
# Resuming a sweep after its configuration has changed

The config file may be another one at every invocation. A log next to the files holds, for
each execution of `run_single_combination`, the configuration it ran with. A kept result was
written by an execution of the same precision and the same sweep parameters; the rest of the
emulation settings, the model and the vLLM settings are those of that execution.
-/

namespace Artifact

open Python Runs

/-- The keys of `PRECISION_CONFIG`. -/
inductive Precision where
  | fp8
  | nvfp4
  deriving DecidableEq

def Precision.key : Precision → String
  | .fp8 => "fp8"
  | .nvfp4 => "nvfp4"

/-- `_pconfig["default_model"]`. -/
def Precision.defaultModel : Precision → String
  | .fp8 => "nvidia/Llama-3.1-8B-Instruct-FP8"
  | .nvfp4 => "nvidia/Llama-3.1-8B-Instruct-NVFP4"

lemma Precision.key_injective {p p' : Precision} (h : p.key = p'.key) : p = p' := by
  cases p <;> cases p' <;> simp_all [Precision.key]

/-- A value of the `mma_emu` block. -/
inductive EmuValue where
  | null
  | bool (b : Bool)
  | param (v : ParamValue)
  deriving DecidableEq

def EmuValue.truthy : EmuValue → Bool
  | .null => false
  | .bool b => b
  | .param (.int i) => i ≠ 0
  | .param (.str s) => s ≠ ""

def EmuValue.text : EmuValue → String
  | .null => "None"
  | .bool b => if b then "True" else "False"
  | .param v => v.text

/-- A value of the `vllm` block. -/
inductive VllmValue where
  | null
  | bool (b : Bool)
  | int (i : Int)
  | float (x : ℚ)
  | str (s : String)
  deriving DecidableEq

/-- `VLLM_CONFIG`. -/
def vllmDefaults : Dict String VllmValue :=
  .ofPairs [("max_model_len", .int 16384), ("gpu_memory_utilization", .float (7 / 10)),
    ("tensor_parallel_size", .int 1), ("enforce_eager", .bool false),
    ("kv_cache_dtype", .str "auto"), ("batch_size", .str "auto"), ("max_num_seqs", .null)]

/-- `config.yaml` with the blocks that a run reads. -/
structure ExperimentConfig where
  runName : Option String := none
  mmaEmu : Dict String EmuValue := .empty
  model : Option String := none
  tasks : Option (List String) := none
  logSamples : Bool := false
  vllm : Dict String VllmValue := .empty
  sweep : List (String × List ParamValue) := []

/-- `emu.get("enabled", False)`. -/
def emuEnabled (emu : Dict String EmuValue) : Bool :=
  ((emu.get? "enabled").map EmuValue.truthy).getD false

/-- What the naming of runs and the checks of `completed_result_status` read. -/
def ExperimentConfig.toConfig (config : ExperimentConfig) : Config where
  runName := config.runName
  emuEnabled := Artifact.emuEnabled config.mmaEmu
  algorithm := (config.mmaEmu.get? "algorithm").map EmuValue.text
  tasks := config.tasks.getD ["wikitext"]
  logSamples := config.logSamples
  sweep := config.sweep

/-- `{**base, **updates}`. -/
def mergeDict {V : Type} (base : Dict String V) (updates : List (String × V)) : Dict String V :=
  updates.foldl (fun d p => d.set p.1 p.2) base

/-- `mma_emu` with the sweep parameters over it. -/
def emuConfig (config : ExperimentConfig) (combo : Combo) : Dict String EmuValue :=
  mergeDict config.mmaEmu (combo.map fun p => (p.1, .param p.2))

/-- What `run_single_combination` runs with. -/
structure RunSettings where
  emuConfig : Dict String EmuValue
  model : String
  vllmConfig : Dict String VllmValue
  deriving DecidableEq

def runSettings (config : ExperimentConfig) (precision : Precision) (combo : Combo) :
    RunSettings where
  emuConfig := Artifact.emuConfig config combo
  model := config.model.getD precision.defaultModel
  vllmConfig := mergeDict vllmDefaults config.vllm.entries

/-- `export_mma_emu_to_env` raises: an emulated run that names no algorithm. -/
def exportRaises (emu : Dict String EmuValue) : Bool :=
  emuEnabled emu && (emu.get? "algorithm").isNone

/-- A swept parameter has its swept value, whatever the base settings are. -/
lemma get?_emuConfig_eq (config config' : ExperimentConfig) {combo : Combo} {k : String}
    (hk : k ∈ combo.map Prod.fst) :
    (emuConfig config combo).get? k = (emuConfig config' combo).get? k := by
  have hsome : ∃ q, ((combo.map fun p => (p.1, EmuValue.param p.2)).filter
      fun p => p.1 = k).getLast? = some q := by
    rw [← Option.isSome_iff_exists, List.getLast?_isSome]
    obtain ⟨p, hp, rfl⟩ := List.mem_map.mp hk
    exact List.ne_nil_of_mem (a := (p.1, .param p.2))
      (List.mem_filter.mpr ⟨List.mem_map_of_mem hp, by simp⟩)
  obtain ⟨q, hq⟩ := hsome
  simp only [emuConfig, mergeDict, Dict.get?_foldl_set, hq, Option.map_some, Option.some_or]

/-- One execution of `run_single_combination`: what it was called with, and the result its
benchmark returned. -/
structure LoggedRun where
  config : ExperimentConfig
  precision : Precision
  combo : Combo
  result : Option ResultJson

def LoggedRun.settings (run : LoggedRun) : RunSettings := runSettings run.config run.precision run.combo

/-- The sweep, the configuration and the precision of the latest invocation, and the log of
all executions in the order of their numbers. -/
structure History where
  sweep : Sweep
  config : ExperimentConfig
  precision : Precision
  log : List LoggedRun

inductive Action where
  /-- the runner is invoked on this config file -/
  | invoke (config : ExperimentConfig) (overwrite : Bool) (precision : Precision)
  /-- the invocation goes on -/
  | goOn (e : Event)

/-- The entry of the log that an event adds. -/
def History.executed (h : History) : Event → List LoggedRun
  | .benchmarkFails => match h.sweep.process with
    | some ⟨_, item :: _, _⟩ => [⟨h.config, h.precision, item.combo, none⟩]
    | _ => []
  | .benchmarkReturns evaluate => match h.sweep.process with
    | some ⟨_, item :: _, _⟩ => [⟨h.config, h.precision, item.combo,
        some (resultJson h.config.toConfig h.precision.key item.combo evaluate)⟩]
    | _ => []
  | _ => []

/-- The next combination gets no further than `export_mma_emu_to_env`. -/
def History.raises (h : History) : Event → Bool
  | .benchmarkReturns _ => match h.sweep.process with
    | some ⟨_, item :: _, _⟩ => exportRaises (emuConfig h.config item.combo)
    | _ => false
  | _ => false

/-- One step; `none` when it cannot happen. -/
def History.step (h : History) : Action → Option History
  | .invoke config overwrite precision =>
    (h.sweep.step config.toConfig (.start overwrite precision.key)).map fun s =>
      { h with sweep := s, config := config, precision := precision }
  | .goOn (.start _ _) => none
  | .goOn e =>
    if h.raises e then none
    else (h.sweep.step h.config.toConfig e).map fun s =>
      { h with sweep := s, log := h.log ++ h.executed e }

/-- An empty results directory. -/
def History.initial : History := ⟨.initial, {}, .fp8, []⟩

def HistoryReached : History → Prop :=
  Reached (· = History.initial) (fun _ _ => True) fun h a h' => h.step a = some h'

/-- The execution with this number returned this result. -/
def Wrote (log : List LoggedRun) (id : Nat) (r : ResultJson) : Prop :=
  ∃ run, log[id]? = some run ∧ run.result = some r ∧ r.precision = run.precision.key ∧
    r.sweepParams = run.combo

/-- The result files of the directory satisfy `wrote`. -/
def Signed (wrote : Nat → ResultJson → Prop) (dir : Dir) : Prop :=
  ∀ p f r, dir p = some f → f.contents = .result r → wrote f.writtenBy r

lemma Signed.put {wrote : Nat → ResultJson → Prop} {dir : Dir} (h : Signed wrote dir) {p : Path}
    {f : Option File} (hf : ∀ g r, f = some g → g.contents = .result r → wrote g.writtenBy r) :
    Signed wrote (dir.put p f) := by
  intro q g r hq hg
  by_cases heq : q = p
  · subst heq
    exact hf g r (by simpa using hq) hg
  · rw [Dir.put_of_ne _ _ heq] at hq
    exact h q g r hq hg

lemma Signed.putOther {wrote : Nat → ResultJson → Prop} {dir : Dir} (h : Signed wrote dir)
    {p : Path} {f : File} (hf : ∀ r, f.contents ≠ .result r) :
    Signed wrote (dir.put p (some f)) := by
  refine h.put ?_
  rintro g r ⟨⟩ hr
  exact absurd hr (hf r)

lemma Signed.delete {wrote : Nat → ResultJson → Prop} {dir : Dir} (h : Signed wrote dir)
    (p : Path) : Signed wrote (dir.put p none) := h.put (by simp)

lemma Signed.rename {wrote : Nat → ResultJson → Prop} {dir : Dir} (h : Signed wrote dir)
    {p q : Path} {f : File} (hf : dir q = some f) :
    Signed wrote ((dir.put p (some f)).put q none) :=
  (h.put fun g r hg hr => h q g r (hf.trans hg) hr).delete q

lemma Signed.advance {wrote : Nat → ResultJson → Prop} {dir : Dir} {x : Execution}
    (h : Signed wrote dir) (hx : wrote x.id x.result) :
    Signed wrote (x.advance dir).1 ∧
      ∀ y, (x.advance dir).2 = some y → y.id = x.id ∧ y.result = x.result := by
  unfold Execution.advance
  cases x.phase with
  | openSamples => exact ⟨h.putOther (by simp), by simp +contextual⟩
  | dumpSamples => exact ⟨h.putOther (by simp), by simp +contextual⟩
  | replaceSamples =>
    cases htmp : dir (samplesPath x.runName).tmpPath with
    | none => exact ⟨by simpa [htmp] using h, by simp [htmp]⟩
    | some f => exact ⟨by simpa [htmp] using h.rename htmp, by simp +contextual [htmp]⟩
  | openResult => exact ⟨h.putOther (by simp), by simp +contextual⟩
  | dumpResult =>
    refine ⟨h.put ?_, by simp +contextual⟩
    rintro g r ⟨⟩ ⟨⟩
    exact hx
  | replaceResult =>
    cases htmp : dir (outputPath x.runName).tmpPath with
    | none => exact ⟨by simpa [htmp] using h, by simp [htmp]⟩
    | some f => exact ⟨by simpa [htmp] using h.rename htmp, by simp [htmp]⟩

lemma Wrote.append {log : List LoggedRun} {id : Nat} {r : ResultJson} (h : Wrote log id r)
    (more : List LoggedRun) : Wrote (log ++ more) id r := by
  obtain ⟨run, hrun, hr⟩ := h
  refine ⟨run, ?_, hr⟩
  rw [List.getElem?_append_left (List.getElem?_eq_some_iff.mp hrun).1, hrun]

lemma Signed.append {log : List LoggedRun} {dir : Dir} (h : Signed (Wrote log) dir)
    (more : List LoggedRun) : Signed (Wrote (log ++ more)) dir :=
  fun p f r hf hr => (h p f r hf hr).append more

/-- The log has an entry for every execution, and every result is that of its entry. -/
structure History.Ok (h : History) : Prop where
  counted : h.log.length = h.sweep.executions
  signed : Signed (Wrote h.log) h.sweep.dir
  precision : ∀ p, h.sweep.process = some p → p.precision = h.precision.key
  current : ∀ p, h.sweep.process = some p → ∀ x, p.current = some x →
    Wrote h.log x.id x.result

lemma History.Ok.initial : History.initial.Ok where
  counted := rfl
  signed := by
    intro p f r hf
    simp [History.initial, Sweep.initial] at hf
  precision := by simp [History.initial, Sweep.initial]
  current := by simp [History.initial, Sweep.initial]

lemma History.Ok.logged {h : History} (hok : h.Ok) (run : LoggedRun) {r : ResultJson}
    (hr : run.result = some r) (hp : r.precision = run.precision.key)
    (hc : r.sweepParams = run.combo) : Wrote (h.log ++ [run]) h.sweep.executions r := by
  refine ⟨run, ?_, hr, hp, hc⟩
  rw [← hok.counted, List.getElem?_concat_length]

lemma History.Ok.goOn {h h' : History} (hok : h.Ok) {e : Event}
    (hstep : h.step (.goOn e) = some h') : h'.Ok := by
  cases e with
  | start overwrite precision => simp [History.step] at hstep
  | skip =>
    simp only [History.step, History.raises, Bool.false_eq_true, if_false, Sweep.step,
      Option.map_eq_some_iff] at hstep
    obtain ⟨s, hs, rfl⟩ := hstep
    split at hs
    · rename_i precision item plan hproc
      split_ifs at hs
      obtain rfl := Option.some.inj hs
      refine ⟨by simpa [History.executed] using hok.counted, hok.signed.append _, ?_, ?_⟩
      · rintro p ⟨⟩
        exact (hok.precision _ hproc :)
      · rintro p ⟨⟩
        simp
    · simp at hs
  | benchmarkFails =>
    simp only [History.step, History.raises, Bool.false_eq_true, if_false, Sweep.step,
      Option.map_eq_some_iff] at hstep
    obtain ⟨s, hs, rfl⟩ := hstep
    split at hs
    · rename_i precision item plan hproc
      split_ifs at hs
      obtain rfl := Option.some.inj hs
      refine ⟨by simpa [History.executed, hproc] using hok.counted, hok.signed.append _, ?_, ?_⟩
      · rintro p ⟨⟩
        exact (hok.precision _ hproc :)
      · rintro p ⟨⟩
        simp
    · simp at hs
  | benchmarkReturns evaluate =>
    simp only [History.step] at hstep
    split_ifs at hstep
    simp only [Sweep.step, Option.map_eq_some_iff] at hstep
    obtain ⟨s, hs, rfl⟩ := hstep
    split at hs
    · rename_i precision item plan hproc
      by_cases hskip : item.skip = true
      · simp [hskip] at hs
      rw [if_neg hskip] at hs
      obtain rfl := Option.some.inj hs
      obtain rfl : precision = h.precision.key := hok.precision _ hproc
      refine ⟨by simpa [History.executed, hproc] using hok.counted, hok.signed.append _, ?_, ?_⟩
      · rintro p ⟨⟩
        rfl
      · rintro p ⟨⟩ x ⟨⟩
        simp only [History.executed, hproc]
        exact hok.logged _ rfl rfl rfl
    · simp at hs
  | fileOperation =>
    simp only [History.step, History.raises, Bool.false_eq_true, if_false, Sweep.step,
      Option.map_eq_some_iff] at hstep
    obtain ⟨s, hs, rfl⟩ := hstep
    split at hs
    · rename_i precision plan x hproc
      obtain rfl := Option.some.inj hs
      obtain ⟨hdir, hnext⟩ := hok.signed.advance (hok.current _ hproc x rfl)
      refine ⟨by simpa [History.executed] using hok.counted, hdir.append _, ?_, ?_⟩
      · rintro p ⟨⟩
        exact (hok.precision _ hproc :)
      · rintro p ⟨⟩ y hy
        obtain ⟨hid, hresult⟩ := hnext y hy
        rw [hid, hresult]
        exact (hok.current _ hproc x rfl).append _
    · simp at hs
  | savingFails =>
    simp only [History.step, History.raises, Bool.false_eq_true, if_false, Sweep.step,
      Option.map_eq_some_iff] at hstep
    obtain ⟨s, hs, rfl⟩ := hstep
    split at hs
    · rename_i precision plan x hproc
      obtain rfl := Option.some.inj hs
      refine ⟨by simpa [History.executed] using hok.counted, hok.signed.append _, ?_, ?_⟩
      · rintro p ⟨⟩
        exact (hok.precision _ hproc :)
      · rintro p ⟨⟩
        simp
    · simp at hs
  | stop =>
    simp only [History.step, History.raises, Bool.false_eq_true, if_false, Sweep.step,
      Option.map_eq_some_iff] at hstep
    obtain ⟨s, hs, rfl⟩ := hstep
    split at hs
    · obtain rfl := Option.some.inj hs
      exact ⟨by simpa [History.executed] using hok.counted, hok.signed.append _, by simp, by simp⟩
    · simp at hs
  | delete p =>
    simp only [History.step, History.raises, Bool.false_eq_true, if_false, Sweep.step,
      Option.map_eq_some_iff] at hstep
    obtain ⟨s, hs, rfl⟩ := hstep
    obtain rfl := Option.some.inj hs
    refine ⟨by simpa [History.executed] using hok.counted, (hok.signed.delete p).append _,
      hok.precision, ?_⟩
    intro q hq x hx
    exact (hok.current q hq x hx).append _

lemma History.Ok.step {h h' : History} (hok : h.Ok) {a : Action} (hstep : h.step a = some h') :
    h'.Ok := by
  cases a with
  | goOn e => exact hok.goOn hstep
  | invoke config overwrite precision =>
    simp only [History.step, Sweep.step, Option.map_eq_some_iff] at hstep
    obtain ⟨s, hs, rfl⟩ := hstep
    split at hs
    · simp at hs
    · obtain rfl := Option.some.inj hs
      refine ⟨hok.counted, hok.signed, ?_, ?_⟩
      · rintro p ⟨⟩
        rfl
      · rintro p ⟨⟩
        simp

lemma HistoryReached.ok {h : History} (hreached : HistoryReached h) : h.Ok := by
  refine Reached.invariant ?_ ?_ hreached
  · rintro _ rfl
    exact .initial
  · intro h a h' hok _ hstep
    exact hok.step hstep

deriving instance DecidableEq for PlanItem

/-- A result that passes the checks is for this precision and this combination, and no task
of the configuration is missing or failed. -/
lemma resultStatus_none {precision : String} {file : Option File} {combo : Combo}
    {config : Config} (h : resultStatus precision file combo config = none) :
    ∃ f r, file = some f ∧ f.contents = .result r ∧ r.precision = precision ∧
      r.sweepParams = combo ∧ ∀ k ∈ wantedTasks config, taskError r.tasks k = some false := by
  cases file with
  | none => simp [resultStatus] at h
  | some f =>
    cases hf : f.contents with
    | unreadable => simp [resultStatus, hf] at h
    | samples => simp [resultStatus, hf] at h
    | result r =>
      simp only [resultStatus, hf] at h
      split_ifs at h with hprecision hcombo hmissing hfailed
      rw [not_not] at hprecision hcombo hmissing hfailed
      rw [List.filter_eq_nil_iff] at hmissing hfailed
      refine ⟨f, r, rfl, hf, hprecision, hcombo, fun k hk => ?_⟩
      have hpresent := hmissing k hk
      have hgood := hfailed k hk
      cases herror : taskError r.tasks k with
      | none => simp [herror] at hpresent
      | some b => cases b <;> simp_all

/-- The kept file of a run name holds the result `r`, which the execution `run` returned. -/
structure Kept (h : History) (runName : String) (run : LoggedRun) (r : ResultJson) : Prop where
  file : ∃ f, h.sweep.dir (outputPath runName) = some f ∧ f.contents = .result r ∧
    h.log[f.writtenBy]? = some run
  returned : run.result = some r

lemma Kept.settings_of_log {h : History} {runName : String} {run : LoggedRun} {r : ResultJson}
    (hkept : Kept h runName run r) {settings : RunSettings}
    (hlog : h.log.map LoggedRun.settings = [settings]) : run.settings = settings := by
  obtain ⟨f, -, -, hrun⟩ := hkept.file
  have hmem : run.settings ∈ h.log.map LoggedRun.settings :=
    List.mem_map_of_mem (List.mem_of_getElem? hrun)
  rw [hlog] at hmem
  exact List.mem_singleton.mp hmem

/-- The settings that no check compares are the same in the two configurations. -/
structure SameBase (config config' : ExperimentConfig) : Prop where
  mmaEmu : config.mmaEmu = config'.mmaEmu
  model : config.model = config'.model
  vllm : config.vllm = config'.vllm

lemma SameBase.runSettings {config config' : ExperimentConfig} (h : SameBase config config')
    (precision : Precision) (combo : Combo) :
    runSettings config precision combo = runSettings config' precision combo := by
  simp only [Artifact.runSettings, emuConfig, h.mmaEmu, h.model, h.vllm]

/-- A skipped combination keeps a result of its own precision and sweep parameters, with
every known task and no error; the settings that are not swept are those of the execution
that wrote it. -/
theorem skipped_keeps (h : History) (hreached : HistoryReached h) (config : ExperimentConfig)
    (overwrite : Bool) (precision : Precision) (item : PlanItem)
    (hitem : item ∈ mainPlan config.toConfig overwrite precision.key h.sweep.dir)
    (hskip : item.skip = true) :
    ∃ run r, Kept h item.runName run r ∧ run.precision = precision ∧ run.combo = item.combo ∧
      (∀ k ∈ item.combo.map Prod.fst, run.settings.emuConfig.get? k =
        (runSettings config precision item.combo).emuConfig.get? k) ∧
      (∀ k ∈ wantedTasks config.toConfig, taskError r.tasks k = some false) ∧
      (SameBase run.config config → run.settings = runSettings config precision item.combo) := by
  obtain ⟨combo, -, rfl⟩ := List.mem_map.mp hitem
  simp only [Bool.and_eq_true, Option.isNone_iff_eq_none] at hskip
  have hstatus := hskip.2
  have hnone : resultStatus precision.key (h.sweep.dir (outputPath (getRunName combo
      config.toConfig))) combo config.toConfig = none := by
    unfold completedResultStatus at hstatus
    split at hstatus
    · simp at hstatus
    · assumption
  obtain ⟨f, r, hf, hr, hprecision, hcombo, htasks⟩ := resultStatus_none hnone
  obtain ⟨run, hrun, hreturned, hp, hc⟩ := hreached.ok.signed _ f r hf hr
  have hsame : run.precision = precision := Precision.key_injective (hp.symm.trans hprecision)
  have hsweep : run.combo = combo := hc.symm.trans hcombo
  refine ⟨run, r, ⟨⟨f, hf, hr, hrun⟩, hreturned⟩, hsame, hsweep, ?_, htasks, ?_⟩
  · intro k hk
    rw [LoggedRun.settings, hsweep]
    exact get?_emuConfig_eq run.config config hk
  · intro hbase
    rw [LoggedRun.settings, hsame, hsweep]
    exact hbase.runSettings precision combo

/-- One emulated run without a sweep, called `emulated_gdfs`. -/
def gdfsConfig (fBits : Int) : ExperimentConfig where
  mmaEmu := .ofPairs [("enabled", .bool true), ("algorithm", .param (.str "gdfs")),
    ("f_bits", .param (.int fBits))]
  tasks := some ["arc_easy"]

/-- A complete invocation of a configuration with one combination. -/
def completeInvocation (config : ExperimentConfig) : List Action :=
  [.invoke config false .fp8, .goOn (.benchmarkReturns fun _ => .evaluated true),
    .goOn .fileOperation, .goOn .fileOperation, .goOn .fileOperation, .goOn .stop]

/-- The history of that invocation, as far as the next plan depends on it. -/
lemma completeInvocation_run (fBits : Int) (hf : fBits = 13 ∨ fBits = 25) :
    ∃ h, HistoryReached h ∧
      (⟨[], "emulated_gdfs", true⟩ : PlanItem) ∈
        mainPlan (gdfsConfig fBits).toConfig false "fp8" h.sweep.dir ∧
      h.log.map LoggedRun.settings = [runSettings (gdfsConfig 13) .fp8 []] := by
  have hsome : ((runEvents History.step .initial (completeInvocation (gdfsConfig 13))).map
      fun h => (decide ((⟨[], "emulated_gdfs", true⟩ : PlanItem) ∈
        mainPlan (gdfsConfig fBits).toConfig false "fp8" h.sweep.dir),
          h.log.map LoggedRun.settings)) =
      some (true, [runSettings (gdfsConfig 13) .fp8 []]) := by
    rcases hf with rfl | rfl <;> decide +kernel
  obtain ⟨h, hrun, hview⟩ := Option.map_eq_some_iff.mp hsome
  simp only [Prod.mk.injEq, decide_eq_true_eq] at hview
  exact ⟨h, Reached.of_runEvents (.start rfl) (by simp) hrun, hview⟩

/-- Invoked again on its own configuration, the combination is skipped and keeps its result. -/
theorem skipped_keeps_own_result :
    ∃ h run r, HistoryReached h ∧ Kept h "emulated_gdfs" run r ∧
      run.settings = runSettings (gdfsConfig 13) .fp8 [] ∧
      taskError r.tasks "arc_easy" = some false := by
  obtain ⟨h, hreached, hitem, hlog⟩ := completeInvocation_run 13 (.inl rfl)
  obtain ⟨run, r, hkept, -, -, -, htasks, -⟩ :=
    skipped_keeps h hreached (gdfsConfig 13) false .fp8 _ hitem rfl
  exact ⟨h, run, r, hreached, hkept, hkept.settings_of_log hlog, htasks _ (by decide +kernel)⟩

/-- What the resume is expected to keep. -/
def KeepsOwnSettings (h : History) (config : ExperimentConfig) (precision : Precision) : Prop :=
  ∀ item ∈ mainPlan config.toConfig false precision.key h.sweep.dir, item.skip = true →
    ∃ run r, Kept h item.runName run r ∧
      run.settings = runSettings config precision item.combo ∧
      ∀ k ∈ wantedTasks config.toConfig, taskError r.tasks k = some false

/-- With 13 fraction bits in the first config file and 25 in the second, the second
invocation keeps the first one's result. -/
theorem not_keepsOwnSettings_other_f_bits :
    ¬ ∀ h, HistoryReached h → ∀ config precision, KeepsOwnSettings h config precision := by
  intro hall
  obtain ⟨h, hreached, hitem, hlog⟩ := completeInvocation_run 25 (.inr rfl)
  obtain ⟨run, r, hkept, hsettings, -⟩ := hall h hreached (gdfsConfig 25) .fp8 _ hitem rfl
  rw [hkept.settings_of_log hlog] at hsettings
  exact absurd hsettings (by decide +kernel)

end Artifact
