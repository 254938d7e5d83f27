import VllmMmaEmu.Library.Python

/-!
# The resumable sweep of an experiment

`artifact/scripts/run_experiment.py`: `main` decides which combinations still need to run,
runs them one after the other, and each run replaces its samples file and its result file
through temporary files. The model has one step for every point at which a run can stop.
A file carries the number of the execution of `run_single_combination` that wrote it.
-/

namespace Artifact

inductive ParamValue where
  | int (i : Int)
  | str (s : String)
  deriving DecidableEq, Repr

def ParamValue.text : ParamValue → String
  | .int i => toString i
  | .str s => s

/-- The sweep parameters of one run, in the order of the config. -/
abbrev Combo := List (String × ParamValue)

/-- The parts of `config.yaml` that decide what runs and where it is written. -/
structure Config where
  runName : Option String := none
  emuEnabled : Bool := false
  algorithm : Option String := none
  tasks : List String := ["wikitext"]
  logSamples : Bool := false
  sweep : List (String × List ParamValue) := []

/-- The keys of `TASKS`. -/
def taskKeys : List String :=
  ["wikitext", "lambada_openai", "arc_challenge", "arc_easy", "piqa", "winogrande",
    "gsm8k_cot", "humaneval_instruct"]

/-- Whether the key reads `<base>-<N>` with a known base. -/
def isLimitedTask (key : List Char) : Bool :=
  let limit := (key.reverse.takeWhile fun c => c ≠ '-')
  let base := (key.reverse.dropWhile fun c => c ≠ '-').drop 1
  limit ≠ [] && limit.all Char.isDigit && taskKeys.any fun k => k.toList = base.reverse

/-- `resolve_task_config(key) is not None`. -/
def resolvesTask (key : String) : Bool := taskKeys.contains key || isLimitedTask key.toList

/-- `generate_sweep_combinations`: the last parameter varies fastest. -/
def generateSweepCombinations (config : Config) : List Combo :=
  config.sweep.foldr (fun (name, values) rest =>
    values.flatMap fun value => rest.map ((name, value) :: ·)) [[]]

/-- The part of a run name that one sweep parameter gives. -/
def runNamePart : String × ParamValue → String
  | ("f_bits", value) => "f" ++ value.text
  | ("g_bits", value) => "g" ++ value.text
  | ("group_size", value) => "gs" ++ value.text
  | ("chunk_size", value) => "cs" ++ value.text
  | ("algorithm", value) => value.text
  | (key, value) => key ++ "_" ++ value.text

def getRunName (combo : Combo) (config : Config) : String :=
  if combo = [] then
    match config.runName with
    | some name => name
    | none =>
      if config.emuEnabled then "emulated_" ++ config.algorithm.getD "unknown" else "cutlass"
  else "_".intercalate (combo.map runNamePart)

/-- `<stem>.json` in the results directory, or the temporary file of it. -/
structure Path where
  stem : String
  tmp : Bool := false
  deriving DecidableEq

def outputPath (runName : String) : Path := ⟨runName, false⟩

def samplesPath (runName : String) : Path := ⟨runName ++ "_samples", false⟩

def Path.tmpPath (p : Path) : Path := { p with tmp := true }

/-- The fields of a result that decide whether it is complete; a task comes with whether
its record holds an error. -/
structure ResultJson where
  precision : String
  sweepParams : Combo
  tasks : List (String × Bool)
  deriving DecidableEq

inductive Contents where
  | result (r : ResultJson)
  | samples
  | unreadable
  deriving DecidableEq

structure File where
  contents : Contents
  writtenBy : Nat
  deriving DecidableEq

abbrev Dir := Path → Option File

def Dir.put (dir : Dir) (p : Path) (f : Option File) : Dir :=
  fun q => if q = p then f else dir q

@[simp] lemma Dir.put_self (dir : Dir) (p : Path) (f : Option File) : dir.put p f p = f := by
  simp [Dir.put]

lemma Dir.put_of_ne (dir : Dir) {p q : Path} (f : Option File) (h : q ≠ p) :
    dir.put p f q = dir q := by
  simp [Dir.put, h]

/-- The task keys a result is expected to hold. -/
def wantedTasks (config : Config) : List String := config.tasks.filter resolvesTask

def taskError (tasks : List (String × Bool)) (key : String) : Option Bool :=
  (tasks.find? fun t => t.1 = key).map Prod.snd

/-- The checks of `completed_result_status` on the result file. -/
def resultStatus (precision : String) (file : Option File) (combo : Combo) (config : Config) :
    Option String :=
  match file with
  | none => some "no result yet"
  | some file => match file.contents with
    | .unreadable => some "result JSON is unreadable"
    | .samples => some "result is for precision None"
    | .result r =>
      if r.precision ≠ precision then some ("result is for precision '" ++ r.precision ++ "'")
      else if r.sweepParams ≠ combo then some "result has different sweep parameters"
      else
        let missing := (wantedTasks config).filter fun k => (taskError r.tasks k).isNone
        let failed := (wantedTasks config).filter fun k => taskError r.tasks k = some true
        if missing ≠ [] then
          some ("result is missing task(s): " ++ ", ".intercalate missing)
        else if failed ≠ [] then
          some ("task(s) failed in the earlier run: " ++ ", ".intercalate failed)
        else none

/-- `completed_result_status`: why a result cannot be reused, or `none`. -/
def completedResultStatus (precision : String) (dir : Dir) (runName : String) (combo : Combo)
    (config : Config) : Option String :=
  match resultStatus precision (dir (outputPath runName)) combo config with
  | some reason => some reason
  | none =>
    if config.logSamples ∧ dir (samplesPath runName) = none then some "samples file is missing"
    else none

/-- What evaluating a task gives: an error, or metrics with the samples `lm_eval` returned. -/
inductive TaskRecord where
  | failed
  | evaluated (samples : Bool)
  deriving DecidableEq

/-- `results["tasks"]` of a benchmark that evaluated every known task. -/
def benchmarkTasks (config : Config) (evaluate : String → TaskRecord) :
    List (String × TaskRecord) :=
  (wantedTasks config).map fun k => (k, evaluate k)

/-- `samples_data` is not empty. -/
def hasSamples (config : Config) (evaluate : String → TaskRecord) : Bool :=
  config.logSamples && (benchmarkTasks config evaluate).any fun t => t.2 = .evaluated true

/-- The result as it is saved. -/
def resultJson (config : Config) (precision : String) (combo : Combo)
    (evaluate : String → TaskRecord) : ResultJson where
  precision := precision
  sweepParams := combo
  tasks := (benchmarkTasks config evaluate).map fun t => (t.1, decide (t.2 = .failed))

/-- How far the saving of a run has come: each value names the file operation to do next. -/
inductive Phase where
  | openSamples
  | dumpSamples
  | replaceSamples
  | openResult
  | dumpResult
  | replaceResult
  deriving DecidableEq

/-- A run whose benchmark has returned and whose files are being written. -/
structure Execution where
  id : Nat
  runName : String
  result : ResultJson
  phase : Phase

/-- One file operation of `write_json_atomic`; the run is over when no execution is left.
Replacing a temporary file that is gone raises, which ends the saving. -/
def Execution.advance (x : Execution) (dir : Dir) : Dir × Option Execution :=
  let samples := samplesPath x.runName
  let output := outputPath x.runName
  match x.phase with
  | .openSamples =>
    (dir.put samples.tmpPath (some ⟨.unreadable, x.id⟩), some { x with phase := .dumpSamples })
  | .dumpSamples =>
    (dir.put samples.tmpPath (some ⟨.samples, x.id⟩), some { x with phase := .replaceSamples })
  | .replaceSamples => match dir samples.tmpPath with
    | none => (dir, none)
    | some f =>
      ((dir.put samples (some f)).put samples.tmpPath none, some { x with phase := .openResult })
  | .openResult =>
    (dir.put output.tmpPath (some ⟨.unreadable, x.id⟩), some { x with phase := .dumpResult })
  | .dumpResult =>
    (dir.put output.tmpPath (some ⟨.result x.result, x.id⟩),
      some { x with phase := .replaceResult })
  | .replaceResult => match dir output.tmpPath with
    | none => (dir, none)
    | some f => ((dir.put output (some f)).put output.tmpPath none, none)

/-- An entry of the plan of `main`. -/
structure PlanItem where
  combo : Combo
  runName : String
  skip : Bool

/-- An invocation: the precision it runs with, the rest of its plan and the run that is
saving its files. -/
structure Process where
  precision : String
  plan : List PlanItem
  current : Option Execution

structure Sweep where
  dir : Dir
  executions : Nat
  process : Option Process

/-- No result yet and nothing running. -/
def Sweep.initial : Sweep := ⟨fun _ => none, 0, none⟩

/-- The plan is decided before anything runs. -/
def mainPlan (config : Config) (overwrite : Bool) (precision : String) (dir : Dir) :
    List PlanItem :=
  (generateSweepCombinations config).map fun combo =>
    let runName := getRunName combo config
    { combo := combo
      runName := runName
      skip := !overwrite && (completedResultStatus precision dir runName combo config).isNone }

inductive Event where
  /-- the runner is invoked -/
  | start (overwrite : Bool) (precision : String)
  /-- the next combination of the plan is skipped -/
  | skip
  /-- the next combination's benchmark raises -/
  | benchmarkFails
  /-- the next combination's benchmark returns these records -/
  | benchmarkReturns (evaluate : String → TaskRecord)
  /-- the next file operation of the run -/
  | fileOperation
  /-- saving raises, and `main` goes on -/
  | savingFails
  /-- the process ends, at its end or anywhere before -/
  | stop
  /-- somebody deletes a file -/
  | delete (p : Path)

/-- One step of the system; `none` when the event cannot happen. -/
def Sweep.step (config : Config) (s : Sweep) : Event → Option Sweep
  | .start overwrite precision => match s.process with
    | some _ => none
    | none => some { s with
        process := some ⟨precision, mainPlan config overwrite precision s.dir, none⟩ }
  | .skip => match s.process with
    | some ⟨precision, item :: plan, none⟩ =>
      if item.skip then some { s with process := some ⟨precision, plan, none⟩ } else none
    | _ => none
  | .benchmarkFails => match s.process with
    | some ⟨precision, item :: plan, none⟩ =>
      if item.skip then none
      else some { s with
        executions := s.executions + 1
        process := some ⟨precision, plan, none⟩ }
    | _ => none
  | .benchmarkReturns evaluate => match s.process with
    | some ⟨precision, item :: plan, none⟩ =>
      if item.skip then none
      else some { s with
        executions := s.executions + 1
        process := some ⟨precision, plan, some
          { id := s.executions
            runName := item.runName
            result := resultJson config precision item.combo evaluate
            phase := if hasSamples config evaluate then .openSamples else .openResult }⟩ }
    | _ => none
  | .fileOperation => match s.process with
    | some ⟨precision, plan, some x⟩ =>
      some { s with
        dir := (x.advance s.dir).1
        process := some ⟨precision, plan, (x.advance s.dir).2⟩ }
    | _ => none
  | .savingFails => match s.process with
    | some ⟨precision, plan, some _⟩ => some { s with process := some ⟨precision, plan, none⟩ }
    | _ => none
  | .stop => match s.process with
    | some _ => some { s with process := none }
    | none => none
  | .delete p => some { s with dir := s.dir.put p none }

end Artifact
