import Mathlib.Data.List.Dedup
import Mathlib.Data.List.Sort
import Mathlib.Data.String.Basic
import VllmMmaEmu.Library.Dict

/-!
# Comparing the two sides of the cross-architecture experiment

`artifact/scripts/compare.py`: two results and their per-sample logs are compared task by
task. The loaded JSON comes in as records with the fields the script reads; what it prints
is left out, its exit status and the reasons for an incomplete comparison are not.
-/

namespace Artifact

open Python

/-- What the script does with `float` values. `==` need not be reflexive. -/
class PyFloat (F : Type) extends BEq F where
  zero : F
  absDiff : F → F → F
  max : F → F → F

/-- A metric: `int`, `float` and `bool` are numbers, anything else is skipped. -/
inductive MetricValue (F : Type) where
  | number (value : F)
  | other

structure TaskResult (F : Type) where
  taskName : Option String := none
  metrics : List (String × MetricValue F) := []

structure Device where
  sm : Option Int := none
  arch : Option String := none

structure Result (F : Type) where
  tasks : List (TaskResult F) := []
  device : Option Device := none

/-- An entry of `filtered_resps`: a list (with the number its first element converts to,
if it does), a number, or something else. -/
inductive Resp (F : Type) where
  | emptyList
  | list (first : Option F)
  | number (value : F)
  | other

structure Sample (F : Type) where
  docId : Option Int := none
  promptHash : Option String := none
  filteredResps : List (Resp F) := []

abbrev Samples (F : Type) := Dict String (List (Sample F))

inductive ExitStatus where
  | exitMatch
  | exitMismatch
  | exitIncomplete
  deriving DecidableEq, Repr

/-- One side of `PAIR`, with what `load_result` and `load_samples` return for it. -/
structure Side (F : Type) where
  heading : String
  expectedArch : String
  result : Option (Result F)
  samples : Option (Samples F)

section

variable {F : Type} [PyFloat F]

def collectMetrics (result : Result F) : Dict (String × String) F :=
  Dict.ofPairs (result.tasks.flatMap fun task =>
    task.metrics.filterMap fun (metric, value) => match value with
      | .number x => some ((task.taskName.getD "?", metric), x)
      | .other => none)

/-- `sample_logprobs`; a first element that is no number raises. -/
def sampleLogprobs (sample : Sample F) : Except PyError (List F) :=
  go sample.filteredResps
where
  go : List (Resp F) → Except PyError (List F)
    | [] => .ok []
    | .list (some x) :: rest => do return x :: (← go rest)
    | .list none :: _ => .error .typeError
    | .number x :: rest => do return x :: (← go rest)
    | .emptyList :: rest => go rest
    | .other :: rest => go rest

structure TaskStats (F : Type) where
  total : Nat
  identical : Nat
  maxAbsDiff : F
  hashMismatches : Nat
  unmatched : Nat

/-- One pass of the loop over the zipped logprobs. -/
def countPair (st : TaskStats F) (p : F × F) : TaskStats F :=
  if p.1 == p.2 then { st with total := st.total + 1, identical := st.identical + 1 }
  else { st with
    total := st.total + 1
    maxAbsDiff := PyFloat.max st.maxAbsDiff (PyFloat.absDiff p.1 p.2) }

/-- One pass of the loop over the common ids. -/
def countSample (st : TaskStats F) (left right : Sample F) : Except PyError (TaskStats F) := do
  let st := if left.promptHash ≠ right.promptHash then
      { st with hashMismatches := st.hashMismatches + 1 }
    else st
  let xs ← sampleLogprobs left
  let ys ← sampleLogprobs right
  return (xs.zip ys).foldl countPair st

/-- `sorted` on ids: a missing id cannot be compared with another one. -/
def sortedDocIds (ids : List (Option Int)) : Except PyError (List (Option Int)) :=
  if none ∈ ids ∧ 2 ≤ ids.length then .error .typeError
  else .ok (ids.insertionSort fun a b => a.getD 0 ≤ b.getD 0)

/-- `{s.get("doc_id"): s for s in samples}`. -/
def byDocId (samples : List (Sample F)) : Dict (Option Int) (Sample F) :=
  Dict.ofPairs (samples.map fun s => (s.docId, s))

/-- The pass over the ids of both sides. -/
def countIds (left right : Dict (Option Int) (Sample F)) (ids : List (Option Int))
    (st : TaskStats F) : Except PyError (TaskStats F) :=
  ids.foldlM (fun st i => match left.get? i, right.get? i with
    | some a, some b => countSample st a b
    | _, _ => .error .keyError) st

def logprobTaskStats (leftList rightList : List (Sample F)) : Except PyError (TaskStats F) := do
  let left := byDocId leftList
  let right := byDocId rightList
  let ids ← sortedDocIds (left.keys.filter (· ∈ right.keys))
  let unmatched := (left.keys.filter (· ∉ right.keys)).length
    + (right.keys.filter (· ∉ left.keys)).length
  countIds left right ids ⟨0, 0, PyFloat.zero, 0, unmatched⟩

def smArch : Int → Option String
  | 90 => some "hopper"
  | 100 => some "blackwell"
  | 120 => some "blackwell"
  | _ => none

/-- `arch_of`; an empty name counts as none. -/
def archOf (result : Result F) : String :=
  match result.device with
  | none => "unknown"
  | some device => match device.sm.bind smArch with
    | some arch => arch
    | none => match device.arch with
      | some arch => if arch = "" then "unknown" else arch
      | none => "unknown"

/-- The reasons one side gives before any task is looked at. -/
def sideIncomplete (side : Side F) : List String :=
  match side.result with
  | none => [side.heading ++ ": result missing"]
  | some res =>
    if archOf res = side.expectedArch then []
    else [side.heading ++ ": ran on " ++ archOf res ++ ", expected " ++ side.expectedArch]

/-- `sorted` on a set of strings. -/
def sortedSet (xs : List String) : List String := xs.dedup.insertionSort (· ≤ ·)

/-- The tasks that have a score in either result. -/
def scoredTasks (lm rm : Dict (String × String) F) : List String :=
  sortedSet (lm.keys.map Prod.fst ++ rm.keys.map Prod.fst)

/-- The metrics of a task in either result. -/
def taskMetrics (lm rm : Dict (String × String) F) (task : String) : List String :=
  sortedSet ((lm.keys.filter fun k => k.1 = task).map Prod.snd
    ++ (rm.keys.filter fun k => k.1 = task).map Prod.snd)

/-- `lm.get((task, m)) == rm.get((task, m))`. -/
def sameScore : Option F → Option F → Bool
  | none, none => true
  | some a, some b => a == b
  | _, _ => false

/-- The counters of the loop over the tasks. -/
structure Progress where
  nTasks : Nat
  tasksOk : Nat
  lpTotal : Nat
  lpIdent : Nat
  incomplete : List String

/-- Whether the logs of a task agree, with the progress after looking at them. -/
def compareLogs (samples : Option (Samples F × Samples F)) (p : Progress) (task : String) :
    Except PyError (Bool × Progress) :=
  match samples with
  | none => .ok (true, p)
  | some (lsamp, rsamp) => match lsamp.get? task, rsamp.get? task with
    | some ll, some rl => do
      let st ← logprobTaskStats ll rl
      return (decide (st.identical = st.total ∧ st.hashMismatches = 0 ∧ st.unmatched = 0),
        { p with lpTotal := p.lpTotal + st.total, lpIdent := p.lpIdent + st.identical })
    | _, _ => .ok (true,
        { p with incomplete := p.incomplete ++ [task ++ ": per-sample log on only one side"] })

/-- One pass of the loop over the tasks. -/
def compareTask (lm rm : Dict (String × String) F) (samples : Option (Samples F × Samples F))
    (p : Progress) (task : String) : Except PyError Progress := do
  let scoreOk := (taskMetrics lm rm task).all fun m =>
    sameScore (lm.get? (task, m)) (rm.get? (task, m))
  let (lpOk, p) ← compareLogs samples p task
  return { p with
    nTasks := p.nTasks + 1
    tasksOk := p.tasksOk + if scoreOk && lpOk then 1 else 0 }

/-- `verdict`: a mismatch takes precedence. -/
def verdict (mismatch : Bool) (incomplete : List String) : ExitStatus :=
  if mismatch then .exitMismatch
  else if incomplete ≠ [] then .exitIncomplete
  else .exitMatch

/-- The samples of both sides, and what is missing of them. -/
def bothSamples (left right : Side F) : Option (Samples F × Samples F) × List String :=
  match left.samples, right.samples with
  | some ls, some rs => (some (ls, rs), [])
  | none, _ => (none, [left.heading ++ ": per-sample log (_samples.json) missing"])
  | some _, none => (none, [right.heading ++ ": per-sample log (_samples.json) missing"])

/-- `compare`: the counters, the reasons and the exit status. -/
def compare (left right : Side F) : Except PyError (Progress × ExitStatus) :=
  let incomplete := sideIncomplete left ++ sideIncomplete right
  match left.result, right.result with
  | some lres, some rres => do
    let both := bothSamples left right
    let lm := collectMetrics lres
    let rm := collectMetrics rres
    let tasks := scoredTasks lm rm
    let noTasks := if tasks = [] then ["no task scores in either result"] else []
    let p ← tasks.foldlM (compareTask lm rm both.1)
      ⟨0, 0, 0, 0, incomplete ++ both.2 ++ noTasks⟩
    return (p, verdict (decide (p.tasksOk < p.nTasks)) p.incomplete)
  | _, _ => .ok (⟨0, 0, 0, 0, incomplete⟩, verdict false incomplete)

end

end Artifact
