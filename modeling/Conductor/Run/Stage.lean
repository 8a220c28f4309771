import Conductor.Output.Tail
import Conductor.Run.Call
import Conductor.Script.Plan

/-!
# Running a stage of a script

The tasks of a stage run side by side on a bounded number of workers, which take the tasks up in
order. Each task goes through four moves: it is prepared, entered, answered and finished. A schedule
says in which order the tasks move; where it ends, the rest is done task by task in script order. A
move of a task that is done, or for which no worker is free, changes nothing.
-/

namespace Conductor.Script

/-- What became of a task. -/
structure TaskResult where
  name : String
  success : Bool
  output : String := ""
  error : Option String := none
  cancelled : Bool := false
  tailApplied : Option Int := none
  deriving Repr, DecidableEq, Inhabited

/-- How far a task has got. -/
inductive TaskPhase where
  | waiting
  | prepared (call : Call)
  | running (call : Call) (runId : Option String)
  | answered (call : Call) (runId : Option String) (result : Except Fault String)
  | done (result : Except Fault TaskResult)

namespace TaskPhase

/-- Whether a worker is busy with the task. -/
def isBusy : TaskPhase → Bool
  | waiting => false
  | done _ => false
  | _ => true

/-- Whether the task has not been taken up. -/
def isWaiting : TaskPhase → Bool
  | waiting => true
  | _ => false

/-- The result of a task that is done. -/
def result? : TaskPhase → Option (Except Fault TaskResult)
  | done r => some r
  | _ => none

end TaskPhase

/-- A task and how far it has got. -/
structure TaskRun where
  task : Task
  phase : TaskPhase := .waiting

/-- The record of an output that was cut. -/
def tailRecord (name : String) (count : Int) : Record :=
  { level := .debug, source := .scripts,
    message := s!"Output of {name} limited to the last {count} lines" }

/-- What becomes of a task whose call ended. A fault of the program's own fails the task; any other
one is handed on. -/
def settle (t : Task) (ended : Except Fault String) : Act (Except Fault TaskResult) := do
  match ended with
  | .ok text =>
    let (output, applied) := Output.keepTail text (t.tail.map fun n => (n : Int))
    if let some count := applied then Act.note [tailRecord t.name count]
    return .ok { name := t.name, success := true, output := output, tailApplied := applied }
  | .error (.cancelled f) =>
    return .ok { name := t.name, success := false, error := some f.message, cancelled := true }
  | .error f =>
    if f.isOwn then return .ok { name := t.name, success := false, error := some f.message }
    else return .error f

/-- The phase of a task whose call ended. -/
def settled (t : Task) (ended : Except Fault String) : Act TaskPhase := do
  return .done (← settle t ended)

/-- The next move of a task. -/
def TaskRun.move (shop : Workshop) (parentId : Option String) (r : TaskRun) : Act TaskPhase := do
  match r.phase with
  | .waiting =>
    match ← Act.attempt (shop.prepareTask r.task.name r.task.argument r.task.inputFiles r.task.name
        parentId) with
    | .ok call => return .prepared call
    | .error f => settled r.task (.error f)
  | .prepared call =>
    match ← Act.attempt (shop.enter call) with
    | .ok runId => return .running call runId
    | .error f => settled r.task (.error f)
  | .running call runId => return .answered call runId (← shop.answer call)
  | .answered call runId result =>
    settled r.task (← Act.attempt (shop.finish call runId result))
  | .done result => return .done result

/-- Whether the task at a position may move: it is at work, or it is the first that waits and a
worker is free. -/
def mayMove (workers : Nat) (runs : List TaskRun) (i : Nat) : Bool :=
  match runs[i]? with
  | none => false
  | some r =>
    -- Workers take tasks up in order, so only the first one that waits may start.
    if r.phase.isWaiting then
      (runs.take i).all (!·.phase.isWaiting) && (runs.countP (·.phase.isBusy)) < workers
    else r.phase.isBusy

/-- Moves the task at a position, if it may move. -/
def moveAt (shop : Workshop) (parentId : Option String) (workers : Nat) (runs : List TaskRun)
    (i : Nat) : Act (List TaskRun) := do
  if mayMove workers runs i then
    match runs[i]? with
    | none => return runs
    | some r => return runs.set i { r with phase := ← r.move shop parentId }
  else return runs

/-- The schedule that ends each of `count` tasks before the next one moves. -/
def inOrder (count : Nat) : List Nat := (List.range count).flatMap (List.replicate 4)

/-- Runs a stage by a schedule, and what is left in script order. -/
def runStage (shop : Workshop) (parentId : Option String) (workers : Nat) (schedule : List Nat)
    (stage : Stage) : Act (List TaskRun) :=
  (schedule ++ inOrder stage.length).foldlM (moveAt shop parentId workers)
    (stage.map fun t => { task := t })

/-- The results of all tasks, or the first fault that was handed on. -/
def results (runs : List TaskRun) : Except Fault (List TaskResult) :=
  (runs.filterMap (·.phase.result?)).mapM id

end Conductor.Script
