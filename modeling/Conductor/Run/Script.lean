import Conductor.Run.Stage
import Conductor.Script.Reader
import Conductor.Step

/-!
# Running a script

The stages of a script run one after the other. A stage is left with all its tasks ended, even after
one has failed; the first failure in script order ends the script. A record of the whole script is
the parent of its tasks' records.
-/

namespace Conductor.Script

/-- What became of a script: its outcome and the results of all tasks in order. -/
structure Result where
  outcome : Outcome
  results : List TaskResult := []
  deriving Repr, DecidableEq, Inhabited

/-- Whether a script got to its end. -/
def Result.ok (r : Result) : Bool := r.outcome.ok

/-- How a script runs: by what, with how many workers, and in which order the tasks of each stage
move. -/
structure Setup where
  shop : Workshop
  workers : Nat
  schedule : Nat → List Nat := fun _ => []

/-- The number of workers, which must be at least one. -/
def checkWorkers (n : Int) : Except Fault Nat :=
  if n < 1 then .error (.value "max_parallel must be at least 1") else .ok n.toNat

/-- Notes one record of the script. -/
def note (level : Level) (message : String) : Act Unit :=
  Act.note [{ level := level, source := .scripts, message := message }]

/-- The outcome of a cancelled script. -/
def cancelledOutcome : Outcome := { status := .aborted, reason := some cancelledReason }

/-- The error of a task. -/
def TaskResult.errorText (r : TaskResult) : String := r.error.getD ""

/-- The outcome with which a script ends after a stage, if it ends there. -/
def endedBy? (cancelled : Bool) (rs : List TaskResult) : Option Outcome × Option TaskResult :=
  -- A cancellation hides the failures that it may have caused.
  if cancelled || rs.any (·.cancelled) then (some cancelledOutcome, none)
  else match rs.find? (!·.success) with
    | some r =>
      (some { status := .aborted, reason := some s!"{r.name} failed: {r.errorText}" }, some r)
    | none => (none, none)

/-- Runs the stages from the one numbered `number` on; `before` are the results so far. -/
def runStages (setup : Setup) (parentId : Option String) (total : Nat) (number : Nat)
    (before : List TaskResult) : List Stage → Act Result
  | [] => return { outcome := { status := .completed }, results := before }
  | stage :: rest => do
    if (← get).cancelled then
      note .warning s!"Script cancelled before stage {number}/{total}"
      return { outcome := cancelledOutcome, results := before }
    else
      let names := ", ".intercalate (stage.map (·.name))
      note .info s!"Executing stage {number}/{total}: {names}"
      let runs ← runStage setup.shop parentId setup.workers (setup.schedule number) stage
      let rs ← Act.lift (results runs)
      -- All tasks of the stage have ended by now, also those behind a failed one.
      match endedBy? (← get).cancelled rs with
      | (some outcome, failed) =>
        if let some r := failed then
          note .error s!"Task {r.name} failed, stopping script: {r.errorText}"
        return { outcome := outcome, results := before ++ rs }
      | (none, _) => runStages setup parentId total (number + 1) (before ++ rs) rest

/-- How an outcome is recorded. -/
def recordedState (o : Outcome) : RunState :=
  if o.reason = some cancelledReason then .cancelled
  else match o.status with
    | .completed => .completed
    | .stopped => .completed
    | .aborted => .failed

/-- Runs a plan. -/
def runPlan (setup : Setup) (plan : Plan) : Act Result := do
  match setup.shop.registry with
  | none => runStages setup none plan.length 1 [] plan
  | some path =>
    let parent ← Registry.start path "orchestrate" "orchestration script" none
    match ← Act.attempt (runStages setup (some parent.runId) plan.length 1 [] plan) with
    | .ok result =>
      let _ ← Registry.finish path parent.runId (recordedState result.outcome) result.outcome.reason
      return result
    | .error f =>
      let _ ← Registry.finish path parent.runId .failed (some f.message)
      throw f

/-- Reads and runs a script. A malformed one does nothing. -/
def run (setup : Setup) (text : String) : Act Result := do
  let plan ← Act.lift ((read text).mapError .script)
  runPlan setup plan

end Conductor.Script
