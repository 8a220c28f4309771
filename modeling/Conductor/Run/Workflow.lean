import Conductor.Cursor
import Conductor.Run.Call
import Conductor.State.Progress
import Conductor.State.SignalFile
import Conductor.Text.Order

/-!
# Running a workflow

A run is a sequence of turns from one state to the next. At the head of a round the next thing to do
is chosen: a step that waits to be run out of order, else the step at the cursor. A step that is
attempted returns or fails; one that returned is first recorded as done and then its signal and
output decide how the run goes on. Between two turns a run may be interrupted: what is kept then is
what the files hold.
-/

namespace Conductor

open Text

/-- A workflow with all it needs to run. -/
structure Workflow where
  steps : List Step
  shop : Workshop
  signals : SignalWay
  tracking : Option Path := none
  catalog : Option Catalog := none
  debugLoops : Bool := false

namespace Workflow

/-- What a run is about to do. -/
inductive Phase where
  /-- Choose what comes next. -/
  | head
  /-- Execute `run` for the step at a position, under an identity. -/
  | attempt (index : Nat) (step run : Step) (identity : String)
  /-- Record that the step at a position is done. -/
  | returned (index : Nat) (step : Step) (output : String)
  /-- Decide how the run goes on after a step. -/
  | recorded (index : Nat) (step : Step) (output : String)
  /-- Execute a step that was triggered. -/
  | triggered (target : String) (step : Step)
  /-- Take in the signal of a triggered step. -/
  | handedBack (target : String) (step : Step)
  deriving Repr, DecidableEq, Inhabited

/-- Where a run stands. -/
structure State where
  cursor : Cursor
  messages : List String := []
  phase : Phase := .head
  deriving Repr, DecidableEq, Inhabited

/-- What a turn leads to. -/
inductive Turn where
  | next (s : State)
  | done (o : Outcome)
  deriving Repr, DecidableEq, Inhabited

/-- Notes one record of the workflow. -/
def note (level : Level) (message : String) (details : List (String × Json) := []) : Act Unit :=
  Act.note [{ level := level, source := .workflow, message := message, details := details }]

/-- The details that name a step and its position. -/
def placeDetails (step : Step) (index : Nat) : List (String × Json) :=
  [("agent", .str step.agentId), ("step_index", .int index)]

/-- Ends the run without success. -/
def abort (reason : String) (messages : List String) : Act Turn := do
  note .error s!"Workflow aborted: {reason}"
  return .done { status := .aborted, reason := some reason, messages := messages }

/-- Ends the run at a checkpoint. -/
def stopAt (step : Step) (reason : Option String) (messages : List String) : Act Turn := do
  let reason := (orElseText reason none).getD s!"checkpoint requested by {step.agentName}"
  note .info s!"Workflow stopped at checkpoint: {reason}"
  return .done { status := .stopped, reason := some reason, messages := messages }

/-- The step that an id of the catalog stands for. -/
def lookUp (f : Workflow) (id : String) : Act (Except ResolveFault Step) := do
  match f.catalog with
  | none => return .error (.unknown "agent" id)
  | some c =>
    Act.note (c.resolveAnyRecords id)
    return c.resolveAny id

/-- The step of the list that goes by an id, as an agent or as a module. -/
def named? (f : Workflow) (id : String) : Option Step :=
  f.steps.find? fun s => s.agentId == id || s.moduleId == some id

/-! ### The turns -/

/-- Takes up the step that was triggered: one of the list, else one of the catalog. -/
def takeUp (f : Workflow) (s : State) (target : String) : Act Turn := do
  let step ← match f.named? target with
    | some step => pure (Except.ok step)
    | none => f.lookUp target
  match step with
  | .error e => abort s!"Cannot trigger {target}: {e.message}" s.messages
  | .ok step =>
    note .info s!"Running triggered step {step.agentName}" [("agent", .str step.agentId)]
    return .next { s with phase := .triggered target step }

/-- The step to execute for the step at a position, and its identity: the fallback where the last
attempt did not finish. -/
def choose (f : Workflow) (c : Cursor) (step : Step) (index : Nat) :
    Act (Except ResolveFault (Step × String)) := do
  match step.fallback with
  | none => return .ok (step, step.agentId)
  | some reference =>
    if !c.needsFallback step index then return .ok (step, step.agentId)
    else match ← f.lookUp reference with
      | .error e => return .error e
      | .ok fallback =>
        note .info (s!"{step.agentName} did not complete last time; "
          ++ s!"running {fallback.agentName} instead") (placeDetails step index)
        return .ok (fallback, s!"{step.agentId}:fallback")

/-- Starts the step at the cursor, or passes it over. -/
def visit (f : Workflow) (s : State) (step : Step) : Act Turn := do
  let index := s.cursor.index
  match s.cursor.skipCause? step index with
  | some cause =>
    note .info (cause.message step) (placeDetails step index)
    return .next { s with cursor := s.cursor.advance }
  | none =>
    match ← f.choose s.cursor step index with
    | .error e => abort e.message s.messages
    | .ok (run, identity) =>
      -- Written before the step starts, so that an interruption leaves it unfinished.
      if let some path := f.tracking then Progress.recordStarted path index
      return .next { s with cursor := s.cursor.markStarted index step.agentId
                            phase := .attempt index step run identity }

/-- Chooses what comes next. -/
def atHead (f : Workflow) (s : State) : Act Turn := do
  if (← get).cancelled then abort cancelledReason s.messages
  -- Triggered steps go before the step at the cursor.
  else match s.cursor.pop with
    | (cursor, some target) => f.takeUp { s with cursor := cursor } target
    | (cursor, none) =>
      match f.steps[cursor.index]? with
      | some step => f.visit { s with cursor := cursor } step
      | none => do
        note .info "Workflow completed"
        return .done { status := .completed, messages := s.messages }

/-- Executes the step at a position. A tolerated failure goes on with the next position, and the
signal that the failed step left is dropped. -/
def atAttempt (f : Workflow) (s : State) (index : Nat) (step run : Step) (identity : String) :
    Act Turn := do
  match ← Act.attempt (f.shop.execute run identity none) with
  | .ok output => return .next { s with phase := .returned index step output }
  | .error (.cancelled _) => abort cancelledReason s.messages
  | .error (.failed failure) =>
    if !step.tolerant then abort failure.message s.messages
    else
      note .warning
        s!"{step.agentName} failed; continuing (tolerant step): {failure.message}"
        (placeDetails step index)
      -- Reading a signal takes it, so that the next step does not meet it.
      let _ ← f.signals.readSafely f.shop.dir
      return .next { cursor := (s.cursor.release step.agentId).advance
                     messages := s.messages ++ [s!"{step.agentName} failed: {failure.message}"]
                     phase := .head }
  | .error fault => throw fault

/-- Records that the step at a position is done. -/
def atReturned (f : Workflow) (s : State) (index : Nat) (step : Step) (output : String) :
    Act Turn := do
  -- Written before the signal is read: an interruption in between does not repeat the step.
  if let some path := f.tracking then Progress.recordCompleted path index
  return .next { s with cursor := s.cursor.markCompleted index
                        phase := .recorded index step output }

/-- The record that explains a verdict. -/
def verdictRecord (c : Cursor) (step : Step) (index : Nat) (key : String) (v : Verdict) : Record :=
  { level := .info, source := .workflow, message := "Behavior evaluation",
    details := placeDetails step index ++
      [("loop_key", .str key), ("iterations", .int (c.iterations key)),
       ("checkpoint", .bool v.checkpoint.isSome),
       ("loop_repeat", .bool (v.loop.any (·.repeats))),
       ("trigger", .ofOption (v.trigger.map (·.target))),
       ("skip", .arr ((sortedSet ((c.hot.map (·.skip)).getD [])).map .str))] }

/-- Leaves a loop that does not repeat. -/
def leaveLoop (s : State) (step : Step) (index : Nat) (key : String) (d : LoopDecision) :
    Act State := do
  let left := { s with cursor := s.cursor.endLoop key }
  match orElseText d.reason none with
  | none => return left
  | some reason =>
    if d.limitReached then
      note .info reason (placeDetails step index)
      return { left with messages := s.messages ++ [s!"{step.agentName}: {reason}"] }
    else
      note .info s!"{step.agentName} loop ended: {reason}" (placeDetails step index)
      return left

/-- Queues the step that a verdict triggers, unless it is queued or at work. -/
def queue (s : State) (step : Step) (target : String) : Act State := do
  let (cursor, accepted) := s.cursor.enqueue target
  let details : List (String × Json) := [("agent", .str step.agentId), ("target", .str target)]
  if accepted then note .info s!"{step.agentName} triggered {target}" details
  else note .warning s!"Ignoring trigger of {target}: already running or queued" details
  return { s with cursor := cursor }

/-- Goes on after the step at a position as its verdict says. -/
def follow (s : State) (step : Step) (index : Nat) (key : String) (v : Verdict) : Act Turn := do
  -- A checkpoint goes before a loop, and a loop that repeats before a trigger.
  match v.checkpoint with
  | some reason => stopAt step reason s.messages
  | none =>
    match v.loop with
    | some d =>
      if d.repeats then
        let cursor := (s.cursor.loopBack d key).release step.agentId
        note .info (s!"{step.agentName} is looping back {d.stepsBack} step(s) "
          ++ s!"(iteration {cursor.iterations key})") (placeDetails step index)
        return .next { s with cursor := cursor, phase := .head }
      else goOn (← leaveLoop s step index key d)
    | none => goOn s
where
  /-- Goes on with the next position after queueing a triggered step. -/
  goOn (s : State) : Act Turn := do
    let s ← match v.trigger with
      | some t => queue s step t.target
      | none => pure s
    return .next { s with cursor := (s.cursor.release step.agentId).advance, phase := .head }

/-- Reads the signal of the step at a position and goes on as signal and output say. -/
def atRecorded (f : Workflow) (s : State) (index : Nat) (step : Step) (output : String) :
    Act Turn := do
  let key := Cursor.loopKey step index
  let signal ← f.signals.readSafely f.shop.dir
  let (verdict, lacksTarget) := evaluate step.behavior output signal (s.cursor.iterations key)
  if lacksTarget then
    Act.note [{ level := .warning, source := .behaviors, message := lacksTargetMessage }]
  if f.debugLoops then Act.note [verdictRecord s.cursor step index key verdict]
  follow s step index key verdict

/-- Executes a step that was triggered. -/
def atTriggered (f : Workflow) (s : State) (target : String) (step : Step) : Act Turn := do
  match ← Act.attempt (f.shop.execute step target none) with
  | .ok _ => return .next { s with phase := .handedBack target step }
  | .error (.cancelled _) => abort cancelledReason s.messages
  | .error (.failed failure) =>
    if !step.tolerant then abort failure.message s.messages
    else
      note .warning s!"Triggered step {step.agentName} failed; continuing: {failure.message}"
      return .next { cursor := s.cursor.release target
                     messages := s.messages ++ [s!"{step.agentName} failed: {failure.message}"]
                     phase := .head }
  | .error fault => throw fault

/-- Takes in the signal of a triggered step: only a checkpoint counts. -/
def atHandedBack (f : Workflow) (s : State) (target : String) (step : Step) : Act Turn := do
  let back : State := { s with cursor := s.cursor.release target, phase := .head }
  match ← f.signals.readSafely f.shop.dir with
  | none => return .next back
  | some signal =>
    if signal.action = .checkpoint then stopAt step signal.reason s.messages
    else
      note .info s!"Ignoring {signal.action.word} signal from triggered step {step.agentName}"
        [("agent", .str step.agentId)]
      return .next back

/-- One turn of a run. -/
def turn (f : Workflow) (s : State) : Act Turn :=
  match s.phase with
  | .head => f.atHead s
  | .attempt index step run identity => f.atAttempt s index step run identity
  | .returned index step output => f.atReturned s index step output
  | .recorded index step output => f.atRecorded s index step output
  | .triggered target step => f.atTriggered s target step
  | .handedBack target step => f.atHandedBack s target step

/-! ### Runs -/

/-- The state in which a run starts, with the steps that earlier runs left done or unfinished. -/
def start (f : Workflow) : Act State := do
  let cursor ← match f.tracking with
    | none => pure {}
    | some path => do
      -- Each of the two questions reads the file, and notes what is wrong with it.
      let completed := (← Progress.load path).completed
      let notCompleted := (← Progress.load path).notCompleted
      pure (Cursor.initial completed notCompleted)
  note .info s!"Running workflow with {f.steps.length} step(s) in {f.shop.dir}"
  return { cursor := cursor }

/-- Goes on from a state for at most `fuel` turns. -/
def runFrom (f : Workflow) : (fuel : Nat) → State → Act Outcome
  | 0, _ => throw .endless
  | fuel + 1, s => do
    match ← f.turn s with
    | .done o => return o
    | .next s => runFrom f fuel s

/-- How many visits it takes at most to get past the steps of a list: each may step back to the
first one as often as its limit says. -/
def passingBound (steps : List Step) : Nat :=
  steps.foldl (fun visits step => (step.loopLimit + 1) * (visits + 1)) 0

/-- How many rounds a run takes at most whose loops all have limits: every visit may trigger one
step, and the last round ends the run. -/
def roundBound (steps : List Step) : Nat := 2 * passingBound steps + 1

/-- How many turns a run may take. A loop without a limit never ends by itself. -/
def maxTurns (f : Workflow) : Nat := max (Nat.pow 2 62) (4 * roundBound f.steps)

/-- Runs a workflow to its end. -/
def run (f : Workflow) : Act Outcome := do
  let s ← f.start
  f.runFrom f.maxTurns s

end Workflow

end Conductor
