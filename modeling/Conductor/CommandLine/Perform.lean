import Conductor.CommandLine.Request
import Conductor.Session
import Conductor.Settings.Reader

/-!
# Performing requests

A request is performed under the settings that its surroundings give. It ends with a code that tells
whether it completed, failed, was refused, stopped at a checkpoint or was aborted, and with lines
for the user. Main statements: the codes tell the ways to end apart, and a fault that lies in what
was given is always a refusal.
-/

namespace Conductor.CommandLine

/-- How a command ends. -/
inductive Exit where
  | completed
  | failed
  | refused
  | stopped
  | aborted
  deriving DecidableEq, Repr, Inhabited

/-- The code of an end. -/
def Exit.code : Exit → Nat
  | completed => 0
  | failed => 1
  | refused => 2
  | stopped => 3
  | aborted => 4

/-- The end of a run with a status. -/
def Exit.ofStatus : RunStatus → Exit
  | .completed => completed
  | .stopped => stopped
  | .aborted => aborted

/-- What a command tells besides its records. -/
structure Ended where
  exit : Exit
  /-- The lines of its answer. -/
  output : List String := []
  /-- The lines about what is wrong. -/
  errors : List String := []
  /-- The fault that nothing provides for. -/
  fault : Option Fault := none
  logging : Logging := {}

/-- Tells of an outcome, after some other lines. -/
def Ended.ofOutcome (before : List String) (o : Outcome) : Ended :=
  let told : Ended := { exit := Exit.ofStatus o.status, output := before ++ o.messages }
  let reason := o.reason.getD ""
  match o.status with
  | .completed => { told with output := told.output ++ ["Completed"] }
  | .stopped => { told with output := told.output ++ [s!"Stopped at checkpoint: {reason}"] }
  | .aborted => { told with errors := [s!"Aborted: {reason}"] }

/-- The line about a task of a script. -/
def taskLine (t : Script.TaskResult) : String :=
  let state := if t.success then "ok" else "failed: " ++ t.error.getD ""
  s!"{t.name}: {state}"

/-- Performs a task in a working directory. -/
def performTask (s : Session) (dir : Path) : Task → Act Ended
  | .run template fresh => Ended.ofOutcome [] <$> s.runTemplateFile dir template fresh
  | .orchestrate script => do
    let result ← s.runScript dir script
    return Ended.ofOutcome (result.results.map taskLine) result.outcome
  | .step agentId model effort => do
    return { exit := .completed, output := [← s.runStep dir agentId model effort] }
  | .reset => do
    s.reset dir
    let place := (s.settings.statePath dir).toString
    return { exit := .completed, output := [s!"Cleared step tracking in {place}"] }

/-- The end that a fault leads to. -/
def exitOf (f : Fault) : Exit :=
  if f.isUsage then .refused
  else match f with
    | .failed _ => .aborted
    | .cancelled _ => .aborted
    | _ => .failed

/-- The record of a fault. -/
def faultRecord (f : Fault) : Record :=
  let record : Record := { level := .error, source := .command, message := f.message }
  match exitOf f with
  | .failed => { record with message := "Command failed", failure := some f.message }
  | .aborted =>
    let agentId := match f with
      | .failed c => c.agentId
      | .cancelled c => c.agentId
      | _ => none
    { record with details := [("agent", .ofOption agentId)] }
  | _ => record

/-- Tells of a fault. -/
def Ended.ofFault (f : Fault) : Ended :=
  match exitOf f with
  | .failed => { exit := .failed, fault := some f }
  | .aborted => { exit := .aborted, errors := ["Aborted: " ++ f.message] }
  | exit => { exit := exit, errors := [f.message] }

/-- Tells of settings that are wrong. -/
def Ended.ofWrongSettings (f : Fault) : Ended :=
  { exit := .refused, errors := ["Configuration error (check your .env):", f.message] }

/-- The settings with the catalog that a request names. -/
def Request.adjust (r : Request) (s : Settings) : Settings :=
  { s with catalogPath := r.catalog.getD s.catalogPath }

/-- The working directory that a request names, seen from the current directory. -/
def Request.place (r : Request) (cwd : Path) : Path := Path.resolve cwd r.dir

/-- How records are to be written. -/
def loggingOf (s : Settings) : Except Fault Logging :=
  match Level.thresholdOf s.logLevel with
  | .ok threshold => .ok { layout := s.logLayout, threshold := threshold }
  | .error name => .error (.unknownLevel name)

/-- Performs a task with an engine that is made for it; a fault is noted and told of. -/
def performWith (make : Settings → Act Engine) (settings : Settings) (dir : Path) (task : Task) :
    Act Ended := do
  let result ← Act.attempt do
    let s := Session.ofSettings settings (← make settings)
    s.start
    performTask s dir task
  match result with
  | .ok ended => return ended
  | .error f =>
    Act.note [faultRecord f]
    return Ended.ofFault f

/-- Performs a request in the surroundings that give the variables. -/
def perform (make : Settings → Act Engine) (vars : Variables) (r : Request) : Act Ended := do
  match ← Act.attempt (Settings.load vars []) with
  | .error (.invalid title issues) => return .ofWrongSettings (.invalid title issues)
  | .error f => throw f
  | .ok settings =>
    let logging ← Act.lift (loggingOf settings)
    if r.dir.hasNul then throw (.read .nul)
    let ended ← performWith make (r.adjust settings) (r.place (← get).cwd) r.task
    return { ended with logging := logging }

/-- The codes tell the ways to end apart. -/
theorem Exit.code_injective {a b : Exit} (h : a.code = b.code) : a = b := by
  cases a <;> cases b <;> first | rfl | simp [code] at h

/-- A fault that lies in what was given is a refusal. -/
theorem exit_ofFault_of_isUsage {f : Fault} (h : f.isUsage = true) :
    (Ended.ofFault f).exit = .refused := by
  simp [Ended.ofFault, exitOf, h]

end Conductor.CommandLine
