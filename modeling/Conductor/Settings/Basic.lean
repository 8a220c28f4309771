import Conductor.Command.Basic
import Conductor.Log.Layout
import Conductor.Number.Binary64
import Conductor.Schema.Record

/-!
# Settings

What a command is told by its surroundings: how to log, where state and catalog are kept, how agents
are called, how long a call may take and how many tasks may run side by side. Main statement: an
absolute state directory is the same for all working directories.
-/

namespace Conductor

open Number Schema

/-- Variables of the surroundings in order, with their values if they have one. -/
abbrev Variables := List (String × Option String)

/-- The settings of a command. -/
structure Settings where
  logLevel : String := "INFO"
  logLayout : LogLayout := .json
  stateDir : Path := .ofString ".orchestrator"
  catalogPath : Path := .ofString "config/catalog.json"
  agentCommand : String := "codex exec --profile \x7bprofile\x7d -C \x7bcwd\x7d"
  modelFlag : String := "--model"
  effortFlag : String := "--config"
  engines : List (String × String) := []
  timeout : Binary64 := .ofInt 600
  maxParallel : Nat := 8
  debugLoops : Bool := false
  deriving Repr, Inhabited

namespace Settings

/-- The name under which the table of engines is given. -/
def enginesName : String := "ORCHESTRATOR_AGENT_ENGINES"

/-- The names under which settings are given. -/
def names : List String :=
  ["LOG_LEVEL", "ORCHESTRATOR_LOG_FORMAT", "ORCHESTRATOR_STATE_DIR", "ORCHESTRATOR_CATALOG_PATH",
    "ORCHESTRATOR_AGENT_COMMAND", "ORCHESTRATOR_AGENT_MODEL_FLAG",
    "ORCHESTRATOR_AGENT_REASONING_FLAG", enginesName, "ORCHESTRATOR_AGENT_TIMEOUT_SECONDS",
    "ORCHESTRATOR_MAX_PARALLEL", "ORCHESTRATOR_DEBUG_LOOPS"]

/-- Checks the values given for settings. -/
def check (ms : List (String × Json)) : Checked Settings :=
  let d : Settings := {}
  (fun logLevel logLayout stateDir catalogPath agentCommand modelFlag effortFlag engines timeout
      maxParallel debugLoops =>
    ⟨logLevel, logLayout, .ofString stateDir, .ofString catalogPath, agentCommand, modelFlag,
      effortFlag, engines, timeout, maxParallel, debugLoops⟩)
    <$> fieldOr ms (.single "LOG_LEVEL") d.logLevel text
    <*> fieldOr ms (.single "ORCHESTRATOR_LOG_FORMAT") d.logLayout (oneOf .choice LogLayout.byWord)
    <*> fieldOr ms (.single "ORCHESTRATOR_STATE_DIR") d.stateDir.toString path
    <*> fieldOr ms (.single "ORCHESTRATOR_CATALOG_PATH") d.catalogPath.toString path
    <*> fieldOr ms (.single "ORCHESTRATOR_AGENT_COMMAND") d.agentCommand text
    <*> fieldOr ms (.single "ORCHESTRATOR_AGENT_MODEL_FLAG") d.modelFlag text
    <*> fieldOr ms (.single "ORCHESTRATOR_AGENT_REASONING_FLAG") d.effortFlag text
    <*> fieldOr ms (.single enginesName) d.engines (table text)
    <*> fieldOr ms (.single "ORCHESTRATOR_AGENT_TIMEOUT_SECONDS") d.timeout nonnegativeNumber
    <*> fieldOr ms (.single "ORCHESTRATOR_MAX_PARALLEL") d.maxParallel positiveInteger
    <*> fieldOr ms (.single "ORCHESTRATOR_DEBUG_LOOPS") d.debugLoops flag

/-- How long a call may take, where that is limited. -/
def limit? (s : Settings) : Option Binary64 := if s.timeout.isZero then none else some s.timeout

/-- Where the state of a working directory is kept. -/
def statePath (s : Settings) (dir : Path) : Path := dir / s.stateDir

/-- The file that holds the progress of the workflow in a working directory. -/
def trackingFile (s : Settings) (dir : Path) : Path := (s.statePath dir).child "template.json"

/-- The file that holds the records of the agent runs in a working directory. -/
def registryFile (s : Settings) (dir : Path) : Path := (s.statePath dir).child "registry.json"

/-- How agents are called; an empty flag is not given. -/
def command (s : Settings) : AgentCommand :=
  let given (flag : String) : Option String := if flag.isEmpty then none else some flag
  { template := s.agentCommand, modelFlag := given s.modelFlag, effortFlag := given s.effortFlag,
    engines := s.engines }

/-- The record that agents are going to be called by the command. -/
def engineRecord (s : Settings) : Record :=
  { level := .info, source := .engines, message := s!"Creating agent engine: {s.agentCommand}" }

theorem statePath_of_isAbsolute (s : Settings) (dir : Path) (h : s.stateDir.isAbsolute = true) :
    s.statePath dir = s.stateDir :=
  Path.join_of_isAbsolute dir h

end Settings

end Conductor
