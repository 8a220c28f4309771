import Conductor.Json.Basic

/-!
# Log records

What is noted while a command runs: a level, the source that notes it, a message and named details.
-/

namespace Conductor

/-- How grave a record is. -/
inductive Level where
  | debug
  | info
  | warning
  | error
  | critical
  deriving DecidableEq, Repr, Inhabited

namespace Level

/-- The number of a level. -/
def number : Level → Nat
  | debug => 10
  | info => 20
  | warning => 30
  | error => 40
  | critical => 50

/-- The word for a level. -/
def word : Level → String
  | debug => "DEBUG"
  | info => "INFO"
  | warning => "WARNING"
  | error => "ERROR"
  | critical => "CRITICAL"

end Level

/-- Who notes a record. -/
inductive Source where
  | catalog
  | templates
  | engines
  | children
  | behaviors
  | signals
  | execution
  | workflow
  | scripts
  | session
  | tracking
  | command
  | agent (identity : String)
  deriving DecidableEq, Repr, Inhabited

/-- The dotted name of a source. -/
def Source.name : Source → String
  | catalog => "step_orchestrator.orchestrator.catalog"
  | templates => "step_orchestrator.orchestrator.templates"
  | engines => "step_orchestrator.engines.factory"
  | children => "step_orchestrator.engines.subprocess_invoker"
  | behaviors => "step_orchestrator.orchestrator.workflow.behaviors"
  | signals => "step_orchestrator.orchestrator.workflow.signals"
  | execution => "step_orchestrator.orchestrator.workflow.executor"
  | workflow => "step_orchestrator.orchestrator.workflow.runner"
  | scripts => "step_orchestrator.orchestrator.scripting.interpreter"
  | session => "step_orchestrator.core.orchestrator"
  | tracking => "step_orchestrator.state.tracking"
  | command => "step_orchestrator.orchestrator.main"
  | agent identity => "step_orchestrator.agent." ++ identity

/-- One record. -/
structure Record where
  level : Level
  source : Source
  message : String
  details : List (String × Json) := []
  failure : Option String := none
  deriving Repr, Inhabited

end Conductor
