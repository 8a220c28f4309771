import Conductor.Behavior

/-!
# Steps and outcomes

A step of a workflow with everything an agent call needs, and how a run ends.
-/

namespace Conductor

open Text

/-- A step of a workflow. -/
structure Step where
  agentId : String
  agentName : String
  promptPath : String
  model : Option String := none
  reasoningEffort : Option String := none
  engine : Option String := none
  moduleId : Option String := none
  behavior : Option Behavior := none
  executeOnce : Bool := false
  fallback : Option String := none
  tolerant : Bool := false
  scaffold : Bool := false
  deriving Repr, DecidableEq, Inhabited

namespace Step

/-- The id a step's loop is counted under: the module's where it has a non-empty one, else the
agent's. -/
def loopId (s : Step) : String :=
  match s.moduleId with
  | some m => if m.isEmpty then s.agentId else m
  | none => s.agentId

/-- The loop of a step, if it can ever repeat. -/
def activeLoop? (s : Step) : Option LoopBehavior :=
  match s.behavior with
  | some (.loop l) => if l.isActive then some l else none
  | _ => none

/-- How often a step may step back before its loop is left; none counts for no limit. -/
def loopLimit (s : Step) : Nat := ((s.activeLoop?).bind (·.maxIterations)).getD 0

/-- Whether one text occurs in another. -/
def occursIn (part : List Char) : List Char → Bool
  | [] => part.isEmpty
  | c :: cs => part.isPrefixOf (c :: cs) || occursIn part cs

/-- The agent that always works on scaffolding. -/
def scaffoldAgent : String := "agents-builder"

/-- Whether a step needs the scaffold directories: it says so, its agent is the one that builds
agents, or its name calls it a builder. -/
def isScaffold (s : Step) : Bool :=
  s.scaffold || s.agentId == scaffoldAgent
    || occursIn "builder".toList (lowerChars s.agentName.toList)

end Step

/-- How a run ended. -/
inductive RunStatus where
  | completed
  | stopped
  | aborted
  deriving DecidableEq, Repr, Inhabited

/-- The word for how a run ended. -/
def RunStatus.word : RunStatus → String
  | completed => "completed"
  | stopped => "stopped"
  | aborted => "aborted"

/-- How a run ended, why, and what was noted on the way. -/
structure Outcome where
  status : RunStatus
  reason : Option String := none
  messages : List String := []
  deriving DecidableEq, Repr, Inhabited

/-- Whether a run got to its end. -/
def Outcome.ok (o : Outcome) : Bool := o.status == .completed

/-- The reason of a run that was cancelled. -/
def cancelledReason : String := "cancelled"

end Conductor
