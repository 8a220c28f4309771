import Conductor.Catalog.Basic
import Conductor.Schema.Record

/-!
# Workflow templates

A template names the steps of a workflow by kind and id, each with overrides of what the catalog
says, and the agents it may hand off to.
-/

namespace Conductor

open Schema Number

/-- What a step of a template says instead of its catalog entry. -/
structure Overrides where
  agentName : Option String := none
  promptPath : Option String := none
  model : Option String := none
  effort : Option Effort := none
  engine : Option String := none
  executeOnce : Bool := false
  fallback : Option String := none
  tolerant : Bool := false
  scaffold : Bool := false
  loopSteps : Option Binary64 := none
  loopTrigger : Option String := none
  loopMaxIterations : Option Binary64 := none
  loopSkip : Option (List String) := none
  triggerTarget : Option String := none
  deriving Repr, DecidableEq, Inhabited

/-- A step of a template. -/
structure Declaration where
  kind : EntryKind
  id : String
  overrides : Overrides
  deriving Repr, DecidableEq, Inhabited

/-- A workflow's steps, and the agents it may hand off to. -/
structure Template where
  name : String
  steps : List Declaration
  subAgentIds : List String
  deriving Repr, DecidableEq, Inhabited

namespace Overrides

/-- The fields of overrides. -/
def fields : List FieldName :=
  [⟨"agentName", "agent_name"⟩, ⟨"promptPath", "prompt_path"⟩, .single "model",
    ⟨"modelReasoningEffort", "model_reasoning_effort"⟩, .single "engine",
    ⟨"executeOnce", "execute_once"⟩, ⟨"notCompletedFallback", "not_completed_fallback"⟩,
    .single "tolerant", .single "scaffold", ⟨"loopSteps", "loop_steps"⟩,
    ⟨"loopTrigger", "loop_trigger"⟩, ⟨"loopMaxIterations", "loop_max_iterations"⟩,
    ⟨"loopSkip", "loop_skip"⟩, ⟨"triggerAgentId", "trigger_agent_id"⟩]

/-- Checks overrides. -/
def check : Json → Checked Overrides :=
  closedRecord fields fun ms =>
    (fun agentName promptPath model effort engine executeOnce fallback tolerant scaffold loopSteps
        loopTrigger loopMaxIterations loopSkip triggerTarget =>
      ⟨agentName, promptPath, model, effort, engine, executeOnce, fallback, tolerant, scaffold,
        loopSteps, loopTrigger, loopMaxIterations, loopSkip, triggerTarget⟩)
      <$> fieldOr ms ⟨"agentName", "agent_name"⟩ none (optional text)
      <*> fieldOr ms ⟨"promptPath", "prompt_path"⟩ none (optional text)
      <*> fieldOr ms (.single "model") none (optional text)
      <*> fieldOr ms ⟨"modelReasoningEffort", "model_reasoning_effort"⟩ none
          (optional (oneOf .choice Effort.byWord))
      <*> fieldOr ms (.single "engine") none (optional text)
      <*> fieldOr ms ⟨"executeOnce", "execute_once"⟩ false flag
      <*> fieldOr ms ⟨"notCompletedFallback", "not_completed_fallback"⟩ none (optional text)
      <*> fieldOr ms (.single "tolerant") false flag
      <*> fieldOr ms (.single "scaffold") false flag
      <*> fieldOr ms ⟨"loopSteps", "loop_steps"⟩ none (optional number)
      <*> fieldOr ms ⟨"loopTrigger", "loop_trigger"⟩ none (optional text)
      <*> fieldOr ms ⟨"loopMaxIterations", "loop_max_iterations"⟩ none (optional number)
      <*> fieldOr ms ⟨"loopSkip", "loop_skip"⟩ none (optional (list text))
      <*> fieldOr ms ⟨"triggerAgentId", "trigger_agent_id"⟩ none (optional text)

end Overrides

/-- Checks a step of a template. -/
def Declaration.check : Json → Checked Declaration :=
  closedRecord [.single "type", .single "id", .single "overrides"] fun ms =>
    (fun kind id overrides => ⟨kind, id, overrides⟩)
      <$> fieldOr ms (.single "type") .agent (oneOf .enumeration EntryKind.byWord)
      <*> field ms (.single "id") nonEmptyText
      <*> fieldOr ms (.single "overrides") {} Overrides.check

/-- Checks a template. -/
def Template.check : Json → Checked Template :=
  closedRecord [.single "name", .single "steps", ⟨"subAgentIds", "sub_agent_ids"⟩] fun ms =>
    (fun name steps subAgentIds => ⟨name, steps, subAgentIds⟩)
      <$> field ms (.single "name") nonEmptyText
      <*> fieldOr ms (.single "steps") [] (list Declaration.check)
      <*> fieldOr ms ⟨"subAgentIds", "sub_agent_ids"⟩ [] (list text)

/-- What makes a template file unusable. -/
inductive TemplateFault where
  | notFound (path : String)
  | malformed (path message : String)
  | invalid (path : String) (issues : List Issue)
  deriving DecidableEq, Repr

/-- What is wrong with the template file. -/
def TemplateFault.message : TemplateFault → String
  | notFound path => s!"Template file not found: {path}"
  | malformed path message => s!"Template file is not valid JSON: {path}: {message}"
  | invalid path issues =>
    s!"Invalid workflow template {path}: " ++ issuesMessage "WorkflowTemplate" issues

end Conductor
