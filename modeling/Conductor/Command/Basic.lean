import Conductor.Command.Placeholder
import Conductor.Command.Words
import Conductor.Path
import Conductor.Text.Order

/-!
# Agent commands

An agent is called by a command: a template split into words whose fields are filled with the
agent's id and the working directory, then the flags for the model and the reasoning effort. A call
may name an engine, which has a template of its own. Main statement: the number of words does not
depend on what the fields are filled with.
-/

namespace Conductor

open Text

namespace Command

/-- Why a call has no command. -/
inductive Fault where
  | blankTemplate
  | noWords
  | variableName
  | nul
  | words (f : WordFault)
  | field (f : FieldFault)
  | unknownEngine (engine agentId : String) (known : List String)
  deriving DecidableEq, Repr

/-- What is wrong with the command. -/
def Fault.message : Fault → String
  | blankTemplate => "Agent command template is required"
  | noWords => "list index out of range"
  | variableName => "illegal environment variable name"
  | nul => "embedded null byte"
  | words f => f.message
  | field f => f.message
  | unknownEngine engine agentId known =>
    let names := ", ".intercalate (sortTexts known)
    let shown := if names.isEmpty then "none configured" else names
    s!"Unknown engine '{engine}' for agent '{agentId}' (known: {shown})"

end Command

/-- How agents are called. -/
structure AgentCommand where
  template : String
  modelFlag : Option String := some "--model"
  effortFlag : Option String := some "--config"
  engines : List (String × String) := []
  deriving Repr, DecidableEq, Inhabited

namespace AgentCommand

open Command

/-- Refuses a blank template. -/
def check (c : AgentCommand) : Except Command.Fault Unit :=
  if isBlankText c.template then .error .blankTemplate else .ok ()

/-- The template for an engine, the default one where none is named. -/
def templateFor (c : AgentCommand) (agentId : String) (engine : Option String) :
    Except Command.Fault String :=
  match engine with
  | none => .ok c.template
  | some e =>
    match c.engines.find? (·.1 == e) with
    | some (_, template) => .ok template
    | none => .error (.unknownEngine e agentId (c.engines.map (·.1)))

/-- A flag with its value, where both are there and not empty. -/
def flagged (flag value : Option String) (shown : String → String) : List String :=
  match flag, value with
  | some f, some v => if f.isEmpty || v.isEmpty then [] else [f, shown v]
  | _, _ => []

/-- The words of a template with their fields filled. -/
def fillTemplate (template agentId : String) (dir : Path) :
    Except Command.Fault (List String) := do
  let ws ← (Command.words template.toList).mapError .words
  let values := [("profile", agentId.toList), ("cwd", dir.toString.toList)]
  let filled ← ws.mapM fun w => (Command.fill values w).mapError Command.Fault.field
  return filled.map String.ofList

theorem length_of_mapM_eq_ok {ε α β : Type} {f : α → Except ε β} {xs : List α} {ys : List β}
    (h : xs.mapM f = .ok ys) : ys.length = xs.length := by
  induction xs generalizing ys with
  | nil =>
    cases h
    rfl
  | cons x xs ih =>
    rw [List.mapM_cons] at h
    cases hx : f x with
    | error e => simp [hx, bind, Except.bind] at h
    | ok y =>
      cases hs : xs.mapM f with
      | error e => simp [hx, hs, bind, Except.bind] at h
      | ok zs =>
        simp only [hx, hs, bind, Except.bind, pure, Except.pure, Except.ok.injEq] at h
        rw [← h, List.length_cons, List.length_cons, ih hs]

/-- A filled template has as many words as the template, whatever its fields are filled with. -/
theorem length_fillTemplate {template agentId : String} {dir : Path} {ws : List (List Char)}
    {filled : List String} (hw : Command.words template.toList = .ok ws)
    (h : fillTemplate template agentId dir = .ok filled) : filled.length = ws.length := by
  unfold fillTemplate at h
  rw [hw] at h
  change Except.bind (ws.mapM _) _ = _ at h
  unfold Except.bind at h
  split at h
  · cases h
  · next us hu =>
    cases h
    rw [List.length_map, length_of_mapM_eq_ok hu]

/-- The command for a call. -/
def argv (c : AgentCommand) (agentId : String) (dir : Path) (model effort engine : Option String) :
    Except Command.Fault (List String) := do
  let template ← c.templateFor agentId engine
  let filled ← fillTemplate template agentId dir
  return filled ++ flagged c.modelFlag model id
    ++ flagged c.effortFlag effort fun e => "model_reasoning_effort=\"" ++ e ++ "\""

end AgentCommand

end Conductor
