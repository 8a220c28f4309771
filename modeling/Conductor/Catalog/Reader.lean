import Conductor.Catalog.Basic
import Conductor.Json.Shown
import Conductor.Schema.Record

/-!
# Reading a catalog

A catalog is read from an object with a list of agents and a list of modules. Each item is checked
on its own, in order, and the first one with issues ends the reading; only then are the entries put
together.
-/

namespace Conductor

open Schema

/-- The items that a value holds: a list's, an object's names or a text's characters. -/
def Json.elements? : Json → Option (List Json)
  | .arr items => some items
  | .obj members => some (members.map fun m => .str m.1)
  | .str s => some (s.toList.map fun c => .str (String.singleton c))
  | _ => none

namespace DeclaredBehavior

/-- Checks a loop's members. -/
def checkLoop (ms : List (String × Json)) : Checked DeclaredBehavior :=
  (fun _ steps trigger maxIterations skip => .loop steps trigger maxIterations skip)
    <$> fieldOr ms (.single "action") () (oneOf .choice [("stepBack", ())])
    <*> fieldOr ms (.single "steps") none (optional number)
    <*> fieldOr ms (.single "trigger") none (optional text)
    <*> fieldOr ms ⟨"maxIterations", "max_iterations"⟩ none (optional number)
    <*> fieldOr ms (.single "skip") [] (list text)

/-- Checks a trigger's members. -/
def checkTrigger (ms : List (String × Json)) : Checked DeclaredBehavior :=
  (fun _ target => .trigger target)
    <$> fieldOr ms (.single "action") () (oneOf .choice [("mainAgentCall", ())])
    <*> fieldOr ms ⟨"triggerAgentId", "trigger_agent_id"⟩ none (optional text)

/-- Checks a behavior, which says by a tag what it is. -/
def check : Json → Checked DeclaredBehavior
  | .obj ms =>
    match Json.member? ms "type" with
    | none => .fail .tagNotFound
    | some (.str "loop") => (checkLoop ms).below (.name "loop")
    | some (.str "trigger") => (checkTrigger ms).below (.name "trigger")
    | some (.str s) => whole s (.fail .tagInvalid)
    | some _ => .fail .tagInvalid
  | _ => .fail .recordAttributesType

end DeclaredBehavior

/-- Checks the members of an entry of a kind. -/
def Entry.check (kind : EntryKind) (ms : List (String × Json)) : Checked Entry :=
  (fun id name description promptPath model effort engine behavior =>
      ⟨id, kind, name, description, promptPath, model, effort, engine, behavior⟩)
    <$> field ms (.single "id") nonEmptyText
    <*> fieldOr ms (.single "name") none (optional text)
    <*> fieldOr ms (.single "description") none (optional text)
    <*> fieldOr ms ⟨"promptPath", "prompt_path"⟩ none (optional text)
    <*> fieldOr ms (.single "model") none (optional text)
    <*> fieldOr ms ⟨"modelReasoningEffort", "model_reasoning_effort"⟩ none
        (optional (oneOf .choice Effort.byWord))
    <*> fieldOr ms (.single "engine") none (optional text)
    <*> fieldOr ms (.single "behavior") none (optional DeclaredBehavior.check)

namespace Catalog

/-- The entry that an item describes. -/
def readEntry (kind : EntryKind) (item : Json) : Except CatalogFault Entry :=
  match item with
  | .obj ms =>
    match Entry.check kind ms with
    | .ok e => .ok e
    | .bad issues => .error (.invalidEntry issues)
  | v => .error (.notObjects s!"'{v.typeWord}' object is not a mapping")

/-- The entries of a kind that an object lists under a name. -/
def readEntries (kind : EntryKind) (name : String) (ms : List (String × Json)) :
    Except CatalogFault (List Entry) :=
  match Json.member? ms name with
  | none => .ok []
  | some v =>
    match v.elements? with
    | some items => items.mapM (readEntry kind)
    | none => .error (.notObjects s!"'{v.typeWord}' object is not iterable")

/-- The catalog that an object's members describe. -/
def ofMembers (ms : List (String × Json)) : Except CatalogFault Catalog := do
  let agents ← readEntries .agent "agents" ms
  let modules ← readEntries .module "modules" ms
  ofEntries (agents ++ modules)

end Catalog

end Conductor
