import Conductor.Json.Members
import Conductor.Json.Reader
import Conductor.Settings.Basic
import Conductor.Settings.DotEnv
import Conductor.State.World
import Conductor.Text.Case

/-!
# Reading settings

Settings are given by variables of the surroundings, by a file of variables in the current directory
and by the caller, the later ones of a value being stronger: the file is weakest, the caller
strongest. Variables are matched without regard to case. The table of engines is JSON and is joined
from all three. Main statement: what the caller gives for a setting is what is checked, unless it
is a table.
-/

namespace Conductor

open Text Json

/-- Where variables come from. -/
inductive Origin where
  | surroundings
  | file
  deriving DecidableEq, Repr, Inhabited

/-- The name under which an origin is reported. -/
def Origin.name : Origin → String
  | surroundings => "EnvSettingsSource"
  | file => "DotEnvSettingsSource"

namespace Settings

/-- The value of the last variable of a name, in any case. -/
def lastGiven? (vars : Variables) (name : String) : Option String :=
  (vars.reverse.find? fun v => lower v.1 == lower name).bind (·.2)

/-- The table of engines that a variable holds. -/
def enginesOf (origin : Origin) (text : String) : Except Fault Json :=
  match Json.read text with
  | .ok v => .ok v
  | .error (.tooDeep inArray) => .error (.json (.tooDeep inArray) text)
  | .error _ => .error (.settings "agent_engines" origin.name)

/-- What a variable gives for a setting; a table of engines that is null is not given. -/
def valueOf (origin : Origin) (name text : String) : Except Fault (Option Json) :=
  if name = enginesName then do
    match ← enginesOf origin text with
    | .null => return none
    | v => return some v
  else .ok (some (.str text))

/-- What variables give for the settings of some names. -/
def givenBy (origin : Origin) (vars : Variables) : List String → Except Fault Members
  | [] => .ok []
  | name :: rest => do
    let value ← match lastGiven? vars name with
      | none => .ok none
      | some text => valueOf origin name text
    let others ← givenBy origin vars rest
    return (value.map fun v => (name, v)).toList ++ others

/-- Two values given for a setting in one: the stronger one, or both tables joined. -/
def joinValue (weak strong : Json) : Json :=
  match weak, strong with
  | .obj ws, .obj ss => .obj (ss.foldl (fun ms m => Json.put ms m.1 m.2) ws)
  | _, _ => strong

/-- What is given for a setting by two sides. -/
def joinGiven (weak strong : Members) (name : String) : Option Json :=
  match Json.member? weak name, Json.member? strong name with
  | some w, some s => some (joinValue w s)
  | some w, none => some w
  | none, s => s

/-- What two sides give for the settings. -/
def join (weak strong : Members) : Members :=
  names.filterMap fun name => (joinGiven weak strong name).map fun v => (name, v)

/-- The name of the file of variables. -/
def variablesFile : Path := .ofString ".env"

/-- The variables that the file in the current directory gives, if there is one. -/
def fileVariables (surroundings : Variables) : Act Variables := do
  let w ← get
  match w.store.stat w.cwd variablesFile with
  | .ok (_, .file _ _) =>
    match ← Act.readText variablesFile with
    | .error e => throw (.read e)
    | .ok text =>
      let known := surroundings.map fun v => (v.1.toList, v.2.map String.toList)
      return (DotEnv.read known text.toList).map fun v => (String.ofList v.1, v.2.map String.ofList)
  | _ => return []

/-- The title under which wrong settings are reported. -/
def title : String := "OrchestratorSettings"

/-- Reads the settings, with what the caller gives. -/
def load (surroundings : Variables) (given : Members) : Act Settings := do
  let ofFile ← fileVariables surroundings
  let strong ← Act.lift (givenBy .surroundings surroundings names)
  let weak ← Act.lift (givenBy .file ofFile names)
  match check (join (join weak strong) given) with
  | .ok s => return s
  | .bad issues => throw (.invalid title issues)

/-- What the stronger side gives for a setting is what is checked, unless it is a table. -/
theorem joinGiven_of_member? {weak strong : Members} {name : String} {v : Json}
    (h : Json.member? strong name = some v) (hv : v.members? = none) :
    joinGiven weak strong name = some v := by
  unfold joinGiven
  rw [h]
  cases Json.member? weak name with
  | none => rfl
  | some w => cases w <;> cases v <;> simp_all [joinValue, Json.members?]

end Settings

end Conductor
