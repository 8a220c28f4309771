import Conductor.State.World
import Conductor.Template.Resolution

/-!
# Loading a template

A template is loaded from a JSON file. A missing, malformed or invalid file is a fault of the
template; other failures to read are passed on as they are.
-/

namespace Conductor

namespace Template

/-- The template that a file's text holds. -/
def ofText (path text : String) : Except Fault Template :=
  match Json.read text with
  | .error (.malformed n) =>
    .error (.template (.malformed path ((Json.ReadError.malformed n).message text)))
  | .error e => .error (.json e text)
  | .ok v =>
    match Template.check v with
    | .ok t => .ok t
    | .bad issues => .error (.template (.invalid path issues))

/-- Loads the template at a path. -/
def load (path : Path) : Act Template := do
  match ← Act.readText path with
  | .error (.file e) =>
    throw (if e.cause = .missing then .template (.notFound path.toString) else .file e)
  | .error e => throw (.read e)
  | .ok text => Act.lift (ofText path.toString text)

/-- The steps of a template, with what is noted on the way. -/
def toSteps (c : Catalog) (t : Template) : Act (List Step) := do
  Act.note (resolveRecords c t.steps)
  Act.lift ((t.resolve c).mapError .resolve)

end Template

end Conductor
