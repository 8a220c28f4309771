import Conductor.Catalog.Reader
import Conductor.State.World

/-!
# Loading a catalog

A catalog is loaded from a JSON file. A missing, malformed or invalid file is a fault of the
catalog; other failures to read are passed on as they are.
-/

namespace Conductor

namespace Catalog

/-- The catalog that a file's text holds. -/
def ofText (path text : String) : Except Fault Catalog :=
  match Json.read text with
  | .error (.malformed n) =>
    .error (.catalog (.malformed path ((Json.ReadError.malformed n).message text)))
  | .error e => .error (.json e text)
  | .ok (.obj ms) => (ofMembers ms).mapError .catalog
  | .ok _ => .error (.catalog (.notObject path))

/-- The record of a loaded catalog. -/
def loadedRecord (path : String) (c : Catalog) : Record :=
  { level := .info, source := .catalog, message := "Catalog loaded",
    details := [("path", .str path), ("entries", .int c.entries.length)] }

/-- Loads the catalog at a path. -/
def load (path : Path) : Act Catalog := do
  match ← Act.readText path with
  | .error (.file e) =>
    throw (if e.cause = .missing then .catalog (.notFound path.toString) else .file e)
  | .error e => throw (.read e)
  | .ok text =>
    let c ← Act.lift (ofText path.toString text)
    Act.note [loadedRecord path.toString c]
    return c

end Catalog

end Conductor
