import Conductor.Store.Basic
import Conductor.Text.Order

/-!
# Listing a store

What stands below a place, as names relative to it, in order; a directory's name ends with a slash.
-/

namespace Conductor.Store

/-- Whether a place lies below another one. -/
def isBelow (dir place : Place) : Bool := dir.isPrefixOf place && dir.length < place.length

/-- The name of an entry seen from a place above it. -/
def shownBelow (dir : Place) (e : Place × Node) : String :=
  "/".intercalate (e.1.drop dir.length) ++
    match e.2 with
    | .directory => "/"
    | .file .. => ""

/-- Everything below a place. -/
def listing (s : Store) (dir : Place) : List String :=
  Text.sortTexts ((s.entries.filter fun e => isBelow dir e.1).map (shownBelow dir))

end Conductor.Store
