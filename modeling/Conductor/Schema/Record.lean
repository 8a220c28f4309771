import Conductor.Schema.Scalar

/-!
# Checking lists, tables and records

A record's field has two names: a first one, under which it is reported missing, and one more that
is taken where the first is absent. Members that belong to no field are passed over or refused.
-/

namespace Conductor.Schema

open Text

/-- The two names of a field; the first one goes before the other. -/
structure FieldName where
  first : String
  other : String

/-- A field with one name. -/
def FieldName.single (name : String) : FieldName := ⟨name, name⟩

/-- The value given for a field, with the name it goes by. -/
def FieldName.find? (f : FieldName) (members : List (String × Json)) : Option (String × Json) :=
  match Json.member? members f.first with
  | some v => some (f.first, v)
  | none => (Json.member? members f.other).map fun v => (f.other, v)

/-- A field that may be absent, for which `absent` stands then. -/
def fieldOr {α : Type} (members : List (String × Json)) (f : FieldName) (absent : α)
    (check : Json → Checked α) : Checked α :=
  match f.find? members with
  | some (name, v) => (check v).below (.name name)
  | none => .ok absent

/-- A field that must be there. -/
def field {α : Type} (members : List (String × Json)) (f : FieldName)
    (check : Json → Checked α) : Checked α :=
  match f.find? members with
  | some (name, v) => (check v).below (.name name)
  | none => (Checked.fail .missing).below (.name f.first)

/-- Whether a member's name belongs to a field: it is the first name, or the other one where the
first is absent. -/
def belongs (members : List (String × Json)) (fields : List FieldName) (name : String) : Bool :=
  fields.any fun f =>
    f.first == name || (f.other == name && (Json.member? members f.first).isNone)

/-- Refuses the members that belong to no field. -/
def nothingElse (members : List (String × Json)) (fields : List FieldName) : Checked Unit :=
  (Checked.all ((members.filter fun m => !belongs members fields m.1).map fun m =>
    (Checked.fail (α := Unit) .extraForbidden).below (.name m.1))).map fun _ => ()

/-- Checks items, the first of which stands at `index`. -/
def itemsFrom {α : Type} (check : Json → Checked α) (index : Nat) : List Json → List (Checked α)
  | [] => []
  | v :: vs => (check v).below (.index index) :: itemsFrom check (index + 1) vs

/-- A list whose items pass a check. -/
def list {α : Type} (check : Json → Checked α) : Json → Checked (List α)
  | .arr items => .all (itemsFrom check 0 items)
  | _ => .fail .listType

/-- A name of a table, which must be a proper text. -/
def tableName (name : String) : Checked String :=
  (whole name (.ok name)).below (.name "[key]")

/-- A table whose values pass a check. -/
def table {α : Type} (check : Json → Checked α) : Json → Checked (List (String × α))
  | .obj members =>
    .all (members.map fun m =>
      (Prod.mk <$> tableName m.1 <*> check m.2).below (.name (LoneHalf.replaced m.1)))
  | _ => .fail .tableType

/-- The members of a record. -/
def record {α : Type} (build : List (String × Json) → Checked α) : Json → Checked α
  | .obj members => build members
  | _ => .fail .recordType

/-- The members of a record that has no members but those of its fields. Their names must be proper
texts, or nothing else is looked at. -/
def closedRecord {α : Type} (fields : List FieldName)
    (build : List (String × Json) → Checked α) : Json → Checked α :=
  record fun members =>
    if members.any fun m => LoneHalf.occursIn m.1 then .fail .textUnicode
    else (fun a _ => a) <$> build members <*> nothingElse members fields

end Conductor.Schema
