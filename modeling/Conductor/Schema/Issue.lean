/-!
# Checked values

The result of checking a JSON value against what is expected of it: a typed value, or the list of
all issues found, each with its place. Checks of different members are joined so that the issues of
all of them are kept. Main statement: two joined checks succeed iff both do.
-/

namespace Conductor.Schema

/-- A step into a JSON value. -/
inductive Key where
  | name (s : String)
  | index (n : Nat)
  deriving DecidableEq, Repr

/-- What is wrong with a value. -/
inductive IssueKind where
  | missing
  | textType
  | textTooShort
  | textUnicode
  | numberType
  | numberParsing
  | integerType
  | integerParsing
  | integerParsingSize
  | integerFromNumber
  | finiteNumber
  | flagType
  | flagParsing
  | listType
  | tableType
  | recordType
  | recordAttributesType
  | choice
  | enumeration
  | extraForbidden
  | tagNotFound
  | tagInvalid
  | tooSmall
  | pathType
  | momentType
  | momentRange
  | momentParsing
  deriving DecidableEq, Repr

/-- The name under which an issue is reported. -/
def IssueKind.name : IssueKind → String
  | missing => "missing"
  | textType => "string_type"
  | textTooShort => "string_too_short"
  | textUnicode => "string_unicode"
  | numberType => "float_type"
  | numberParsing => "float_parsing"
  | integerType => "int_type"
  | integerParsing => "int_parsing"
  | integerParsingSize => "int_parsing_size"
  | integerFromNumber => "int_from_float"
  | finiteNumber => "finite_number"
  | flagType => "bool_type"
  | flagParsing => "bool_parsing"
  | listType => "list_type"
  | tableType => "dict_type"
  | recordType => "model_type"
  | recordAttributesType => "model_attributes_type"
  | choice => "literal_error"
  | enumeration => "enum"
  | extraForbidden => "extra_forbidden"
  | tagNotFound => "union_tag_not_found"
  | tagInvalid => "union_tag_invalid"
  | tooSmall => "greater_than_equal"
  | pathType => "path_type"
  | momentType => "datetime_type"
  | momentRange => "datetime_parsing"
  | momentParsing => "datetime_from_date_parsing"

/-- Something wrong at a place. -/
structure Issue where
  place : List Key
  kind : IssueKind
  deriving DecidableEq, Repr

/-- A checked value. -/
inductive Checked (α : Type) where
  | ok (a : α)
  | bad (issues : List Issue)
  deriving Repr

namespace Checked

/-- One issue at the value itself. -/
def fail {α : Type} (kind : IssueKind) : Checked α := bad [⟨[], kind⟩]

/-- Applies a function to a checked value. -/
def map {α β : Type} (f : α → β) : Checked α → Checked β
  | ok a => ok (f a)
  | bad issues => bad issues

/-- Joins two checks and keeps the issues of both. -/
def ap {α β : Type} : Checked (α → β) → Checked α → Checked β
  | ok f, ok a => ok (f a)
  | ok _, bad issues => bad issues
  | bad issues, ok _ => bad issues
  | bad first, bad second => bad (first ++ second)

instance : Applicative Checked where
  map := map
  pure := ok
  seq f a := ap f (a ())

/-- Checks the value further. -/
def andThen {α β : Type} (a : Checked α) (f : α → Checked β) : Checked β :=
  match a with
  | ok a => f a
  | bad issues => bad issues

/-- The same result one step deeper. -/
def below {α : Type} (key : Key) : Checked α → Checked α
  | ok a => ok a
  | bad issues => bad (issues.map fun i => { i with place := key :: i.place })

/-- All the values, or the issues of all. -/
def all {α : Type} : List (Checked α) → Checked (List α)
  | [] => ok []
  | a :: as => ap (map (· :: ·) a) (all as)

/-- The value, or the issues as an error. -/
def toExcept {α : Type} : Checked α → Except (List Issue) α
  | ok a => .ok a
  | bad issues => .error issues

theorem map_eq_ok_iff {α β : Type} {f : α → β} {a : Checked α} {b : β} :
    f <$> a = ok b ↔ ∃ x, a = ok x ∧ f x = b := by
  cases a with
  | ok x => exact ⟨fun h => ⟨x, rfl, ok.inj h⟩, fun ⟨_, hx, h⟩ => by cases hx; cases h; rfl⟩
  | bad issues => exact ⟨nofun, nofun⟩

theorem below_eq_ok_iff {α : Type} {key : Key} {a : Checked α} {x : α} :
    a.below key = ok x ↔ a = ok x := by
  cases a <;> simp [below]

/-- Two joined checks succeed iff both do. -/
theorem ap_eq_ok_iff {α β : Type} {f : Checked (α → β)} {a : Checked α} {b : β} :
    ap f a = ok b ↔ ∃ g x, f = ok g ∧ a = ok x ∧ g x = b := by
  cases f <;> cases a <;> simp [ap]

end Checked

/-- How a list of issues is announced. -/
def issuesMessage (title : String) (issues : List Issue) : String :=
  let count := issues.length
  let place (i : Issue) : String := ".".intercalate (i.place.map fun
    | .name s => s
    | .index n => toString n)
  let errors := if count = 1 then "error" else "errors"
  s!"{count} validation {errors} for {title}\n"
    ++ "\n".intercalate (issues.map fun i => place i ++ ": " ++ i.kind.name)

end Conductor.Schema
