import Conductor.Json.Basic

/-!
# Members of an object

Reading the members of an object leniently: a member that is absent, null or of another type counts
as not given.
-/

namespace Conductor.Json

open Number

/-- The members of an object in order. -/
abbrev Members := List (String × Json)

/-- The members of a value, none where it is no object. -/
def membersOf : Json → Members
  | obj ms => ms
  | _ => []

/-- The text of a value, empty where it is no text. -/
def textOf : Json → String
  | str s => s
  | _ => ""

namespace Members

/-- A member that is given. -/
def given? (ms : Members) (name : String) : Option Json :=
  match member? ms name with
  | some null => none
  | v => v

/-- The members of a member. -/
def object (ms : Members) (name : String) : Members := ((given? ms name).map membersOf).getD []

/-- A text. -/
def text? (ms : Members) (name : String) : Option String :=
  match given? ms name with
  | some (str s) => some s
  | _ => none

/-- A text, or what stands for it. -/
def text (ms : Members) (name : String) (absent : String := "") : String :=
  (text? ms name).getD absent

/-- An integer. -/
def int? (ms : Members) (name : String) : Option Int :=
  match given? ms name with
  | some (int n) => some n
  | _ => none

/-- An integer, or what stands for it. -/
def int (ms : Members) (name : String) (absent : Int := 0) : Int := (int? ms name).getD absent

/-- A number. -/
def number? (ms : Members) (name : String) : Option Binary64 :=
  match given? ms name with
  | some (.int n) => some (.ofInt n)
  | some (.real x) => some x
  | _ => none

/-- A flag, or what stands for it. -/
def flag (ms : Members) (name : String) (absent : Bool := false) : Bool :=
  match given? ms name with
  | some (bool b) => b
  | _ => absent

/-- The items of a list. -/
def items (ms : Members) (name : String) : List Json :=
  match given? ms name with
  | some (arr xs) => xs
  | _ => []

/-- The texts of a list. -/
def texts (ms : Members) (name : String) : List String :=
  (items ms name).filterMap fun
    | str s => some s
    | _ => none

/-- The integers of a list. -/
def ints (ms : Members) (name : String) : List Int :=
  (items ms name).filterMap fun
    | .int n => some n
    | _ => none

/-- The texts of an object's members. -/
def textTable (ms : Members) (name : String) : List (String × String) :=
  (object ms name).filterMap fun
    | (n, str s) => some (n, s)
    | _ => none

end Members

/-- An integer or null. -/
def ofInt? : Option Int → Json
  | none => null
  | some n => int n

/-- A natural number or null. -/
def ofNat? : Option Nat → Json
  | none => null
  | some n => int n

/-- The shortest text of a number, or null. -/
def ofNumber? (text : Binary64 → String) : Option Binary64 → Json
  | none => null
  | some x => str (text x)

end Conductor.Json
