import Conductor.Number.Binary64

/-!
# JSON values

A JSON value with integers and other numbers kept apart, and an object's members in the order of
their first appearance. Main statement: a member that has just been put is the one found.
-/

namespace Conductor

open Number

/-- A JSON value. -/
inductive Json where
  | null
  | bool (b : Bool)
  | int (n : Int)
  | real (x : Binary64)
  | str (s : String)
  | arr (items : List Json)
  | obj (members : List (String × Json))
  deriving Repr, Inhabited

namespace Json

/-- The member of a name. -/
def member? (members : List (String × Json)) (name : String) : Option Json :=
  (members.find? (·.1 == name)).map (·.2)

/-- Gives a name a value: in place where the name is already there, else at the end. -/
def put (members : List (String × Json)) (name : String) (value : Json) : List (String × Json) :=
  match members with
  | [] => [(name, value)]
  | (n, v) :: rest => if n == name then (n, value) :: rest else (n, v) :: put rest name value

/-- The members of an object. -/
def members? : Json → Option (List (String × Json))
  | obj ms => some ms
  | _ => none

/-- A text or null. -/
def ofOption : Option String → Json
  | none => null
  | some s => str s

theorem member?_put_self (members : List (String × Json)) (name : String) (value : Json) :
    member? (put members name value) name = some value := by
  induction members with
  | nil => simp [put, member?]
  | cons m rest ih =>
    obtain ⟨n, v⟩ := m
    rw [put]
    split
    · next h => simp [member?, h]
    · next h =>
      simp only [member?, List.find?_cons] at ih ⊢
      simpa [h] using ih

end Json

end Conductor
