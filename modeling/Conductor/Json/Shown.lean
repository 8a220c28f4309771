import Conductor.Json.Printer

/-!
# Values shown to readers

How a value stands in a message: a text as it is, and inside another value in quotes; lists in
brackets and tables in braces.
-/

namespace Conductor.Json

open Number Text

/-- The word for the type of a value. -/
def typeWord : Json → String
  | null => "NoneType"
  | bool _ => "bool"
  | int _ => "int"
  | real _ => "float"
  | str _ => "str"
  | arr _ => "list"
  | obj _ => "dict"

mutual

/-- A value with texts in quotes. -/
def quotedValue : Json → List Char
  | null => "None".toList
  | bool b => (if b then "True" else "False").toList
  | int n => intChars n
  | real x => x.shortest.toList
  | str s => quotedChars s.toList
  | arr items => '[' :: (quotedItems items ++ [']'])
  | obj members => '\x7b' :: (quotedMembers members ++ ['\x7d'])

/-- Items with commas between them. -/
def quotedItems : List Json → List Char
  | [] => []
  | [v] => quotedValue v
  | v :: vs => quotedValue v ++ ',' :: ' ' :: quotedItems vs

/-- Members with commas between them. -/
def quotedMembers : List (String × Json) → List Char
  | [] => []
  | [(n, v)] => quotedChars n.toList ++ ':' :: ' ' :: quotedValue v
  | (n, v) :: ms =>
    quotedChars n.toList ++ ':' :: ' ' :: (quotedValue v ++ ',' :: ' ' :: quotedMembers ms)

end

/-- A value, a text as it is. -/
def shown : Json → List Char
  | str s => s.toList
  | v => quotedValue v

end Conductor.Json
