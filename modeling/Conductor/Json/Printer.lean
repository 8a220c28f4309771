import Conductor.Json.Basic
import Conductor.Number.Shortest
import Conductor.Text.Quoted

/-!
# Printing JSON

Two layouts: on one line, with a space after each comma and colon, and indented by two spaces a
level with one item or member a line. Characters beyond ASCII are printed as they are, lone halves
of pairs as escapes.
-/

namespace Conductor.Json

open Number Text

/-- The printed form of one character of a text. -/
def textChar (c : Char) : List Char :=
  match c with
  | '"' => ['\\', '"']
  | '\\' => ['\\', '\\']
  | '\n' => ['\\', 'n']
  | '\r' => ['\\', 'r']
  | '\t' => ['\\', 't']
  | '\x0c' => ['\\', 'f']
  | '\x08' => ['\\', 'b']
  | c =>
    if c.toNat < 0x20 then '\\' :: 'u' :: hexDigits 4 c.toNat
    else match LoneHalf.unit? c with
      | some unit => '\\' :: 'u' :: hexDigits 4 unit
      | none => [c]

/-- The printed form of a text. -/
def textChars (s : String) : List Char := '"' :: (s.toList.flatMap textChar ++ ['"'])

/-- The printed form of an integer. -/
def intChars (n : Int) : List Char :=
  if n < 0 then '-' :: Nat.toDigits 10 n.natAbs else Nat.toDigits 10 n.natAbs

/-- The printed form of a number that is no integer. -/
def realChars : Binary64 → List Char
  | .nan => "NaN".toList
  | .infinite negative => (if negative then "-Infinity" else "Infinity").toList
  | x => x.shortest.toList

mutual

/-- A value on one line. -/
def lineChars : Json → List Char
  | null => "null".toList
  | bool b => (if b then "true" else "false").toList
  | int n => intChars n
  | real x => realChars x
  | str s => textChars s
  | arr items => '[' :: (itemsChars items ++ [']'])
  | obj members => '\x7b' :: (membersChars members ++ ['\x7d'])

/-- Items with commas between them. -/
def itemsChars : List Json → List Char
  | [] => []
  | [v] => lineChars v
  | v :: vs => lineChars v ++ ',' :: ' ' :: itemsChars vs

/-- Members with commas between them. -/
def membersChars : List (String × Json) → List Char
  | [] => []
  | [(n, v)] => textChars n ++ ':' :: ' ' :: lineChars v
  | (n, v) :: ms => textChars n ++ ':' :: ' ' :: (lineChars v ++ ',' :: ' ' :: membersChars ms)

end

/-- A line feed and the indentation of a level. -/
def newLine (level : Nat) : List Char := '\n' :: List.replicate (2 * level) ' '

mutual

/-- A value in the indented layout, its first line standing at `level`. -/
def indentedChars (level : Nat) : Json → List Char
  | arr [] => ['[', ']']
  | arr items => '[' :: (itemLines (level + 1) items ++ newLine level ++ [']'])
  | obj [] => ['\x7b', '\x7d']
  | obj members => '\x7b' :: (memberLines (level + 1) members ++ newLine level ++ ['\x7d'])
  | null => "null".toList
  | bool b => (if b then "true" else "false").toList
  | int n => intChars n
  | real x => realChars x
  | str s => textChars s

/-- Items, each on lines of its own. -/
def itemLines (level : Nat) : List Json → List Char
  | [] => []
  | [v] => newLine level ++ indentedChars level v
  | v :: vs => newLine level ++ indentedChars level v ++ ',' :: itemLines level vs

/-- Members, each on lines of its own. -/
def memberLines (level : Nat) : List (String × Json) → List Char
  | [] => []
  | [(n, v)] => newLine level ++ textChars n ++ ':' :: ' ' :: indentedChars level v
  | (n, v) :: ms =>
    newLine level ++ textChars n ++ ':' :: ' ' ::
      (indentedChars level v ++ ',' :: memberLines level ms)

end

/-- A value on one line. -/
def line (v : Json) : String := String.ofList (lineChars v)

/-- A value in the indented layout with a final line feed. -/
def document (v : Json) : String := String.ofList (indentedChars 0 v ++ ['\n'])

end Conductor.Json
