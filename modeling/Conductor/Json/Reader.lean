import Conductor.Json.Basic
import Conductor.Text.Digit
import Conductor.Text.LoneHalf

/-!
# Reading JSON

The reader takes the JSON grammar with the three extra number words for the values that are no
numbers. Three things make it fail: a text that is not in the grammar, an integer of too many digits
and values nested too deeply. Of two members of one name the last value counts.
-/

namespace Conductor.Json

open Number Text

/-- Why a text could not be read. -/
inductive ReadError where
  /-- The text is not JSON where that many characters are still unread. -/
  | malformed (unread : Nat)
  /-- An integer is written with that many digits. -/
  | hugeInteger (digits : Nat)
  /-- Values are nested too deeply, the innermost being an array or an object. -/
  | tooDeep (inArray : Bool)
  deriving DecidableEq, Repr

/-- Where in a text `unread` characters are left: line and column from one, and the offset. -/
def placeText (s : List Char) (unread : Nat) : String :=
  let before := s.take (s.length - unread)
  let line := before.count '\n' + 1
  let column := (before.reverse.takeWhile (· ≠ '\n')).length + 1
  s!"line {line} column {column} (char {before.length})"

/-- What is wrong with the text `s`. -/
def ReadError.message (s : String) : ReadError → String
  | malformed unread => "Expecting value: " ++ placeText s.toList unread
  | hugeInteger digits =>
    s!"Exceeds the limit (4300 digits) for integer string conversion: value has {digits} digits; "
      ++ "use sys.set_int_max_str_digits() to increase the limit"
  | tooDeep inArray =>
    "maximum recursion depth exceeded while decoding a JSON "
      ++ (if inArray then "array" else "object") ++ " from a unicode string"

/-- How deep values may be nested. -/
def maxDepth : Nat := 980

/-- A character that separates JSON tokens. -/
def isSpace (c : Char) : Bool := c == ' ' || c == '\t' || c == '\n' || c == '\r'

/-- Drops the spaces at the start. -/
def skipSpace (s : List Char) : List Char := s.dropWhile isSpace

/-- An ASCII digit. -/
def isDigit (c : Char) : Bool := '0' ≤ c && c ≤ '9'

/-- The value of a hexadecimal digit. -/
def hexValue? (c : Char) : Option Nat :=
  if isDigit c then some (c.toNat - '0'.toNat)
  else if 'a' ≤ c && c ≤ 'f' then some (c.toNat - 'a'.toNat + 10)
  else if 'A' ≤ c && c ≤ 'F' then some (c.toNat - 'A'.toNat + 10)
  else none

/-- Four hexadecimal digits and the rest. -/
def hexQuad? : List Char → Option (Nat × List Char)
  | a :: b :: c :: d :: rest => do
    let a ← hexValue? a
    let b ← hexValue? b
    let c ← hexValue? c
    let d ← hexValue? d
    some (4096 * a + 256 * b + 16 * c + d, rest)
  | _ => none

/-- The character for the code unit `unit`, joined with a second half that follows where it is the
first half of a pair. A half without its partner stays alone. -/
def joinUnits (unit : Nat) (rest : List Char) : Char × List Char :=
  if 0xD800 ≤ unit && unit ≤ 0xDBFF then
    match rest with
    | '\\' :: 'u' :: r =>
      match hexQuad? r with
      | some (low, r) =>
        if 0xDC00 ≤ low && low ≤ 0xDFFF then
          (Char.ofNat (0x10000 + (unit - 0xD800) * 0x400 + (low - 0xDC00)), r)
        else (LoneHalf.standIn unit, rest)
      | none => (LoneHalf.standIn unit, rest)
    | _ => (LoneHalf.standIn unit, rest)
  else if LoneHalf.isUnit unit then (LoneHalf.standIn unit, rest)
  else (Char.ofNat unit, rest)

/-- The character that a one-letter escape stands for. -/
def escaped? (c : Char) : Option Char :=
  match c with
  | '"' => some '"'
  | '\\' => some '\\'
  | '/' => some '/'
  | 'b' => some '\x08'
  | 'f' => some '\x0c'
  | 'n' => some '\n'
  | 'r' => some '\r'
  | 't' => some '\t'
  | _ => none

/-- The text up to the closing quote, and the rest; `fuel` bounds the characters read. -/
def readText : (fuel : Nat) → List Char → Except ReadError (List Char × List Char)
  | 0, s => .error (.malformed s.length)
  | fuel + 1, s =>
    match s with
    | [] => .error (.malformed 0)
    | '"' :: rest => .ok ([], rest)
    | '\\' :: 'u' :: rest =>
      match hexQuad? rest with
      | none => .error (.malformed rest.length)
      | some (unit, rest) => do
        let (c, rest) := joinUnits unit rest
        let (cs, rest) ← readText fuel rest
        .ok (c :: cs, rest)
    | '\\' :: e :: rest =>
      match escaped? e with
      | none => .error (.malformed rest.length)
      | some c => do
        let (cs, rest) ← readText fuel rest
        .ok (c :: cs, rest)
    | c :: rest =>
      if c.toNat < 0x20 || c = '\\' then .error (.malformed s.length)
      else do
        let (cs, rest) ← readText fuel rest
        .ok (c :: cs, rest)

/-- The number that ASCII digits write. -/
def digitsValue (ds : List Char) : Nat := ds.foldl (fun n d => 10 * n + (d.toNat - '0'.toNat)) 0

/-- The fraction digits after a point, if there are any. -/
def readFraction (s : List Char) : List Char × List Char :=
  match s with
  | '.' :: rest =>
    let ds := rest.takeWhile isDigit
    if ds.isEmpty then ([], s) else (ds, rest.dropWhile isDigit)
  | _ => ([], s)

/-- The exponent after its letter, if it is complete. -/
def readExponent (s : List Char) : Option Int × List Char :=
  match s with
  | e :: rest =>
    if e = 'e' || e = 'E' then
      let (negative, ds) : Bool × List Char := match rest with
        | '-' :: r => (true, r)
        | '+' :: r => (false, r)
        | r => (false, r)
      let digits := ds.takeWhile isDigit
      if digits.isEmpty then (none, s)
      else
        let n : Int := digitsValue digits
        (some (if negative then -n else n), ds.dropWhile isDigit)
    else (none, s)
  | [] => (none, s)

/-- Reads the number that starts with the digits of `s`. -/
def readNumber (negative : Bool) (s : List Char) : Except ReadError (Json × List Char) :=
  match s with
  | [] => .error (.malformed 0)
  | c :: cs =>
    if !isDigit c then .error (.malformed s.length)
    else
      let (whole, rest) :=
        if c = '0' then (['0'], cs) else (s.takeWhile isDigit, s.dropWhile isDigit)
      let (fraction, rest) := readFraction rest
      let (exponent, rest) := readExponent rest
      if fraction.isEmpty && exponent.isNone then
        if maxDigits < whole.length then .error (.hugeInteger whole.length)
        else
          let n : Int := digitsValue whole
          .ok (.int (if negative then -n else n), rest)
      else
        let scale := exponent.getD 0 - (fraction.length : Int)
        .ok (.real (.ofDecimal negative (digitsValue (whole ++ fraction)) scale), rest)

/-- The words that stand for a value. -/
def keywords : List (String × Json) :=
  [("null", null), ("true", bool true), ("false", bool false), ("NaN", real .nan),
    ("Infinity", real (.infinite false)), ("-Infinity", real (.infinite true))]

/-- The value of the word that a text starts with. -/
def keyword? (s : List Char) : Option (Json × List Char) :=
  keywords.findSome? fun (word, v) =>
    if word.toList.isPrefixOf s then some (v, s.drop word.length) else none

/-- The object of members in reading order; a repeated name keeps its place and takes the new
value. -/
def ofMembers (members : List (String × Json)) : Json :=
  obj (members.foldl (fun ms m => put ms m.1 m.2) [])

mutual

/-- Reads one value; `fuel` bounds the values and members read, `depth` the nesting. -/
def readValue : (fuel depth : Nat) → List Char → Except ReadError (Json × List Char)
  | 0, _, s => .error (.malformed s.length)
  | fuel + 1, depth, s =>
    match s with
    | '"' :: rest => do
      let (cs, rest) ← readText (rest.length + 1) rest
      .ok (str (String.ofList cs), rest)
    | '[' :: rest =>
      match depth with
      | 0 => .error (.tooDeep true)
      | depth + 1 =>
        match skipSpace rest with
        | ']' :: rest => .ok (arr [], rest)
        | rest => do
          let (items, rest) ← readItems fuel depth rest
          .ok (arr items, rest)
    | '\x7b' :: rest =>
      match depth with
      | 0 => .error (.tooDeep false)
      | depth + 1 =>
        match skipSpace rest with
        | '\x7d' :: rest => .ok (obj [], rest)
        | rest => do
          let (members, rest) ← readMembers fuel depth rest
          .ok (ofMembers members, rest)
    | _ =>
      match keyword? s with
      | some r => .ok r
      | none =>
        match s with
        | '-' :: rest => readNumber true rest
        | s => readNumber false s

/-- Reads values between commas up to the closing bracket. -/
def readItems : (fuel depth : Nat) → List Char → Except ReadError (List Json × List Char)
  | 0, _, s => .error (.malformed s.length)
  | fuel + 1, depth, s => do
    let (v, rest) ← readValue fuel depth s
    match skipSpace rest with
    | ',' :: rest => do
      let (vs, rest) ← readItems fuel depth (skipSpace rest)
      .ok (v :: vs, rest)
    | ']' :: rest => .ok ([v], rest)
    | rest => .error (.malformed rest.length)

/-- Reads members between commas up to the closing brace. -/
def readMembers : (fuel depth : Nat) → List Char →
    Except ReadError (List (String × Json) × List Char)
  | 0, _, s => .error (.malformed s.length)
  | fuel + 1, depth, s =>
    match s with
    | '"' :: rest => do
      let (name, rest) ← readText (rest.length + 1) rest
      match skipSpace rest with
      | ':' :: rest => do
        let (v, rest) ← readValue fuel depth (skipSpace rest)
        let m := (String.ofList name, v)
        match skipSpace rest with
        | ',' :: rest => do
          let (ms, rest) ← readMembers fuel depth (skipSpace rest)
          .ok (m :: ms, rest)
        | '\x7d' :: rest => .ok ([m], rest)
        | rest => .error (.malformed rest.length)
      | rest => .error (.malformed rest.length)
    | s => .error (.malformed s.length)

end

/-- Reads a text that holds one value with nothing but space around it. -/
def readChars (s : List Char) : Except ReadError Json := do
  let (v, rest) ← readValue (s.length + 1) maxDepth (skipSpace s)
  match skipSpace rest with
  | [] => .ok v
  | rest => .error (.malformed rest.length)

/-- `readChars` on strings. -/
def read (s : String) : Except ReadError Json := readChars s.toList

end Conductor.Json
