import Conductor.Schema.Issue
import Conductor.Json.Reader

/-!
# Checking single values

What is taken for a text, a number, an integer, a flag or one of some words. Numbers and flags may
also be written as texts, with their own small grammars.
-/

namespace Conductor.Schema

open Text Number

/-- Whether two underscores stand side by side. -/
def hasDoubleUnderscore : List Char → Bool
  | '_' :: '_' :: _ => true
  | _ :: cs => hasDoubleUnderscore cs
  | [] => false

/-- The text without its underscores, if it has any and each stands alone between two others. -/
def withoutUnderscores? (s : List Char) : Option (List Char) :=
  if !s.contains '_' || s.head? == some '_' || s.getLast? == some '_' || hasDoubleUnderscore s then
    none
  else some (s.filter (· ≠ '_'))

/-! ### Texts -/

/-- What a check of texts says of a text; one that holds half of a pair alone is no text. -/
def whole {α : Type} (s : String) (check : Checked α) : Checked α :=
  if LoneHalf.occursIn s then .fail .textUnicode else check

/-- A text. -/
def text : Json → Checked String
  | .str s => whole s (.ok s)
  | _ => .fail .textType

/-- A text that is not empty. -/
def nonEmptyText : Json → Checked String
  | .str s => whole s (if s.isEmpty then .fail .textTooShort else .ok s)
  | _ => .fail .textType

/-- A path. -/
def path : Json → Checked String
  | .str s => whole s (.ok s)
  | _ => .fail .pathType

/-- One of some words. -/
def oneOf {α : Type} (kind : IssueKind) (words : List (String × α)) : Json → Checked α
  | .str s => whole s <|
    match words.find? (·.1 == s) with
    | some (_, a) => .ok a
    | none => .fail kind
  | _ => .fail kind

/-- Null, or a value that passes the check. -/
def optional {α : Type} (check : Json → Checked α) : Json → Checked (Option α)
  | .null => .ok none
  | v => (check v).map some

/-! ### Numbers -/

/-- The lower case of an ASCII letter. -/
def asciiLower (c : Char) : Char := if 'A' ≤ c && c ≤ 'Z' then Char.ofNat (c.toNat + 32) else c

/-- Reads an unsigned number: digits with an optional point and exponent, or a word for infinity or
not-a-number. -/
def readMagnitude? (negative : Bool) (s : List Char) : Option Binary64 :=
  let word := String.ofList (s.map asciiLower)
  if word = "inf" || word = "infinity" then some (.infinite negative)
  else if word = "nan" then some .nan
  else
    let whole := s.takeWhile Json.isDigit
    let rest := s.dropWhile Json.isDigit
    let (fraction, rest) := match rest with
      | '.' :: r => (r.takeWhile Json.isDigit, r.dropWhile Json.isDigit)
      | r => ([], r)
    if whole.isEmpty && fraction.isEmpty then none
    else
      let (exponent, rest) := Json.readExponent rest
      if rest.isEmpty then
        some (.ofDecimal negative (Json.digitsValue (whole ++ fraction))
          (exponent.getD 0 - (fraction.length : Int)))
      else none

/-- Reads a number with an optional sign. -/
def readNumber? : List Char → Option Binary64
  | '-' :: s => readMagnitude? true s
  | '+' :: s => readMagnitude? false s
  | s => readMagnitude? false s

/-- The number that a text writes, with white space around it or with single underscores in it. -/
def numberOfText (s : List Char) : Checked Binary64 :=
  match readNumber? (trimNumber s) with
  | some x => .ok x
  | none =>
    match (withoutUnderscores? s).bind readNumber? with
    | some x => .ok x
    | none => .fail .numberParsing

/-- A number: an integer within the range of numbers, a flag or a text that writes one as well. -/
def number : Json → Checked Binary64
  | .real x => .ok x
  | .int n => let x := Binary64.ofInt n; if x.isFinite then .ok x else .fail .numberType
  | .bool b => .ok (.ofInt (if b then 1 else 0))
  | .str s => whole s (numberOfText s.toList)
  | _ => .fail .numberType

/-- A number that is at least zero. -/
def nonnegativeNumber (v : Json) : Checked Binary64 :=
  (number v).andThen fun x => if x.isNonnegative then .ok x else .fail .tooSmall

/-! ### Integers -/

/-- Reads an integer as a number is written in a data format: an optional minus and digits that do
not start with a superfluous zero. -/
def plainInteger (s : List Char) : Except IssueKind Int :=
  let (negative, ds) := match s with
    | '-' :: ds => (true, ds)
    | ds => (false, ds)
  if ds.isEmpty || !ds.all Json.isDigit || (ds.head? == some '0' && 1 < ds.length) then
    .error .integerParsing
  else if maxDigits < ds.length then .error .integerParsingSize
  else
    let n : Int := Json.digitsValue ds
    .ok (if negative then -n else n)

/-- The rest of an integer after its superfluous zeros, `last` being the zero or underscore before
`s`; the zero before a point stays, and a minus may come this late. -/
def afterZeros? (last : Char) : List Char → Option (List Char)
  | [] => some [last]
  | c :: cs =>
    if c = '0' || c = '_' then afterZeros? c cs
    else if ('1' ≤ c && c ≤ '9') || c = '-' then some (c :: cs)
    else if c = '.' then some (last :: c :: cs)
    else none

/-- Drops the zeros at the start of an integer without a sign. -/
def withoutLeadingZeros? : List Char → Option (List Char)
  | [] => none
  | c :: cs =>
    if c = '0' then afterZeros? c cs
    else if '1' ≤ c && c ≤ '9' then some (c :: cs)
    else none

/-- Drops a point followed by zeros only. -/
def withoutZeroFraction (s : List Char) : List Char :=
  match s.dropWhile (· ≠ '.') with
  | '.' :: ds => if !ds.isEmpty && ds.all (· == '0') then s.takeWhile (· ≠ '.') else s
  | _ => s

/-- The plain form of an integer written without a sign in front. -/
def tidyMagnitude? (s : List Char) : Option (List Char) := do
  let t := withoutZeroFraction (← withoutLeadingZeros? s)
  return (withoutUnderscores? t).getD t

/-- The plain form of an integer written loosely: with white space around it, a plus sign, zeros at
the start, a fraction of zeros or single underscores. -/
def tidyInteger? (s : List Char) : Option (List Char) :=
  match trimNumber s with
  | '+' :: t => tidyMagnitude? t
  | '-' :: t => (tidyMagnitude? t).map ('-' :: ·)
  | t => tidyMagnitude? t

/-- The integer that a text writes. -/
def integerOfText (s : List Char) : Checked Int :=
  match plainInteger s with
  | .ok n => .ok n
  | .error .integerParsingSize => .fail .integerParsingSize
  | .error _ =>
    match tidyInteger? s with
    | none => .fail .integerParsing
    | some t =>
      match plainInteger t with
      | .ok n => .ok n
      | .error kind => .fail kind

/-- The first integer that is too large for a word of 64 bits. -/
def wordLimit : Nat := Nat.pow 2 63

/-- Whether an integer fits into a signed word of 64 bits. -/
def isWord (n : Int) : Bool := -(wordLimit : Int) ≤ n && n < wordLimit

/-- The integer that a whole number is; it must fit into a word. -/
def integerOfNumber (x : Binary64) : Checked Int :=
  if !x.isFinite then .fail .finiteNumber
  else match x.toInt? with
    | some n => if n.natAbs < wordLimit then .ok n else .fail .integerParsingSize
    | none => .fail .integerFromNumber

/-- An integer: a flag, a whole number or a text that writes one as well. -/
def integer : Json → Checked Int
  | .int n => .ok n
  | .bool b => .ok (if b then 1 else 0)
  | .real x => integerOfNumber x
  | .str s => whole s (integerOfText s.toList)
  | _ => .fail .integerType

/-- An integer that is at least one. -/
def positiveInteger (v : Json) : Checked Nat :=
  (integer v).andThen fun n => if 1 ≤ n then .ok n.toNat else .fail .tooSmall

/-! ### Flags -/

/-- The words for yes. -/
def yesWords : List String := ["1", "on", "t", "true", "y", "yes"]

/-- The words for no. -/
def noWords : List String := ["0", "off", "f", "false", "n", "no"]

/-- A flag: zero, one, or a word for yes or no in any case as well. -/
def flag : Json → Checked Bool
  | .bool b => .ok b
  | .int n =>
    if n = 0 then .ok false else if n = 1 then .ok true
    else if isWord n then .fail .flagParsing else .fail .flagType
  | .real x =>
    match integerOfNumber x with
    | .ok n => if n = 0 then .ok false else if n = 1 then .ok true else .fail .flagParsing
    | .bad _ => .fail .flagType
  | .str s => whole s <|
    let word := String.ofList (s.toList.map asciiLower)
    if yesWords.contains word then .ok true
    else if noWords.contains word then .ok false
    else .fail .flagParsing
  | _ => .fail .flagType

end Conductor.Schema
