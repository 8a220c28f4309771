import Conductor.Schema.Scalar

/-!
# Checking moments

Which values are taken for a moment in time: a date with an optional time of day and zone, or a
count of seconds, or of milliseconds where it is large. Only whether a value is a moment matters
here, so nothing more is computed.
-/

namespace Conductor.Schema

open Text Number

/-- A two-digit number and the rest. -/
def twoDigits? : List Char → Option (Nat × List Char)
  | a :: b :: rest =>
    if Json.isDigit a && Json.isDigit b then some (Json.digitsValue [a, b], rest) else none
  | _ => none

/-- The number of days of a month. -/
def daysInMonth (year month : Nat) : Nat :=
  if month = 2 then
    if year % 4 = 0 && (year % 100 ≠ 0 || year % 400 = 0) then 29 else 28
  else if month = 4 || month = 6 || month = 9 || month = 11 then 30
  else 31

/-- The year of a date and the rest after it. -/
def afterDate? (s : List Char) : Option (Nat × List Char) := do
  let (century, s) ← twoDigits? s
  let (years, s) ← twoDigits? s
  match s with
  | '-' :: s =>
    let (month, s) ← twoDigits? s
    match s with
    | '-' :: s =>
      let (day, s) ← twoDigits? s
      let year := 100 * century + years
      if 1 ≤ month && month ≤ 12 && 1 ≤ day && day ≤ daysInMonth year month then some (year, s)
      else none
    | _ => none
  | _ => none

/-- The rest after a fraction of a second. -/
def afterFraction? : List Char → Option (List Char)
  | '.' :: s => if (s.takeWhile Json.isDigit).isEmpty then none else some (s.dropWhile Json.isDigit)
  | ',' :: s => if (s.takeWhile Json.isDigit).isEmpty then none else some (s.dropWhile Json.isDigit)
  | s => some s

/-- The rest after a time of day. -/
def afterTime? (s : List Char) : Option (List Char) := do
  let (hour, s) ← twoDigits? s
  match s with
  | ':' :: s =>
    let (minute, s) ← twoDigits? s
    if 23 < hour || 59 < minute then none
    else match s with
      | ':' :: s =>
        let (second, s) ← twoDigits? s
        if 59 < second then none else afterFraction? s
      | s => some s
  | _ => none

/-- Whether a text is a distance from universal time. -/
def isOffset (s : List Char) : Bool :=
  match twoDigits? s with
  | some (hour, rest) =>
    let rest := match rest with
      | ':' :: r => r
      | r => r
    match twoDigits? rest with
    | some (minute, []) => hour ≤ 23 && minute ≤ 59
    | _ => false
  | none => false

/-- Whether a text is a zone or empty. -/
def isZone : List Char → Bool
  | [] => true
  | ['Z'] => true
  | ['z'] => true
  | c :: s => (c == '+' || c == '-' || c.toNat == 0x2212) && isOffset s

/-- Where a moment lies on the calendar that is written with four digits a year. -/
inductive Era where
  /-- In one of the years 1 to 9999. -/
  | counted
  /-- In the year before the first one. -/
  | yearZero
  /-- Before or after all of them. -/
  | outside
  deriving DecidableEq, Repr

/-- The era of a second counted from the start of 1970. -/
def eraOfSecond (second : Int) : Era :=
  if second < -62167219200 || 253402300799 < second then .outside
  else if second < -62135596800 then .yearZero
  else .counted

/-- The largest count that means seconds; a larger one means milliseconds. -/
def secondsLimit : Nat := 20000000000

/-- The era of a whole count of seconds or milliseconds. -/
def eraOfCount (n : Int) : Era := eraOfSecond (if n.natAbs ≤ secondsLimit then n else n / 1000)

/-- The integer part of a signed magnitude, toward the smaller one. -/
def floorOf (negative : Bool) (m : Nat) (e : Int) : Int :=
  let whole := Binary64.floorMagnitude m e
  if !negative then whole
  else if (Binary64.finite false m e).toInt? = some (whole : Int) then -(whole : Int)
  else -(whole : Int) - 1

/-- A thousandth of a magnitude, rounded to a number. -/
def thousandth (negative : Bool) (m : Nat) (e : Int) : Binary64 :=
  let (num, den) := Binary64.scaleByTwo m 1000 (-e)
  Binary64.ofRatio negative num den

/-- The era of a count of seconds or milliseconds with a fraction. -/
def eraOfNumber : Binary64 → Era
  | .finite negative m e =>
    if Binary64.magnitudeLt (Binary64.ofInt secondsLimit) (.finite false m e) then
      match thousandth negative m e with
      | .finite negative m e => eraOfSecond (floorOf negative m e)
      | _ => .outside
    else eraOfSecond (floorOf negative m e)
  | _ => .outside

/-- The era of the count that a text writes, with an optional sign and fraction. -/
def eraOfCountText (s : List Char) : Era :=
  let (negative, ds) : Bool × List Char := match s with
    | '-' :: ds => (true, ds)
    | '+' :: ds => (false, ds)
    | ds => (false, ds)
  let whole := ds.takeWhile Json.isDigit
  match ds.dropWhile Json.isDigit with
  | [] =>
    let n : Int := Json.digitsValue whole
    if whole.isEmpty then .outside else eraOfCount (if negative then -n else n)
  | '.' :: fraction =>
    if fraction.all Json.isDigit then
      eraOfNumber (.ofDecimal negative (Json.digitsValue (whole ++ fraction)) (-fraction.length))
    else .outside
  | _ => .outside

/-- The era of a year. -/
def eraOfYear (year : Nat) : Era := if year = 0 then .yearZero else .counted

/-- The era of the moment that a text writes; `outside` where it writes none. -/
def eraOfText (s : List Char) : Era :=
  match afterDate? s with
  | some (year, []) => eraOfYear year
  | some (year, c :: rest) =>
    if c == 'T' || c == 't' || c == ' ' || c == '_' then
      match afterTime? rest with
      | some zone => if isZone zone then eraOfYear year else .outside
      | none => .outside
    else .outside
  | none => eraOfCountText s

/-- The verdict on a moment, given what is wrong with one outside all eras. -/
def verdictOn (outside : IssueKind) : Era → Checked Unit
  | .counted => .ok ()
  | .yearZero => .fail .momentRange
  | .outside => .fail outside

/-- A moment in time. -/
def moment : Json → Checked Unit
  | .str s => whole s (verdictOn .momentParsing (eraOfText s.toList))
  | .int n =>
    if (Binary64.ofInt n).isFinite then verdictOn .momentRange (eraOfCount n)
    else .fail .momentType
  | .real x => verdictOn .momentRange (eraOfNumber x)
  | _ => .fail .momentType

end Conductor.Schema
