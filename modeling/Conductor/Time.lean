import Conductor.Number.Binary64

/-!
# Moments in time

A moment is a number of microseconds since the first of January 1970, universal time, and is written
in the usual order from year to microsecond. The calendar is computed in eras of 400 years that
start in March, so that leap days come last.
-/

namespace Conductor

open Number

/-- Microseconds since the start of 1970. -/
abbrev Moment := Int

namespace Moment

/-- Digits with zeros in front up to a width. -/
def padded (width n : Nat) : String :=
  let ds := Nat.toDigits 10 n
  String.ofList (List.replicate (width - ds.length) '0' ++ ds)

/-- Year, month and day of a number of days since the start of 1970. -/
def civilDate (days : Int) : Int × Nat × Nat :=
  let z := days + 719468
  let era := z / 146097
  let dayOfEra := (z % 146097).toNat
  let yearOfEra := (dayOfEra - dayOfEra / 1460 + dayOfEra / 36524 - dayOfEra / 146096) / 365
  let dayOfYear := dayOfEra - (365 * yearOfEra + yearOfEra / 4 - yearOfEra / 100)
  let shifted := (5 * dayOfYear + 2) / 153
  let day := dayOfYear - (153 * shifted + 2) / 5 + 1
  let month := if shifted < 10 then shifted + 3 else shifted - 9
  let year := era * 400 + yearOfEra + (if month ≤ 2 then 1 else 0)
  (year, month, day)

/-- The date of a moment. -/
def dateText (m : Moment) : String :=
  let (year, month, day) := civilDate (m / 1000000 / 86400)
  padded 4 year.toNat ++ "-" ++ padded 2 month ++ "-" ++ padded 2 day

/-- The time of day of a moment, to the second. -/
def timeText (m : Moment) : String :=
  let second := (m / 1000000 % 86400).toNat
  padded 2 (second / 3600) ++ ":" ++ padded 2 (second / 60 % 60) ++ ":" ++ padded 2 (second % 60)

/-- The date and time of a moment, with microseconds where there are any. -/
def text (m : Moment) : String :=
  let micros := (m % 1000000).toNat
  let fraction := if micros = 0 then "" else "." ++ padded 6 micros
  dateText m ++ "T" ++ timeText m ++ fraction

/-- The date and time of a moment to the second, as on a clock. -/
def clockText (m : Moment) : String := dateText m ++ " " ++ timeText m

/-- A moment with its distance from universal time. -/
def offsetText (m : Moment) : String := text m ++ "+00:00"

/-- A moment with the letter for universal time. -/
def zuluText (m : Moment) : String := text m ++ "Z"

/-- The moment of a whole number of seconds and a fraction, rounded to microseconds. -/
def ofMagnitude (m : Nat) (e : Int) : Moment :=
  let whole := Binary64.floorMagnitude m e
  let den := if 0 ≤ e then 1 else Nat.pow 2 (-e).toNat
  let num := if 0 ≤ e then 0 else m - whole * den
  let micros := match Binary64.ofRatio false (num * 1000000) den with
    | .finite _ a f =>
      if 0 ≤ f then a * Nat.pow 2 f.toNat
      else Binary64.roundQuotient a (Nat.pow 2 (-f).toNat)
    | _ => 0
  whole * 1000000 + micros

/-- Why a number of seconds is no moment that can be written. -/
inductive Fault where
  | undefined
  | outOfRange
  | outsideCalendar
  | year (n : Int)
  deriving DecidableEq, Repr

/-- What is wrong with the number of seconds. -/
def Fault.message : Fault → String
  | undefined => "Invalid value NaN (not a number)"
  | outOfRange => "timestamp out of range for platform time_t"
  | outsideCalendar => "[Errno 75] Value too large for defined data type"
  | year n => s!"year {n} is out of range"

/-- The last second of the calendar, whose years count from 1900 in a word of 32 bits. -/
def lastSecond : Int := 67768036191676799

/-- The first second of the calendar. -/
def firstSecond : Int := -67768040609740800

/-- The first number of seconds that is too large to be counted. -/
def secondsLimit : Int := Int.ofNat (Nat.pow 2 63)

/-- A moment in one of the years 1 to 9999. The year that is complained of fits into a word. -/
def inYears (m : Moment) : Except Fault Moment :=
  let seconds := m / 1000000
  if seconds < -secondsLimit || secondsLimit ≤ seconds then .error .outOfRange
  else if seconds < firstSecond || lastSecond < seconds then .error .outsideCalendar
  else
    let year := (civilDate (seconds / 86400)).1
    if 1 ≤ year && year ≤ 9999 then .ok m else .error (.year (year.bmod 4294967296))

/-- The moment of a whole number of seconds. -/
def ofWholeSeconds (n : Int) : Except Fault Moment := inYears (n * 1000000)

/-- The moment of a number of seconds, the fraction rounded to microseconds. -/
def ofSeconds (x : Binary64) : Except Fault Moment :=
  match x with
  | .nan => .error .undefined
  | .infinite _ => .error .outOfRange
  | .finite negative m e =>
    inYears (if negative then -ofMagnitude m e else ofMagnitude m e)

end Moment

end Conductor
