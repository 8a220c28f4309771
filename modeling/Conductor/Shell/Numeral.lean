import Conductor.Shell.Syntax

/-!
# Numerals of a shell

A numeral may have blanks and a sign in front; without a given base, `0x` in front of hexadecimal
digits and `0` in front of octal ones tell it. A value that does not fit into 64 bits is the nearest
one that does. Main statement: a decimal numeral without a sign is a natural number.
-/

namespace Conductor.Shell

/-- The largest integer. -/
def maxInteger : Int := 9223372036854775807

/-- The smallest integer. -/
def minInteger : Int := -9223372036854775808

/-- A blank in front of a numeral or behind it. -/
def isSpace (c : Char) : Bool := c == ' ' || '\t' ≤ c && c ≤ '\r'

/-- The value of a digit, of which the letters go on from ten. -/
def digitValue? (c : Char) : Option Nat :=
  if c.isDigit then some (c.toNat - '0'.toNat)
  else if 'a' ≤ c && c ≤ 'f' then some (c.toNat - 'a'.toNat + 10)
  else if 'A' ≤ c && c ≤ 'F' then some (c.toNat - 'A'.toNat + 10)
  else none

/-- Whether a character is a digit to a base. -/
def isDigitTo (base : Nat) (c : Char) : Bool := (digitValue? c).any (· < base)

/-- The number that digits write to a base. -/
def digitsNumber (base : Nat) (s : List Char) : Nat :=
  s.foldl (fun n c => base * n + (digitValue? c).getD 0) 0

/-- What has been read of a text as a numeral. -/
structure Numeral where
  value : Int
  /-- Whether the value fits into 64 bits. -/
  fits : Bool
  /-- Whether there is a digit at all. -/
  found : Bool
  rest : List Char
  deriving DecidableEq, Repr, Inhabited

/-- The base of digits and the digits behind what tells it. -/
def baseOf (base : Option Nat) (s : List Char) : Nat × List Char :=
  let hexadecimal (rest : List Char) : Bool := (rest.head?).any (isDigitTo 16)
  match base, s with
  | some b, s => (b, s)
  | none, '0' :: 'x' :: rest => if hexadecimal rest then (16, rest) else (8, s)
  | none, '0' :: 'X' :: rest => if hexadecimal rest then (16, rest) else (8, s)
  | none, '0' :: _ => (8, s)
  | none, s => (10, s)

/-- The integer nearest to a value that fits into 64 bits. -/
def clampInteger (n : Int) : Int := max minInteger (min maxInteger n)

/-- Whether a minus sign stands in front, and what stands behind a sign. -/
def signOf : List Char → Bool × List Char
  | '-' :: rest => (true, rest)
  | '+' :: rest => (false, rest)
  | rest => (false, rest)

/-- Reads a text as a numeral. -/
def numeral (base : Option Nat) (s : List Char) : Numeral :=
  let signed := signOf (s.dropWhile isSpace)
  let (base, digits) := baseOf base signed.2
  let written := digits.takeWhile (isDigitTo base)
  if written.isEmpty then ⟨0, true, false, s⟩
  else
    let n : Int := digitsNumber base written
    let n := if signed.1 then -n else n
    ⟨clampInteger n, clampInteger n = n, true, digits.drop written.length⟩

/-- The integer that a text is, with blanks around it; without a base, a blank text is zero. -/
def integer? (base : Option Nat) (s : List Char) : Option Int :=
  let n := numeral base s
  if n.fits && (n.found || base.isNone) && n.rest.all isSpace then some n.value else none

/-- The natural number that a text is, if it fits into 31 bits. -/
def count? (s : List Char) : Option Nat :=
  match integer? (some 10) s with
  | some n => if 0 ≤ n ∧ n ≤ 2147483647 then some n.toNat else none
  | none => none

/-- A decimal number. -/
def decimal (n : Int) : List Char := (toString n).toList

/-- A decimal numeral without a sign is a natural number. -/
theorem numeral_nonneg {s : List Char} (h : (signOf (s.dropWhile isSpace)).1 = false) :
    0 ≤ (numeral (some 10) s).value := by
  simp only [numeral, baseOf, h]
  split
  · exact Int.le_refl 0
  · simp only [clampInteger, minInteger, maxInteger, Bool.false_eq_true, if_false]
    omega

end Conductor.Shell
