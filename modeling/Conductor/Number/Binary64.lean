/-!
# Double-precision numbers

The values of the binary64 format, as exact data: a not-a-number, two infinities, and the numbers
`± mantissa · 2 ^ exponent`. Reading a decimal rounds to the nearest value, ties to the even
mantissa, in exact arithmetic, so that everything here can be reasoned about.
-/

namespace Conductor.Number

/-- A double-precision number. A finite one is `mantissa · 2 ^ exponent` with a sign. -/
inductive Binary64 where
  | nan
  | infinite (negative : Bool)
  | finite (negative : Bool) (mantissa : Nat) (exponent : Int)
  deriving DecidableEq, Repr, Inhabited

namespace Binary64

/-- The exponent of the smallest numbers. -/
def minExponent : Int := -1074

/-- The exponent of the largest numbers. -/
def maxExponent : Int := 971

/-- Zero with a sign. -/
def zero (negative : Bool) : Binary64 := finite negative 0 minExponent

/-- The ratio `num / den` divided by `2 ^ e`, as a ratio. -/
def scaleByTwo (num den : Nat) (e : Int) : Nat × Nat :=
  if 0 ≤ e then (num, den * Nat.pow 2 e.toNat) else (num * Nat.pow 2 (-e).toNat, den)

/-- The quotient rounded to the nearest integer, a half to the even one. -/
def roundQuotient (num den : Nat) : Nat :=
  let q := num / den
  let r := num % den
  if 2 * r < den then q
  else if den < 2 * r then q + 1
  else if q % 2 = 0 then q else q + 1

/-- The number nearest to `num / den`, a tie going to the even mantissa. -/
def ofRatio (negative : Bool) (num den : Nat) : Binary64 :=
  if num = 0 then zero negative
  else
    let guess : Int := (num.log2 : Int) - (den.log2 : Int) - 53
    let (a, b) := scaleByTwo num den guess
    let fitted := if Nat.pow 2 53 ≤ a / b then guess + 1 else guess
    let e := max fitted minExponent
    let (a, b) := scaleByTwo num den e
    let m := roundQuotient a b
    let (m, e) := if m = Nat.pow 2 53 then (Nat.pow 2 52, e + 1) else (m, e)
    if maxExponent < e then infinite negative else finite negative m e

/-- The number nearest to an integer. -/
def ofInt (n : Int) : Binary64 := ofRatio (decide (n < 0)) n.natAbs 1

/-- How many decimal digits a positive number has. -/
def decimalLength (n : Nat) : Nat := (Nat.toDigits 10 n).length

/-- The number nearest to `digits · 10 ^ exponent`. -/
def ofDecimal (negative : Bool) (digits : Nat) (exponent : Int) : Binary64 :=
  if digits = 0 then zero negative
  else
    let magnitude := exponent + decimalLength digits
    if 310 < magnitude then infinite negative
    else if magnitude < -330 then zero negative
    else if 0 ≤ exponent then ofRatio negative (digits * Nat.pow 10 exponent.toNat) 1
    else ofRatio negative digits (Nat.pow 10 (-exponent).toNat)

/-- Whether the number is neither infinite nor undefined. -/
def isFinite : Binary64 → Bool
  | finite .. => true
  | _ => false

/-- Whether the number is one of the two zeros. -/
def isZero : Binary64 → Bool
  | finite _ m _ => m == 0
  | _ => false

/-- Whether the number is at least zero; not-a-number is not. -/
def isNonnegative : Binary64 → Bool
  | nan => false
  | infinite negative => !negative
  | finite negative m _ => !negative || m == 0

/-- The integer part of a magnitude. -/
def floorMagnitude (mantissa : Nat) (exponent : Int) : Nat :=
  if 0 ≤ exponent then mantissa * Nat.pow 2 exponent.toNat
  else mantissa / Nat.pow 2 (-exponent).toNat

/-- The integer that the number is, if it is one. -/
def toInt? : Binary64 → Option Int
  | finite negative m e =>
    let n := floorMagnitude m e
    let whole := 0 ≤ e || n * Nat.pow 2 (-e).toNat = m
    if whole then some (if negative then -(n : Int) else n) else none
  | _ => none

/-- The integer part of a number that is positive and finite, where it is positive itself. -/
def positiveFloor? : Binary64 → Option Nat
  | finite false m e => if 0 < floorMagnitude m e then some (floorMagnitude m e) else none
  | _ => none

/-- Whether a number is smaller than another one, of two that are at least zero. -/
def magnitudeLt : Binary64 → Binary64 → Bool
  | finite _ m e, finite _ n f =>
    let low := min e f
    m * Nat.pow 2 (e - low).toNat < n * Nat.pow 2 (f - low).toNat
  | finite .., infinite _ => true
  | _, _ => false

end Binary64

end Conductor.Number
