import Conductor.Number.Shortest

/-!
# Numbers with a given number of digits

The text of a number with a fixed number of decimal places, with a fixed number of places behind an
exponent, or with a number of significant digits, of which the last takes the shorter of the two
forms. Rounding is to the nearest, a half going to the even neighbour. Texts have no sign.
-/

namespace Conductor.Number.Binary64

/-- Digits with the point in front of the last `places` of them. -/
def pointed (alternate : Bool) (places : Nat) (ds : List Char) : List Char :=
  let ds := List.replicate (places + 1 - ds.length) '0' ++ ds
  let whole := ds.take (ds.length - places)
  if places = 0 then (if alternate then whole ++ ['.'] else whole)
  else whole ++ '.' :: ds.drop (ds.length - places)

/-- A ratio with decimal places; `alternate` keeps the point where there are none. -/
def fixedChars (alternate : Bool) (places num den : Nat) : List Char :=
  pointed alternate places (Nat.toDigits 10 (roundQuotient (num * Nat.pow 10 places) den))

/-- The first `places + 1` digits of a ratio and the exponent of the first of them. -/
def leadingDigits (places num den : Nat) : List Char × Int :=
  if num = 0 then (List.replicate (places + 1) '0', 0)
  else
    let first := decimalExponent num den
    let (a, b) := scaleByTen num den (first - places)
    let ds := Nat.toDigits 10 (roundQuotient a b)
    if places + 1 < ds.length then (ds.take (places + 1), first + 1) else (ds, first)

/-- A ratio with an exponent and decimal places in front of it. -/
def exponentChars (alternate : Bool) (places num den : Nat) : List Char :=
  let (ds, first) := leadingDigits places num den
  pointed alternate places ds ++ 'e' :: exponentText first

/-- Drops the zeros behind the point, and the point where nothing else is left behind it. -/
def dropPlaceZeros (s : List Char) : List Char :=
  if s.contains '.' then
    let kept := dropFinalZeros s
    if kept.getLast? = some '.' then kept.dropLast else kept
  else s

/-- A ratio with a number of significant digits; `alternate` keeps zeros at the end. -/
def generalChars (alternate : Bool) (digits num den : Nat) : List Char :=
  let digits := max digits 1
  let (ds, first) := leadingDigits (digits - 1) num den
  let drop (s : List Char) : List Char := if alternate then s else dropPlaceZeros s
  if -4 ≤ first && first < digits then
    drop (fixedChars alternate (((digits : Int) - 1 - first).toNat) num den)
  else drop (pointed alternate (digits - 1) ds) ++ 'e' :: exponentText first

end Conductor.Number.Binary64
