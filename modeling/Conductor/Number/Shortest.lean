import Conductor.Number.Binary64

/-!
# The decimal text of a double-precision number

Two forms. The shortest one has the fewest digits that read back as the number, of those the
nearest; it is positional for decimal exponents from -4 to 15 and always shows a point or an
exponent. The brief one has six significant digits, is positional up to exponent 5 and drops zeros
at the end.
-/

namespace Conductor.Number

namespace Binary64

/-- The ratio `num / den` divided by `10 ^ k`, as a ratio. -/
def scaleByTen (num den : Nat) (k : Int) : Nat × Nat :=
  if 0 ≤ k then (num, den * Nat.pow 10 k.toNat) else (num * Nat.pow 10 (-k).toNat, den)

/-- Raises `k` while `10 ^ (k + 1) ≤ num / den`, at most `steps` times. -/
def raiseExponent (num den : Nat) : (steps : Nat) → Int → Int
  | 0, k => k
  | s + 1, k =>
    let (a, b) := scaleByTen num den (k + 1)
    if b ≤ a then raiseExponent num den s (k + 1) else k

/-- The exponent of the first decimal digit of a positive ratio. -/
def decimalExponent (num den : Nat) : Int :=
  let binary : Int := (num.log2 : Int) - (den.log2 : Int)
  raiseExponent num den 5 (binary * 30103 / 100000 - 2)

/-- The magnitude as a ratio. -/
def magnitude (mantissa : Nat) (exponent : Int) : Nat × Nat :=
  if 0 ≤ exponent then (mantissa * Nat.pow 2 exponent.toNat, 1)
  else (mantissa, Nat.pow 2 (-exponent).toNat)

/-- A decimal `digits · 10 ^ exponent`. -/
structure Decimal where
  digits : Nat
  exponent : Int
  deriving Repr, DecidableEq, Inhabited

/-- Four times the distance of a decimal from zero in units of the last binary place, as a ratio. -/
def quarterPlaces (d : Decimal) (exponent : Int) : Nat × Nat :=
  let (a, b) := scaleByTen d.digits 1 (-d.exponent)
  scaleByTwo a b (exponent - 2)

/-- Whether a decimal reads back as `mantissa · 2 ^ exponent`: it lies between the midpoints to the
two neighbours, which count iff the mantissa is even. -/
def readsBackAs (mantissa : Nat) (exponent : Int) (d : Decimal) : Bool :=
  let (a, b) := quarterPlaces d exponent
  let below := if mantissa = Nat.pow 2 52 && minExponent < exponent then 1 else 2
  let low := (4 * mantissa - below) * b
  let high := (4 * mantissa + 2) * b
  if mantissa % 2 = 0 then low ≤ a && a ≤ high else low < a && a < high

/-- How far a decimal is from `mantissa · 2 ^ exponent`, as a ratio. -/
def distance (mantissa : Nat) (exponent : Int) (d : Decimal) : Nat × Nat :=
  let (a, b) := quarterPlaces d exponent
  (max a (4 * mantissa * b) - min a (4 * mantissa * b), b)

/-- The neighbour of the number on the grid of `count` digits that reads back, the nearer of two and
the even one of two as near. -/
def onGrid? (mantissa : Nat) (exponent first : Int) (count : Nat) : Option Decimal :=
  let k := first - count + 1
  let (num, den) := magnitude mantissa exponent
  let (a, b) := scaleByTen num den k
  let lower : Decimal := ⟨a / b, k⟩
  let upper : Decimal := ⟨a / b + 1, k⟩
  match readsBackAs mantissa exponent lower, readsBackAs mantissa exponent upper with
  | true, true =>
    let (p, q) := distance mantissa exponent lower
    let (r, s) := distance mantissa exponent upper
    if p * s < r * q then some lower
    else if r * q < p * s then some upper
    else if lower.digits % 2 = 0 then some lower else some upper
  | true, false => some lower
  | false, true => some upper
  | false, false => none

/-- The shortest decimal that reads back as a positive number. -/
def shortestDecimal (mantissa : Nat) (exponent : Int) : Decimal :=
  let (num, den) := magnitude mantissa exponent
  let first := decimalExponent num den
  (((List.range 17).map (· + 1)).findSome? (onGrid? mantissa exponent first)).getD ⟨0, 0⟩

/-- The digits without the zeros at the end. -/
def dropFinalZeros (ds : List Char) : List Char := (ds.reverse.dropWhile (· == '0')).reverse

/-- An exponent with its sign and at least two digits. -/
def exponentText (e : Int) : List Char :=
  let ds := Nat.toDigits 10 e.natAbs
  (if e < 0 then '-' else '+') :: (if ds.length < 2 then '0' :: ds else ds)

/-- Significant digits, the first of which has the decimal exponent `first`, in positional form;
`keepPoint` writes `.0` after a whole number. -/
def positional (keepPoint : Bool) (ds : List Char) (first : Int) : List Char :=
  if first < 0 then
    '0' :: '.' :: (List.replicate ((-first).toNat - 1) '0' ++ ds)
  else
    let count := first.toNat + 1
    if ds.length ≤ count then
      ds ++ List.replicate (count - ds.length) '0' ++ (if keepPoint then ['.', '0'] else [])
    else ds.take count ++ '.' :: ds.drop count

/-- Significant digits in exponent form. -/
def scientific (ds : List Char) (first : Int) : List Char :=
  match ds with
  | [] => []
  | d :: rest => d :: ((if rest.isEmpty then [] else '.' :: rest) ++ 'e' :: exponentText first)

/-- Positional form for exponents from -4 up to `limit`, exponent form beyond. -/
def digitsText (keepPoint : Bool) (limit : Int) (ds : List Char) (first : Int) : List Char :=
  if -4 ≤ first && first < limit then positional keepPoint ds first else scientific ds first

/-- The shortest text that reads back as the number. -/
def shortest : Binary64 → String
  | nan => "nan"
  | infinite negative => if negative then "-inf" else "inf"
  | finite negative m e =>
    let sign := if negative then ['-'] else []
    if m = 0 then String.ofList (sign ++ ['0', '.', '0'])
    else
      let d := shortestDecimal m e
      let ds := Nat.toDigits 10 d.digits
      let first := d.exponent + ds.length - 1
      String.ofList (sign ++ digitsText true 16 (dropFinalZeros ds) first)

/-- The text of at most six significant digits. -/
def brief : Binary64 → String
  | nan => "nan"
  | infinite negative => if negative then "-inf" else "inf"
  | finite negative m e =>
    let sign := if negative then ['-'] else []
    if m = 0 then String.ofList (sign ++ ['0'])
    else
      let (num, den) := magnitude m e
      let (a, b) := scaleByTen num den (decimalExponent num den - 5)
      let rounded := roundQuotient a b
      let ds := Nat.toDigits 10 rounded
      let first := decimalExponent num den - 5 + ds.length - 1
      String.ofList (sign ++ digitsText false 6 (dropFinalZeros ds) first)

end Binary64

end Conductor.Number
