import Conductor.Number.Places
import Conductor.Shell.Numeral

/-!
# Echo and printf

What the two printing commands write. Escapes stand for control characters or, in octal digits, for
bytes; the conversions of a format are filled with arguments, and a format is used again while
arguments are left. Main statement: a text without a backslash is written as it is.
-/

namespace Conductor.Shell

open Number

/-! ### Escapes -/

/-- An octal digit. -/
def isOctal (c : Char) : Bool := '0' ≤ c && c ≤ '7'

/-- The control character of the letter behind a backslash. -/
def control? : Char → Option Char
  | 'a' => some '\x07'
  | 'b' => some '\x08'
  | 'e' => some '\x1b'
  | 'f' => some '\x0c'
  | 'n' => some '\n'
  | 'r' => some '\r'
  | 't' => some '\t'
  | 'v' => some '\x0b'
  | '\\' => some '\\'
  | _ => none

/-- The character of an escape behind its backslash, and the rest. A backslash that begins none
stands for itself. -/
def escape (s : List Char) : Char × List Char :=
  let digits := (s.take 3).takeWhile isOctal
  if digits.isEmpty then
    match s with
    | c :: rest =>
      match control? c with
      | some d => (d, rest)
      | none => ('\\', s)
    | [] => ('\\', [])
  else (Char.ofNat (digitsNumber 8 digits % 256), s.drop digits.length)

/-- The characters that a text with escapes stands for, and whether it ends all output; octal digits
may have one more zero in front. At most `fuel` characters are read. -/
def unescapeUpTo : (fuel : Nat) → List Char → List Char × Bool
  | _, [] => ([], false)
  | 0, _ => ([], false)
  | fuel + 1, '\\' :: s =>
    match s with
    | 'c' :: _ => ([], true)
    | '0' :: d :: rest =>
      let (c, rest) := if isOctal d then escape (d :: rest) else escape s
      let (cs, ends) := unescapeUpTo fuel rest
      (c :: cs, ends)
    | s =>
      let (c, rest) := escape s
      let (cs, ends) := unescapeUpTo fuel rest
      (c :: cs, ends)
  | fuel + 1, c :: s =>
    let (cs, ends) := unescapeUpTo fuel s
    (c :: cs, ends)

/-- The characters that a text with escapes stands for, and whether it ends all output. -/
def unescape (s : List Char) : List Char × Bool := unescapeUpTo s.length s

/-- What `echo` writes of words, with a line feed behind them or not. -/
def echoWords (line : Bool) : List (List Char) → List Char
  | [] => if line then ['\n'] else []
  | w :: ws =>
    let (text, ends) := unescape w
    if ends then text
    else if ws.isEmpty then text ++ (if line then ['\n'] else [])
    else text ++ ' ' :: echoWords line ws

/-- What `echo` writes. -/
def echo : List (List Char) → List Char
  | ['-', 'n'] :: ws => echoWords false ws
  | ws => echoWords true ws

/-! ### Formats -/

/-- What `printf` has done: what it wrote, what it complains about, whether an argument was wrong,
and whether it goes on. -/
structure Printed where
  text : List Char := []
  warnings : List (List Char) := []
  failed : Bool := false
  /-- Why the format cannot be used any further. -/
  fault : Option (List Char) := none
  ended : Bool := false
  arguments : List (List Char)
  deriving DecidableEq, Repr, Inhabited

/-- A conversion of a format: its flags, width and precision, the letter, and how it is written. -/
structure Conversion where
  flags : List Char := []
  width : Nat := 0
  precision : Option Nat := none
  letter : Char := 's'
  written : List Char := []
  deriving DecidableEq, Repr, Inhabited

namespace Conversion

/-- Whether a flag is set. -/
def has (p : Conversion) (flag : Char) : Bool := p.flags.contains flag

/-- Fills a text up to the width. -/
def pad (p : Conversion) (s : List Char) : List Char :=
  let fill := List.replicate (p.width - s.length) ' '
  if p.has '-' then s ++ fill else fill ++ s

/-- The text for a text. -/
def text (p : Conversion) (s : List Char) : List Char :=
  p.pad (match p.precision with
    | some n => s.take n
    | none => s)

/-- The text of digits behind a sign, filled up to the width, by zeros where that is asked for. -/
def padNumber (p : Conversion) (zeros : Bool) (sign digits : List Char) : List Char :=
  let missing := p.width - (sign.length + digits.length)
  if zeros && p.has '0' && !p.has '-' then sign ++ List.replicate missing '0' ++ digits
  else p.pad (sign ++ digits)

/-- The digits of a number, as many as the precision asks for at least. -/
def digits (p : Conversion) (base n : Nat) : List Char :=
  let ds := if n = 0 && p.precision = some 0 then [] else Nat.toDigits base n
  List.replicate (p.precision.getD 1 - ds.length) '0' ++ ds

/-- The sign of a number. -/
def sign (p : Conversion) (negative : Bool) : List Char :=
  if negative then ['-'] else if p.has '+' then ['+'] else if p.has ' ' then [' '] else []

/-- The text for an integer. -/
def integer (p : Conversion) (n : Int) : List Char :=
  p.padNumber p.precision.isNone (p.sign (n < 0)) (p.digits 10 n.natAbs)

/-- The text for a natural number, by the letter of the conversion. -/
def natural (p : Conversion) (n : Nat) : List Char :=
  let zeros := p.precision.isNone
  match p.letter with
  | 'o' =>
    let ds := p.digits 8 n
    p.padNumber zeros [] (if p.has '#' && ds.head? != some '0' then '0' :: ds else ds)
  | 'x' => p.padNumber zeros (if p.has '#' && n != 0 then ['0', 'x'] else []) (p.digits 16 n)
  | 'X' =>
    p.padNumber zeros (if p.has '#' && n != 0 then ['0', 'X'] else [])
      ((p.digits 16 n).map Char.toUpper)
  | _ => p.padNumber zeros [] (p.digits 10 n)

/-- The hexadecimal digits of a magnitude, of which one stands in front of the point, and its binary
exponent. -/
def hexadecimal (p : Conversion) (m : Nat) (e : Int) : List Char :=
  let size := if m = 0 then 0 else m.log2 + 1
  let shift := if m = 0 then 0 else min (53 - size) (e - Binary64.minExponent).toNat
  let (m, e) := (m * Nat.pow 2 shift, e - shift)
  let exponent : Int := if m = 0 then 0 else e + 52
  let places := p.precision.getD 13
  let ds := if 13 ≤ places then m * Nat.pow 16 (places - 13)
    else Binary64.roundQuotient m (Nat.pow 16 (13 - places))
  let fraction := Nat.toDigits 16 (ds % Nat.pow 16 places)
  let fraction := (List.replicate (places - fraction.length) '0' ++ fraction).take places
  let fraction := if p.precision.isNone then (fraction.reverse.dropWhile (· == '0')).reverse
    else fraction
  let point := if fraction.isEmpty && !p.has '#' then [] else ['.']
  Nat.toDigits 16 (ds / Nat.pow 16 places) ++ point ++ fraction
    ++ 'p' :: (if exponent < 0 then '-' else '+') :: Nat.toDigits 10 exponent.natAbs

/-- The text of a finite magnitude, by the letter of the conversion. -/
def magnitude (p : Conversion) (num den : Nat) : List Char :=
  let places := p.precision.getD 6
  match p.letter.toLower with
  | 'e' => Binary64.exponentChars (p.has '#') places num den
  | 'g' => Binary64.generalChars (p.has '#') places num den
  | _ => Binary64.fixedChars (p.has '#') places num den

/-- The text for a number. -/
def number (p : Conversion) (x : Binary64) : List Char :=
  let shown (s : List Char) : List Char := if p.letter.isUpper then s.map Char.toUpper else s
  match x with
  | .nan => p.padNumber false (p.sign false) (shown "nan".toList)
  | .infinite negative => p.padNumber false (p.sign negative) (shown "inf".toList)
  | .finite negative m e =>
    if p.letter.toLower = 'a' then
      let front := p.sign negative ++ shown ['0', 'x']
      p.padNumber true front (shown (p.hexadecimal m e))
    else
      let (num, den) := if 0 ≤ e then (m * Nat.pow 2 e.toNat, 1) else (m, Nat.pow 2 (-e).toNat)
      p.padNumber true (p.sign negative) (shown (p.magnitude num den))

end Conversion

/-! ### Arguments -/

namespace Printed

/-- The next argument. -/
def next (r : Printed) : Option (List Char) × Printed :=
  match r.arguments with
  | a :: rest => (some a, { r with arguments := rest })
  | [] => (none, r)

/-- Complains about an argument. -/
def blame (r : Printed) (argument : List Char) (cause : String) : Printed :=
  { r with warnings := r.warnings ++ [argument ++ ": ".toList ++ cause.toList], failed := true }

/-- Complains about an argument of which something is left, or that does not fit. -/
def check (r : Printed) (argument rest : List Char) (fits : Bool) : Printed :=
  if rest.isEmpty then
    if fits then r else r.blame argument "Numerical result out of range"
  else if rest = argument then r.blame argument "expected numeric value"
  else r.blame argument "not completely converted"

/-- The integer that the next argument writes; a quote in front asks for the code of a character. -/
def nextInteger (r : Printed) : Int × Printed :=
  match r.next with
  | (none, r) => (0, r)
  | (some ('"' :: c), r) => ((c.headD '\x00').toNat, r)
  | (some ('\'' :: c), r) => ((c.headD '\x00').toNat, r)
  | (some a, r) =>
    let n := numeral none a
    (n.value, r.check a n.rest n.fits)

/-- The natural number below 2 to the 64 that the next argument writes; a negative one wraps around.
-/
def nextNatural (r : Printed) : Nat × Printed :=
  match r.next with
  | (none, r) => (0, r)
  | (some ('"' :: c), r) => ((c.headD '\x00').toNat, r)
  | (some ('\'' :: c), r) => ((c.headD '\x00').toNat, r)
  | (some a, r) =>
    let signed := signOf (a.dropWhile isSpace)
    let (base, digits) := baseOf none signed.2
    let written := digits.takeWhile (isDigitTo base)
    if written.isEmpty then (0, r.check a a true)
    else
      let n := digitsNumber base written
      let limit := Nat.pow 2 64
      let rest := digits.drop written.length
      if limit ≤ n then (limit - 1, r.check a rest false)
      else (if signed.1 && n != 0 then limit - n else n, r.check a rest true)

/-- Digits to a base in front, with a point among them: what they write as a whole number, how many
of them stand behind the point, and the rest. There is at least one digit. -/
def readDigits (base : Nat) (s : List Char) : Option (Nat × Nat × List Char) :=
  let whole := s.takeWhile (isDigitTo base)
  let (fraction, rest) := match s.drop whole.length with
    | '.' :: cs => (cs.takeWhile (isDigitTo base), cs.dropWhile (isDigitTo base))
    | cs => ([], cs)
  if whole.isEmpty && fraction.isEmpty then none
  else some (digitsNumber base (whole ++ fraction), fraction.length, rest)

/-- The exponent behind one of some letters, zero where there is none, and the rest. -/
def readExponent (letters : List Char) (s : List Char) : Int × List Char :=
  match s with
  | c :: cs =>
    let signed := signOf cs
    let ds := signed.2.takeWhile Char.isDigit
    if letters.contains c && !ds.isEmpty then
      let n : Int := digitsNumber 10 ds
      (if signed.1 then -n else n, signed.2.drop ds.length)
    else (0, s)
  | [] => (0, [])

/-- A number that a text begins with, whether it can be told from its neighbours, and the rest. -/
structure ReadNumber where
  value : Binary64
  fits : Bool := true
  rest : List Char

/-- The number that digits which are no zero write, if they are; it fits unless it is too large or
so small that digits get lost. -/
def ReadNumber.ofDigits (value : Binary64) (isZero : Bool) (rest : List Char) : ReadNumber :=
  let fits := match value with
    | .finite _ m _ => isZero || Nat.pow 2 52 ≤ m
    | _ => false
  { value := value, fits := fits, rest := rest }

/-- The number that decimal digits with a point and an exponent write. -/
def readDecimal (negative : Bool) (s : List Char) : Option ReadNumber :=
  (readDigits 10 s).map fun (n, places, rest) =>
    let (exponent, rest) := readExponent ['e', 'E'] rest
    .ofDigits (.ofDecimal negative n (exponent - places)) (n == 0) rest

/-- The number that hexadecimal digits with a point and a binary exponent write. -/
def readHexadecimal (negative : Bool) (s : List Char) : Option ReadNumber :=
  (readDigits 16 s).map fun (n, places, rest) =>
    let (exponent, rest) := readExponent ['p', 'P'] rest
    let (num, den) := Binary64.scaleByTwo n 1 (max (-20000) (min 20000 (4 * places - exponent)))
    .ofDigits (.ofRatio negative num den) (n == 0) rest

/-- The number that a text begins with, behind blanks and a sign. -/
def readFloat (s : List Char) : Option ReadNumber :=
  let signed := signOf (s.dropWhile isSpace)
  let number := signed.2
  let startsWith (word : String) : Bool := word.toList.isPrefixOf (number.map Char.toLower)
  if startsWith "infinity" then some { value := .infinite signed.1, rest := number.drop 8 }
  else if startsWith "inf" then some { value := .infinite signed.1, rest := number.drop 3 }
  else if startsWith "nan" then some { value := .nan, rest := number.drop 3 }
  else
    let hexadecimal := if startsWith "0x" then readHexadecimal signed.1 (number.drop 2) else none
    hexadecimal.or (readDecimal signed.1 number)

/-- The number that the next argument writes. -/
def nextNumber (r : Printed) : Binary64 × Printed :=
  match r.next with
  | (none, r) => (.zero false, r)
  | (some ('"' :: c), r) => (.ofInt (c.headD '\x00').toNat, r)
  | (some ('\'' :: c), r) => (.ofInt (c.headD '\x00').toNat, r)
  | (some a, r) =>
    match readFloat a with
    | some n => (n.value, r.check a n.rest n.fits)
    | none => (.zero false, r.check a a true)

/-- Writes a text. -/
def add (r : Printed) (s : List Char) : Printed := { r with text := r.text ++ s }

end Printed

/-- Digits and stars, of which one star takes an argument. -/
def amount (s : List Char) (r : Printed) : Option Int × List Char × Printed :=
  match s with
  | '*' :: rest =>
    let (n, r) := r.nextInteger
    (some n, rest, r)
  | s =>
    let ds := s.takeWhile Char.isDigit
    (if ds.isEmpty then none else some (digitsNumber 10 ds), s.drop ds.length, r)

/-- The conversion of a format behind its percent sign, and the rest. -/
def conversion (s : List Char) (r : Printed) : Conversion × List Char × Printed :=
  let flags := s.takeWhile fun c => ['#', '-', '+', ' ', '0'].contains c
  let (width, s', r) := amount (s.drop flags.length) r
  let flags := if width.any (· < 0) then '-' :: flags else flags
  let (precision, s', r) := match s' with
    | '.' :: cs =>
      let (n, cs, r) := amount cs r
      (some (n.getD 0), cs, r)
    | cs => (none, cs, r)
  let written := s.take (s.length - s'.length + 1)
  ({ flags := flags, width := (width.getD 0).natAbs,
     precision := precision.bind fun n => if n < 0 then none else some n.toNat,
     letter := s'.headD '\x00', written := '%' :: written }, s'.tail, r)

/-- Fills a conversion with the next argument. -/
def fill (p : Conversion) (r : Printed) : Printed :=
  match p.letter with
  | '\x00' => { r with fault := some "missing format character".toList }
  | 's' =>
    let (a, r) := r.next
    r.add (p.text (a.getD []))
  | 'b' =>
    let (a, r) := r.next
    let (text, ends) := unescape (a.getD [])
    { r.add (p.text text) with ended := ends }
  | 'c' =>
    let (a, r) := r.next
    r.add (p.pad [((a.getD []).headD '\x00')])
  | c =>
    if ['d', 'i'].contains c then
      let (n, r) := r.nextInteger
      r.add (p.integer n)
    else if ['o', 'u', 'x', 'X'].contains c then
      let (n, r) := r.nextNatural
      r.add (p.natural n)
    else if ['a', 'A', 'e', 'E', 'f', 'F', 'g', 'G'].contains c then
      let (x, r) := r.nextNumber
      r.add (p.number x)
    else { r with fault := some (p.written ++ ": invalid directive".toList) }

/-- One use of a format, of which at most `fuel` characters are read. -/
def formatOnce : (fuel : Nat) → List Char → Printed → Printed
  | _, [], r => r
  | 0, _, r => r
  | fuel + 1, '%' :: '%' :: s, r => formatOnce fuel s (r.add ['%'])
  | fuel + 1, '%' :: s, r =>
    let (p, rest, r) := conversion s r
    let r := fill p r
    if r.ended || r.fault.isSome then r else formatOnce fuel rest r
  | fuel + 1, '\\' :: s, r =>
    let (c, rest) := escape s
    formatOnce fuel rest (r.add [c])
  | fuel + 1, c :: s, r => formatOnce fuel s (r.add [c])

/-- Uses a format until no arguments are left, at most `times` times. -/
def formatAll (format : List Char) : (times : Nat) → Printed → Printed
  | 0, r => r
  | times + 1, r =>
    let after := formatOnce format.length format r
    if after.ended || after.fault.isSome || after.arguments.isEmpty
        || after.arguments.length = r.arguments.length then after
    else formatAll format times after

/-- What `printf` does. -/
def printf (format : List Char) (arguments : List (List Char)) : Printed :=
  formatAll format (arguments.length + 1) { arguments := arguments }

/-! ### Texts without escapes -/

theorem unescapeUpTo_of_not_mem {s : List Char} (h : '\\' ∉ s) :
    ∀ fuel, s.length ≤ fuel → unescapeUpTo fuel s = (s, false) := by
  induction s with
  | nil => intro fuel _; cases fuel <;> rfl
  | cons c cs ih =>
    intro fuel hf
    cases fuel with
    | zero => simp at hf
    | succ fuel =>
      have hc : c ≠ '\\' := fun hc => h (by simp [hc])
      have hcs := ih (fun hm => h (by simp [hm])) fuel (by simpa using hf)
      unfold unescapeUpTo
      split <;> simp_all

/-- A text without a backslash is written as it is. -/
theorem unescape_of_not_mem {s : List Char} (h : '\\' ∉ s) : unescape s = (s, false) :=
  unescapeUpTo_of_not_mem h _ (Nat.le_refl _)

end Conductor.Shell
