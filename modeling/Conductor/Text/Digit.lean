import Conductor.Text.Blank

/-!
# Decimal integers in Unicode digits

Reading a decimal integer as people write it: white space around it, a sign, digits of any script
and single underscores between digits.
-/

namespace Conductor.Text

/-- The zeros of the Unicode decimal digits; each is followed by the other nine digits. -/
def zeros : List Nat :=
  [
    0x30, 0x660, 0x6F0, 0x7C0, 0x966, 0x9E6, 0xA66, 0xAE6, 0xB66, 0xBE6, 0xC66, 0xCE6, 0xD66,
    0xDE6, 0xE50, 0xED0, 0xF20, 0x1040, 0x1090, 0x17E0, 0x1810, 0x1946, 0x19D0, 0x1A80, 0x1A90,
    0x1B50, 0x1BB0, 0x1C40, 0x1C50, 0xA620, 0xA8D0, 0xA900, 0xA9D0, 0xA9F0, 0xAA50, 0xABF0,
    0xFF10, 0x104A0, 0x10D30, 0x11066, 0x110F0, 0x11136, 0x111D0, 0x112F0, 0x11450, 0x114D0,
    0x11650, 0x116C0, 0x11730, 0x118E0, 0x11950, 0x11C50, 0x11D50, 0x11DA0, 0x16A60, 0x16AC0,
    0x16B50, 0x1D7CE, 0x1D7D8, 0x1D7E2, 0x1D7EC, 0x1D7F6, 0x1E140, 0x1E2F0, 0x1E950, 0x1FBF0
  ]

/-- The value of a decimal digit of any script. -/
def digitValue? (c : Char) : Option Nat :=
  (zeros.find? fun z => z ≤ c.toNat && c.toNat < z + 10).map (c.toNat - ·)

/-- The most digits an integer may be written with. -/
def maxDigits : Nat := 4300

/-- Reads digits with single underscores between them; `acc` is the value so far and `count` the
number of digits, and a digit has just been read. -/
def readDigits (acc count : Nat) : List Char → Option (Nat × Nat)
  | [] => some (acc, count)
  | '_' :: c :: cs => do
    let d ← digitValue? c
    readDigits (10 * acc + d) (count + 1) cs
  | c :: cs => do
    let d ← digitValue? c
    readDigits (10 * acc + d) (count + 1) cs

/-- Reads an unsigned integer of at most `maxDigits` digits. -/
def readNatural? (s : List Char) : Option Nat :=
  match s with
  | [] => none
  | c :: cs => do
    let d ← digitValue? c
    let (n, count) ← readDigits d 1 cs
    if count ≤ maxDigits then some n else none

/-- Reads an integer with optional white space around it and an optional sign. -/
def readInteger? (s : List Char) : Option Int :=
  match trimNumber s with
  | '-' :: ds => (readNatural? ds).map fun n => -(n : Int)
  | '+' :: ds => (readNatural? ds).map fun n => (n : Int)
  | ds => (readNatural? ds).map fun n => (n : Int)

end Conductor.Text
