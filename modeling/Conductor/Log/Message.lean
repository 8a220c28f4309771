import Conductor.Json.Reader
import Conductor.Json.Shown
import Conductor.Number.Places

/-!
# Messages with values

A message may have places that values fill: a percent sign, an optional name in parentheses, flags,
a width, a precision and the letter of a kind. Values are taken in order, or by name from a table.
Without any values a message is written as it is. Main statement: a message without a percent sign
needs no value.
-/

namespace Conductor.Message

open Number Json

/-- Why values do not fit a message. -/
inductive Fault where
  | tooFewValues
  | tooManyValues
  | noTable
  | openName
  | unknownName (name : String)
  | countNotInteger
  | widthTooBig
  | precisionTooBig
  | hugeWidth
  | hugePrecision
  | openPlace
  | unknownKind (c : Char) (index : Nat)
  | noInteger (kind : Char) (type : String)
  | noNumber (kind : Char) (type : String)
  | noReal (type : String)
  | noCharacter
  | characterRange
  | infiniteInteger
  | undefinedInteger
  | hugeReal
  deriving DecidableEq, Repr

/-- What is wrong with the values. -/
def Fault.message : Fault → String
  | tooFewValues => "not enough arguments for format string"
  | tooManyValues => "not all arguments converted during string formatting"
  | noTable => "format requires a mapping"
  | openName => "incomplete format key"
  | unknownName name => Text.quoted name
  | countNotInteger => "* wants int"
  | widthTooBig => "width too big"
  | precisionTooBig => "precision too big"
  | hugeWidth => "Python int too large to convert to C ssize_t"
  | hugePrecision => "Python int too large to convert to C int"
  | openPlace => "incomplete format"
  | unknownKind c index =>
    let shown := if 31 ≤ c.toNat && c.toNat ≤ 126 then c else '?'
    let number := String.ofList (Nat.toDigits 16 c.toNat)
    s!"unsupported format character '{shown}' (0x{number}) at index {index}"
  | noInteger kind type => s!"%{kind} format: an integer is required, not {type}"
  | noNumber kind type => s!"%{kind} format: a real number is required, not {type}"
  | noReal type => s!"must be real number, not {type}"
  | noCharacter => "%c requires int or char"
  | characterRange => "%c arg not in range(0x110000)"
  | infiniteInteger => "cannot convert float infinity to integer"
  | undefinedInteger => "cannot convert float NaN to integer"
  | hugeReal => "int too large to convert to float"

/-- The values still to be taken: those of a list, or a table with the value to take next. -/
inductive Values where
  | list (rest : List Json)
  | table (members : List (String × Json)) (next : Option Json)

namespace Values

/-- The values of a list; a single table gives its members. -/
def ofList : List Json → Values
  | [.obj (m :: ms)] => table (m :: ms) (some (.obj (m :: ms)))
  | vs => list vs

/-- Takes the next value. -/
def take : Values → Except Fault (Json × Values)
  | list (v :: rest) => .ok (v, list rest)
  | table ms (some v) => .ok (v, table ms none)
  | list [] => .error .tooFewValues
  | table _ none => .error .tooFewValues

/-- Makes the value of a name the next one. -/
def choose (vs : Values) (name : List Char) : Except Fault Values :=
  match vs with
  | list _ => .error .noTable
  | table ms _ =>
    match member? ms (String.ofList name) with
    | some v => .ok (table ms (some v))
    | none => .error (.unknownName (String.ofList name))

/-- Refuses values of a list that are left. -/
def finish : Values → Except Fault Unit
  | list (_ :: _) => .error .tooManyValues
  | list [] => .ok ()
  | table _ _ => .ok ()

end Values

/-- How a value is written at a place. -/
structure Layout where
  left : Bool := false
  signed : Bool := false
  spaced : Bool := false
  alternate : Bool := false
  zeros : Bool := false
  width : Nat := 0
  precision : Option Nat := none
  deriving Repr, DecidableEq, Inhabited

/-! ### Reading a place -/

/-- The name up to its closing parenthesis and the rest; `depth` parentheses are open inside. -/
def nameUpTo : (depth : Nat) → List Char → Option (List Char × List Char)
  | _, [] => none
  | 0, ')' :: cs => some ([], cs)
  | depth + 1, ')' :: cs => (nameUpTo depth cs).map fun r => (')' :: r.1, r.2)
  | depth, c :: cs =>
    (nameUpTo (if c = '(' then depth + 1 else depth) cs).map fun r => (c :: r.1, r.2)

/-- Chooses the value of the name that stands first. -/
def readName (vs : Values) (s : List Char) : Except Fault (Values × List Char) :=
  match s with
  | '(' :: cs =>
    match vs with
    | .list _ => .error .noTable
    | .table .. =>
      match nameUpTo 0 cs with
      | none => .error .openName
      | some (name, rest) => (vs.choose name).map fun vs => (vs, rest)
  | s => .ok (vs, s)

/-- Reads the flags that stand first. -/
def readFlags (l : Layout) : List Char → Layout × List Char
  | '-' :: cs => readFlags { l with left := true } cs
  | '+' :: cs => readFlags { l with signed := true } cs
  | ' ' :: cs => readFlags { l with spaced := true } cs
  | '#' :: cs => readFlags { l with alternate := true } cs
  | '0' :: cs => readFlags { l with zeros := true } cs
  | s => (l, s)

/-- The largest width. -/
def maxWidth : Nat := Nat.pow 2 63 - 1

/-- The largest precision. -/
def maxPrecision : Nat := Nat.pow 2 31 - 1

/-- Reads a count: a number, or a star for which a value is taken. -/
def readCount (vs : Values) (largest : Nat) (tooBig huge : Fault) (s : List Char) :
    Except Fault (Option Int × Values × List Char) := do
  match s with
  | '*' :: cs =>
    let (v, vs) ← vs.take
    match v with
    | .int n => if largest < n.natAbs then throw huge else return (some n, vs, cs)
    | .bool b => return (some (if b then 1 else 0), vs, cs)
    | _ => throw .countNotInteger
  | s =>
    let digits := s.takeWhile isDigit
    if digits.isEmpty then return (none, vs, s)
    else if largest < digitsValue digits then throw tooBig
    else return (some (digitsValue digits), vs, s.dropWhile isDigit)

/-- Reads a width. -/
def readWidth (l : Layout) (vs : Values) (s : List Char) :
    Except Fault (Layout × Values × List Char) := do
  let (n, vs, s) ← readCount vs maxWidth .widthTooBig .hugeWidth s
  let n := n.getD 0
  return ({ l with left := l.left || n < 0, width := n.natAbs }, vs, s)

/-- Reads a precision. -/
def readPrecision (l : Layout) (vs : Values) (s : List Char) :
    Except Fault (Layout × Values × List Char) := do
  match s with
  | '.' :: cs =>
    let (n, vs, s) ← readCount vs maxPrecision .precisionTooBig .hugePrecision cs
    return ({ l with precision := some (n.getD 0).toNat }, vs, s)
  | s => return (l, vs, s)

/-- Drops a letter for a size, which means nothing. -/
def dropSize : List Char → List Char
  | 'h' :: cs => cs
  | 'l' :: cs => cs
  | 'L' :: cs => cs
  | s => s

/-! ### Writing a value -/

/-- Fills a text up to the width with blanks. -/
def Layout.pad (l : Layout) (s : List Char) : List Char :=
  let blanks := List.replicate (l.width - s.length) ' '
  if l.left then s ++ blanks else blanks ++ s

/-- Writes digits with a sign and a mark of their base, filled up to the width. -/
def Layout.signedText (l : Layout) (negative : Bool) (mark digits : List Char) : List Char :=
  let sign := if negative then ['-'] else if l.signed then ['+'] else if l.spaced then [' '] else []
  let used := sign.length + mark.length + digits.length
  if l.zeros && !l.left then
    sign ++ mark ++ List.replicate (l.width - used) '0' ++ digits
  else if l.zeros then
    sign ++ mark ++ digits ++ List.replicate (l.width - used) ' '
  else l.pad (sign ++ mark ++ digits)

/-- The integer of a value that has one. -/
def integerOf (kind : Char) (exact : Bool) (v : Json) : Except Fault Int :=
  match v with
  | .int n => .ok n
  | .bool b => .ok (if b then 1 else 0)
  | .real x =>
    if exact then .error (.noInteger kind v.typeWord)
    else match x with
      | .nan => .error .undefinedInteger
      | .infinite _ => .error .infiniteInteger
      | .finite negative m e =>
        let n : Int := Binary64.floorMagnitude m e
        .ok (if negative then -n else n)
  | v => .error (if exact then .noInteger kind v.typeWord else .noNumber kind v.typeWord)

/-- Upper case where asked for. -/
def raised (upper : Bool) (s : List Char) : List Char :=
  if upper then s.map Char.toUpper else s

/-- Writes an integer in a base. -/
def writeInteger (l : Layout) (base : Nat) (mark : List Char) (upper : Bool) (n : Int) :
    List Char :=
  let digits := raised upper (Nat.toDigits base n.natAbs)
  let zeros := List.replicate (l.precision.getD 0 - digits.length) '0'
  l.signedText (decide (n < 0)) (if l.alternate then mark else []) (zeros ++ digits)

/-- The number of a value that has one. -/
def realOf (v : Json) : Except Fault Binary64 :=
  let ofInteger (n : Int) : Except Fault Binary64 :=
    match Binary64.ofInt n with
    | .infinite _ => .error .hugeReal
    | x => .ok x
  match v with
  | .int n => ofInteger n
  | .bool b => ofInteger (if b then 1 else 0)
  | .real x => .ok x
  | v => .error (.noReal v.typeWord)

/-- The digits of a ratio in the form of a kind. -/
def realDigits (l : Layout) (kind : Char) (num den : Nat) : List Char :=
  let places := l.precision.getD 6
  match kind with
  | 'e' => Binary64.exponentChars l.alternate places num den
  | 'f' => Binary64.fixedChars l.alternate places num den
  | _ => Binary64.generalChars l.alternate places num den

/-- Writes a number in the form of a kind. -/
def writeReal (l : Layout) (kind : Char) (x : Binary64) : List Char :=
  let upper := kind.isUpper
  match x with
  | .nan => l.signedText false [] (raised upper "nan".toList)
  | .infinite negative => l.signedText negative [] (raised upper "inf".toList)
  | .finite negative m e =>
    let (num, den) := Binary64.magnitude m e
    l.signedText negative [] (raised upper (realDigits l kind.toLower num den))

/-- A value in quotes with an escape for each character beyond ASCII. -/
def asciiValue (v : Json) : List Char :=
  v.quotedValue.flatMap fun c =>
    if c.toNat < 0x80 then [c]
    else if c.toNat ≤ 0xFF then '\\' :: 'x' :: Text.hexDigits 2 c.toNat
    else if c.toNat ≤ 0xFFFF then '\\' :: 'u' :: Text.hexDigits 4 c.toNat
    else '\\' :: 'U' :: Text.hexDigits 8 c.toNat

/-- Writes a text, of which the precision keeps the first characters. -/
def writeText (l : Layout) (s : List Char) : List Char :=
  l.pad (match l.precision with
    | some n => s.take n
    | none => s)

/-- The one character that a value stands for. -/
def characterOf : Json → Except Fault Char
  | .str s =>
    match s.toList with
    | [c] => .ok c
    | _ => .error .noCharacter
  | .int n => if 0 ≤ n && n < 0x110000 then .ok (Char.ofNat n.toNat) else .error .characterRange
  | .bool b => .ok (Char.ofNat (if b then 1 else 0))
  | _ => .error .noCharacter

/-- Writes a value in the form of a kind, whose letter stands at `index`. -/
def write (l : Layout) (kind : Char) (index : Nat) (v : Json) : Except Fault (List Char) :=
  match kind with
  | 's' => .ok (writeText l v.shown)
  | 'r' => .ok (writeText l v.quotedValue)
  | 'a' => .ok (writeText l (asciiValue v))
  | 'd' | 'i' | 'u' => (integerOf kind false v).map (writeInteger l 10 [] false)
  | 'o' => (integerOf kind true v).map (writeInteger l 8 ['0', 'o'] false)
  | 'x' => (integerOf kind true v).map (writeInteger l 16 ['0', 'x'] false)
  | 'X' => (integerOf kind true v).map (writeInteger l 16 ['0', 'X'] true)
  | 'e' | 'E' | 'f' | 'F' | 'g' | 'G' => (realOf v).map (writeReal l kind)
  | 'c' => (characterOf v).map fun c => l.pad [c]
  | c => .error (.unknownKind c index)

/-- Fills the place whose percent sign stands before a text of a message of `total` characters: what
is written, the values left and the rest. -/
def fillPlace (total : Nat) (vs : Values) (s : List Char) :
    Except Fault (List Char × Values × List Char) := do
  let (vs, s) ← readName vs s
  let (l, s) := readFlags {} s
  let (l, vs, s) ← readWidth l vs s
  let (l, vs, s) ← readPrecision l vs s
  match dropSize s with
  | [] => throw .openPlace
  | kind :: rest =>
    let (v, vs) ← vs.take
    let written ← write l kind (total - rest.length - 1) v
    return (written, vs, rest)

/-- Like `fillPlace`, but a second percent sign is written as it is. -/
def fillSign (total : Nat) (vs : Values) (s : List Char) :
    Except Fault (List Char × Values × List Char) :=
  match s with
  | '%' :: rest => .ok (['%'], vs, rest)
  | s => fillPlace total vs s

/-- Fills the places of a text, of which at most `fuel` characters are read. -/
def fillUpTo (total : Nat) : (fuel : Nat) → Values → List Char → Except Fault (List Char)
  | _, vs, [] => vs.finish.map fun _ => []
  | 0, vs, _ => vs.finish.map fun _ => []
  | fuel + 1, vs, '%' :: cs => do
    let (written, vs, rest) ← fillSign total vs cs
    return written ++ (← fillUpTo total fuel vs rest)
  | fuel + 1, vs, c :: cs => do
    return c :: (← fillUpTo total fuel vs cs)

/-- A message with its places filled; without values it stays as it is. -/
def fill (message : String) (values : List Json) : Except Fault String :=
  let s := message.toList
  if values.isEmpty then .ok message
  else (fillUpTo s.length s.length (Values.ofList values) s).map String.ofList

theorem fillUpTo_of_not_mem (total : Nat) {s : List Char} (h : '%' ∉ s) :
    ∀ fuel, s.length ≤ fuel → fillUpTo total fuel (.list []) s = .ok s := by
  induction s with
  | nil => intro fuel _; cases fuel <;> rfl
  | cons c cs ih =>
    intro fuel hf
    cases fuel with
    | zero => simp at hf
    | succ fuel =>
      have hc : c ≠ '%' := fun hc => h (by simp [hc])
      have hcs := ih (fun hm => h (by simp [hm])) fuel (by simpa using hf)
      unfold fillUpTo
      split
      · simp_all
      · simp_all
      · simp_all
      · simp_all [bind, Except.bind, pure, Except.pure]

end Conductor.Message
