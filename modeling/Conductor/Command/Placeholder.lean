import Conductor.Command.Attribute
import Conductor.Text.Digit
import Conductor.Text.Quoted

/-!
# Placeholders

A text with named fields between braces, such as a profile or a directory, and doubled braces for
braces themselves. A field may pick a character or an attribute of its value, convert it to its
quoted form and lay it out by a specification of fill, alignment, width and precision. Main
statement: a text without braces stands for itself.
-/

namespace Conductor.Command

open Text

/-- What makes a text with fields unusable. -/
inductive FieldFault where
  | loneBrace (c : Char)
  | braceInField
  | openField
  | noConversion
  | noColon
  | openSpecification
  | tooDeep
  | tooManyDigits
  | position (n : Nat)
  | unknownName (name : String)
  | emptyAttribute
  | noClosingBracket
  | afterBracket
  | noAttribute (holder name : String)
  | noItems (holder : String)
  | notAnIndex
  | notAnIndexOfKinds
  | outOfRange
  | outOfKinds
  | noLayout (kind : String)
  | unknownConversion (c : Char)
  | noPrecision
  | invalidSpecification (text : String)
  | groupings
  | groupingOf (grouping type : Char)
  | unknownType (c : Char)
  | sign (c : Char)
  | zeroCoercion
  | alternateForm
  | equalsAlignment
  deriving DecidableEq, Repr

/-- A character in a message: itself, or its number where it is not a visible ASCII character. -/
def shownChar (last : Nat) (c : Char) : String :=
  if 32 < c.toNat && c.toNat < last then String.singleton c
  else "\\x" ++ String.ofList (Nat.toDigits 16 c.toNat)

/-- What is wrong with the text. -/
def FieldFault.message : FieldFault → String
  | loneBrace c => s!"Single '{c}' encountered in format string"
  | braceInField => "unexpected '\x7b' in field name"
  | openField => "expected '\x7d' before end of string"
  | noConversion => "end of string while looking for conversion specifier"
  | noColon => "expected ':' after conversion specifier"
  | openSpecification => "unmatched '\x7b' in format spec"
  | tooDeep => "Max string recursion exceeded"
  | tooManyDigits => "Too many decimal digits in format string"
  | position n => s!"Replacement index {n} out of range for positional args tuple"
  | unknownName name => quoted name
  | emptyAttribute => "Empty attribute in format string"
  | noClosingBracket => "Missing ']' in format string"
  | afterBracket => "Only '.' or '[' may follow ']' in format field specifier"
  | noAttribute holder name => s!"{holder} has no attribute '{name}'"
  | noItems holder => s!"{holder} is not subscriptable"
  | notAnIndex => "string indices must be integers, not 'str'"
  | notAnIndexOfKinds => "tuple indices must be integers or slices, not str"
  | outOfRange => "string index out of range"
  | outOfKinds => "tuple index out of range"
  | noLayout kind => s!"unsupported format string passed to {kind}.__format__"
  | unknownConversion c => "Unknown conversion specifier " ++ shownChar 127 c
  | noPrecision => "Format specifier missing precision"
  | invalidSpecification text => s!"Invalid format specifier '{text}' for object of type 'str'"
  | groupings => "Cannot specify both ',' and '_'."
  | groupingOf grouping type => s!"Cannot specify '{grouping}' with '{shownChar 128 type}'."
  | unknownType c => s!"Unknown format code '{shownChar 128 c}' for object of type 'str'"
  | sign c =>
    (if c = ' ' then "Space" else "Sign") ++ " not allowed in string format specifier"
  | zeroCoercion => "Negative zero coercion (z) not allowed in string format specifier"
  | alternateForm => "Alternate form (#) not allowed in string format specifier"
  | equalsAlignment => "'=' alignment not allowed in string format specifier"

/-! ### Pieces -/

/-- A piece of a text: literal characters or a field. -/
inductive Piece where
  | literal (cs : List Char)
  | field (name : List Char) (conversion : Option Char) (specification : List Char)
  deriving DecidableEq, Repr

/-- Where the reading of a text stands; what has been read of the current part is kept last
character first. -/
inductive Reading where
  | literal (cs : List Char)
  | opened (cs : List Char)
  | closed (cs : List Char)
  | name (cs : List Char)
  | bracket (cs : List Char)
  | conversion (name : List Char)
  | converted (name : List Char) (c : Char)
  | specification (name : List Char) (conversion : Option Char) (depth : Nat) (cs : List Char)
  deriving DecidableEq, Repr

/-- What one more character of a field's name does. -/
def nameChar (cs : List Char) (c : Char) : Except FieldFault (List Piece × Reading) :=
  if c = '\x7b' then .error .braceInField
  else if c = '[' then .ok ([], .bracket (c :: cs))
  else if c = '\x7d' then .ok ([.field cs.reverse none []], .literal [])
  else if c = ':' then .ok ([], .specification cs.reverse none 0 [])
  else if c = '!' then .ok ([], .conversion cs.reverse)
  else .ok ([], .name (c :: cs))

/-- What one more character does: the pieces that it ends, and where the reading stands then. -/
def Reading.next (r : Reading) (c : Char) : Except FieldFault (List Piece × Reading) :=
  match r with
  | .literal cs =>
    if c = '\x7b' then .ok ([], .opened cs)
    else if c = '\x7d' then .ok ([], .closed cs)
    else .ok ([], .literal (c :: cs))
  | .opened cs =>
    if c = '\x7b' then .ok ([], .literal (c :: cs))
    else (nameChar [] c).map fun (ps, r) => (.literal cs.reverse :: ps, r)
  | .closed cs =>
    if c = '\x7d' then .ok ([], .literal (c :: cs)) else .error (.loneBrace '\x7d')
  | .name cs => nameChar cs c
  | .bracket cs => .ok ([], if c = ']' then .name (c :: cs) else .bracket (c :: cs))
  | .conversion field => .ok ([], .converted field c)
  | .converted field how =>
    if c = '\x7d' then .ok ([.field field (some how) []], .literal [])
    else if c = ':' then .ok ([], .specification field (some how) 0 [])
    else .error .noColon
  | .specification field how depth cs =>
    if c = '\x7b' then .ok ([], .specification field how (depth + 1) (c :: cs))
    else if c = '\x7d' then
      match depth with
      | 0 => .ok ([.field field how cs.reverse], .literal [])
      | depth + 1 => .ok ([], .specification field how depth (c :: cs))
    else .ok ([], .specification field how depth (c :: cs))

/-- What the end of the text does. -/
def Reading.finish : Reading → List Piece × Option FieldFault
  | .literal cs => ([.literal cs.reverse], none)
  | .opened _ => ([], some (.loneBrace '\x7b'))
  | .closed _ => ([], some (.loneBrace '\x7d'))
  | .name _ => ([], some .openField)
  | .bracket _ => ([], some .openField)
  | .conversion _ => ([], some .noConversion)
  | .converted .. => ([], some .openSpecification)
  | .specification .. => ([], some .openSpecification)

/-- The pieces of the rest of a text, up to its first fault. -/
def readPieces (r : Reading) : List Char → List Piece × Option FieldFault
  | [] => r.finish
  | c :: cs =>
    match r.next c with
    | .error f => ([], some f)
    | .ok (ps, r) =>
      let (rest, fault) := readPieces r cs
      (ps ++ rest, fault)

/-- The pieces of a text, up to its first fault. -/
def pieces (s : List Char) : List Piece × Option FieldFault := readPieces (.literal []) s

/-! ### Values -/

/-- The largest number that digits in a field may write. -/
def maxNumber : Nat := 9223372036854775807

/-- Reads digits of any script up to the first other character: their value and the rest. -/
def readDigits (value : Nat) : List Char → Except FieldFault (Nat × List Char)
  | [] => .ok (value, [])
  | c :: cs =>
    match digitValue? c with
    | none => .ok (value, c :: cs)
    | some d =>
      if maxNumber < value * 10 + d then .error .tooManyDigits else readDigits (value * 10 + d) cs

/-- The number that a text writes in digits, if it is one. -/
def number? (s : List Char) : Except FieldFault (Option Nat) := do
  let (n, rest) ← readDigits 0 s
  return if s.isEmpty || !rest.isEmpty then none else some n

/-- Whether a character ends a part of a field's name. -/
def endsPart (c : Char) : Bool := c == '.' || c == '['

/-- The item of a thing at an index; without an index what names it is no number. -/
def item (value : Thing) (index : Option Nat) : Except FieldFault Thing :=
  match value, index with
  | .text _, none => .error .notAnIndex
  | .text s, some n =>
    match s[n]? with
    | none => .error .outOfRange
    | some c => .ok (.text [c])
  | .kinds _, none => .error .notAnIndexOfKinds
  | .kinds names, some n =>
    match names[n]? with
    | none => .error .outOfKinds
    | some name => .ok (.kind name)
  | value, _ => .error (.noItems value.itemHolder)

/-- Follows the rest of a field's name from a value. -/
def follow : (fuel : Nat) → (value : Thing) → (rest : List Char) → Except FieldFault Thing
  | 0, value, _ => .ok value
  | _ + 1, value, [] => .ok value
  | fuel + 1, value, c :: cs =>
    if c = '.' then
      let name := cs.takeWhile (!endsPart ·)
      if name.isEmpty then .error .emptyAttribute
      else match value.attribute? (String.ofList name) with
        | none => .error (.noAttribute value.holder (String.ofList name))
        | some t => follow fuel t (cs.dropWhile (!endsPart ·))
    else if c = '[' then
      match cs.dropWhile (· ≠ ']') with
      | [] => .error .noClosingBracket
      | _ :: rest => do
        let inside := cs.takeWhile (· ≠ ']')
        let index ← number? inside
        if inside.isEmpty then .error .emptyAttribute
        else do
          let next ← item value index
          follow fuel next rest
    else .error .afterBracket

/-- The value that a field's name stands for. -/
def valueOf (values : List (String × List Char)) (name : List Char) :
    Except FieldFault Thing := do
  let first := name.takeWhile (!endsPart ·)
  let rest := name.dropWhile (!endsPart ·)
  match ← number? first with
  | some n => .error (.position n)
  | none =>
    if first.isEmpty then .error (.position 0)
    else match values.find? (·.1.toList == first) with
      | some (_, value) => follow rest.length (.text value) rest
      | none => .error (.unknownName (String.ofList first))

/-- The quoted form in ASCII. -/
def asciiQuoted (s : List Char) : List Char :=
  (quotedChars s).flatMap fun c =>
    if c.toNat < 0x80 then [c]
    else if c.toNat ≤ 0xFF then '\\' :: 'x' :: hexDigits 2 c.toNat
    else if c.toNat ≤ 0xFFFF then '\\' :: 'u' :: hexDigits 4 c.toNat
    else '\\' :: 'U' :: hexDigits 8 c.toNat

/-- Converts a value. -/
def convert (conversion : Option Char) (value : Thing) : Except FieldFault Thing :=
  match conversion, value with
  | none, value => .ok value
  | some 's', value => .ok (.text value.shown)
  | some 'r', .text s => .ok (.text (quotedChars s))
  | some 'r', value => .ok (.text value.shown)
  | some 'a', .text s => .ok (.text (asciiQuoted s))
  | some 'a', value => .ok (.text value.shown)
  | some c, _ => .error (.unknownConversion c)

/-! ### Layout -/

/-- How a value is laid out. -/
structure Layout where
  fill : Char := ' '
  align : Char := '<'
  sign : Option Char := none
  coerces : Bool := false
  alternate : Bool := false
  width : Option Nat := none
  grouping : Option Char := none
  precision : Option Nat := none
  type : Char := 's'
  deriving DecidableEq, Repr

/-- Whether a character says how to align. -/
def isAlignment (c : Char) : Bool := c == '<' || c == '>' || c == '=' || c == '^'

/-- Takes the alignment, with or without a fill; says whether there is a fill. -/
def readAlignment (l : Layout) (s : List Char) : Layout × Bool × List Char :=
  match s with
  | f :: a :: rest =>
    if isAlignment a then ({ l with fill := f, align := a }, true, rest)
    else if isAlignment f then ({ l with align := f }, false, a :: rest)
    else (l, false, s)
  | [a] => if isAlignment a then ({ l with align := a }, false, []) else (l, false, s)
  | [] => (l, false, [])

/-- Takes the sign and the three marks before the width. -/
def readMarks (l : Layout) (hasFill : Bool) (s : List Char) : Layout × List Char :=
  let (l, s) := match s with
    | c :: r => if c == ' ' || c == '+' || c == '-' then ({ l with sign := some c }, r) else (l, s)
    | [] => (l, s)
  let (l, s) := match s with
    | 'z' :: r => ({ l with coerces := true }, r)
    | s => (l, s)
  let (l, s) := match s with
    | '#' :: r => ({ l with alternate := true }, r)
    | s => (l, s)
  match s with
  | '0' :: r => if hasFill then (l, s) else ({ l with fill := '0' }, r)
  | s => (l, s)

/-- Takes the width. -/
def readWidth (l : Layout) (s : List Char) : Except FieldFault (Layout × List Char) := do
  let (n, rest) ← readDigits 0 s
  return ({ l with width := if rest.length = s.length then none else some n }, rest)

/-- Takes the grouping. -/
def readGrouping (l : Layout) (s : List Char) : Except FieldFault (Layout × List Char) :=
  match s with
  | ',' :: '_' :: _ => .error .groupings
  | '_' :: ',' :: _ => .error .groupings
  | ',' :: r => .ok ({ l with grouping := some ',' }, r)
  | '_' :: r => .ok ({ l with grouping := some '_' }, r)
  | s => .ok (l, s)

/-- Takes the precision. -/
def readPrecision (l : Layout) (s : List Char) : Except FieldFault (Layout × List Char) :=
  match s with
  | '.' :: r => do
    let (n, rest) ← readDigits 0 r
    if rest.length = r.length then .error .noPrecision
    else .ok ({ l with precision := some n }, rest)
  | s => .ok (l, s)

/-- The types that a grouping may go with. -/
def allowsGrouping (grouping type : Char) : Bool :=
  ['d', 'e', 'f', 'g', 'E', 'G', '%', 'F', '\x00'].contains type
    || (grouping == '_' && ['b', 'o', 'x', 'X'].contains type)

/-- Takes the type, which ends a specification. -/
def readType (specification : List Char) (l : Layout) (s : List Char) :
    Except FieldFault Layout := do
  let l ← match s with
    | [] => .ok l
    | [c] => .ok { l with type := c }
    | _ => .error (.invalidSpecification (String.ofList specification))
  match l.grouping with
  | none => .ok l
  | some g => if allowsGrouping g l.type then .ok l else .error (.groupingOf g l.type)

/-- Reads a specification. -/
def readLayout (specification : List Char) : Except FieldFault Layout := do
  let (l, hasFill, s) := readAlignment {} specification
  let (l, s) := readMarks l hasFill s
  let (l, s) ← readWidth l s
  let (l, s) ← readGrouping l s
  let (l, s) ← readPrecision l s
  readType specification l s

/-- Refuses what only numbers can have. -/
def Layout.check (l : Layout) : Except FieldFault Unit :=
  if l.type ≠ 's' then .error (.unknownType l.type)
  else match l.sign with
    | some c => .error (.sign c)
    | none =>
      if l.coerces then .error .zeroCoercion
      else if l.alternate then .error .alternateForm
      else if l.align = '=' then .error .equalsAlignment
      else .ok ()

/-- Cuts and pads a value. -/
def Layout.apply (l : Layout) (value : List Char) : List Char :=
  let value := match l.precision with
    | none => value
    | some n => value.take n
  let missing := l.width.getD 0 - value.length
  let left := if l.align = '>' then missing else if l.align = '^' then missing / 2 else 0
  List.replicate left l.fill ++ value ++ List.replicate (missing - left) l.fill

/-- Lays a value out; an empty specification leaves it as it is, and only texts take another. -/
def layOut (specification : List Char) (value : Thing) : Except FieldFault (List Char) :=
  if specification.isEmpty then .ok value.shown
  else match value with
    | .text s => do
      let l ← readLayout specification
      l.check
      return l.apply s
    | value => .error (.noLayout value.kindName)

/-! ### Filling -/

/-- The text of a piece, where `fill` fills the fields of a specification. -/
def Piece.text (values : List (String × List Char))
    (fill : List Char → Except FieldFault (List Char)) : Piece → Except FieldFault (List Char)
  | .literal cs => .ok cs
  | .field name conversion specification => do
    let value ← convert conversion (← valueOf values name)
    let specification ←
      if specification.contains '\x7b' then fill specification else .ok specification
    layOut specification value

/-- Fills the fields of a text, in whose specifications fields may stand down to a depth. -/
def fillTo (values : List (String × List Char)) : (depth : Nat) → List Char →
    Except FieldFault (List Char)
  | 0, _ => .error .tooDeep
  | depth + 1, s => do
    let (ps, fault) := pieces s
    let texts ← ps.mapM (Piece.text values (fillTo values depth))
    match fault with
    | some f => .error f
    | none => return texts.flatten

/-- Fills the fields of a text. -/
def fill (values : List (String × List Char)) (s : List Char) : Except FieldFault (List Char) :=
  fillTo values 2 s

/-! ### Texts without braces -/

theorem readPieces_of_plain {cs s : List Char} (h : ∀ c ∈ s, c ≠ '\x7b' ∧ c ≠ '\x7d') :
    readPieces (.literal cs) s = ([.literal (cs.reverse ++ s)], none) := by
  induction s generalizing cs with
  | nil => simp [readPieces, Reading.finish]
  | cons c rest ih =>
    obtain ⟨ho, hc⟩ := h c (List.mem_cons_self ..)
    rw [readPieces]
    simp [Reading.next, ho, hc, ih fun d hd => h d (List.mem_cons_of_mem _ hd)]

/-- A text without braces stands for itself. -/
theorem fill_of_plain (values : List (String × List Char)) {s : List Char}
    (h : ∀ c ∈ s, c ≠ '\x7b' ∧ c ≠ '\x7d') : fill values s = .ok s := by
  unfold fill fillTo pieces
  rw [readPieces_of_plain h]
  simp [Piece.text, bind, Except.bind, pure, Except.pure]

end Conductor.Command
