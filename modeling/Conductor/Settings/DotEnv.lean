import Conductor.Text.Blank
import Conductor.Text.Lines

/-!
# Files of variables

A file of variables assigns a text to a name on each line, with an optional `export` before it and a
comment behind it. A value stands bare, up to a comment, or in quotes, which may span lines; a line
that is no assignment is passed over. References to variables in values are replaced afterwards.
Main statement: passing over a line takes at least one character.
-/

namespace Conductor.DotEnv

open Text

/-- A blank that ends no line. -/
def isInlineBlank (c : Char) : Bool := isBlank c && c != '\r' && c != '\n'

/-- Drops the blanks before the next character of the line. -/
def skipInline (s : List Char) : List Char := s.dropWhile isInlineBlank

/-- Whether a character ends a line. -/
def isLineEnd (c : Char) : Bool := c == '\r' || c == '\n'

/-- Drops the rest of the line with its end. -/
def skipLine (s : List Char) : List Char :=
  match s.dropWhile (!isLineEnd ·) with
  | [] => []
  | _ :: rest => rest

/-- Drops an `export` with the blanks behind it. -/
def skipExport (s : List Char) : List Char :=
  let word := "export".toList
  if word.isPrefixOf s then
    match s.drop word.length with
    | c :: rest => if isInlineBlank c then skipInline rest else s
    | [] => s
  else s

/-- A character of a bare name. -/
def isNameChar (c : Char) : Bool := c != '=' && c != '#' && !isBlank c

/-- What a part of an entry yields: its value and the rest, or the rest at which it fails. -/
abbrev Parsed (α : Type) := Except (List Char) (α × List Char)

/-- The name of an entry, none where a comment stands. -/
def name (s : List Char) : Parsed (Option (List Char)) :=
  match s with
  | '#' :: _ => .ok (none, s)
  | '\'' :: cs =>
    let quoted := cs.takeWhile (· ≠ '\'')
    match cs.dropWhile (· ≠ '\'') with
    | _ :: rest => if quoted.isEmpty then .error s else .ok (some quoted, rest)
    | [] => .error s
  | s =>
    let bare := s.takeWhile isNameChar
    if bare.isEmpty then .error s else .ok (some bare, s.dropWhile isNameChar)

/-- The text up to a closing quote and the rest. A character after a backslash does not close. -/
def quotedText (q : Char) : List Char → Option (List Char × List Char)
  | [] => none
  | '\\' :: c :: cs => (quotedText q cs).map fun (text, rest) => ('\\' :: c :: text, rest)
  | c :: cs =>
    if c = q then some ([], cs) else (quotedText q cs).map fun (text, rest) => (c :: text, rest)

/-- The character that a backslash and a character write between quotes. -/
def escaped? (q c : Char) : Option Char :=
  if c = '\\' || c = '\'' then some c
  else if q = '\'' then none
  else match c with
    | '"' => some '"'
    | 'a' => some '\x07'
    | 'b' => some '\x08'
    | 'f' => some '\x0c'
    | 'n' => some '\n'
    | 'r' => some '\r'
    | 't' => some '\t'
    | 'v' => some '\x0b'
    | _ => none

/-- Replaces the escapes between quotes. -/
def unescape (q : Char) : List Char → List Char
  | [] => []
  | '\\' :: c :: cs =>
    match escaped? q c with
    | some d => d :: unescape q cs
    | none => '\\' :: unescape q (c :: cs)
  | c :: cs => c :: unescape q cs

/-- The text before a comment: blanks followed by a hash. -/
def beforeComment (s : List Char) : List Char :=
  match s with
  | [] => []
  | c :: cs =>
    if isBlank c && (s.dropWhile isBlank).head? == some '#' then [] else c :: beforeComment cs

/-- The value behind an equals sign. -/
def value (s : List Char) : Parsed (List Char) :=
  let quoted (q : Char) (cs : List Char) : Parsed (List Char) :=
    match quotedText q cs with
    | some (text, rest) => .ok (unescape q text, rest)
    | none => .error (skipInline s)
  match skipInline s with
  | '\'' :: cs => quoted '\'' cs
  | '"' :: cs => quoted '"' cs
  | _ =>
    .ok (trimEnd (skipInline (beforeComment (s.takeWhile (!isLineEnd ·)))),
      s.dropWhile (!isLineEnd ·))

/-- Drops a comment. -/
def skipComment (s : List Char) : List Char :=
  match skipInline s with
  | '#' :: cs => cs.dropWhile (!isLineEnd ·)
  | _ => s

/-- Drops the end of the line, which must follow after blanks. -/
def endOfLine (s : List Char) : Except (List Char) (List Char) :=
  match skipInline s with
  | [] => .ok []
  | '\r' :: '\n' :: rest => .ok rest
  | c :: rest => if isLineEnd c then .ok rest else .error s

/-- A name with its value, if it has one. -/
abbrev Entry := List Char × Option (List Char)

/-- Reads an entry from its first character on: the entry, if it is none of a comment, and the
rest. -/
def entry (s : List Char) : Except (List Char) (Option Entry × List Char) := do
  let (key, s) ← name (skipExport s)
  let s := skipInline s
  let (text, s) ← match s with
    | '=' :: cs => do
      let (text, s) ← value cs
      .ok (some text, s)
    | s => .ok (none, s)
  let s ← endOfLine (skipComment s)
  return (key.map fun k => (k, text), s)

/-- The first entry of a text and the rest; a line that is no entry yields none. -/
def nextEntry (s : List Char) : Option Entry × List Char :=
  match entry s with
  | .ok r => r
  | .error rest => (none, skipLine rest)

/-- The entries of a text, of which at most `fuel` lines are read. -/
def entriesUpTo : (fuel : Nat) → List Char → List Entry
  | 0, _ => []
  | fuel + 1, s =>
    match s.dropWhile isBlank with
    | [] => []
    | s =>
      let (e, rest) := nextEntry s
      e.toList ++ entriesUpTo fuel rest

/-- Drops a byte order mark. -/
def skipMark : List Char → List Char
  | '\ufeff' :: cs => cs
  | cs => cs

/-- The entries of a text, which may start with a byte order mark. -/
def entries (s : List Char) : List Entry := entriesUpTo (s.length + 1) (skipMark s)

/-! ### References -/

/-- Variables by name; a later one of a name comes first. -/
abbrev Variables := List (List Char × Option (List Char))

/-- The value of a variable, empty where it is there without one. -/
def lookUp (vars : Variables) (key : List Char) (absent : List Char) : List Char :=
  match vars.find? (·.1 == key) with
  | some (_, some v) => v
  | some (_, none) => []
  | none => absent

/-- A reference at the start of a text, behind its dollar sign and brace: the name, what stands for
it where it is absent, and how many characters the reference takes. -/
def reference? (s : List Char) : Option (List Char × List Char × Nat) :=
  let key := s.takeWhile fun c => c != '\x7d' && c != ':'
  match s.drop key.length with
  | '\x7d' :: _ => some (key, [], key.length + 1)
  | ':' :: '-' :: rest =>
    let absent := rest.takeWhile (· ≠ '\x7d')
    if absent.length < rest.length then some (key, absent, key.length + absent.length + 3) else none
  | _ => none

/-- Replaces the references in a value; `skip` characters belong to one that has been replaced. -/
def expandAfter (vars : Variables) : (skip : Nat) → List Char → List Char
  | _, [] => []
  | n + 1, _ :: cs => expandAfter vars n cs
  | 0, c :: cs =>
    match c, cs with
    | '$', '\x7b' :: rest =>
      match reference? rest with
      | some (key, absent, taken) => lookUp vars key absent ++ expandAfter vars (taken + 1) cs
      | none => c :: expandAfter vars 0 cs
    | _, _ => c :: expandAfter vars 0 cs

/-- Replaces the references in a value. -/
def expand (vars : Variables) (s : List Char) : List Char := expandAfter vars 0 s

/-- Sets a variable: in place where it is there, else at the end. -/
def setVariable (vars : Variables) (key : List Char) (v : Option (List Char)) : Variables :=
  match vars with
  | [] => [(key, v)]
  | (k, old) :: rest => if k = key then (k, v) :: rest else (k, old) :: setVariable rest key v

/-- The variables that entries assign, each value seeing the ones before it and, behind them, those
of the surroundings. -/
def resolve (surroundings : Variables) (es : List Entry) : Variables :=
  es.foldl (fun vars (key, v) =>
    setVariable vars key (v.map (expand (vars ++ surroundings)))) []

/-- The variables that a text assigns. -/
def read (surroundings : Variables) (s : List Char) : Variables := resolve surroundings (entries s)

/-! ### Progress -/

theorem length_dropWhile_le {α : Type} (p : α → Bool) (s : List α) :
    (s.dropWhile p).length ≤ s.length := (List.dropWhile_sublist p).length_le

theorem length_skipLine_lt {c : Char} {cs : List Char} :
    (skipLine (c :: cs)).length < cs.length + 1 := by
  unfold skipLine
  have h := length_dropWhile_le (!isLineEnd ·) (c :: cs)
  split
  · simp
  · next hd =>
    rw [hd] at h
    simp only [List.length_cons] at h ⊢
    omega

end Conductor.DotEnv
