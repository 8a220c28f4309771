import Conductor.Shell.Syntax

/-!
# Reading a script

A script is read character by character; the reader counts lines and remembers the documents whose
text is still to come and what aliases stand for. A backslash in front of a line feed joins two
lines. Main statement: joining lines takes nothing from a text without a backslash in front.
-/

namespace Conductor.Shell

/-- What a token is: the end of the script, an operator, a redirection, a word or a keyword. -/
inductive Token where
  | ended
  | newline
  | sign (s : String)
  | keyword (s : String)
  | word (w : Word)
  /-- A redirection of a numbered stream to the file that the next word names. -/
  | file (number : Nat) (direction : Direction)
  /-- A redirection of a numbered stream to a copy. -/
  | copy (number : Nat)
  /-- A redirection from a document; `stripped` says whether its lines lose tabs in front. -/
  | document (number : Nat) (stripped : Bool)
  deriving Inhabited

namespace Token

/-- How a token is named in a fault. -/
def shown : Token → String
  | ended => "end of file"
  | newline => "newline"
  | sign s => s!"\"{s}\""
  | keyword s => s!"\"{s}\""
  | word _ => "word"
  | _ => "redirection"

/-- The keywords. -/
def keywords : List String :=
  ["!", "case", "do", "done", "elif", "else", "esac", "fi", "for", "if", "in", "then", "until",
    "while", "\x7b", "\x7d"]

/-- The keywords that end a list of commands. -/
def closingKeywords : List String :=
  ["do", "done", "elif", "else", "esac", "fi", "then", "\x7d"]

/-- Whether a list of commands ends before a token. -/
def endsList : Token → Bool
  | ended => true
  | sign s => s == ")" || s == ";;"
  | keyword s => closingKeywords.contains s
  | _ => false

/-- The keyword that a word is, if it is one. -/
def keyword? (w : Word) : Option String :=
  match bare? w with
  | some s => keywords.find? fun k => k.toList == s
  | none => none

end Token

/-- A document whose text is still to come. -/
structure Awaited where
  index : Nat
  ender : List Char
  /-- Whether tabs in front of its lines are dropped. -/
  stripped : Bool
  /-- Whether its text is expanded. -/
  expanded : Bool
  deriving Repr, Inhabited

/-- A script that is being read. -/
structure Source where
  rest : List Char
  line : Nat := 1
  /-- A token that is read once more. -/
  pushed : Option Token := none
  awaited : List Awaited := []
  /-- The document whose text is being read. -/
  document : Option Awaited := none
  /-- The texts of all documents. -/
  documents : Array Word := #[]
  aliases : List (List Char × List Char) := []
  /-- The aliases whose texts are being read, and how much is left behind each. -/
  replaced : List (List Char × Nat) := []
  deriving Inhabited

/-- Reads from a script. -/
abbrev Reader := StateT Source (Except SyntaxFault)

namespace Reader

/-- Drops pairs of a backslash and a line feed: their number and the rest. -/
def dropJoins : List Char → Nat × List Char
  | '\\' :: '\n' :: cs =>
    let (n, rest) := dropJoins cs
    (n + 1, rest)
  | cs => (0, cs)

/-- Joining lines takes nothing from a text without a backslash in front. -/
theorem dropJoins_of_ne {c : Char} (h : c ≠ '\\') (cs : List Char) :
    dropJoins (c :: cs) = (0, c :: cs) := by
  unfold dropJoins
  split
  · simp_all
  · rfl

/-- Fails in the current line. -/
def fault {α : Type} (cause : SyntaxCause) : Reader α := do
  throw ⟨cause, (← get).line⟩

/-- The next character, which stays. -/
def peekRaw : Reader (Option Char) := do return (← get).rest.head?

/-- The next character after lines have been joined, which stays. -/
def peek : Reader (Option Char) := do
  let s ← get
  match s.rest with
  | '\\' :: '\n' :: _ =>
    let (n, rest) := dropJoins s.rest
    set { s with rest := rest, line := s.line + n }
    return rest.head?
  | rest => return rest.head?

/-- Drops the next character. -/
def advance : Reader Unit :=
  modify fun s =>
    match s.rest with
    | '\n' :: cs => { s with rest := cs, line := s.line + 1 }
    | _ :: cs => { s with rest := cs }
    | [] => s

/-- Drops the next character; a line feed begins no line then. -/
def pass : Reader Unit := modify fun s => { s with rest := s.rest.tail }

/-- Drops the next character if it is a given one, and tells whether it was. -/
def skip (c : Char) : Reader Bool := do
  if (← peek) = some c then
    advance
    return true
  else return false

/-- The next characters as long as they satisfy a condition, of which at most `fuel`. -/
def spanUpTo (ok : Char → Bool) : (fuel : Nat) → Reader (List Char)
  | 0 => return []
  | fuel + 1 => do
    match ← peek with
    | some c =>
      if ok c then
        advance
        return c :: (← spanUpTo ok fuel)
      else return []
    | none => return []

/-- The next characters as long as they satisfy a condition. -/
def span (ok : Char → Bool) : Reader (List Char) := do
  spanUpTo ok (← get).rest.length

/-- Reads a token once more. -/
def push (t : Token) : Reader Unit := modify fun s => { s with pushed := some t }

/-- Fails at a token. -/
def unexpected {α : Type} (t : Token) (expected : Option String) : Reader α :=
  fault (.unexpected t.shown expected)

/-- Reads a text by itself in place of the script, beginning with its first line. -/
def within {α : Type} (text : List Char) (r : Reader α) : Reader α := do
  let before ← get
  set { before with rest := text, line := 1, pushed := none, awaited := [],
                    document := none }
  let a ← r
  modify fun s => { before with documents := s.documents }
  return a

end Reader

end Conductor.Shell
