import Conductor.Text.Octets

/-!
# The syntax of shell scripts

A script is a sequence of commands, a command is made of words and redirections, and a word keeps
its parts apart: texts, with whether they were quoted, and what is still to be expanded. Commands
know the line they stand in. All texts are octets. Main statement: a name followed by an equals sign
is an assignment of what follows it.
-/

namespace Conductor.Shell

/-! ### Characters -/

/-- A character that may begin a name. -/
def isNameStart (c : Char) : Bool := c.isAlpha || c == '_'

/-- A character of a name. -/
def isNameChar (c : Char) : Bool := c.isAlphanum || c == '_'

/-- A text that is a name. -/
def isName : List Char → Bool
  | [] => false
  | c :: cs => isNameStart c && cs.all isNameChar

/-- A character that names a parameter on its own. -/
def isSpecial (c : Char) : Bool := c.isDigit || ['!', '#', '$', '*', '-', '?', '@'].contains c

/-- A space, a tab or a line feed. -/
def isBlank (c : Char) : Bool := c == ' ' || c == '\t' || c == '\n'

/-- A character that ends a word. -/
def endsWord (c : Char) : Bool := isBlank c || ['<', '>', '(', ')', ';', '&', '|'].contains c

/-! ### Commands -/

/-- How a redirection opens a file. -/
inductive Direction where
  | from
  | fromInto
  | into
  | over
  | append
  deriving DecidableEq, Repr, Inhabited

/-- What happens where a parameter has no value: another word stands for it, it is set to that word,
or there is an error; or, the other way round, a word stands for a parameter that has a value. -/
inductive Absence where
  | default
  | assign
  | complain
  | alternative
  deriving DecidableEq, Repr, Inhabited

mutual

/-- A part of a word. -/
inductive Part where
  | text (s : List Char) (quoted : Bool)
  /-- A quote, which makes a field even of nothing. -/
  | mark
  /-- What is made of a parameter. -/
  | parameter (name : List Char) (use : Use) (quoted : Bool)
  /-- The output of a command. -/
  | output (body : Option Command) (quoted : Bool)
  /-- The value of an expression. -/
  | sum (expression : List Part) (quoted : Bool)

/-- What is made of a parameter. -/
inductive Use where
  | value
  | length
  | absent (how : Absence) (orEmpty : Bool) (word : List Part)
  /-- The value without what a pattern matches at one of its ends. -/
  | trim (atEnd longest : Bool) (pattern : List Part)
  /-- The value with a word behind it, at which the word around it ends. -/
  | followed (word : List Part)
  | unknown

/-- A redirection of a numbered stream. -/
inductive Redirect where
  | file (number : Nat) (direction : Direction) (name : List Part)
  /-- The stream becomes a copy of another one, or is closed. -/
  | copy (number : Nat) (source : Option Nat)
  /-- The stream becomes a copy of the one that a word tells. -/
  | copyWord (number : Nat) (source : List Part)
  /-- The stream reads the document of an index. -/
  | document (number : Nat) (index : Nat)

/-- A command. -/
inductive Command where
  | simple (line : Nat) (assigned words : List (List Part)) (redirects : List Redirect)
  | follow (a b : Command)
  | both (a b : Command)
  | either (a b : Command)
  | negate (a : Command)
  | pipe (members : List Command) (behind : Bool)
  /-- A command in a shell of its own. -/
  | apart (line : Nat) (body : Option Command) (redirects : List Redirect)
  /-- A command that is not waited for. -/
  | behind (line : Nat) (body : Command) (redirects : List Redirect)
  | redirected (line : Nat) (body : Command) (redirects : List Redirect)
  | choose (condition : Command) (yes : Command) (no : Option Command)
  | loop (whileTrue : Bool) (condition body : Command)
  | each (line : Nat) (name : List Char) (words : List (List Part)) (body : Command)
  | select (line : Nat) (word : List Part) (cases : List (List (List Part) × Option Command))
  | define (name : List Char) (body : Command)

end

instance : Inhabited Part := ⟨.mark⟩
instance : Inhabited Command := ⟨.simple 0 [] [] []⟩

/-- A word: its parts in order. -/
abbrev Word := List Part

/-- The text that a word is, if it is one without quotes or expansions. -/
def bare? : Word → Option (List Char)
  | [.text s false] => some s
  | _ => none

/-- The name that a word assigns to, and the word for its value: an unquoted name and an equals sign
in front of the value. -/
def assignment? : Word → Option (List Char × Word)
  | .text s false :: rest =>
    let name := s.takeWhile isNameChar
    match isName name, s.drop name.length with
    | true, '=' :: value =>
      some (name, if value.isEmpty then rest else .text value false :: rest)
    | _, _ => none
  | _ => none

/-- Joins neighbouring texts that are both quoted or both not. -/
def joinTexts : List Part → Word
  | .text s p :: rest =>
    match joinTexts rest with
    | .text t q :: rest =>
      if p = q then .text (s ++ t) p :: rest else .text s p :: .text t q :: rest
    | rest => .text s p :: rest
  | p :: rest => p :: joinTexts rest
  | [] => []

/-- A name followed by an equals sign is an assignment of what follows it. -/
theorem assignment?_text {name : List Char} (hn : isName name = true)
    (hc : ∀ c ∈ name, isNameChar c = true) (c : Char) (value : List Char) (rest : Word) :
    assignment? (.text (name ++ '=' :: c :: value) false :: rest)
      = some (name, .text (c :: value) false :: rest) := by
  have ht : (name ++ '=' :: c :: value).takeWhile isNameChar = name := by
    rw [List.takeWhile_append_of_pos hc]
    simp [isNameChar]
  simp [assignment?, ht, hn]

/-! ### Faults -/

/-- Why a text is no script. -/
inductive SyntaxCause where
  | openQuote
  | openBrace
  | openSum
  | openBackquote
  | loopName
  | functionName
  | streamNumber
  | unexpected (found : String) (expected : Option String)
  deriving DecidableEq, Repr, Inhabited

/-- Why and in which line a text is no script. -/
structure SyntaxFault where
  cause : SyntaxCause
  line : Nat
  deriving DecidableEq, Repr, Inhabited

/-- What is wrong with the script. -/
def SyntaxCause.message : SyntaxCause → String
  | openQuote => "Unterminated quoted string"
  | openBrace => "Missing '\x7d'"
  | openSum => "Missing '))'"
  | openBackquote => "EOF in backquote substitution"
  | loopName => "Bad for loop variable"
  | functionName => "Bad function name"
  | streamNumber => "Bad fd number"
  | unexpected found none => s!"{found} unexpected"
  | unexpected found (some expected) => s!"{found} unexpected (expecting {expected})"

/-- The built-in commands after whose failure a shell leaves off, and which no function may be named
as. -/
def specialNames : List String :=
  [".", ":", "break", "continue", "eval", "exec", "exit", "export", "local", "readonly", "return",
    "set", "shift", "times", "trap", "unset"]

end Conductor.Shell
