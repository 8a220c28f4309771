import Conductor.Text.Digit
import Conductor.Text.Order
import Conductor.Text.Quoted

/-!
# Options and arguments

A command line is a list of words: options, some of which take a value, and arguments. An option may
be shortened as long as only one fits, and a value may follow an equals sign. Behind two dashes
every word is an argument. What fits nowhere is handed back. Main statement: a word that does not
start with a dash is an argument.
-/

namespace Conductor.CommandLine

open Text

/-- What an option does. -/
inductive OptionKind where
  /-- Takes a value, one of some choices if there are any. -/
  | value (choices : List String)
  | flag
  | help
  | version
  deriving DecidableEq, Repr, Inhabited

/-- An option with its names. -/
structure Opt where
  names : List String
  kind : OptionKind
  isRequired : Bool := false
  deriving DecidableEq, Repr, Inhabited

/-- The name under which an option is reported. -/
def Opt.shown (o : Opt) : String := "/".intercalate o.names

/-- What the argument of a command line is: a word, or the name of a command, which takes all words
behind it along. -/
inductive Positional where
  | word (name : String)
  | command (name : String) (choices : List String)
  deriving DecidableEq, Repr, Inhabited

/-- The name under which an argument is reported. -/
def Positional.name : Positional → String
  | word name => name
  | command name _ => name

/-- What a command line may hold. -/
structure Grammar where
  program : String
  options : List Opt
  positional : Option Positional := none
  deriving Repr, Inhabited

/-- How a choice is written. -/
def choiceText (choices : List String) : String := "\x7b" ++ ",".intercalate choices ++ "\x7d"

/-- How an option is written; one that may be left out stands in brackets. -/
def Opt.usage (o : Opt) : String :=
  let name := o.names.headD ""
  let written := match o.kind with
    | .value [] => name ++ " VALUE"
    | .value choices => name ++ " " ++ choiceText choices
    | _ => name
  if o.isRequired then written else "[" ++ written ++ "]"

/-- How an argument is written. -/
def Positional.usage : Positional → String
  | word name => name
  | command _ choices => choiceText choices ++ " ..."

/-- How a command line is written. -/
def Grammar.usage (g : Grammar) : String :=
  let arguments := (g.positional.map Positional.usage).toList
  " ".intercalate (g.program :: g.options.map Opt.usage ++ arguments)

/-- Why a command line asks for nothing that can be done. -/
inductive Refusal where
  | help
  | version
  | wrong (program message : String)
  deriving DecidableEq, Repr, Inhabited

/-- What a command line holds: the values of options, the last ones first, the words of the argument
and those that fit nowhere. -/
structure Given where
  values : List (String × String) := []
  words : Option (List String) := none
  unknown : List String := []
  deriving DecidableEq, Repr, Inhabited

namespace Given

/-- The value of an option. -/
def value? (g : Given) (name : String) : Option String :=
  (g.values.find? (·.1 == name)).map (·.2)

/-- Whether an option is given. -/
def has (g : Given) (name : String) : Bool := (g.value? name).isSome

end Given

/-! ### What a word is -/

/-- What a word of a command line is. -/
inductive WordKind where
  | argument
  | dashes
  /-- An option, unknown where it is none of the grammar, with the value behind an equals sign. -/
  | option (o : Option (Opt × String)) (value : Option String)
  deriving DecidableEq, Repr, Inhabited

/-- All names of options, with their options. -/
def Grammar.allNames (g : Grammar) : List (String × Opt) :=
  g.options.flatMap fun o => o.names.map fun n => (n, o)

/-- The option of a name. -/
def Grammar.named? (g : Grammar) (name : String) : Option (Opt × String) :=
  (g.allNames.find? (·.1 == name)).map fun (n, o) => (o, n)

/-- A text up to its first equals sign and what is behind it. -/
def cutEquals (s : String) : String × Option String :=
  let before := s.toList.takeWhile (· ≠ '=')
  match s.toList.drop before.length with
  | _ :: value => (String.ofList before, some (String.ofList value))
  | [] => (s, none)

/-- The options that a shortened word may mean, with the value that is part of the word. -/
def Grammar.candidates (g : Grammar) (word : String) : List (Opt × String × Option String) :=
  if "--".toList.isPrefixOf word.toList then
    let (start, value) := cutEquals word
    g.allNames.filterMap fun (n, o) =>
      if start.toList.isPrefixOf n.toList then some (o, n, value) else none
  else
    g.allNames.filterMap fun (n, o) =>
      if n.toList == word.toList.take 2 then some (o, n, some (String.ofList (word.toList.drop 2)))
      else if word.toList.isPrefixOf n.toList then some (o, n, none)
      else none

/-- A decimal digit of any script. -/
def isAnyDigit (c : Char) : Bool := (digitValue? c).isSome

/-- Whether a word is a number below zero, in digits of any script; a line feed may follow. -/
def isNegativeNumber (word : String) : Bool :=
  match word.toList with
  | '-' :: ds =>
    let ds := if ds.getLast? = some '\n' then ds.dropLast else ds
    let whole := ds.takeWhile isAnyDigit
    match ds.drop whole.length with
    | [] => !whole.isEmpty
    | '.' :: fraction => !fraction.isEmpty && fraction.all isAnyDigit
    | _ => false
  | _ => false

/-- What a word is that starts with a dash and is no option's name. -/
def Grammar.kindOfOther (g : Grammar) (word : String) : Except Refusal WordKind :=
  match g.candidates word with
  | [(o, name, value)] => .ok (.option (some (o, name)) value)
  | [] =>
    if isNegativeNumber word || word.contains ' ' then .ok .argument else .ok (.option none none)
  | several =>
    let names := ", ".intercalate (several.map fun c => c.2.1)
    .error (.wrong g.program s!"ambiguous option: {word} could match {names}")

/-- What a word is, behind which no two dashes stood. -/
def Grammar.kindOf (g : Grammar) (word : String) : Except Refusal WordKind :=
  match word.toList with
  | '-' :: rest =>
    match g.named? word with
    | some found => .ok (.option (some found) none)
    | none =>
      if rest.isEmpty then .ok .argument
      else
        let (name, value) := cutEquals word
        match value, g.named? name with
        | some v, some found => .ok (.option (some found) (some v))
        | _, _ => g.kindOfOther word
  | _ => .ok .argument

/-- A word that does not start with a dash is an argument. -/
theorem Grammar.kindOf_of_head (g : Grammar) {word : String} (h : word.toList.head? ≠ some '-') :
    g.kindOf word = .ok .argument := by
  unfold kindOf
  split
  · next rest hw => simp [hw] at h
  · rfl

/-- What each word is. -/
def Grammar.kinds (g : Grammar) : List String → Except Refusal (List (String × WordKind))
  | [] => .ok []
  | "--" :: rest => .ok (("--", .dashes) :: rest.map fun w => (w, .argument))
  | w :: rest => do
    let kind ← g.kindOf w
    let others ← g.kinds rest
    return (w, kind) :: others

/-! ### Taking the words -/

/-- The words of the argument that a list begins with, and the rest. -/
def takePositional (p : Positional) (ws : List (String × WordKind)) :
    Option (List String × List (String × WordKind)) :=
  let (front, rest) := ws.span (·.2 == .dashes)
  match p, rest with
  | .word _, (w, .argument) :: rest =>
    let (behind, rest) := rest.span (·.2 == .dashes)
    let taken := front.map (·.1) ++ w :: behind.map (·.1)
    some (taken.erase "--", rest)
  | .command _ _, (w, .argument) :: rest => some (front.map (·.1) ++ w :: rest.map (·.1), [])
  | _, _ => none

/-- Takes the argument that a list begins with, if it has not been taken yet. -/
def takeArgument (g : Grammar) (given : Given) (ws : List (String × WordKind)) :
    Given × List (String × WordKind) :=
  match g.positional, given.words with
  | some p, none =>
    match takePositional p ws with
    | some (words, rest) => ({ given with words := some words }, rest)
    | none => (given, ws)
  | _, _ => (given, ws)

/-- Whether a word is an option. -/
def isOption (w : String × WordKind) : Bool := w.2 matches .option ..

/-- A fault of an option. -/
def Grammar.wrongOption {α : Type} (g : Grammar) (o : Opt) (message : String) : Except Refusal α :=
  .error (.wrong g.program s!"argument {o.shown}: {message}")

/-- The choices as a fault lists them. -/
def choicesText (choices : List String) : String := ", ".intercalate (choices.map quoted)

/-- Gives an option a value. -/
def Grammar.give (g : Grammar) (given : Given) (o : Opt) (value : String) : Except Refusal Given :=
  match o.kind with
  | .value choices =>
    if choices.isEmpty || choices.contains value then
      .ok { given with values := (o.names.headD "", value) :: given.values }
    else g.wrongOption o s!"invalid choice: {quoted value} (choose from {choicesText choices})"
  | .flag => .ok { given with values := (o.names.headD "", "") :: given.values }
  | .help => .error .help
  | .version => .error .version

/-- Whether an option takes a value. -/
def Opt.takesValue (o : Opt) : Bool := o.kind matches .value _

/-- The fault of a value for an option that takes none. -/
def Grammar.ignored {α : Type} (g : Grammar) (o : Opt) (value : List Char) : Except Refusal α :=
  g.wrongOption o s!"ignored explicit argument {quoted (String.ofList value)}"

/-- Gives options that take no value. -/
def Grammar.giveAll (g : Grammar) (given : Given) (os : List Opt) : Except Refusal Given :=
  os.foldlM (fun given o => g.give given o "") given

/-- Gives an option the value that is part of its word. Behind a single dash, the value of an option
that takes none is the letters of further options; `before` are the options so far. -/
def Grammar.giveInside (g : Grammar) (given : Given) (o : Opt) (name : String) (before : List Opt)
    (value : List Char) : Except Refusal Given :=
  if o.takesValue then do
    let given ← g.giveAll given before
    g.give given o (String.ofList value)
  else match value with
    | [] => g.ignored o []
    | c :: rest =>
      if "--".toList.isPrefixOf name.toList then g.ignored o (c :: rest)
      else match g.named? (String.ofList ['-', c]) with
        | none => g.ignored o (c :: rest)
        | some (next, name) =>
          if rest.isEmpty then g.giveAll given (before ++ [o, next])
          else g.giveInside given next name (before ++ [o]) rest

/-- Takes the option that a list begins with. -/
def takeOption (g : Grammar) (given : Given) (word : String) (o : Option (Opt × String))
    (value : Option String) (rest : List (String × WordKind)) :
    Except Refusal (Given × List (String × WordKind)) :=
  match o, value with
  | none, _ => .ok ({ given with unknown := given.unknown ++ [word] }, rest)
  | some (o, name), some v => (g.giveInside given o name [] v.toList).map fun given => (given, rest)
  | some (o, _), none =>
    if o.takesValue then
      match rest with
      | (v, .argument) :: rest => (g.give given o v).map fun given => (given, rest)
      | _ => g.wrongOption o "expected one argument"
    else (g.give given o "").map fun given => (given, rest)

/-- Takes words that fit nowhere. -/
def takeUnknown (given : Given) (ws : List (String × WordKind)) : Given :=
  { given with unknown := given.unknown ++ ws.map (·.1) }

/-- Takes all words, in at most `fuel` moves. -/
def takeAll (g : Grammar) : (fuel : Nat) → Given → List (String × WordKind) → Except Refusal Given
  | 0, given, ws => .ok (takeUnknown given ws)
  | fuel + 1, given, ws =>
    match ws.span (!isOption ·) with
    | (front, []) =>
      let (given, rest) := takeArgument g given front
      .ok (takeUnknown given rest)
    | (front, (word, .option o value) :: rest) =>
      let (given', left) := if front.isEmpty then (given, ws) else takeArgument g given ws
      if left.length < ws.length then takeAll g fuel given' left
      else do
        let given := takeUnknown given front
        let (given, rest) ← takeOption g given word o value rest
        takeAll g fuel given rest
    | (_, rest) => .ok (takeUnknown given rest)

/-- What must be given and is not. -/
def Grammar.lacking (g : Grammar) (given : Given) : List String :=
  (g.options.filter fun o => o.isRequired && !given.has (o.names.headD "")).map Opt.shown
    ++ match g.positional with
      | some p => if given.words.isNone then [p.name] else []
      | none => []

/-- Reads a command line. -/
def Grammar.read (g : Grammar) (words : List String) : Except Refusal Given := do
  let ws ← g.kinds words
  let given ← takeAll g (ws.length + 1) {} ws
  let lacking := g.lacking given
  if lacking.isEmpty then return given
  else throw (.wrong g.program
    ("the following arguments are required: " ++ ", ".intercalate lacking))

end Conductor.CommandLine
