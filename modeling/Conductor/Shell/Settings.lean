import Conductor.Shell.Signals

/-!
# The options of a shell

The letters and names of the options that a shell can be given and can change, and how the words of
a command are read as options and operands. Main statement: words without a dash in front are all
operands.
-/

namespace Conductor.Shell

open Text Run

/-- The options by name and letter, in the order in which they are listed. -/
def shellOptions : List (String × Option Char) :=
  [("errexit", some 'e'), ("noglob", some 'f'), ("ignoreeof", some 'I'), ("interactive", some 'i'),
    ("monitor", some 'm'), ("noexec", some 'n'), ("stdin", some 's'), ("xtrace", some 'x'),
    ("verbose", some 'v'), ("vi", some 'V'), ("emacs", some 'E'), ("noclobber", some 'C'),
    ("allexport", some 'a'), ("notify", some 'b'), ("nounset", some 'u'), ("privileged", some 'p'),
    ("nolog", none), ("debug", none)]

/-- The letters of the options that are set, in the order in which they are shown. -/
def shownOptions (set : List Char) : List Char :=
  (shellOptions.filterMap (·.2)).reverse.filter set.contains

/-- Sets an option or takes it back. -/
def changeOption (letter : Char) (on : Bool) : Run Unit :=
  modify fun p =>
    let others := p.options.filter (· != letter)
    { p with options := if on then letter :: others else others }

/-- Changes the option of a letter, if there is one. -/
def changeByLetter (letter : Char) (on : Bool) : Run Unit := do
  if letter = 'm' ∧ on then warn "can't access tty; job control turned off".toList
  else if (shellOptions.filterMap (·.2)).contains letter then changeOption letter on
  else fail ("Illegal option -".toList ++ [letter])

/-- Changes the option of a name, if there is one. -/
def changeByName (name : List Char) (on : Bool) : Run Unit := do
  match shellOptions.find? (·.1.toList == name) with
  | some (_, some letter) => changeByLetter letter on
  | some (_, none) => return ()
  | none => fail ("Illegal option -o ".toList ++ name)

/-- The list of all options, as a table or as commands. -/
def listOptions (asTable : Bool) (set : List Char) : List Char :=
  let isOn (letter : Option Char) : Bool := letter.any set.contains
  if asTable then
    "Current option settings\n".toList ++ shellOptions.flatMap fun (name, letter) =>
      name.toList ++ List.replicate (16 - name.length) ' '
        ++ (if isOn letter then "on\n" else "off\n").toList
  else
    shellOptions.flatMap fun (name, letter) =>
      (if isOn letter then "set -o " else "set +o ").toList ++ name.toList ++ ['\n']

/-- Applies the letters of one word; a letter `o` takes its name from the words behind. The words
that are left. -/
def applyLetters (on : Bool) : List Char → List (List Char) → Run (List (List Char))
  | [], rest => return rest
  | 'o' :: letters, rest => do
    match rest with
    | name :: rest =>
      changeByName name on
      applyLetters on letters rest
    | [] =>
      write 1 (listOptions on (← get).options)
      applyLetters on letters []
  | c :: letters, rest => do
    changeByLetter c on
    applyLetters on letters rest

/-- What the words of `set` say beyond options: nothing, or the new arguments. -/
def applyOptions : (fuel : Nat) → List (List Char) → Run (Option (List (List Char)))
  | 0, _ => return none
  | fuel + 1, words => do
    match words with
    | [] => return none
    | ['-', '-'] :: rest => return some rest
    | ['-'] :: rest =>
      changeOption 'x' false
      changeOption 'v' false
      return if rest.isEmpty then none else some rest
    | ('-' :: letters) :: rest => applyOptions fuel (← applyLetters true letters rest)
    | ('+' :: letters) :: rest => applyOptions fuel (← applyLetters false letters rest)
    | words => return some words

/-! ### Output, options and operands of commands -/

/-- Writes what a command has to write, and complains where it cannot. -/
def put (text : List Char) : Run Nat := do
  if text.isEmpty then return 0
  else if ← writeBytes 1 (Octets.toBytes text) then return 0
  else
    warn ((((← get).command).getD []) ++ ": I/O error".toList)
    return 1

/-- What the words of a command say: its options, those with a value having one, and its operands.
-/
structure Usage where
  options : List (Char × List Char) := []
  operands : List (List Char)
  deriving DecidableEq, Repr, Inhabited

namespace Usage

/-- Whether an option is given. -/
def has (u : Usage) (c : Char) : Bool := u.options.any (·.1 == c)

/-- One more option in front. -/
def add (u : Usage) (c : Char) (value : List Char) : Usage :=
  { u with options := (c, value) :: u.options }

/-- Reads words as options, known by their letters and by the letters of those with a value, and
operands. The letters of an open word come first; at most `fuel` letters and words are read. -/
def readUpTo (known valued : List Char) : (fuel : Nat) → (opened : List Char) →
    List (List Char) → Except (List Char) Usage
  | 0, _, words => .ok { operands := words }
  | fuel + 1, c :: letters, words =>
    if valued.contains c then
      match letters, words with
      | [], value :: rest => (readUpTo known valued fuel [] rest).map (·.add c value)
      | [], [] => .error ("No arg for -".toList ++ c :: " option".toList)
      | value, words => (readUpTo known valued fuel [] words).map (·.add c value)
    else if known.contains c then (readUpTo known valued fuel letters words).map (·.add c [])
    else .error ("Illegal option -".toList ++ [c])
  | fuel + 1, [], words =>
    match words with
    | ['-', '-'] :: rest => .ok { operands := rest }
    | ('-' :: c :: letters) :: rest => readUpTo known valued fuel (c :: letters) rest
    | words => .ok { operands := words }

/-- Reads words as options and operands. -/
def read (known valued : String) (words : List (List Char)) : Except (List Char) Usage :=
  let size := words.foldl (fun n w => n + w.length + 1) 1
  readUpTo known.toList valued.toList size [] words

theorem readUpTo_of_head_ne (known valued : List Char) (fuel : Nat) {w : List Char}
    {words : List (List Char)} (h : w.head? ≠ some '-') :
    readUpTo known valued fuel [] (w :: words) = .ok { operands := w :: words } := by
  cases fuel with
  | zero => rfl
  | succ fuel =>
    unfold readUpTo
    split <;> simp_all

/-- Words without a dash in front are all operands. -/
theorem read_of_head_ne (known valued : String) {w : List Char} {words : List (List Char)}
    (h : w.head? ≠ some '-') : read known valued (w :: words) = .ok { operands := w :: words } :=
  readUpTo_of_head_ne _ _ _ h

end Usage

/-- The options and operands of a command. -/
def usage (known valued : String) (words : List (List Char)) : Run Usage := do
  match Usage.read known valued words with
  | .ok u => return u
  | .error message => fail message

/-- The number that a word writes. -/
def requireCount (word : List Char) : Run Nat := do
  match count? word with
  | some n => return n
  | none => fail ("Illegal number: ".toList ++ word)

end Conductor.Shell
