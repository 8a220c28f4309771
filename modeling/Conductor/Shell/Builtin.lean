import Conductor.Shell.Fields
import Conductor.Shell.Jobs
import Conductor.Shell.Search

/-!
# Built-in commands

The commands of a shell that change its own state, or that it need not start a program for. Each
gives a status; an error ends it, and the shell too where the command is a special one. Main
statement: a line is split into no more fields than there are names.
-/

namespace Conductor.Shell

open Text Process Run

/-- A value in quotes that can be read again. -/
def requoted (s : List Char) : List Char :=
  let parts := s.foldr (fun c (parts : List (List Char × Bool)) =>
    match parts with
    | (part, quote) :: rest =>
      if quote = (c == '\'') then (c :: part, quote) :: rest else ([c], c == '\'') :: parts
    | [] => [([c], c == '\'')]) []
  if s.isEmpty then ['\'', '\'']
  else
    let front := if s.head? = some '\'' then ['\'', '\''] else []
    front ++ parts.flatMap fun (part, quote) =>
      if quote then '"' :: part ++ ['"'] else '\'' :: part ++ ['\'']

/-! ### Variables -/

/-- The name in front of an equals sign and the value behind it. -/
def splitAssignment (s : List Char) : List Char × Option (List Char) :=
  let name := s.takeWhile (· ≠ '=')
  (name, (s.drop name.length).tail? )

/-- Refuses what is no name. -/
def requireName (name : List Char) : Run Unit :=
  if isName name then return () else fail (name ++ ": bad variable name".toList)

/-- The name that a word sets: what stands in front of an equals sign in it. -/
def nameIn (word : List Char) : Run (List Char) := do
  let name := word.takeWhile (· ≠ '=')
  requireName name
  return name

/-- The variables that satisfy a condition, each behind a word as a command that sets it. -/
def listVariables (front : List Char) (keep : Variable → Bool) : Run Nat := do
  let vars := ((← get).vars.filter keep).mergeSort fun a b => octetsLe a.name b.name
  put (vars.flatMap fun v =>
    let value := match v.value with
      | some value => '=' :: requoted value
      | none => []
    front ++ v.name ++ value ++ ['\n'])

/-- Marks variables, and sets those with a value. -/
def markVariables (front : String) (mark : Variable → Variable) (isMarked : Variable → Bool)
    (words : List (List Char)) : Run Nat := do
  let u ← usage "p" "" words
  if u.has 'p' ∨ u.operands.isEmpty then listVariables (front.toList ++ [' ']) isMarked
  else
    for word in u.operands do
      let (name, value) := splitAssignment word
      requireName name
      match value with
      | some value => assign name value false
      | none => pure ()
      modify fun p => p.putVariable (mark ((p.named? name).getD ⟨name, none, false, false⟩))
    return 0

/-- Makes variables of the running function its own. -/
def makeLocal (words : List (List Char)) : Run Nat := do
  for word in words do
    let p ← get
    match p.locals with
    | [] => fail "not in a function".toList
    | frame :: frames =>
      let (name, value) := splitAssignment word
      if name = ['-'] then
        let saved := (name, some ⟨name, some p.options, false, false⟩)
        set { p with locals := (saved :: frame) :: frames }
      else
        if value.isNone then requireName name
        let known := frame.any (·.1 == name)
        if !known then set { p with locals := ((name, p.named? name) :: frame) :: frames }
        match value with
        | some value => assign name value false
        | none => pure ()
  if (← get).locals.isEmpty then fail "not in a function".toList
  return 0

/-- Gives back what local variables had been. -/
def restoreLocals (frame : List (List Char × Option Variable)) (p : Process) : Process :=
  frame.foldl (fun p saved =>
    if saved.1 = ['-'] then { p with options := (saved.2.bind (·.value)).getD [] }
    else p.restoreVariable saved) p

/-- Refuses what is no name among local variables that had not been set before. -/
def requireNames (frame : List (List Char × Option Variable)) : Run Unit :=
  frame.forM fun saved =>
    if saved.2.isNone then requireName saved.1 else return ()

/-- Takes variables or functions away. -/
def unset (words : List (List Char)) : Run Nat := do
  let u ← usage "vf" "" words
  for word in u.operands do
    if (u.options.getLast?).any (·.1 == 'f') then
      modify fun p => { p with functions := p.functions.filter (·.name != word) }
    else
      let name ← nameIn word
      if (← get).isFixed name then fail (name ++ ": is read only".toList)
      if name = "OPTIND".toList then fail "Illegal number: ".toList
      modify (·.dropVariable name)
  return 0

/-- Changes options and arguments. -/
def setAll (words : List (List Char)) : Run Nat := do
  if words.isEmpty then listVariables [] (·.value.isSome)
  else
    match ← applyOptions (words.length + 1) words with
    | some arguments =>
      modify fun p => { p with arguments := arguments, optionIndex := 1, optionOffset := none }
      return 0
    | none => return 0

/-- Drops arguments. -/
def shift (words : List (List Char)) : Run Nat := do
  let n ← match words with
    | w :: _ => requireCount w
    | [] => pure 1
  if (← get).arguments.length < n then fail "can't shift that many".toList
  modify fun p =>
    { p with arguments := p.arguments.drop n, optionIndex := 1, optionOffset := none }
  return 0

/-! ### Leaving -/

/-- Leaves loops, or goes on with the next turn of one. -/
def leaveLoops (flow : Nat → Flow) (words : List (List Char)) : Run Nat := do
  let n ← match words with
    | w :: _ => do
      let n ← requireCount w
      if n = 0 then fail ("Illegal number: ".toList ++ w)
      pure n
    | [] => pure 1
  let depth := (← get).loopDepth
  if depth = 0 then return 0
  else
    modify fun p => { p with status := 0 }
    throw (flow (min n depth))

/-- Leaves a function or a script. -/
def leaveFunction (words : List (List Char)) : Run Nat := do
  match words with
  | w :: _ =>
    let n ← requireCount w
    modify fun p => { p with status := n }
  | [] => pure ()
  throw .back

/-- Ends the shell. -/
def leaveShell (words : List (List Char)) : Run Nat := do
  let status ← match words with
    | w :: _ => requireCount w
    | [] => do
      let p ← get
      pure (p.exiting.getD p.status)
  modify fun p => { p with status := status, exiting := p.exiting.map fun _ => status }
  throw .exit

/-! ### Directories -/

/-- Changes the working directory. -/
def changeDirectory (words : List (List Char)) : Run Nat := do
  let u ← usage "LP" "" words
  let p ← get
  let back := u.operands.head? = some ['-']
  let target := if back then (p.lookUp? "OLDPWD".toList).getD []
    else (u.operands.head?).getD ((p.lookUp? "HOME".toList).getD [])
  if target.isEmpty then return 0
  else if p.isDirectory target then
    let dir := Path.resolve p.dir (pathOf target)
    modify fun p => { p with
      dir := dir, tracked := p.tracked.map fun (name, path, _) => (name, path, true) }
    assign "OLDPWD".toList (Octets.ofText p.dir.toString) true
    assign "PWD".toList (Octets.ofText dir.toString) true
    if back then put (Octets.ofText (dir.toString ++ "\n")) else return 0
  else fail ("can't cd to ".toList ++ target)

/-- Tells the working directory. -/
def tellDirectory (words : List (List Char)) : Run Nat := do
  let _ ← usage "LP" "" words
  put (Octets.ofText ((← get).dir.toString ++ "\n"))

/-! ### Reading a line -/

/-- A character of a line and whether a backslash stood in front of it. -/
abbrev LineChar := Char × Bool

/-- The first line of bytes, how many bytes it takes, and whether it was ended. Unless it is read as
it stands, a backslash quotes the character behind it and joins lines. -/
def lineOf (raw : Bool) : List UInt8 → List LineChar × Nat × Bool
  | [] => ([], 0, false)
  | 10 :: _ => ([], 1, true)
  | b :: rest =>
    let add (n : Nat) (cs : List LineChar) (r : List LineChar × Nat × Bool) :
        List LineChar × Nat × Bool := (cs ++ r.1, n + r.2.1, r.2.2)
    let char (b : UInt8) (quoted : Bool) : List LineChar := [(Char.ofNat b.toNat, quoted)]
    match raw, b, rest with
    | false, 92, [] => ([], 1, false)
    | false, 92, 10 :: rest => add 2 [] (lineOf raw rest)
    | false, 92, c :: rest => add 2 (char c true) (lineOf raw rest)
    | _, b, rest => add 1 (char b false) (lineOf raw rest)

/-- Whether a character of a line separates fields. -/
def separates (separators : List Char) (c : LineChar) : Bool := !c.2 && separators.contains c.1

/-- Whether a character of a line is a blank that separates fields. -/
def isGap (separators : List Char) (c : LineChar) : Bool := separates separators c && isBlank c.1

/-- Drops the separators behind a field: blanks with at most one other among them. -/
def dropSeparators (separators : List Char) (s : List LineChar) : List LineChar :=
  let rest := s.dropWhile (isGap separators)
  match rest with
  | c :: behind =>
    if separates separators c then behind.dropWhile (isGap separators) else rest
  | [] => []

/-- The last field of a line: all that is left, without blanks at the end, and without the separator
behind a single field. -/
def lastField (separators : List Char) (s : List LineChar) : List LineChar :=
  let trimmed := (s.reverse.dropWhile (isGap separators)).reverse
  let field := trimmed.takeWhile fun c => !separates separators c
  if (dropSeparators separators (trimmed.drop field.length)).isEmpty then field else trimmed

/-- The fields of a line, as many as there are names. -/
def lineFields (separators : List Char) : (names : Nat) → List LineChar → List (List Char)
  | 0, _ => []
  | 1, s => [(lastField separators (s.dropWhile (isGap separators))).map (·.1)]
  | n + 2, s =>
    let s := s.dropWhile (isGap separators)
    let field := s.takeWhile fun c => !separates separators c
    field.map (·.1) :: lineFields separators (n + 1)
      (dropSeparators separators (s.drop field.length))

/-- A line is split into no more fields than there are names. -/
theorem length_lineFields (separators : List Char) (n : Nat) (s : List LineChar) :
    (lineFields separators n s).length = n := by
  fun_induction lineFields separators n s <;> simp_all

/-- Reads a line into variables; what is left goes to the last one. -/
def readLineInto (words : List (List Char)) : Run Nat := do
  let u ← usage "r" "p" words
  if u.operands.isEmpty then fail "arg count".toList
  let p ← get
  let separators := (p.lookUp? "IFS".toList).getD defaultSeparators
  let bytes := ((p.stream? 0).map p.machine.readable).getD []
  let (line, count, ended) := lineOf (u.has 'r') bytes
  match p.stream? 0 with
  | some index => onMachine (·.take index count)
  | none => pure ()
  let line := line.filter (·.1 != '\x00')
  for (name, value) in u.operands.zip (lineFields separators u.operands.length line) do
    assign (← nameIn name) value false
  return if ended then 0 else 1

/-! ### Reading options -/

/-- What follows the letter of an option among the letters that are known. -/
def behindLetter? (c : Char) : List Char → Option (List Char)
  | [] => none
  | d :: rest =>
    if d = c then some rest
    else match rest with
      | ':' :: more => behindLetter? c more
      | more => behindLetter? c more

/-- What the next option is: the value of its variable and of the one for its argument, the index of
the next argument, the letters left in this one, and whether options have ended. -/
structure NextOption where
  letter : Char := '?'
  value : Option (List Char) := none
  unsetValue : Bool := false
  complaint : Option (List Char) := none
  index : Nat
  letters : Option (List Char) := none
  ended : Bool := false
  deriving Repr, Inhabited

/-- The option of a letter, with the letters behind it. -/
def optionOf (known : List Char) (arguments : List (List Char)) (index : Nat) (c : Char)
    (letters : List Char) : NextOption :=
  let quiet := known.head? == some ':'
  match behindLetter? c known with
  | none =>
    if quiet then { value := some [c], index := index, letters := some letters }
    else
      { complaint := some ("Illegal option -".toList ++ [c]), unsetValue := true, index := index,
        letters := some letters }
  | some (':' :: _) =>
    match letters, arguments[index]? with
    | [], none =>
      if quiet then { letter := ':', value := some [c], index := index }
      else
        { complaint := some ("No arg for -".toList ++ c :: " option".toList), unsetValue := true,
          index := index }
    | [], some a => { letter := c, value := some a, index := index + 1 }
    | value, _ => { letter := c, value := some value, index := index }
  | some _ => { letter := c, value := some [], index := index, letters := some letters }

/-- The next option among arguments, of which `index` have been used. -/
def nextOption (known : List Char) (arguments : List (List Char)) (index : Nat)
    (offset : Option Nat) : NextOption :=
  let opened := match offset, arguments[index - 1]? with
    | some n, some a => if index = 0 then [] else a.drop n
    | _, _ => []
  match opened with
  | c :: letters => optionOf known arguments index c letters
  | [] =>
    match arguments[index]? with
    | some ['-', '-'] => { index := index + 1, ended := true }
    | some ('-' :: c :: letters) => optionOf known arguments (index + 1) c letters
    | _ => { index := index, ended := true }

/-- Reads the next option into variables. -/
def getopts (words : List (List Char)) : Run Nat := do
  match words with
  | known :: name :: rest =>
    let p ← get
    let arguments := if rest.isEmpty then p.arguments else rest
    let (index, offset) := if arguments.length + 1 < p.optionIndex then (1, none)
      else (p.optionIndex, p.optionOffset)
    let o := nextOption known arguments (index - 1) offset
    match o.value with
    | some value => assign "OPTARG".toList value false
    | none => pure ()
    match o.complaint with
    | some message => write 2 (message ++ ['\n'])
    | none => pure ()
    if o.unsetValue then modify (·.dropVariable "OPTARG".toList)
    assign "OPTIND".toList (decimal (o.index + 1 : Nat)) false
    modify fun q => { q with optionIndex := 1, optionOffset := none }
    assign (← nameIn name) [o.letter] false
    let offset := o.letters.map fun letters =>
      ((arguments[o.index - 1]?).getD []).length - letters.length
    modify fun p => { p with optionIndex := o.index + 1, optionOffset := offset }
    return if o.ended then 1 else 0
  | _ => fail "Usage: getopts optstring var [arg...]".toList

/-! ### Signals -/

/-- Says what is done on signals. -/
def listTraps : Run Nat := do
  let traps := (← get).traps.mergeSort fun a b => a.1 ≤ b.1
  put (traps.flatMap fun (n, action) =>
    "trap -- ".toList ++ requoted action ++ ' ' :: signalName n ++ ['\n'])

/-- Changes what is done on signals. -/
def changeTraps (words : List (List Char)) : Run Nat := do
  let u ← usage "" "" words
  match u.operands with
  | [] => listTraps
  | first :: rest =>
    let (action, names) : Option (List Char) × List (List Char) :=
      if rest.isEmpty ∨ (!first.isEmpty && first.all Char.isDigit) then (none, first :: rest)
      else (if first = ['-'] then none else some first, rest)
    let mut status := 0
    for name in names do
      if status = 0 then
        match signal? 0 name with
        | some n =>
          modify fun p =>
            let others := p.traps.filter (·.1 != n)
            { p with traps := match action with
                | some a => (n, a) :: others
                | none => others }
        | none =>
          write 2 ("trap: ".toList ++ name ++ ": bad trap\n".toList)
          status := 1
    return status

/-! ### Names of commands -/

/-- Defines aliases or tells what they stand for. -/
def changeAliases (words : List (List Char)) : Run Nat := do
  let shown (a : List Char × List Char) : List Char := a.1 ++ '=' :: requoted a.2 ++ ['\n']
  if words.isEmpty then put ((listed 39 (← get).aliases).flatMap shown)
  else
    let mut status := 0
    for word in words do
      let (name, value) := splitAssignment word
      match value, (← get).aliases.find? (·.1 == word) with
      | some value, _ =>
        modify fun p => { p with aliases := putNamed name value p.aliases }
      | none, some a => let _ ← put (shown a)
      | none, none =>
        write 2 ("alias: ".toList ++ word ++ " not found\n".toList)
        status := 1
    return status

/-- Forgets aliases. -/
def dropAliases (words : List (List Char)) : Run Nat := do
  let u ← usage "a" "" words
  if u.has 'a' then
    modify fun p => { p with aliases := [] }
    return 0
  else
    let mut status := 0
    for name in u.operands do
      if (← get).aliases.any (·.1 == name) then
        modify fun p => { p with aliases := p.aliases.filter (·.1 != name) }
      else
        write 2 ("unalias: ".toList ++ name ++ " not found\n".toList)
        status := 1
    return status

/-- The built-in commands that are no special ones. -/
def regularNames : List String :=
  ["[", "alias", "bg", "cd", "chdir", "command", "echo", "false", "fg", "getopts", "hash", "jobs",
    "kill", "printf", "pwd", "read", "test", "true", "type", "ulimit", "umask", "unalias", "wait"]

/-- Tells what a name means as a command, in words or so that it could be used. -/
def describe (inWords : Bool) (name : List Char) : Run Nat := do
  let p ← get
  let s := String.ofList name
  let tell (words : String) : Run Nat :=
    put (name ++ (if inWords then ' ' :: words.toList else []) ++ ['\n'])
  if Token.keywords.contains s then tell "is a shell keyword"
  else match p.aliases.find? (·.1 == name) with
    | some (_, value) =>
      if inWords then put (name ++ " is an alias for ".toList ++ value ++ ['\n'])
      else put ("alias ".toList ++ name ++ '=' :: requoted value ++ ['\n'])
    | none =>
      if p.functions.any (·.name == name) then tell "is a shell function"
      else if specialNames.contains s then tell "is a special shell builtin"
      else if regularNames.contains s then tell "is a shell builtin"
      else
        let tracked := p.tracked.find? (·.1 == name)
        match ← track name with
        | .ok (path, _) =>
          let words := if tracked.isSome then " is a tracked alias for " else " is "
          put ((if inWords then name ++ words.toList else []) ++ path ++ ['\n'])
        | .error _ =>
          if inWords then
            let _ ← put (name ++ ": not found\n".toList)
            return 127
          else return 127

/-- Tells what names mean as commands. -/
def describeAll (words : List (List Char)) : Run Nat := do
  let mut status := 0
  for name in words do
    let s ← describe true name
    if s ≠ 0 then status := s
  return status

/-- Looks programs up in advance, or lists those that have been. -/
def hash (words : List (List Char)) : Run Nat := do
  let u ← usage "r" "" words
  if u.has 'r' then
    modify fun p => { p with tracked := [] }
    return 0
  else if u.operands.isEmpty then
    put ((listed 31 (← get).tracked).flatMap fun (_, path, anew) =>
      path ++ (if anew then ['*'] else []) ++ ['\n'])
  else
    let mut status := 0
    for name in u.operands do
      let p ← get
      let s := String.ofList name
      let isOwn := specialNames.contains s || regularNames.contains s
        || p.functions.any (·.name == name)
      if !isOwn then
        match ← track name with
        | .ok _ => pure ()
        | .error causes =>
          warn (name ++ ": ".toList ++ (startWords (toldCause causes)).toList)
          status := 1
    return status

/-! ### Masks and limits -/

/-- The rights of a group of three bits. -/
def rights (bits : Nat) : List Char :=
  (if bits / 4 % 2 = 1 then ['r'] else []) ++ (if bits / 2 % 2 = 1 then ['w'] else [])
    ++ (if bits % 2 = 1 then ['x'] else [])

/-- Tells or changes the rights that new files lack. -/
def umask (words : List (List Char)) : Run Nat := do
  let u ← usage "S" "" words
  let mask := (← get).umask
  match u.operands with
  | [] =>
    if u.has 'S' then
      let allowed := 511 - mask
      put ("u=".toList ++ rights (allowed / 64) ++ ",g=".toList ++ rights (allowed / 8)
        ++ ",o=".toList ++ rights allowed ++ ['\n'])
    else
      let ds := Nat.toDigits 8 mask
      put (List.replicate (4 - ds.length) '0' ++ ds ++ ['\n'])
  | word :: _ =>
    if (word.head?).any Char.isDigit then
      if word.all isOctal then
        modify fun p => { p with umask := digitsNumber 8 word % 512 }
        return 0
      else fail ("Illegal number: ".toList ++ word)
    else fail ("Illegal mode: ".toList ++ word)

/-- Tells a limit. -/
def limit (words : List (List Char)) : Run Nat := do
  let u ← usage "HSacdflmnpstvwr" "" words
  if u.operands.isEmpty then put "unlimited\n".toList else return 0

/-! ### Printing and conditions -/

/-- Formats words. -/
def printFormatted (words : List (List Char)) : Run Nat := do
  let u ← usage "" "" words
  match u.operands with
  | [] => fail "usage: printf format [arg ...]".toList
  | format :: rest =>
    let r := printf format rest
    for w in r.warnings do
      warn w
    let status ← put r.text
    match r.fault with
    | some f => fail f
    | none => return if r.failed then 1 else status

/-- Ends with what a condition says. -/
def testCondition (name : List Char) (words : List (List Char)) : Run Nat := do
  let p ← get
  match conditionWords name words >>= condition (fileFacts p) with
  | .ok holds => return if holds then 0 else 1
  | .error message => fail message

/-- Runs a built-in command that needs nothing but the state of the shell, if there is one of that
name. -/
def builtin (name : List Char) (words : List (List Char)) : Option (Run Nat) :=
  match String.ofList name with
  | ":" => some (return 0)
  | "true" => some (return 0)
  | "false" => some (return 1)
  | "[" => some (testCondition name words)
  | "test" => some (testCondition name words)
  | "alias" => some (changeAliases words)
  | "bg" => some (continueJob words)
  | "fg" => some (continueJob words)
  | "break" => some (leaveLoops .leave words)
  | "continue" => some (leaveLoops .again words)
  | "cd" => some (changeDirectory words)
  | "chdir" => some (changeDirectory words)
  | "echo" => some (put (echo words))
  | "exit" => some (leaveShell words)
  | "export" =>
    some (markVariables "export" (fun v => { v with exported := true }) (·.exported) words)
  | "getopts" => some (getopts words)
  | "hash" => some (hash words)
  | "jobs" => some (listJobs words)
  | "kill" => some (kill words)
  | "local" => some (makeLocal words)
  | "printf" => some (printFormatted words)
  | "pwd" => some (tellDirectory words)
  | "read" => some (readLineInto words)
  | "readonly" =>
    some (markVariables "readonly" (fun v => { v with fixed := true }) (·.fixed) words)
  | "return" => some (leaveFunction words)
  | "set" => some (setAll words)
  | "shift" => some (shift words)
  | "times" => some (put "0m0.000000s 0m0.000000s\n0m0.000000s 0m0.000000s\n".toList)
  | "trap" => some (changeTraps words)
  | "type" => some (describeAll words)
  | "ulimit" => some (limit words)
  | "umask" => some (umask words)
  | "unalias" => some (dropAliases words)
  | "unset" => some (unset words)
  | "wait" => some (wait words)
  | _ => none

end Conductor.Shell
