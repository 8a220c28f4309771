import Conductor.Shell.Condition
import Conductor.Shell.Printf

/-!
# Utilities

Programs that are not the shell itself. Each does its work in the state of the running process, says
what it has to say and gives a status, zero where all went well. Main statement: a program that is
no utility is left to others.
-/

namespace Conductor.Shell

open Text Process Run

/-! ### Names in messages -/

/-- A character that stands for itself between quotes of either kind. -/
def isCalm (c : Char) : Bool :=
  c.isAlphanum || ['%', '+', ',', '-', '.', '/', ':', '@', ']', '_'].contains c

/-- A character that does not print. -/
def isHidden (c : Char) : Bool := c < ' ' || c == '\x7f'

/-- Whether a name needs quotes in a message. -/
def needsQuotes (s : List Char) : Bool :=
  let isOpen (c : Char) : Bool :=
    isCalm c && c != ':' || ['#', '~', '\x7b', '\x7d'].contains c || '\x80' ≤ c
  s.isEmpty || !s.all isOpen || [['\x7b'], ['\x7d']].contains s
    || s.head? == some '#' || s.head? == some '~'

/-- The escape that stands for a character that does not print. -/
def hiddenEscape (c : Char) : List Char :=
  match c with
  | '\x07' => ['\\', 'a']
  | '\x08' => ['\\', 'b']
  | '\t' => ['\\', 't']
  | '\n' => ['\\', 'n']
  | '\x0b' => ['\\', 'v']
  | '\x0c' => ['\\', 'f']
  | '\r' => ['\\', 'r']
  | c =>
    let ds := Nat.toDigits 8 c.toNat
    '\\' :: List.replicate (3 - ds.length) '0' ++ ds

/-- The rest of a name between single quotes, which characters that do not print interrupt; `hidden`
says that one stands in front. -/
def quotedRest (hidden : Bool) : List Char → List Char
  | [] => ['\'']
  | c :: rest =>
    if isHidden c then
      (if hidden then [] else "'$'".toList) ++ hiddenEscape c ++ quotedRest true rest
    else if c = '\'' then "'\\''".toList ++ quotedRest false rest
    else (if hidden then ['\'', '\''] else []) ++ c :: quotedRest false rest

/-- A name in a message between quotes. -/
def quotedName (s : List Char) : List Char :=
  let isPlain (c : Char) : Bool := isCalm c || c == ' ' || c == '\''
  let front := s.head? == some '#' || s.head? == some '~'
  if s.contains '\'' && (if front then s.tail else s).all isPlain then ['"'] ++ s ++ ['"']
  else '\'' :: quotedRest false s

/-- A name in a message, in quotes where it needs them. -/
def shownName (s : List Char) : List Char := if needsQuotes s then quotedName s else s

/-- A name in a message, in quotes that do not end with it. -/
def curlyName (s : List Char) : List Char :=
  let escaped (c : Char) : List Char :=
    if isHidden c then hiddenEscape c else if c = '\\' then ['\\', '\\'] else [c]
  Octets.ofText "‘" ++ s.flatMap escaped ++ Octets.ofText "’"

/-- Says something about the work of the running program. -/
def blame (message : List Char) : Run Unit := do
  write 2 ((← get).name ++ ": ".toList ++ message ++ ['\n'])

/-- Gives the hint behind a wrong use of the running program: its status. -/
def hint : Run Nat := do
  write 2 ("Try '".toList ++ (← get).name ++ " --help' for more information.\n".toList)
  return 1

/-- Says what is wrong with an option. -/
def refuseOption (message : List Char) : Run Nat := do
  blame message
  hint

/-- The letter of an option that is written out, of which a beginning is enough if no other option
begins so; else what is wrong. -/
def longOption (long : List (String × Char)) (word : List Char) : Except (List Char) Char :=
  let name := word.takeWhile (· ≠ '=')
  let shown (s : List Char) : List Char := "'--".toList ++ s ++ ['\'']
  let candidates := match long.find? (·.1.toList == name) with
    | some o => [o]
    | none => long.filter fun o => name.isPrefixOf o.1.toList
  match candidates with
  | [] => .error ("unrecognized option ".toList ++ shown word)
  | [o] =>
    if name.length < word.length then
      .error ("option ".toList ++ shown o.1.toList ++ " doesn't allow an argument".toList)
    else .ok o.2
  | _ =>
    .error ("option ".toList ++ shown word ++ " is ambiguous; possibilities:".toList
      ++ candidates.flatMap fun o => ' ' :: shown o.1.toList)

/-- The letters of an option word, or what is wrong with it. -/
def optionLetters (known : List Char) (long : List (String × Char)) (word : List Char) :
    Except (List Char) (List Char) :=
  match word with
  | '-' :: '-' :: rest => (longOption long rest).map ([·])
  | word =>
    match word.tail.find? fun c => !known.contains c with
    | some c => .error ("invalid option -- '".toList ++ [c, '\''])
    | none => .ok word.tail

/-- The letters of the options and the operands of a program, or what is wrong with the first option
that is none. -/
def optionsOf (known : List Char) (long : List (String × Char)) (arguments : List (List Char)) :
    Except (List Char) (List Char × List (List Char)) := do
  let front := arguments.takeWhile (· ≠ ['-', '-'])
  let behind := (arguments.drop front.length).drop 1
  let isOption (a : List Char) : Bool := a.head? == some '-' && a.length > 1
  let letters ← (front.filter isOption).mapM (optionLetters known long)
  return (letters.flatten, front.filter (!isOption ·) ++ behind)

/-! ### Cat -/

/-- A byte as it is shown where bytes that do not print are shown. -/
def visible (b : UInt8) : List UInt8 :=
  let low (b : UInt8) : List UInt8 :=
    if b = 127 then [94, 63] else if b < 32 then [94, b + 64] else [b]
  if b < 128 then low b else [77, 45] ++ low (b - 128)

/-- What `cat` does with lines: letters ask for numbers, for marks at ends and tabs, for bytes that
do not print, and for no more than one empty line in a row. -/
structure Styled where
  options : List Char
  number : Nat := 0
  atStart : Bool := true
  emptyLines : Nat := 0
  written : List (List UInt8) := []

namespace Styled

/-- Whether one of some letters is set. -/
def any (s : Styled) (letters : List Char) : Bool := letters.any s.options.contains

/-- The number in front of a line. -/
def numbered (n : Nat) : List UInt8 :=
  let ds := Nat.toDigits 10 n
  Octets.toBytes (List.replicate (6 - ds.length) ' ' ++ ds ++ ['\t'])

/-- Goes on with a byte. -/
def step (s : Styled) (b : UInt8) : Styled :=
  let empty := s.atStart && b == 10
  let emptyLines := if empty then s.emptyLines + 1 else if s.atStart then 0 else s.emptyLines
  if empty && s.any ['s'] && 1 < emptyLines then { s with emptyLines := emptyLines }
  else
    let counts := s.atStart && (if s.any ['b'] then !empty else s.any ['n'])
    let front := if counts then numbered (s.number + 1) else []
    let shown := if b = 10 then (if s.any ['E', 'A', 'e'] then [36, 10] else [10])
      else if b = 9 then (if s.any ['T', 'A', 't'] then [94, 73] else [9])
      else if s.any ['v', 'A', 'e', 't'] then visible b else [b]
    { s with
      number := if counts then s.number + 1 else s.number
      atStart := b == 10, emptyLines := emptyLines, written := (front ++ shown) :: s.written }

end Styled

/-- Bytes that can be read of a numbered stream, which are taken. -/
def takeAll (n : Nat) : Run (List UInt8) := do
  let p ← get
  match p.stream? n with
  | some index =>
    let bytes := p.machine.readable index
    onMachine (·.take index bytes.length)
    return bytes
  | none => return []

/-- The bytes of a file. -/
def fileBytes (p : Process) (name : List Char) : Except FileCause (List UInt8) :=
  if p.isNull name then .ok []
  else if name.isEmpty then .error .missing
  else if p.isDirectory name then .error .isDirectory
  else if name.getLast? = some '/' then
    (p.machine.store.readBytes p.dir (pathOf name)).bind fun _ => .error .notDirectory
  else p.machine.store.readBytes p.dir (pathOf name)

/-- What can be read under a name, or what is wrong with it. A file that is being written to is not
copied to itself. -/
def copiedBytes (name : List Char) : Run (Except (List Char) (List UInt8)) := do
  let p ← get
  let opened (n : Nat) : Option Opened := (p.stream? n).bind fun index => p.machine.opened[index]?
  let clashes (path : Path) (bytes : List UInt8) : Bool :=
    !bytes.isEmpty && match opened 1 with
      | some (.file target _ _) => path == target
      | _ => false
  let complain (message : String) : Except (List Char) (List UInt8) :=
    .error (shownName name ++ ": ".toList ++ message.toList)
  if name = ['-'] ∨ name = "/dev/stdin".toList then
    match opened 0 with
    | some (.file path _ _) =>
      if p.machine.store.isDirectory path path then return complain "Is a directory"
      else
        let bytes := ((p.stream? 0).map p.machine.readable).getD []
        if clashes path bytes then return complain "input file is output file"
        else return .ok (← takeAll 0)
    | some _ => return .ok (← takeAll 0)
    | none => return complain "Bad file descriptor"
  else
    match fileBytes p name with
    | .ok bytes =>
      if clashes (Path.resolve p.dir (pathOf name)) bytes then
        return complain "input file is output file"
      else return .ok bytes
    | .error cause => return complain cause.words

/-- Copies what can be read under some names to the output: the status. -/
def copyAll (options : List Char) (names : List (List Char)) : Run Nat := do
  let plain := options.all (· == 'u')
  let mut styled : Styled := { options := options }
  let mut status := 0
  for name in names do
    match ← copiedBytes name with
    | .error message =>
      status := 1
      blame message
    | .ok bytes =>
      styled := if plain then { styled with written := [bytes] }
        else bytes.foldl Styled.step { styled with written := [] }
      let written := styled.written.reverse.flatten
      if !written.isEmpty then
        if !(← writeBytes 1 written) then
          blame "write error: Bad file descriptor".toList
          return 1
  if names.contains ['-'] && ((← get).stream? 0).isNone then
    blame "closing standard input: Bad file descriptor".toList
  return status

/-- Copies input and files to the output. -/
def cat (arguments : List (List Char)) : Run Nat := do
  let long := [("number-nonblank", 'b'), ("number", 'n'), ("squeeze-blank", 's'),
    ("show-nonprinting", 'v'), ("show-ends", 'E'), ("show-tabs", 'T'), ("show-all", 'A')]
  match optionsOf "AbeEnstTuv".toList long arguments with
  | .error option => refuseOption option
  | .ok (options, names) =>
    interrupt
    if ((← get).stream? 1).isNone then
      blame "standard output: Bad file descriptor".toList
      return 1
    else copyAll options (if names.isEmpty then [['-']] else names)

/-! ### Sleep -/

/-- How many microseconds stand for a time without an end. -/
def endless : Nat := 1000000000000000000

/-- The microseconds that a number of seconds with an optional unit writes. -/
def sleepMicros? (s : List Char) : Option Nat := do
  let seconds ← Printed.readFloat s
  let factor ← match seconds.rest with
    | [] => some 1
    | ['s'] => some 1
    | ['m'] => some 60
    | ['h'] => some 3600
    | ['d'] => some 86400
    | _ => none
  match seconds.value with
  | .infinite false => some endless
  | .finite negative m e =>
    if negative ∧ m ≠ 0 then none
    else some (Number.Binary64.floorMagnitude (m * factor * 1000000) e)
  | _ => none

/-- Waits. -/
def sleep (arguments : List (List Char)) : Run Nat := do
  match optionsOf [] [] arguments with
  | .error option => refuseOption option
  | .ok (_, []) =>
    blame "missing operand".toList
    hint
  | .ok (_, times) =>
    let wrong := times.filter fun t => (sleepMicros? t).isNone
    if wrong.isEmpty then
      pass (times.foldl (fun n t => n + (sleepMicros? t).getD 0) 0)
      return 0
    else
      for t in wrong do
        blame ("invalid time interval ".toList ++ curlyName t)
      hint

/-! ### Files -/

/-- The node that a name leads to; only a directory may have a slash behind its name. -/
def nodeAt (p : Process) (name : List Char) : Except FileCause (Place × Node) := do
  let found ← p.machine.store.stat p.dir (pathOf name)
  match found.2 with
  | .directory => return found
  | .file .. => if name.getLast? = some '/' then throw .notDirectory else return found

/-- Changes the files for each of some names, and says where that fails: what cannot be done and the
name in quotes. -/
def changeFiles (what : List Char → String) (quoted : List Char → List Char)
    (change : Process → List Char → Except FileCause Store) (names : List (List Char)) :
    Run Nat := do
  interrupt
  let mut status := 0
  for name in names do
    let p ← get
    match if name.isEmpty then .error .missing else change p name with
    | .ok store => onMachine fun m => { m with store := store }
    | .error cause =>
      status := 1
      blame ((what name).toList ++ ' ' :: quoted name ++ ": ".toList ++ cause.words.toList)
  return status

/-- Says that a program needs a name. -/
def missingOperand : Run Nat := do
  blame "missing operand".toList
  hint

/-- Makes directories. -/
def mkdir (arguments : List (List Char)) : Run Nat := do
  match optionsOf ['p', 'v'] [("parents", 'p')] arguments with
  | .error option => refuseOption option
  | .ok (_, []) => missingOperand
  | .ok (options, names) =>
    changeFiles (fun _ => "cannot create directory") curlyName (fun p name =>
      if options.contains 'p' then
        if p.isDirectory name then .ok p.machine.store
        else (p.machine.store.ensureDirectory p.dir (pathOf name)).mapError (·.cause)
      else if p.isDirectory name then .error .alreadyThere
      else p.machine.store.makeDirectory p.dir (pathOf name)) names

/-- Makes files that are not there. -/
def touch (arguments : List (List Char)) : Run Nat := do
  match optionsOf ['a', 'c', 'm'] [("no-create", 'c')] arguments with
  | .error option => refuseOption option
  | .ok (_, []) =>
    blame "missing file operand".toList
    hint
  | .ok (options, names) =>
    let what (name : List Char) : String :=
      if name.getLast? = some '/' then "setting times of" else "cannot touch"
    changeFiles what quotedName (fun p name =>
      let store := p.machine.store
      if p.isDirectory name then .ok store
      else match nodeAt p name with
        | .ok (_, .file bytes _) => store.writeBytes p.dir (pathOf name) bytes
        | .ok (_, .directory) => .ok store
        | .error .missing =>
          if options.contains 'c' then .ok store
          else if name.getLast? = some '/' then .error .missing
          else store.writeBytes p.dir (pathOf name) []
        | .error cause => .error cause) names

/-- Takes files away, and directories with all below them where asked for. -/
def remove (arguments : List (List Char)) : Run Nat := do
  match optionsOf ['f', 'r', 'R', 'v', 'd'] [("force", 'f'), ("recursive", 'r')] arguments with
  | .error option => refuseOption option
  | .ok (options, []) => if options.contains 'f' then return 0 else missingOperand
  | .ok (options, names) =>
    let deep := options.contains 'r' || options.contains 'R'
    changeFiles (fun _ => "cannot remove") quotedName (fun p name =>
      let store := p.machine.store
      match nodeAt p name with
      | .ok (place, .file ..) => .ok (store.removeNode place)
      | .ok (place, .directory) =>
        if deep then
          .ok { store with entries := store.entries.filter fun e => !place.isPrefixOf e.1 }
        else .error .isDirectory
      | .error cause =>
        if options.contains 'f' && cause = .missing then .ok store else .error cause) names

/-! ### Conditions and texts -/

/-- What `test` asks about files. -/
def fileFacts (p : Process) : FileFacts :=
  let stat (name : List Char) : Option Node :=
    if name.isEmpty then none
    else ((p.machine.store.stat p.dir (pathOf name)).toOption.map (·.2)).filter fun n =>
      name.getLast? != some '/' || n == .directory
  let device : List Char → Bool := p.isNull
  { holds := fun op name =>
      match op with
      | "-d" => p.isDirectory name
      | "-f" => (stat name).any (· matches .file ..)
      | "-s" => p.isDirectory name || (stat name).any fun n => match n with
        | .file content _ => !content.isEmpty
        | .directory => true
      | "-x" => p.isDirectory name
      | "-c" => device name
      | "-e" => p.isDirectory name || device name || (stat name).isSome
      | "-r" => p.isDirectory name || device name || (stat name).isSome
      | "-w" => p.isDirectory name || device name || (stat name).isSome
      | "-O" => p.isDirectory name || device name || (stat name).isSome
      | "-G" => p.isDirectory name || device name || (stat name).isSome
      | _ => false
    modified := fun name => (stat name).map fun n => match n with
      | .file _ modified => modified
      | .directory => 0
    same := fun a b => (stat a).isSome && (stat b).isSome
      && Path.resolve p.dir (pathOf a) == Path.resolve p.dir (pathOf b) }

/-- The words of a condition that may stand between brackets. -/
def conditionWords (name : List Char) (arguments : List (List Char)) :
    Except (List Char) (List (List Char)) :=
  if name = ['['] then
    if (arguments.getLast?.bind List.head?) = some ']' then .ok arguments.dropLast
    else .error "missing ]".toList
  else .ok arguments

/-- The texts that the printing program makes of its words: it takes escapes only where asked for.
-/
def echoProgram (arguments : List (List Char)) : List Char :=
  let isOption (a : List Char) : Bool :=
    a.head? == some '-' && a.length > 1 && a.tail.all ['n', 'e', 'E'].contains
  let options := (arguments.takeWhile isOption).flatMap List.tail
  let words := arguments.dropWhile isOption
  let escapes := (options.filter (· != 'n')).getLast? = some 'e'
  let line := !options.contains 'n'
  if escapes then echoWords line words
  else (List.intercalate [' '] words) ++ (if line then ['\n'] else [])

/-- Writes what a program has to write. -/
def say (text : List Char) : Run Nat := do
  interrupt
  write 1 text
  return 0

/-- Ends with what a condition says. -/
def conditionProgram (name : List Char) (arguments : List (List Char)) : Run Nat := do
  let p ← get
  match conditionWords name arguments >>= condition (fileFacts p) with
  | .ok holds => return if holds then 0 else 1
  | .error message =>
    blame message
    return 2

/-- Formats a text. -/
def printfProgram (arguments : List (List Char)) : Run Nat := do
  match arguments with
  | [] => missingOperand
  | format :: rest =>
    let r := printf format rest
    let _ ← say r.text
    for w in r.warnings do
      blame w
    match r.fault with
    | some f =>
      blame f
      return 1
    | none => return if r.failed then 1 else 0

/-! ### Programs -/

/-- The programs that are no shells. -/
def programNames : List String :=
  ["[", "cat", "echo", "false", "mkdir", "printf", "pwd", "rm", "sleep", "test", "touch", "true"]

/-- Runs a program that is no shell, if there is one of that name. -/
def utility (name : List Char) (arguments : List (List Char)) : Option (Run Nat) :=
  match String.ofList name with
  | "[" => some (conditionProgram name arguments)
  | "cat" => some (cat arguments)
  | "echo" => some (say (echoProgram arguments))
  | "false" => some (return 1)
  | "mkdir" => some (mkdir arguments)
  | "printf" => some (printfProgram arguments)
  | "pwd" => some do say (Octets.ofText ((← get).dir.toString ++ "\n"))
  | "rm" => some (remove arguments)
  | "sleep" => some (sleep arguments)
  | "test" => some (conditionProgram name arguments)
  | "touch" => some (touch arguments)
  | "true" => some (return 0)
  | _ => none

/-- A program that is no utility is left to others. -/
theorem utility_sh (arguments : List (List Char)) : utility ['s', 'h'] arguments = none := rfl

end Conductor.Shell
