import Conductor.Shell.Expansion
import Conductor.Shell.Invocation
import Conductor.Shell.Offspring

/-!
# Running shell scripts

A command changes the state of the shell and says how it leaves off. Commands that run apart do so
in a process of their own, which shares with the others only what the machine holds. Every step
takes fuel; a script that uses it up never ends. Main statement: the output of a command as a value
does not end with a line feed.
-/

namespace Conductor.Shell

open Text Process

namespace Run

/-! ### Variables for one command -/

/-- An assignment in front of a command, and the variable that was there before. -/
structure Assignment where
  name : List Char
  value : List Char
  before : Option Variable

/-- Sets a variable. -/
def assignNext (name value : List Char) (exported : Bool) : Run Assignment := do
  let before := (← get).named? name
  assign name value exported
  return ⟨name, value, before⟩

/-! ### Calls -/

/-- What a name means as a command. -/
inductive Callee where
  | nothing
  | builtin (name : List Char)
  | function (f : Function)
  | program (name : List Char)
  deriving Inhabited

/-- A command's fields and the words that are not expanded yet; functions may be passed over. -/
structure Call where
  fields : List (List Char)
  rest : List Word
  passesFunctions : Bool := false

namespace Call

/-- What is called. -/
def callee (c : Call) (p : Process) : Callee :=
  match c.fields with
  | [] => .nothing
  | name :: _ =>
    match if c.passesFunctions then none else p.functions.find? (·.name == name) with
    | some f => .function f
    | none =>
      let s := String.ofList name
      if specialNames.contains s || regularNames.contains s then .builtin name
      else .program name

/-- Whether the words behind the name may be assignments. -/
def takesAssignments (c : Call) (p : Process) : Bool :=
  match c.callee p with
  | .builtin name => ["export", "local", "readonly"].contains (String.ofList name)
  | _ => false

end Call

/-! ### Evaluation -/

/-- The output of a command as a value: its octets without line feeds at the end. -/
def outputValue (bytes : List UInt8) : List Char :=
  let octets := (Octets.ofBytes bytes).filter (· != '\x00')
  (octets.reverse.dropWhile (· == '\n')).reverse

/-- The output of a command as a value does not end with a line feed. -/
theorem getLast?_outputValue (bytes : List UInt8) :
    (outputValue bytes).getLast? ≠ some '\n' := by
  unfold outputValue
  intro h
  rw [List.getLast?_reverse] at h
  have := List.head?_dropWhile_not (· == '\n') ((Octets.ofBytes bytes).filter (· != '\x00')).reverse
  simp_all

/-- Looks for a program; complains and gives a status where there is none. -/
def findProgram (name : List Char) : Run (Except Nat (List Char)) := do
  match ← track name with
  | .ok (_, program) => return .ok program
  | .error causes =>
    let cause := toldCause causes
    warn (name ++ ": ".toList ++ (startWords cause).toList)
    return .error (if name.contains '/' ∧ cause = .denied then 126 else 127)

/-- Looks for the programs of the members of a pipe in advance. -/
def trackMembers (members : List Command) : Run Unit :=
  members.forM fun c => do
    match c with
    | .simple _ _ (w :: _) _ =>
      let p ← get
      match (bare? w).filter isName with
      | some name =>
        match (Call.mk [name] [] false).callee p with
        | .program _ => let _ ← track name
        | _ => return ()
      | none => return ()
    | _ => return ()

/-- The first lines of a text. -/
def firstLines : Nat → List Char → List Char
  | 0, _ => []
  | _, [] => []
  | n + 1, '\n' :: s => '\n' :: firstLines n s
  | n + 1, c :: s => c :: firstLines (n + 1) s

/-- How deep functions may be nested. -/
def maxFunctions : Nat := 1000

mutual

/-- The output of a command that runs apart. -/
def outputOf (fuel : Nat) (body : Option Command) : Run (List Char) :=
  match fuel with
  | 0 => throw .overdue
  | fuel + 1 =>
    match body with
    | none => return []
    | some c => do
      let (index, m) := (← get).machine.openNew (.gathered [])
      modify fun p => { p with machine := m }
      let ending ← apart (endTrap fuel) do
        modify (·.setStream 1 (some index))
        evaluate false true c fuel
      let bytes := (← get).machine.gatheredBytes index
      let status ← collect ending
      -- An assignment without a command takes this status on.
      modify fun p => { p with expandedStatus := status }
      return outputValue bytes

/-- Does what is to be done when a shell ends. -/
def endTrap (fuel : Nat) : Run Unit :=
  match fuel with
  | 0 => throw .overdue
  | fuel + 1 => do
    let p ← get
    match p.trap? 0 with
    | none => return ()
    | some action =>
      -- The action is dropped before it runs, so that it runs once.
      modify fun p =>
        { p with traps := p.traps.filter (·.1 != 0), exiting := some p.status, loopDepth := 0 }
      match ← attempt (runText false action false false fuel) with
      | .error .exit => return ()
      | .error .error => return ()
      | .error (.killed n) => throw (.killed n)
      | .error .overdue => throw .overdue
      | _ => modify fun p => { p with status := p.exiting.getD p.status }

/-- Does what is to be done on signals that have come. -/
def dealWithSignals (fuel : Nat) : Run Unit :=
  match fuel with
  | 0 => throw .overdue
  | fuel + 1 => do
    receiveSent
    let p ← get
    match p.signals with
    | [] => return ()
    | n :: rest =>
      modify fun p => { p with signals := rest }
      match p.trap? n with
      | none => dealWithSignals fuel
      | some action =>
        modify fun q => { q with exiting := some p.status }
        let _ ← runText false action false false fuel
        -- An action leaves the status as it was.
        modify fun q => { q with status := p.status, exiting := p.exiting }
        dealWithSignals fuel

/-- Runs the text of a script line by line, and tells the status of its last command, zero where it
has none. -/
def runText (fromFile : Bool) (text : List Char) (tested last : Bool) (fuel : Nat) : Run Nat :=
  match fuel with
  | 0 => throw .overdue
  | fuel + 1 => do
    let before := (← get).sourceLine
    let step (state : Source × Nat) : Run ((Source × Nat) × Bool) := do
      let (source, status) := state
      let p ← get
      -- What the line before has done to the aliases counts from here on.
      let source := { source with documents := p.documents, aliases := p.aliases }
      let showUpTo (line : Nat) : Run Unit :=
        if fromFile && p.hasOption 'v' then
          write 2 (firstLines (line - source.line) source.rest)
        else return ()
      match readLine.run source with
      | .error fault =>
        showUpTo (fault.line + 1)
        failSyntax fault
      | .ok (.ended, after) =>
        showUpTo (after.line + 1)
        modify fun p => { p with documents := after.documents }
        return ((after, status), false)
      | .ok (.line c isLast, after) =>
        showUpTo (if after.rest.isEmpty then after.line + 1 else after.line)
        modify fun p => { p with documents := after.documents, sourceLine := after.line }
        match c with
        | none => return ((after, status), !isLast)
        | some c =>
          evaluate tested (last && isLast) c fuel
          return ((after, (← get).status), !isLast)
    let (_, status) ← iterate step (text.length + 2) ({ rest := text }, 0)
    modify fun p => { p with sourceLine := before }
    return status

/-- Evaluates a command. One that is tested ends no shell by failing, and behind the last one the
shell does nothing more. -/
def evaluate (tested last : Bool) (c : Command) (fuel : Nat) : Run Unit :=
  match fuel with
  | 0 => throw .overdue
  | fuel + 1 => do
    if (← get).hasOption 'n' then return ()
    match c with
    | .follow a b =>
      evaluate tested false a fuel
      evaluate tested last b fuel
    | .both a b =>
      evaluate true false a fuel
      if (← get).status = 0 then evaluate tested last b fuel
    | .either a b =>
      evaluate true false a fuel
      if (← get).status ≠ 0 then evaluate tested last b fuel
    | .negate a =>
      evaluate true false a fuel
      finish (if (← get).status = 0 then 1 else 0)
    | .simple line assigned words redirects =>
      simple tested last line assigned words redirects fuel
      checkFailure tested
    | .pipe members behind =>
      trackMembers members
      if behind then inBackground (endTrap fuel) (runPipe tested none members fuel)
      else runPipe tested none members fuel
      checkFailure tested
    | .apart line body redirects =>
      atLine line
      let leads ← expandRedirects redirects fuel
      let go (last : Bool) : Run Unit := do
        leads.forM Run.follow
        match body with
        | some c => evaluate tested last c fuel
        | none => return ()
      -- The last command of a shell needs no process of its own, unless an action is left.
      if last && !(← get).hasTraps then
        go true
        throw .exit
      else
        finish (← collect (← apart (endTrap fuel) (go true)))
        checkFailure tested
    | .behind line body redirects =>
      if line ≠ 0 then atLine line
      let leads ← expandRedirects redirects fuel
      inBackground (endTrap fuel) do
        leads.forM Run.follow
        evaluate false true body fuel
    | .redirected line body redirects =>
      atLine line
      let leads ← expandRedirects redirects fuel
      let before ← get
      match ← attempt (leads.forM Run.follow) with
      | .ok () =>
        let result ← attempt (evaluate tested false body fuel)
        restoreStreams before
        settle result
      -- A redirection that fails is a command that fails.
      | .error .error => restoreStreams before
      | .error f => throw f
    | .choose condition yes no =>
      evaluate true false condition fuel
      if (← get).status = 0 then evaluate tested last yes fuel
      else match no with
        | some c => evaluate tested last c fuel
        | none => finish 0
    | .loop whileTrue condition body =>
      asLoop do
        let turn (status : Nat) : Run (Nat × Bool) := do
          match ← inLoop (evaluate true false condition fuel) with
          | some more => return (status, more)
          | none =>
            if ((← get).status = 0) = (whileTrue = true) then
              match ← inLoop (evaluate tested false body fuel) with
              | some more => return ((← get).status, more)
              | none => return ((← get).status, true)
            else return (status, false)
        finish (← iterate turn maxTurns 0)
    | .each line name words body =>
      atLine line
      let values ← expandAll (outputOf fuel) words
      finish 0
      asLoop do
        through (fun value => do
          assign name value false
          match ← inLoop (evaluate tested false body fuel) with
          | some more => return more
          | none => return true) values
    | .select line word cases =>
      atLine line
      let value ← expandHomely (outputOf fuel) word
      let matching (item : List Word × Option Command) : Run Bool :=
        item.1.anyM fun pattern => do
          return matchesAll (← expandPattern (outputOf fuel) pattern) value
      let found ← cases.findM? matching
      match found with
      | some (_, some c) => evaluate tested last c fuel
      | _ => finish 0
    | .define name body =>
      modify fun p =>
        let others := p.functions.filter (·.name != name)
        { p with functions := ⟨name, body⟩ :: others, status := 0 }
    dealWithSignals fuel

/-- Runs the members of a pipe one after the other, each with what the one before has written. -/
def runPipe (tested : Bool) (input : Option (List UInt8)) (members : List Command) (fuel : Nat) :
    Run Unit :=
  match fuel with
  | 0 => throw .overdue
  | fuel + 1 =>
    let connect : Run Unit :=
      match input with
      | some bytes => openStream 0 (.input bytes)
      | none => return ()
    match members with
    | [] => return ()
    -- The status of a pipe is that of its last member.
    | [c] => do
      let ending ← apart (endTrap fuel) do
        connect
        evaluate tested true c fuel
      finish (← collect ending)
    | c :: rest => do
      let (index, m) := (← get).machine.openNew (.gathered [])
      modify fun p => { p with machine := m }
      let _ ← apart (endTrap fuel) do
        connect
        modify (·.setStream 1 (some index))
        evaluate tested true c fuel
      let bytes := (← get).machine.gatheredBytes index
      runPipe tested (some bytes) rest fuel

/-- Expands the words of redirections. -/
def expandRedirects (redirects : List Redirect) (fuel : Nat) : Run (List Lead) :=
  match fuel with
  | 0 => throw .overdue
  | fuel + 1 =>
    redirects.mapM fun r =>
      match r with
      | .file n d name => return .file n d (← expandHomely (outputOf fuel) name)
      | .copy n source => return .copy n source
      | .copyWord n word => do
        match ← expandText (outputOf fuel) word with
        | ['-'] => return .copy n none
        | [c] =>
          if c.isDigit then return .copy n (some (c.toNat - '0'.toNat))
          else failSyntax ⟨.streamNumber, (← get).sourceLine⟩
        | _ => failSyntax ⟨.streamNumber, (← get).sourceLine⟩
      | .document n index => do
        let text := ((← get).documents[index]?).getD []
        -- What goes wrong in a document shows where its stream is led.
        match ← attempt (expandText (outputOf fuel) text) with
        | .ok content => return .bytes n (Octets.toBytes content)
        | .error .error => return .failed
        | .error f => throw f

/-- Drops `command` in front of a call. -/
def unwrap (c : Call) (fuel : Nat) : Run Call :=
  match fuel with
  | 0 => throw .overdue
  | fuel + 1 => do
    let isFunction := !c.passesFunctions
      && (← get).functions.any (·.name == "command".toList)
    match c.fields with
    | name :: more =>
      if name ≠ "command".toList ∨ isFunction then return c
      else
        let (more, rest) ← if more.isEmpty then expandFirst (outputOf fuel) c.rest
          else pure (more, c.rest)
        let isPath (w : List Char) : Bool :=
          w = ['-', '-'] || (w.length > 1 && w.head? == some '-' && w.tail.all (· == 'p'))
        match more with
        | [] => return ⟨[name], [], true⟩
        | w :: after =>
          if isPath w then
            let (after, rest) ← if after.isEmpty then expandFirst (outputOf fuel) rest
              else pure (after, rest)
            if after.isEmpty then return ⟨[name], [], true⟩
            else unwrap ⟨after, rest, true⟩ fuel
          else if w.length > 1 ∧ w.head? = some '-' then return ⟨name :: more, rest, true⟩
          else unwrap ⟨more, rest, true⟩ fuel
    | [] => return c

/-- Shows a command before it runs. -/
def trace (before : Process) (assigned fields : List (List Char)) (fuel : Nat) : Run Unit :=
  match fuel with
  | 0 => throw .overdue
  | fuel + 1 => do
    let p ← get
    if p.hasOption 'x' then
      let front := (p.lookUp? "PS4".toList).getD []
      let n := front.length + 1
      let read := partsOf (nestedCommands n) false .line [] (2 * n + 4)
      let parts := match read.run { rest := front } with
        | .ok (parts, _) => joinTexts parts
        | .error _ => []
      -- What the front expands to is not shown itself.
      set { p with options := p.options.filter (· != 'x') }
      let front ← expandText (outputOf fuel) parts
      modify fun q => { q with options := p.options }
      let text := front ++ List.intercalate [' '] (assigned ++ fields) ++ ['\n']
      match before.stream? 2 with
      | some index => onMachine (·.write index (Octets.toBytes text))
      | none => return ()

/-- Evaluates a simple command. -/
def simple (tested last : Bool) (line : Nat) (assigned words : List Word)
    (redirects : List Redirect) (fuel : Nat) : Run Unit :=
  match fuel with
  | 0 => throw .overdue
  | fuel + 1 => do
    modify fun p => { p with line := line, expandedStatus := 0 }
    let (first, rest) ← expandFirst (outputOf fuel) words
    let call ← unwrap ⟨first, rest, false⟩ fuel
    let before ← get
    let special := match first with
      | name :: _ => specialNames.contains (String.ofList name)
      | [] => false
    let declares := call.takesAssignments before
    let others ← call.rest.mapM fun w => do
      match if declares then assignment? w else none with
      | some (name, value) =>
        return [name ++ '=' :: (← expandValue (outputOf fuel) value)]
      | none => expandFields (outputOf fuel) w
    let fields := call.fields ++ others.flatten
    let callee := call.callee before
    let leads ← expandRedirects redirects fuel
    let before ← get
    match ← attempt (leads.forM Run.follow) with
    | .error .error =>
      restoreStreams before
      if special then throw .error
    | .error f => throw f
    | .ok () =>
      let own := !fields.isEmpty && !special
      let executes := fields.head? = some "exec".toList
      let exported := own || (executes && 1 < fields.length)
      let assigned ← assigned.mapM fun w => do
        match assignment? w with
        | some (name, value) => assignNext name (← expandValue (outputOf fuel) value) exported
        | none => return ⟨[], [], none⟩
      trace before (assigned.map fun a => a.name ++ '=' :: a.value) fields fuel
      let result ← attempt (enter tested last special callee fields fuel)
      if !executes then restoreStreams before
      if own then
        modify fun p => assigned.foldr (fun a p => p.restoreVariable (a.name, a.before)) p
      settle result

/-- Does what has been called. -/
def enter (tested last special : Bool) (callee : Callee) (fields : List (List Char)) (fuel : Nat) :
    Run Unit :=
  match fuel with
  | 0 => throw .overdue
  | fuel + 1 => do
    match callee with
    | .nothing => finish (← get).expandedStatus
    | .builtin name =>
      let before := (← get).command
      modify fun p => { p with command := some name }
      let result ← attempt (runBuiltin tested name fields.tail fuel)
      modify fun p => { p with command := before }
      match result with
      | .ok status => finish status
      | .error .error => if special then throw .error
      | .error f => throw f
    | .function f => callFunction tested f fields.tail fuel
    | .program name => callProgram last name fields.tail fuel

/-- Calls a function. -/
def callFunction (tested : Bool) (f : Function) (arguments : List (List Char)) (fuel : Nat) :
    Run Unit :=
  match fuel with
  | 0 => throw .overdue
  | fuel + 1 => do
    let before ← get
    if maxFunctions ≤ before.functionDepth then
      fail "Maximum function recursion depth (1000) reached".toList
    set { before with
      arguments := arguments, optionIndex := 1, optionOffset := none,
      functionDepth := before.functionDepth + 1, loopDepth := 0, locals := [] :: before.locals }
    let result ← attempt (evaluate tested false f.body fuel)
    let saved := (← get).locals.headD []
    modify fun p =>
      let p := restoreLocals saved p
      { p with
        arguments := before.arguments, optionIndex := before.optionIndex,
        optionOffset := before.optionOffset,
        functionDepth := before.functionDepth, loopDepth := before.loopDepth,
        locals := before.locals }
    requireNames saved
    match result with
    | .error .back => return ()
    | result => settle result

/-- Runs a built-in command. -/
def runBuiltin (tested : Bool) (name : List Char) (arguments : List (List Char)) (fuel : Nat) :
    Run Nat :=
  match fuel with
  | 0 => throw .overdue
  | fuel + 1 => do
    match String.ofList name with
    | "eval" => runText false (List.intercalate [' '] arguments) tested false fuel
    | "." => runFile arguments fuel
    | "exec" =>
      match arguments with
      | [] => return 0
      | program :: arguments =>
        modify fun p => { p with command := some name }
        replaceShell program arguments fuel
    | "command" =>
      let u ← usage "pvV" "" arguments
      match u.operands with
      | [] => return 0
      | w :: _ =>
        if u.has 'V' ∨ u.has 'v' then describe (u.has 'V') w else return 0
    | _ =>
      match builtin name arguments with
      | some r => r
      | none => return 0

/-- Runs the script in a file in the running shell. -/
def runFile (arguments : List (List Char)) (fuel : Nat) : Run Nat :=
  match fuel with
  | 0 => throw .overdue
  | fuel + 1 => do
    let u ← usage "" "" arguments
    match u.operands with
    | [] => return 0
    | name :: _ =>
      let p ← get
      let isFile (path : List Char) : Bool := (fileFacts p).holds "-f" path
      let path ← if name.contains '/' then pure name
        else match (candidates p.searchPath name).find? isFile with
          | some path => pure path
          | none => fail (name ++ ": not found".toList)
      match scriptBytes p path with
      | .error cause =>
        fail ("cannot open ".toList ++ path ++ ": ".toList ++ (openingWords false cause).toList)
      | .ok bytes =>
        modify fun p => { p with command := some name }
        match ← attempt (runText true (Octets.ofBytes bytes) false false fuel) with
        | .error .back => return (← get).status
        | result => settle result

/-- Calls a program. The last command of a shell takes its place. -/
def callProgram (last : Bool) (name : List Char) (arguments : List (List Char)) (fuel : Nat) :
    Run Unit :=
  match fuel with
  | 0 => throw .overdue
  | fuel + 1 => do
    match ← findProgram name with
    | .error status => finish status
    | .ok program =>
      if last && !(← get).hasTraps then
        runProgram name program arguments fuel
        throw .exit
      else
        finish (← collect (← apart (pure ()) (runProgram name program arguments fuel)))

/-- Puts a program in the place of the shell. -/
def replaceShell (name : List Char) (arguments : List (List Char)) (fuel : Nat) : Run Nat :=
  match fuel with
  | 0 => throw .overdue
  | fuel + 1 => do
    match ← findProgram name with
    | .error status =>
      finish status
      throw .exit
    | .ok program =>
      modify fun p => { p with traps := p.traps.filter (·.2.isEmpty) }
      runProgram name program arguments fuel
      throw .exit

/-- Runs a program in the place of the process: a shell or another one. -/
def runProgram (name program : List Char) (arguments : List (List Char)) (fuel : Nat) : Run Unit :=
  match fuel with
  | 0 => throw .overdue
  | fuel + 1 => do
    match utility program arguments with
    | some r =>
      modify fun p => { p with name := name }
      finish (← r)
    | none => runShell name arguments fuel

/-- Runs a shell in the place of the process. -/
def runShell (name : List Char) (arguments : List (List Char)) (fuel : Nat) : Run Unit :=
  match fuel with
  | 0 => throw .overdue
  | fuel + 1 => do
    modify (startingShell name)
    let result ← attempt do
      let task ← taskOf name arguments
      modify fun p => { p with name := task.name, arguments := task.arguments }
      let _ ← runText task.fromFile task.script false true fuel
    match ← conclude (endTrap fuel) result with
    | .exited status => finish status
    | .killed n => throw (.killed n)

end

end Run

end Conductor.Shell
