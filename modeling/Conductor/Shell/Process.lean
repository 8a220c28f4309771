import Conductor.Child.Transcript
import Conductor.Shell.Grammar
import Conductor.Shell.Numeral
import Conductor.Store.Basic

/-!
# The state of a running shell

All processes of a child share its files, a clock that waiting and starting move, and what they have
opened. Each has its own variables, arguments, directory and numbered streams. What is written to
one of the child's two streams without an interruption is read in one go. Main statement: what a
process does apart leaves nothing behind but what it shares.
-/

namespace Conductor.Shell

open Text Child

/-! ### What processes share -/

/-- What a numbered stream may lead to. -/
inductive Opened where
  | stream (s : Stream)
  /-- A file, where in it one reads or writes next, and how it may be used. -/
  | file (path : Path) (offset : Nat) (direction : Direction)
  /-- What can still be read. -/
  | input (rest : List UInt8)
  /-- What has been written for others to read and when, the last piece first. -/
  | gathered (pieces : List (Nat × List UInt8))
  | nowhere
  deriving Repr, Inhabited

/-- Whether one can write there. -/
def Opened.isWritable : Opened → Bool
  | .input _ => false
  | .file _ _ direction => direction != .from
  | _ => true

/-- What was written to the streams without an interruption, the last piece first, when, and by
which process that is not waited for. -/
structure Burst where
  time : Nat
  writer : Option Nat := none
  output : List (List UInt8) := []
  errors : List (List UInt8) := []
  deriving Repr, Inhabited

/-- A process that is not waited for: its number, the process that started it and its slot there,
when it ends and how, whether the streams stay open for it, and whether it has been waited for
since. -/
structure Job where
  number : Nat
  owner : Nat
  slot : Nat
  finish : Nat
  status : Nat
  signal : Option Nat := none
  holdsStreams : Bool
  waited : Bool := false
  deriving Repr, Inhabited

/-- A signal for a process, and when it was sent. -/
structure Sent where
  time : Nat
  target : Nat
  signal : Nat
  deriving Repr, Inhabited

/-- What the processes of a child share. -/
structure Machine where
  store : Store
  /-- Microseconds since the start. -/
  elapsed : Nat := 0
  limit : Option Nat := none
  opened : Array Opened := #[]
  /-- What was written to the streams, the last burst first. -/
  bursts : List Burst := []
  /-- The process that writes without being waited for. -/
  writer : Option Nat := none
  jobs : List Job := []
  nextNumber : Nat
  /-- The processes that run and wait for others. -/
  alive : List Nat := []
  /-- Signals that have not come yet. -/
  sent : List Sent := []
  deriving Inhabited

namespace Machine

/-- Ends a burst. -/
def interrupt (m : Machine) : Machine :=
  { m with bursts := { time := m.elapsed, writer := m.writer } :: m.bursts }

/-- A burst with more written to a stream. -/
def addTo (b : Burst) (s : Stream) (bytes : List UInt8) : Burst :=
  match s with
  | .output => { b with output := bytes :: b.output }
  | .errors => { b with errors := bytes :: b.errors }

/-- Writes to one of the streams of the child. -/
def writeStream (m : Machine) (s : Stream) (bytes : List UInt8) : Machine :=
  match m.bursts with
  | [] => { m with bursts := [addTo { time := m.elapsed, writer := m.writer } s bytes] }
  | b :: bs => { m with bursts := addTo b s bytes :: bs }

/-- Bytes with others put in at an offset. -/
def overwrite (before : List UInt8) (offset : Nat) (bytes : List UInt8) : List UInt8 :=
  before.take offset ++ List.replicate (offset - before.length) 0 ++ bytes
    ++ before.drop (offset + bytes.length)

/-- Writes to a file that is open. -/
def writeFile (m : Machine) (index : Nat) (path : Path) (offset : Nat) (d : Direction)
    (bytes : List UInt8) : Machine :=
  match m.store.readBytes path path with
  | .error _ => m
  | .ok before =>
    let offset := if d = .append then before.length else offset
    match m.store.writeBytes path path (overwrite before offset bytes) with
    | .ok store =>
      { m with
        store := store,
        opened := m.opened.setIfInBounds index (.file path (offset + bytes.length) d) }
    | .error _ => m

/-- Writes to something opened. -/
def write (m : Machine) (index : Nat) (bytes : List UInt8) : Machine :=
  match m.opened[index]? with
  | some (.stream s) => m.writeStream s bytes
  | some (.file path offset d) =>
    if d = .from then m else m.writeFile index path offset d bytes
  | some (.gathered pieces) =>
    { m with opened := m.opened.setIfInBounds index (.gathered ((m.elapsed, bytes) :: pieces)) }
  | _ => m

/-- What can be read of something opened. -/
def readable (m : Machine) (index : Nat) : List UInt8 :=
  match m.opened[index]? with
  | some (.input rest) => rest
  | some (.file path offset _) => ((m.store.readBytes path path).toOption.getD []).drop offset
  | _ => []

/-- Takes bytes that can be read. -/
def take (m : Machine) (index count : Nat) : Machine :=
  match m.opened[index]? with
  | some (.input rest) =>
    { m with opened := m.opened.setIfInBounds index (.input (rest.drop count)) }
  | some (.file path offset d) =>
    { m with opened := m.opened.setIfInBounds index (.file path (offset + count) d) }
  | _ => m

/-- Opens something: its index. -/
def openNew (m : Machine) (o : Opened) : Nat × Machine :=
  (m.opened.size, { m with opened := m.opened.push o })

/-- What has been gathered for others to read. -/
def gatheredBytes (m : Machine) (index : Nat) : List UInt8 :=
  match m.opened[index]? with
  | some (.gathered pieces) =>
    (pieces.reverse.mergeSort fun a b => a.1 ≤ b.1).flatMap (·.2)
  | _ => []

/-- Puts bytes into portions of at most `size`. -/
def portions (size : Nat) (bytes : List UInt8) : List (List UInt8) :=
  if _ : bytes.isEmpty ∨ size = 0 then []
  else bytes.take size :: portions size (bytes.drop size)
termination_by bytes.length
decreasing_by
  rename_i h
  simp only [not_or, List.isEmpty_iff] at h
  have := List.length_pos_iff.2 h.1
  simp only [List.length_drop]
  omega

/-- How many bytes are read at a time. -/
def portionSize : Nat := 4096

/-- What is read of a burst. -/
def burstReads (b : Burst) : List Read :=
  (portions portionSize b.output.reverse.flatten).map (Read.portion .output)
    ++ (portions portionSize b.errors.reverse.flatten).map (Read.portion .errors)

/-- What is read up to a time, if there is one. -/
def readsUntil (m : Machine) (limit : Option Nat) : List Read :=
  let bursts := m.bursts.reverse.mergeSort fun a b => a.time ≤ b.time
  (bursts.filter fun b => limit.all (b.time ≤ ·)).flatMap burstReads

/-- When the streams are closed: not before the last process that holds them ends. -/
def closing (m : Machine) : Nat :=
  (m.jobs.filter (·.holdsStreams)).foldl (fun t j => max t j.finish) m.elapsed

end Machine

/-! ### What a process has of its own -/

/-- The rank by which named things are listed: the characters of the name with the first one weighed
more, up to a bound. -/
def listRank (bound : Nat) (name : List Char) : Nat :=
  name.foldl (fun n c => n + c.toNat) (16 * (name.headD '\x00').toNat) % bound

/-- Named things in the order in which they are listed. -/
def listed {α : Type} (bound : Nat) (things : List (List Char × α)) : List (List Char × α) :=
  things.mergeSort fun a b => listRank bound a.1 ≤ listRank bound b.1

/-- Named things with one put in the place of what had its name, or behind the others. -/
def putNamed {α : Type} (name : List Char) (value : α) :
    List (List Char × α) → List (List Char × α)
  | [] => [(name, value)]
  | a :: rest => if a.1 = name then (name, value) :: rest else a :: putNamed name value rest

/-- A variable; one without a value is only exported or fixed. -/
structure Variable where
  name : List Char
  value : Option (List Char)
  exported : Bool := false
  fixed : Bool := false
  deriving DecidableEq, Repr, Inhabited

/-- A function. -/
structure Function where
  name : List Char
  body : Command
  deriving Inhabited

/-- A running shell. -/
structure Process where
  machine : Machine
  /-- The number of the process, and the numbers that scripts see: that of the shell it is part of,
  and that of the process which started this shell. -/
  self : Nat
  number : Nat
  parent : Nat
  dir : Path
  vars : List Variable := []
  functions : List Function := []
  aliases : List (List Char × List Char) := []
  name : List Char
  arguments : List (List Char) := []
  /-- The letters of the options that are set. -/
  options : List Char := []
  /-- What is done on a signal; nothing at all for an empty text. -/
  traps : List (Nat × List Char) := []
  /-- The signals that have come and are not dealt with yet. -/
  signals : List Nat := []
  /-- What the numbered streams lead to. -/
  streams : List (Nat × Nat)
  documents : Array Word := #[]
  status : Nat := 0
  /-- The status of the last output that was expanded in this command. -/
  expandedStatus : Nat := 0
  /-- The line of the current command, and the line up to which the script has been read. -/
  line : Nat := 0
  sourceLine : Nat := 1
  functionDepth : Nat := 0
  loopDepth : Nat := 0
  /-- The command that messages name. -/
  command : Option (List Char) := none
  /-- What local variables had been, for every function that runs. -/
  locals : List (List (List Char × Option Variable)) := []
  lastJob : Option Nat := none
  /-- The programs that have been looked for, and whether to look for them anew. -/
  tracked : List (List Char × List Char × Bool) := []
  /-- The next argument with options, and where in the one before the next letter stands. -/
  optionIndex : Nat := 1
  optionOffset : Option Nat := none
  /-- The status with which the shell ends if what is done at the end does not say another one. -/
  exiting : Option Nat := none
  umask : Nat := 18
  deriving Inhabited

/-- How a command leaves off. -/
inductive Flow where
  /-- A number of loops is left. -/
  | leave (depth : Nat)
  /-- Loops are left, and the last of them goes on. -/
  | again (depth : Nat)
  /-- A function or a script read by another one ends. -/
  | back
  /-- The shell ends. -/
  | exit
  /-- An error ends the shell, or the built-in command that is no special one. -/
  | error
  /-- A signal ends the process. -/
  | killed (signal : Nat)
  /-- The time is over. -/
  | overdue
  deriving DecidableEq, Repr, Inhabited

/-- What a running shell does. -/
abbrev Run := ExceptT Flow (StateM Process)

namespace Process

/-- A process that has what it had before, but shares what another one left. -/
def resume (before after : Process) : Process := { before with machine := after.machine }

/-- What a process does apart leaves nothing behind but what it shares. -/
theorem resume_resume (p q r : Process) : (p.resume q).resume r = p.resume r := rfl

/-- The value that separates words where no variable tells. -/
def defaultSeparators : List Char := [' ', '\t', '\n']

/-- Where programs are looked for when no variable tells. -/
def defaultPath : List Char :=
  "/usr/local/sbin:/usr/local/bin:/usr/sbin:/usr/bin:/sbin:/bin".toList

/-- The variable of a name. -/
def named? (p : Process) (name : List Char) : Option Variable :=
  p.vars.find? (·.name == name)

/-- The value of a variable. -/
def lookUp? (p : Process) (name : List Char) : Option (List Char) :=
  (p.named? name).bind (·.value)

/-- Whether a variable cannot be set. -/
def isFixed (p : Process) (name : List Char) : Bool := (p.named? name).any (·.fixed)

/-- Whether an option is set. -/
def hasOption (p : Process) (c : Char) : Bool := p.options.contains c

/-- Forgets where programs are if the variable is the one that tells. -/
def retrack (p : Process) (name : List Char) : Process :=
  if name = "PATH".toList then { p with tracked := [] } else p

/-- Puts a variable in the place of what had its name. -/
def putVariable (p : Process) (v : Variable) : Process :=
  { p.retrack v.name with vars := v :: p.vars.filter (·.name != v.name) }

/-- Takes a variable away. -/
def dropVariable (p : Process) (name : List Char) : Process :=
  { p.retrack name with vars := p.vars.filter (·.name != name) }

/-- Sets a variable; with `exported`, children know it. -/
def setVariable (p : Process) (name value : List Char) (exported : Bool) : Process :=
  let before := (p.named? name).getD ⟨name, none, false, false⟩
  let exported := exported || before.exported || p.hasOption 'a'
  let p := if name = "OPTIND".toList then
      { p with optionIndex := max 1 ((count? value).getD 1), optionOffset := none }
    else p
  p.putVariable { before with value := some value, exported := exported }

/-- Gives a variable back what it had been. -/
def restoreVariable (p : Process) (saved : List Char × Option Variable) : Process :=
  match saved.2 with
  | some v => p.putVariable v
  | none => p.dropVariable saved.1

/-- What a numbered stream leads to. -/
def stream? (p : Process) (n : Nat) : Option Nat := (p.streams.find? (·.1 == n)).map (·.2)

/-- Leads a numbered stream elsewhere, or closes it. -/
def setStream (p : Process) (n : Nat) (target : Option Nat) : Process :=
  let others := p.streams.filter (·.1 != n)
  { p with streams := match target with
      | some t => (n, t) :: others
      | none => others }

/-- A stream that has been led elsewhere leads there. -/
theorem stream?_setStream_self (p : Process) (n : Nat) (target : Option Nat) :
    (p.setStream n target).stream? n = target := by
  cases target <;> simp [stream?, setStream]

/-- What is done on a signal. -/
def trap? (p : Process) (signal : Nat) : Option (List Char) :=
  (p.traps.find? (·.1 == signal)).map (·.2)

/-- Whether anything is done on a signal or at the end. -/
def hasTraps (p : Process) : Bool := p.traps.any fun t => !t.2.isEmpty

/-- The path that octets write, seen from the directory of the process. -/
def pathOf (octets : List Char) : Path := Path.ofString (Octets.toText octets)

/-- The directories that are there without being in the store. -/
def systemDirs : List String :=
  ["/", "/bin", "/dev", "/etc", "/home", "/lib", "/opt", "/proc", "/root", "/sbin", "/sys", "/tmp",
    "/usr", "/usr/bin", "/usr/lib", "/usr/local", "/usr/local/bin", "/usr/sbin", "/var"]

/-- Whether a path leads to the device that holds nothing. -/
def isNull (p : Process) (octets : List Char) : Bool :=
  octets.getLast? != some '/' && (Path.resolve p.dir (pathOf octets)).toString == "/dev/null"

/-- Whether a path leads to a directory. -/
def isDirectory (p : Process) (octets : List Char) : Bool :=
  !octets.isEmpty && (p.machine.store.isDirectory p.dir (pathOf octets)
    || systemDirs.contains (Path.resolve p.dir (pathOf octets)).toString)

end Process

namespace Run

/-- Changes what processes share. -/
def onMachine (f : Machine → Machine) : Run Unit :=
  modify fun p => { p with machine := f p.machine }

/-- Writes bytes to a numbered stream, and tells whether it is open for that. -/
def writeBytes (n : Nat) (bytes : List UInt8) : Run Bool := do
  let p ← get
  match p.stream? n with
  | some index =>
    onMachine (·.write index bytes)
    return (p.machine.opened[index]?).any (·.isWritable)
  | none => return false

/-- Writes octets to a numbered stream, if it is open. -/
def write (n : Nat) (octets : List Char) : Run Unit := do
  let _ ← writeBytes n (Octets.toBytes octets)

/-- Ends a burst. -/
def interrupt : Run Unit := onMachine Machine.interrupt

/-- Lets some microseconds pass, as far as there is time. -/
def pass (micros : Nat) : Run Unit := do
  onMachine fun m => ({ m with elapsed := m.elapsed + micros } : Machine).interrupt
  let m := (← get).machine
  if m.limit.any (· < m.elapsed) then throw .overdue

/-- Reports something, with the line and the command where it happened. -/
def warn (message : List Char) : Run Unit := do
  let p ← get
  let place := p.name ++ ": ".toList ++ decimal p.line ++ ": ".toList
  let command := match p.command with
    | some c => c ++ ": ".toList
    | none => []
  write 2 (place ++ command ++ message ++ ['\n'])

/-- Reports an error, which ends the shell or a built-in command. -/
def fail {α : Type} (message : List Char) : Run α := do
  warn message
  modify fun p => { p with status := 2 }
  throw .error

/-- Reports an error in the script. -/
def failSyntax {α : Type} (fault : SyntaxFault) : Run α := do
  modify fun p => { p with line := fault.line }
  fail s!"Syntax error: {fault.cause.message}".toList

/-- Sets a variable, if it can be set. -/
def assign (name value : List Char) (exported : Bool) : Run Unit := do
  if (← get).isFixed name then fail (name ++ ": is read only".toList)
  else if name = "OPTIND".toList ∧ (count? value).isNone then
    fail ("Illegal number: ".toList ++ value)
  else modify (·.setVariable name value exported)

/-- Repeats a step until it says no, at most a number of times; no script takes longer. -/
def repeated (step : Run Bool) : (times : Nat) → Run Unit
  | 0 => throw .overdue
  | times + 1 => do
    if ← step then repeated step times else return ()

end Run

end Conductor.Shell
