import Conductor.Shell.Process

/-!
# Signals

Signals by name and number, what they do to a process, and how a process is told of them. A process
deals with its own signals; those for another one wait until that one goes on. Main statement: a
number that is a signal's is read back from its name.
-/

namespace Conductor.Shell

/-- The names of the signals in the order of their numbers; the first one stands for the end. -/
def signalNames : List String :=
  ["EXIT", "HUP", "INT", "QUIT", "ILL", "TRAP", "ABRT", "BUS", "FPE", "KILL", "USR1", "SEGV",
    "USR2", "PIPE", "ALRM", "TERM", "STKFLT", "CHLD", "CONT", "STOP", "TSTP", "TTIN", "TTOU",
    "URG", "XCPU", "XFSZ", "VTALRM", "PROF", "WINCH", "IO", "PWR", "SYS"]

/-- The first number that is no signal's. -/
def signalLimit : Nat := 65

/-- The signal of a number or a name in letters of either case, if it is not below a bound. -/
def signal? (least : Nat) (s : List Char) : Option Nat :=
  let found :=
    if !s.isEmpty && s.all Char.isDigit then
      let n := digitsNumber 10 s
      if n < signalLimit then some n else none
    else signalNames.findIdx? fun name => name.toList == s.map Char.toUpper
  found.filter (least ≤ ·)

/-- The name of a signal. -/
def signalName (n : Nat) : List Char := ((signalNames[n]?).map String.toList).getD (decimal n)

/-- A number that is a signal's is read back from its name. -/
theorem signal?_signalName :
    ∀ n ∈ List.range signalNames.length, signal? 0 (signalName n) = some n := by decide

/-- The words for the death by a signal. -/
def deathWords : Nat → Option String
  | 1 => some "Hangup"
  | 3 => some "Quit"
  | 4 => some "Illegal instruction"
  | 5 => some "Trace/breakpoint trap"
  | 6 => some "Aborted"
  | 7 => some "Bus error"
  | 8 => some "Floating point exception"
  | 9 => some "Killed"
  | 10 => some "User defined signal 1"
  | 11 => some "Segmentation fault"
  | 12 => some "User defined signal 2"
  | 14 => some "Alarm clock"
  | 15 => some "Terminated"
  | 16 => some "Stack fault"
  | 24 => some "CPU time limit exceeded"
  | 25 => some "File size limit exceeded"
  | 26 => some "Virtual timer expired"
  | 27 => some "Profiling timer expired"
  | 29 => some "I/O possible"
  | 30 => some "Power failure"
  | 31 => some "Bad system call"
  | _ => none

/-- Whether a signal does nothing where nobody cares. -/
def isHarmless (n : Nat) : Bool := [0, 17, 18, 23, 28].contains n

/-- Whether a signal stops a process. -/
def isStopping (n : Nat) : Bool := [19, 20, 21, 22].contains n

/-- How a process ended. -/
inductive Ending where
  | exited (status : Nat)
  | killed (signal : Nat)
  deriving DecidableEq, Repr, Inhabited

/-- The status that stands for an ending. -/
def Ending.status : Ending → Nat
  | exited status => status % 256
  | killed signal => 128 + signal

namespace Run

/-- Tells a process of one of its own signals. -/
def receive (n : Nat) : Run Unit := do
  let p ← get
  if n = 9 then throw (.killed 9)
  else match p.trap? n with
    | some [] => return ()
    | some _ => modify fun p => { p with signals := p.signals ++ [n] }
    | none =>
      if isHarmless n then return ()
      else if isStopping n then throw .overdue
      else throw (.killed n)

/-- Deals with the signals that others have sent. -/
def receiveSent : Run Unit := do
  let p ← get
  let (own, others) := p.machine.sent.partition fun s =>
    s.target == p.self && s.time ≤ p.machine.elapsed
  if own.isEmpty then return ()
  else
    onMachine fun m => { m with sent := others }
    for s in own do
      receive s.signal

/-- Ends a process that is not waited for by a signal, if it still runs: what it would have written
later is not written. -/
def endJob (j : Job) (n : Nat) : Run Unit :=
  onMachine fun m =>
    if j.finish ≤ m.elapsed then m
    else
      { m with
        bursts := m.bursts.filter fun b => b.writer != some j.number || b.time ≤ m.elapsed,
        jobs := m.jobs.map fun k =>
          if k.number = j.number then
            { k with finish := m.elapsed, status := 128 + n, signal := some n }
          else k }

/-- Sends a signal to a process, and tells whether there is one. -/
def send (target n : Nat) : Run Bool := do
  let p ← get
  if target = p.self then
    receive n
    return true
  else match p.machine.jobs.find? (·.number == target) with
    | some j =>
      if !isHarmless n then endJob j n
      return true
    | none =>
      if p.machine.alive.contains target then
        onMachine fun m => { m with sent := m.sent ++ [⟨m.elapsed, target, n⟩] }
        return true
      else return false

/-- The status of a process that has been waited for; a death that is no interruption is told. -/
def collect (e : Ending) : Run Nat := do
  let words := match e with
    | .killed n => deathWords n
    | .exited _ => none
  match words with
  | some words =>
    write 2 (words.toList ++ ['\n'])
    return e.status
  | none => return e.status

end Run

end Conductor.Shell
