import Conductor.Child.Transcript
import Conductor.Number.Shortest
import Conductor.Output.Normal
import Conductor.Settings.Basic
import Conductor.Text.Lines

/-!
# Agents as child processes

An agent call starts a child by the agent's command, gives it the prompt to read and passes on what
it writes. A child that is cancelled or takes too long is ended. Main statement: a run that has been
cancelled starts no child.
-/

namespace Conductor.Child

open Text Number

/-- A child to be started: its command, working directory, variables and input, the files it finds,
and after how many microseconds it is ended. -/
structure Launch where
  argv : List String
  dir : Path
  cwd : Path
  vars : Variables
  input : List UInt8
  store : Store
  limit : Option Nat
  deriving Repr, Inhabited

/-- Whether a text holds a character that none given to a child can hold. -/
def hasNul (s : String) : Bool := s.toList.contains '\x00'

/-- Refuses a child without a command, a variable with an equals sign in its name, and texts that
cannot be given to a child. -/
def Launch.check (l : Launch) : Except Command.Fault Unit :=
  if l.argv.isEmpty then .error .noWords
  else if l.vars.any fun v => v.1.toList.contains '=' then .error .variableName
  else if l.dir.hasNul || l.argv.any hasNul
      || l.vars.any fun v => hasNul v.1 || v.2.any hasNul then .error .nul
  else .ok ()

/-- How a child ended: by itself with a code, or because its time was over. -/
inductive Ending where
  | exited (code : Int)
  | overdue
  deriving DecidableEq, Repr, Inhabited

/-- What a child did: what was read from it, how it ended and the files it left. -/
structure Transcript where
  reads : List Read
  ending : Ending
  store : Store
  deriving Repr, Inhabited

/-- Starts children. -/
abbrev Spawner := Launch → Except FileError Transcript

/-- Agents that are child processes. -/
structure Agents where
  command : AgentCommand
  spawn : Spawner
  vars : Variables := []
  /-- After how many microseconds a call is cancelled from outside. -/
  cancelAfter : Option Nat := none

/-- What a child that ended well has answered. -/
structure Answer where
  text : String
  errors : String
  exitCode : Int
  deriving DecidableEq, Repr, Inhabited

/-- A number of seconds in whole microseconds, none where it is endless. -/
def micros? : Binary64 → Option Nat
  | .finite false m e => some (Binary64.floorMagnitude (m * 1000000) e)
  | .finite true _ _ => some 0
  | _ => none

/-- After how many microseconds a call has taken too long; a timeout of zero is none. -/
def timeLimit (timeout : Option Binary64) : Option Nat :=
  match timeout with
  | some t => if t.isZero then none else micros? t
  | none => none

/-- The smaller of two limits. -/
def sooner : Option Nat → Option Nat → Option Nat
  | some a, some b => some (min a b)
  | some a, none => some a
  | none, b => b

/-- Whether the first limit is reached before the second one. -/
def comesFirst : Option Nat → Option Nat → Bool
  | some a, some b => a ≤ b
  | some _, none => true
  | none, _ => false

/-- The last line of what a child wrote to its error stream. -/
def lastErrorLine (errors : List Char) : List Char :=
  ((terminalLines (trim errors)).getLast?).getD "no stderr output".toList

/-- The record that a child is going to be started. -/
def spawnRecord (agentId : String) (argv : List String) : Record :=
  { level := .debug, source := .children, message := "Spawning agent process",
    details := [("agent_id", .str agentId), ("argv", .arr (argv.map .str))] }

/-- What comes of a call whose child did what a transcript tells. -/
def conclude (call : Invocation) (cancelFirst : Bool) (t : Transcript)
    (texts : List (Stream × List Char)) : Except Fault Answer :=
  let errors := textOn .errors texts
  let agent := s!"Agent '{call.agentId}'"
  match t.ending with
  | .overdue =>
    -- Of two limits that are reached at once, the cancellation counts.
    if cancelFirst then
      .error (.cancelled { message := s!"{agent} cancelled", agentId := some call.agentId })
    else
      let seconds := (call.timeout.getD (.zero false)).brief
      .error (.failed { message := s!"{agent} timed out after {seconds}s",
                        agentId := some call.agentId })
  | .exited code =>
    if code = 0 then
      .ok { text := Output.normal (String.ofList (textOn .output texts)),
            errors := String.ofList errors, exitCode := code }
    else
      let detail := String.ofList (lastErrorLine errors)
      .error (.failed { message := s!"{agent} exited with code {code}: {detail}",
                        agentId := some call.agentId, exitCode := some code })

/-- The command of a call. A call of an unknown engine fails as an agent call. -/
def Agents.commandOf (a : Agents) (call : Invocation) : Except Fault (List String) :=
  match a.command.argv call.agentId call.workingDir call.model call.effort call.engine with
  | .ok argv => .ok argv
  | .error (.unknownEngine e agentId known) =>
    .error (.failed { message := (Command.Fault.unknownEngine e agentId known).message,
                      agentId := some agentId })
  | .error f => .error (.command f)

/-- The child of a call. -/
def Agents.launch (a : Agents) (w : World) (call : Invocation) (argv : List String) : Launch :=
  { argv := argv, dir := call.workingDir, cwd := w.cwd, vars := a.vars,
    input := Utf8.encodeText call.prompt, store := w.store,
    limit := sooner a.cancelAfter (timeLimit call.timeout) }

/-- Starts the child of a call and follows it to its end. -/
def Agents.follow (a : Agents) (w : World) (call : Invocation) (argv : List String) :
    Reply Answer :=
  let records := [spawnRecord call.agentId argv]
  let child := a.launch w call argv
  match child.check with
  | .error f => { store := w.store, records := records, result := .error (.command f) }
  | .ok () =>
    match a.spawn child with
    | .error e =>
      { store := w.store, records := records,
        result := .error (.failed {
          message := s!"Failed to start agent '{call.agentId}': {e.message}",
          agentId := some call.agentId }) }
    | .ok t =>
      let cancelFirst := comesFirst a.cancelAfter (timeLimit call.timeout)
      let texts := chunks {} t.reads
      { store := t.store, records := records, cancels := cancelFirst && t.ending == .overdue,
        chunks := texts.map fun c => (c.1, String.ofList c.2),
        result := conclude call cancelFirst t texts }

/-- Answers a call by a child. -/
def Agents.invoke (a : Agents) (w : World) (call : Invocation) : Reply Answer :=
  if w.cancelled then
    { store := w.store,
      result := .error (.cancelled { message := s!"Agent '{call.agentId}' cancelled before start",
                                     agentId := some call.agentId }) }
  else match a.commandOf call with
    | .error f => { store := w.store, result := .error f }
    | .ok argv => a.follow w call argv

/-- The engine of agents that are child processes. -/
def Agents.engine (a : Agents) : Engine := fun w call => (a.invoke w call).map (·.text)

/-- The engine that settings ask for. A command that cannot call anything is refused. -/
def engineOf (spawn : Spawner) (vars : Variables) (s : Settings) : Act Engine := do
  Act.note [s.engineRecord]
  Act.lift (s.command.check.mapError .command)
  return Agents.engine { command := s.command, spawn := spawn, vars := vars }

theorem Agents.store_invoke_of_cancelled (a : Agents) {w : World} (h : w.cancelled = true)
    (call : Invocation) : (a.invoke w call).store = w.store := by
  simp [Agents.invoke, h]

end Conductor.Child
