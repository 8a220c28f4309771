import Conductor.Fault
import Conductor.State.Mailbox
import Conductor.Time

/-!
# The world of a command

Everything a command reads and changes: the files, the current directory, whether it has been
cancelled, the signals, the catalog at hand, what was logged, the agent calls made and the supply of
run ids. An action takes a world to a world and yields a value or a fault; what was changed before a
fault stays changed.
-/

namespace Conductor

/-- A request to an agent. -/
structure Invocation where
  agentId : String
  prompt : String
  workingDir : Path
  model : Option String := none
  effort : Option String := none
  engine : Option String := none
  timeout : Option Number.Binary64 := none
  deriving Repr, Inhabited, DecidableEq

/-- What a command reads and changes. -/
structure World where
  store : Store
  cwd : Path
  cancelled : Bool := false
  mailbox : Mailbox := {}
  /-- The catalog that the session has at hand. -/
  catalog : Option Catalog := none
  log : Array Record := #[]
  calls : Array Invocation := #[]
  nextRun : Nat := 1
  now : Moment := 0
  deriving Inhabited

/-- An action on the world. -/
abbrev Act (α : Type) := ExceptT Fault (StateM World) α

namespace Act

/-- Runs an action. -/
def exec {α : Type} (a : Act α) (w : World) : Except Fault α × World :=
  (ExceptT.run a).run w

/-- Notes records. -/
def note (records : List Record) : Act Unit :=
  modify fun w => { w with log := records.foldl Array.push w.log }

/-- Changes the store or fails. -/
def changeStore (f : World → Except FileError Store) : Act Unit := do
  match f (← get) with
  | .ok s => modify fun w => { w with store := s }
  | .error e => throw (.file e)

/-- The value, or the fault. -/
def lift {α : Type} (r : Except Fault α) : Act α :=
  match r with
  | .ok a => pure a
  | .error f => throw f

/-- Runs an action and hands a fault over as a value. -/
def attempt {α : Type} (a : Act α) : Act (Except Fault α) := fun w =>
  match a.exec w with
  | (r, w) => (.ok r, w)

/-- The text of the file at a path, seen from the current directory. -/
def readText (path : Path) : Act (Except ReadFault String) := do
  let w ← get
  return w.store.readText w.cwd path

/-- Fails where a path holds a character that no path can hold. -/
def checkPath (path : Path) : Act Unit := do
  if path.hasNul then throw (.read .nul)

/-- Whether a path leads to something; a name that is too long is a fault. -/
def holds (path : Path) : Act Bool := do
  let w ← get
  if path.hasNul then return false
  else match w.store.stat w.cwd path with
    | .ok _ => return true
    | .error .nameTooLong => throw (.file ⟨.nameTooLong, path.toString⟩)
    | .error _ => return false

/-- Makes a directory and all missing ones above it. -/
def ensureDirectory (path : Path) : Act Unit := do
  checkPath path
  changeStore fun w => w.store.ensureDirectory w.cwd path

/-- Writes a text to a file whose directory is there. -/
def writeText (path : Path) (text : String) : Act Unit := do
  checkPath path
  changeStore fun w => w.store.writeText w.cwd path text

/-- Writes a text and makes the missing directories above it. -/
def saveText (path : Path) (text : String) : Act Unit := do
  ensureDirectory path.parent
  writeText path text

end Act

end Conductor
