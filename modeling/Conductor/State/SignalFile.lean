import Conductor.State.World

/-!
# Reading signals

A signal is read after a step from the file or the mailbox. A version of the file that has been read
once is no news; a malformed one is reported once, as a warning, and counts as no signal.
-/

namespace Conductor

open Text

/-- The file that holds the signal of a working directory. -/
def signalFile (stateDir dir : Path) : Path :=
  ((dir / stateDir).child "memory").child "behavior.json"

/-- The signal that a file's text holds; a blank text holds none. -/
def Signal.ofText (path : Path) (text : String) : Except Fault (Option Signal) :=
  if isBlankText text then .ok none
  else match Json.read text with
    | .error (.malformed n) =>
      .error (.signal (s!"Failed to parse behavior file {path}: "
        ++ (Json.ReadError.malformed n).message text))
    | .error e => .error (.json e text)
    | .ok (.obj ms) =>
      match Signal.ofMembers ms with
      | .ok s => .ok (some s)
      | .error e => .error (.signal s!"Invalid behavior signal in {path}: {e.message}")
    | .ok _ => .error (.signal s!"Behavior file {path} must contain a JSON object")

namespace SignalWay

/-- Reads the signal file at a path, unless its version has been seen. -/
def readFile (path : Path) : Act (Option Signal) := do
  let w ← get
  if path.hasNul then throw (.read .nul)
  else match w.store.stat w.cwd path, w.store.readText w.cwd path with
    | .error .missing, _ => return none
    | .error cause, _ =>
      let e : FileError := ⟨cause, path.toString⟩
      throw (.signal s!"Failed to read behavior file {path}: {e.message}")
    | _, .error (.file e) => throw (.signal s!"Failed to read behavior file {path}: {e.message}")
    | _, .error e => throw (.read e)
    | .ok (_, node), .ok text =>
      let modified := match node with
        | .file _ modified => modified
        | .directory => 0
      let (isNews, box) := w.mailbox.notice path ⟨modified, text⟩
      set { w with mailbox := box }
      if isNews then Act.lift (Signal.ofText path text) else return none

/-- Reads the signal of a working directory. -/
def read (way : SignalWay) (dir : Path) : Act (Option Signal) := do
  match way with
  | .file stateDir => readFile (signalFile stateDir dir)
  | .mailbox =>
    let w ← get
    let (s, box) := w.mailbox.take dir
    set { w with mailbox := box }
    return s

/-- The warning about a malformed signal. -/
def ignoredRecord (message : String) : Record :=
  { level := .warning, source := .signals, message := "Ignoring behavior signal",
    details := [("error", .str message)] }

/-- Reads the signal of a working directory; a malformed one counts as none. -/
def readSafely (way : SignalWay) (dir : Path) : Act (Option Signal) := do
  match ← Act.attempt (read way dir) with
  | .ok s => return s
  | .error (.signal message) =>
    Act.note [ignoredRecord message]
    return none
  | .error f => throw f

end SignalWay

end Conductor
