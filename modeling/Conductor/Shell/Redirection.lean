import Conductor.Shell.Process

/-!
# Redirections

Where numbered streams are led for one command or for the rest of a script: to files, to other
streams, to documents or nowhere. Main statement: a stream that has been led elsewhere leads there.
-/

namespace Conductor.Shell

open Text Process

namespace Run

/-- A redirection whose words have been expanded. -/
inductive Lead where
  | file (number : Nat) (direction : Direction) (name : List Char)
  | copy (number : Nat) (source : Option Nat)
  | bytes (number : Nat) (content : List UInt8)
  /-- A document that could not be made. -/
  | failed
  deriving Repr, Inhabited

/-- Leads a numbered stream to something opened anew. -/
def openStream (n : Nat) (o : Opened) : Run Unit :=
  modify fun p =>
    let (index, m) := p.machine.openNew o
    { p with machine := m }.setStream n (some index)

/-- Copies a numbered stream. -/
def copyStream (n source : Nat) : Run Unit := do
  match (← get).stream? source with
  | some index => modify (·.setStream n (some index))
  | none => fail (decimal source ++ ": Bad file descriptor".toList)

/-- The words for a file that cannot be opened, or not be made. -/
def openingWords (making : Bool) (cause : FileCause) : String :=
  match cause with
  | .missing => if making then "Directory nonexistent" else "No such file"
  | .notDirectory => if making then "Directory nonexistent" else "No such file"
  | cause => cause.words

/-- The stream that a name means which is no file. -/
def namedStream? (name : List Char) : Option Nat :=
  match String.ofList name with
  | "/dev/stdin" => some 0
  | "/dev/stdout" => some 1
  | "/dev/stderr" => some 2
  | "/dev/fd/0" => some 0
  | "/dev/fd/1" => some 1
  | "/dev/fd/2" => some 2
  | _ => none

/-- The store after a file has been opened in some way, or why it cannot be. -/
def prepareFile (p : Process) (d : Direction) (name : List Char) : Except FileCause Store :=
  let store := p.machine.store
  let path := pathOf name
  let there := store.readBytes p.dir path
  if name.isEmpty then .error .missing
  else if d ≠ .from ∧ p.isDirectory name then .error .isDirectory
  else if name.getLast? = some '/' ∧ d ≠ .from then .error .isDirectory
  else match d, there with
    | .from, .ok _ => if name.getLast? = some '/' then .error .notDirectory else .ok store
    | .from, .error cause => if p.isDirectory name then .ok store else .error cause
    | .into, .ok _ =>
      if p.hasOption 'C' then .error .alreadyThere else store.writeBytes p.dir path []
    | .append, .ok _ => .ok store
    | .fromInto, .ok _ => .ok store
    | _, _ => store.writeBytes p.dir path []

/-- Follows a redirection. -/
def follow (lead : Lead) : Run Unit := do
  match lead with
  | .copy n none => modify (·.setStream n none)
  | .copy n (some source) => copyStream n source
  | .bytes n content => openStream n (.input content)
  | .failed => throw .error
  | .file n d name =>
    let p ← get
    if p.isNull name then openStream n .nowhere
    else match namedStream? name with
      | some source => copyStream n source
      | none =>
        match prepareFile p d name with
        | .ok store =>
          onMachine fun m => { m with store := store }
          openStream n (.file (Path.resolve p.dir (pathOf name)) 0 d)
        | .error cause =>
          let making := d ≠ .from
          let front := if making then "cannot create " else "cannot open "
          fail (front.toList ++ name ++ ": ".toList ++ (openingWords making cause).toList)

/-- A stream that has been closed leads nowhere. -/
theorem stream?_follow_close (p : Process) (n : Nat) :
    ((follow (.copy n none)).run.run p).2.stream? n = none :=
  stream?_setStream_self p n none

/-- Gives the streams back that there were before. -/
def restoreStreams (before : Process) : Run Unit :=
  modify fun p => { p with streams := before.streams }

end Run

end Conductor.Shell
