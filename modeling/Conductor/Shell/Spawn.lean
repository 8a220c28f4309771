import Conductor.Child.Engine
import Conductor.Shell.Run

/-!
# Starting shells and utilities

A child is a shell or one of the utilities; any other program is missing, and a file that is there
may not be executed. Main statement: a child whose directory is missing is not started.
-/

namespace Conductor.Shell

open Text Child Process

/-- Refuses a working directory that is none. -/
def checkDirectory (store : Store) (cwd dir : Path) : Except FileError Unit :=
  match store.stat cwd dir with
  | .ok (_, .directory) => .ok ()
  | .ok (_, .file ..) => .error ⟨.notDirectory, dir.toString⟩
  | .error cause => .error ⟨cause, dir.toString⟩

/-- The cause for which a child is not started, of those at several places: the first one that is
not a lack, else the last one. -/
def startCause (causes : List FileCause) : FileCause :=
  (causes.find? fun c => c ≠ .missing ∧ c ≠ .notDirectory).getD (causes.getLast?.getD .missing)

/-- The process of a child before its program runs. -/
def processOf (l : Launch) : Process :=
  let number := 4242
  { machine := {
      store := l.store, limit := l.limit, nextNumber := number + 1
      opened := #[.input l.input, .stream .output, .stream .errors] }
    self := number, number := number, parent := 1
    dir := Path.resolve l.cwd l.dir
    vars := l.vars.filterMap fun v => v.2.map fun value =>
      ⟨Octets.ofText v.1, some (Octets.ofText value), true, false⟩
    name := [], streams := [(0, 0), (1, 1), (2, 2)] }

/-- The program of a child, or why there is none. -/
def findChild (p : Process) (name : String) : Except FileError (List Char) :=
  let path := (p.lookUp? "PATH".toList).getD defaultPath
  match search p.machine.store p.dir path (Octets.ofText name) with
  | .ok (_, program) => .ok program
  | .error causes => .error ⟨startCause causes, name⟩

/-- How deep the steps of a child may be nested. -/
def maxDepth : Nat := 30000

/-- What a child did, from how it left off and in which state. -/
def transcriptOf (result : Except Flow Unit) (p : Process) : Transcript :=
  let m := p.machine
  let ended (code : Int) : Transcript :=
    { reads := m.readsUntil none ++ [.closed .output, .closed .errors], ending := .exited code,
      store := m.store }
  let overdue : Transcript :=
    { reads := m.readsUntil m.limit, ending := .overdue, store := m.store }
  match result with
  | .error .overdue => overdue
  | result =>
    if m.limit.any (· < m.closing) then overdue
    else match result with
      | .error (.killed n) => ended (-(n : Int))
      | _ => ended (p.status % 256 : Nat)

/-- Starts a child. One without any time does nothing. -/
def spawn : Spawner := fun l => do
  checkDirectory l.store l.cwd l.dir
  let p := processOf l
  let program ← findChild p (l.argv.headD "")
  if l.limit = some 0 then
    return { reads := [], ending := .overdue, store := l.store }
  let words := l.argv.map Octets.ofText
  let (result, p) := (Run.runProgram (words.headD []) program words.tail maxDepth).run.run p
  return transcriptOf result p

/-- A child whose directory is missing is not started. -/
theorem spawn_of_missing {l : Launch} (h : l.store.stat l.cwd l.dir = .error .missing) :
    spawn l = .error ⟨.missing, l.dir.toString⟩ := by
  simp [spawn, checkDirectory, h, bind, Except.bind]

end Conductor.Shell
