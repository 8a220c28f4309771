import Conductor.Shell.Flow
import Conductor.Shell.Jobs

/-!
# Processes of a shell

What a shell does apart happens in a process of its own, which it waits for or not. Of a process
that is not waited for all is done at once, and the clock goes back then; what it writes has the
time at which it is written. Main statement: what runs apart changes no variable of the shell.
-/

namespace Conductor.Shell

open Process

namespace Run

/-- How a shell ends that left off in some way; `atEnd` is done then. -/
def conclude (atEnd : Run Unit) (result : Except Flow Unit) : Run Ending := do
  match result with
  | .error (.killed n) => return .killed n
  | .error .overdue => throw .overdue
  | _ =>
    match ← attempt atEnd with
    | .error (.killed n) => return .killed n
    | .error .overdue => throw .overdue
    | _ => return .exited (← get).status

/-- The process that another one starts to do something apart. It takes a moment to start. -/
def offspring (p : Process) : Process :=
  let n := p.machine.nextNumber
  let m : Machine := { p.machine.claimSlot p.self with
    nextNumber := n + 1, alive := p.self :: p.machine.alive, elapsed := p.machine.elapsed + 1 }
  { p with
    self := n, traps := p.traps.filter (·.2.isEmpty), signals := [], exiting := none,
    machine := m.interrupt }

/-- Does something apart and tells how it ended; `atEnd` is done at its end. -/
def apart (atEnd : Run Unit) (r : Run Unit) : Run Ending := do
  let before ← get
  set (offspring before)
  let ending ← attempt do conclude atEnd (← attempt r)
  modify fun after =>
    let p := before.resume after
    { p with machine := { p.machine with alive := before.machine.alive } }
  let ending ← settle ending
  receiveSent
  return ending

/-- What runs apart changes no variable of the shell that waits for it. -/
theorem vars_resume (before after : Process) : (before.resume after).vars = before.vars := rfl

/-- Whether a process has one of the child's streams open. -/
def holdsStreams (p : Process) : Bool :=
  p.streams.any fun s => (p.machine.opened[s.2]?).any (· matches .stream _)

/-- Does something without waiting for it: time goes on for it alone. -/
def inBackground (atEnd : Run Unit) (r : Run Unit) : Run Unit := do
  let before ← get
  let slot := before.machine.freeSlot before.self
  let child := offspring before
  -- A process that is not waited for reads nothing.
  let (index, m) := child.machine.openNew .nowhere
  let m := ({ m with writer := some child.self } : Machine).interrupt
  set ({ child with machine := m }.setStream 0 (some index))
  let result ← attempt do conclude atEnd (← attempt r)
  let after ← get
  let finished := after.machine.elapsed
  let (status, signal) := match result with
    | .ok (.killed n) => (128 + n, some n)
    | .ok e => (e.status, none)
    | .error _ => (0, none)
  let job : Job :=
    { number := child.self, owner := before.self, slot := slot, finish := finished,
      status := status, signal := signal, holdsStreams := holdsStreams child }
  -- The clock goes back to the moment at which the shell goes on.
  let m := { after.machine with
    elapsed := before.machine.elapsed, writer := before.machine.writer,
    jobs := job :: after.machine.jobs, alive := before.machine.alive }
  set { before with machine := m.interrupt, lastJob := some child.self, status := 0 }

end Run

end Conductor.Shell
