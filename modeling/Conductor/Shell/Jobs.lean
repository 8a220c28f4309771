import Conductor.Shell.Settings

/-!
# Jobs

The processes that a shell has started without waiting for them. Each has a slot, which is free
again once the shell has waited for it; the latest one is the current job. Main statement: a slot
that a new job gets is not held by one that the shell has not waited for.
-/

namespace Conductor.Shell

open Text Process Run

/-! ### Slots -/

namespace Machine

/-- Whether a job has ended. -/
def isOver (m : Machine) (j : Job) : Bool := j.finish ≤ m.elapsed

/-- Whether a job keeps a process from giving its slot to another one. -/
def keepsSlot (m : Machine) (owner : Nat) (j : Job) : Bool :=
  j.owner == owner && !(j.waited && m.isOver j)

/-- A slot above those of all jobs. -/
def slotAbove : List Job → Nat
  | [] => 1
  | j :: rest => max (j.slot + 1) (slotAbove rest)

theorem slot_lt_slotAbove {j : Job} {jobs : List Job} (h : j ∈ jobs) : j.slot < slotAbove jobs := by
  induction jobs with
  | nil => simp at h
  | cons k rest ih =>
    rcases List.mem_cons.1 h with rfl | h
    · exact Nat.le_max_left ..
    · exact Nat.lt_of_lt_of_le (ih h) (Nat.le_max_right ..)

/-- The first slot that no job of a process keeps. -/
def freeSlot (m : Machine) (owner : Nat) : Nat :=
  (((List.range m.jobs.length).map (· + 1)).find? fun slot =>
    m.jobs.all fun j => !(m.keepsSlot owner j && j.slot == slot)).getD (slotAbove m.jobs)

/-- What processes share after a process has taken its free slot. -/
def claimSlot (m : Machine) (owner : Nat) : Machine :=
  let slot := m.freeSlot owner
  { m with jobs := m.jobs.filter fun j => !(j.owner == owner && j.slot == slot) }

/-- A slot that a new job gets is not held by one that the process has not waited for. -/
theorem slot_ne_freeSlot {m : Machine} {owner : Nat} {j : Job} (hj : j ∈ m.jobs)
    (hk : m.keepsSlot owner j = true) : j.slot ≠ m.freeSlot owner := by
  unfold freeSlot
  cases hf : ((List.range m.jobs.length).map (· + 1)).find? fun slot =>
      m.jobs.all fun j => !(m.keepsSlot owner j && j.slot == slot) with
  | none => exact Nat.ne_of_lt (slot_lt_slotAbove hj)
  | some slot =>
    have hall := List.find?_some hf
    have := List.all_eq_true.1 hall j hj
    simp_all

end Machine

namespace Process

/-- The jobs of a process, the current one first. -/
def jobs (p : Process) : List Job := p.machine.jobs.filter (·.owner == p.self)

end Process

/-- The job that a word with a percent sign means, or what is told where there is none. -/
def jobOf (p : Process) (word : List Char) : Except (List Char) Job :=
  let first (message : String) (jobs : List Job) : Except (List Char) Job :=
    match jobs with
    | j :: _ => .ok j
    | [] => .error message.toList
  let unknown : Except (List Char) Job := .error ("No such job: ".toList ++ word)
  match word with
  | '%' :: rest =>
    match String.ofList rest with
    | "" => first "No current job" p.jobs
    | "%" => first "No current job" p.jobs
    | "+" => first "No current job" p.jobs
    | "-" => first "No previous job" (p.jobs.drop 1)
    | _ =>
      match (count? rest).bind fun n => p.jobs.find? (·.slot == n) with
      | some j => .ok j
      | none => unknown
  | _ => unknown

/-- The job that a word with a percent sign means. -/
def requireJob (word : List Char) : Run Job := do
  match jobOf (← get) word with
  | .ok j => return j
  | .error message => fail message

/-! ### Lists -/

/-- The words for the state of a job. -/
def stateWords (m : Machine) (j : Job) : List Char :=
  if !m.isOver j then "Running".toList
  else match j.signal with
    | some 2 => "Interrupt".toList
    | some 13 => "Broken pipe".toList
    | some n => ((deathWords n).getD "").toList
    | none =>
      if j.status = 0 then "Done".toList else "Done(".toList ++ decimal j.status ++ [')']

/-- The line about a job. -/
def jobLine (p : Process) (withNumber : Bool) (j : Job) : List Char :=
  let isAt (jobs : List Job) : Bool := (jobs.head?).any (·.number == j.number)
  let mark := if isAt p.jobs then '+' else if isAt (p.jobs.drop 1) then '-' else ' '
  let front := '[' :: decimal j.slot ++ [']', ' ', mark, ' ']
  let number := if withNumber then decimal j.number ++ [' '] else []
  let text := front ++ number ++ stateWords p.machine j
  text ++ List.replicate (max 1 (33 - text.length)) ' ' ++ ['\n']

/-- Tells about a job, which is forgotten then if it has ended. -/
def tellJob (u : Usage) (j : Job) : Run Nat := do
  let p ← get
  let status ← put (if u.has 'p' then decimal j.number ++ ['\n'] else jobLine p (u.has 'l') j)
  onMachine fun m =>
    { m with jobs := m.jobs.filter fun k => !(m.isOver k && k.number == j.number) }
  return status

/-- Lists jobs. -/
def listJobs (words : List (List Char)) : Run Nat := do
  let u ← usage "lp" "" words
  let jobs ← if u.operands.isEmpty then pure (← get).jobs else u.operands.mapM requireJob
  let statuses ← jobs.mapM (tellJob u)
  return statuses.foldl max 0

/-- Refuses to go on with a job in another way than it was started. -/
def continueJob (words : List (List Char)) : Run Nat := do
  let u ← usage "" "" words
  let word := u.operands.head?
  let _ ← requireJob (word.getD ['%'])
  fail ("job ".toList ++ word.getD "(null)".toList ++ " not created under job control".toList)

/-! ### Signals -/

/-- What is told about a wrong use of `kill`. -/
def killUsage : List Char :=
  ("Usage: kill [-s sigspec | -signum | -sigspec] [pid | job]... or\n"
    ++ "kill -l [exitstatus]").toList

/-- Names signals. -/
def nameSignals (words : List (List Char)) : Run Nat := do
  match words with
  | [] => put ("0\n".toList ++ (signalNames.drop 1).flatMap fun n => n.toList ++ ['\n'])
  | w :: _ =>
    let n ← requireCount w
    let n := if 128 < n then n - 128 else n
    if 0 < n ∧ n < signalLimit then put (signalName n ++ ['\n'])
    else fail ("invalid signal number or exit status: ".toList ++ w)

/-- Sends a signal to processes by their numbers. There are no groups of processes, which a job or a
number with a dash would mean. -/
def sendAll (n : Nat) (targets : List (List Char)) : Run Nat := do
  if targets.isEmpty then fail killUsage
  let mut status := 0
  for target in targets do
    let found ← match target with
      | '%' :: _ => do
        let _ ← requireJob target
        pure false
      | '-' :: rest => do
        let _ ← requireCount rest
        pure false
      | target => do send (← requireCount target) n
    if !found then
      warn "No such process\n".toList
      status := 1
  return status

/-- Sends a signal, or names signals. -/
def kill (words : List (List Char)) : Run Nat := do
  match words with
  | ('-' :: letters) :: rest =>
    match signal? 1 letters with
    | some n => sendAll n rest
    | none =>
      if letters = ['0'] then sendAll 0 rest
      else
        let u ← usage "l" "s" words
        if u.has 'l' then nameSignals u.operands
        else match u.options.find? (·.1 == 's') with
          | some (_, name) =>
            match signal? 0 name with
            | some n => sendAll n u.operands
            | none => fail ("invalid signal number or name: ".toList ++ name)
          | none => sendAll 15 u.operands
  | words => sendAll 15 words

/-! ### Waiting -/

/-- Lets time pass up to a moment, or up to a signal that something is done on, which is the value
then; at most `fuel` other signals come. -/
def waitUntil (moment : Nat) : (fuel : Nat) → Run (Option Nat)
  | 0 => return none
  | fuel + 1 => do
    let p ← get
    let mine := p.machine.sent.filter fun s => s.target == p.self && s.time ≤ moment
    let passTo (t : Nat) : Run Unit := do
      if p.machine.elapsed < t then pass (t - p.machine.elapsed)
    match mine.mergeSort fun a b => a.time ≤ b.time with
    | [] =>
      passTo moment
      return none
    | s :: _ =>
      passTo s.time
      receiveSent
      match (← get).signals with
      | n :: _ => return some n
      | [] => waitUntil moment fuel

/-- Notes that a process has waited for jobs. -/
def markWaited (isMeant : Job → Bool) : Run Unit :=
  onMachine fun m =>
    { m with jobs := m.jobs.map fun j => if isMeant j then { j with waited := true } else j }

/-- Waits for a job: its status, or that of the signal that ends the waiting. -/
def waitFor (j : Job) : Run Nat := do
  match ← waitUntil j.finish ((← get).machine.sent.length + 1) with
  | some n => return 128 + n
  | none =>
    markWaited (·.number == j.number)
    match j.signal with
    | some n => collect (.killed n)
    | none => return j.status

/-- Waits for all jobs. -/
def waitForAll : Run Nat := do
  let p ← get
  let moment := p.jobs.foldl (fun t j => max t j.finish) 0
  match ← waitUntil moment (p.machine.sent.length + 1) with
  | some n => return 128 + n
  | none =>
    markWaited (·.owner == p.self)
    return 0

/-- Waits for jobs. -/
def wait (words : List (List Char)) : Run Nat := do
  let u ← usage "" "" words
  if u.operands.isEmpty then waitForAll
  else
    let mut status := 0
    for word in u.operands do
      match word with
      | '%' :: _ => status ← waitFor (← requireJob word)
      | word =>
        let n ← requireCount word
        match (← get).jobs.find? (·.number == n) with
        | some j => status ← waitFor j
        | none => status := 127
    return status

end Conductor.Shell
