import Conductor.Shell.Process

/-!
# Leaving off

A step of a running shell may leave off in the middle: a loop is left, a function returns, an error
or a signal ends the shell. What leaves off can be caught and taken up again. Main statement: to
take up what has been caught is the same as not to catch it.
-/

namespace Conductor.Shell

namespace Run

/-- Does something and tells how it left off. -/
def attempt {α : Type} (r : Run α) : Run (Except Flow α) :=
  ExceptT.mk do
    let result ← r.run
    return .ok result

/-- Leaves off as something did. -/
def settle {α : Type} (result : Except Flow α) : Run α := ExceptT.mk (pure result)

/-- To take up what has been caught is the same as not to catch it. -/
theorem attempt_settle {α : Type} (r : Run α) : (do settle (← attempt r)) = r := rfl

/-- Goes on step by step from a value, at most a number of times; no script takes longer. -/
def iterate {α : Type} (step : α → Run (α × Bool)) : (times : Nat) → α → Run α
  | 0, _ => throw .overdue
  | times + 1, a => do
    let (b, more) ← step a
    if more then iterate step times b else return b

/-- How many turns a loop may take. -/
def maxTurns : Nat := 300000

/-- Goes through values until a step says no. -/
def through {α : Type} (step : α → Run Bool) : List α → Run Unit
  | [] => return ()
  | a :: rest => do
    if ← step a then through step rest else return ()

/-- Does something within a loop: none if it went through, else whether the loop goes on. -/
def inLoop (r : Run Unit) : Run (Option Bool) := do
  match ← attempt r with
  | .ok () => return none
  | .error (.leave n) => if n ≤ 1 then return some false else throw (.leave (n - 1))
  | .error (.again n) => if n ≤ 1 then return some true else throw (.again (n - 1))
  | .error f => throw f

/-- Does something as a loop. -/
def asLoop (r : Run Unit) : Run Unit := do
  modify fun p => { p with loopDepth := p.loopDepth + 1 }
  let result ← attempt r
  modify fun p => { p with loopDepth := p.loopDepth - 1 }
  settle result

/-- Sets the status. -/
def finish (status : Nat) : Run Unit := modify fun p => { p with status := status }

/-- Ends the shell at a failure if it is to. -/
def checkFailure (tested : Bool) : Run Unit := do
  let p ← get
  if !tested && p.status != 0 && p.hasOption 'e' then throw .exit

/-- Marks the line of the current command. -/
def atLine (line : Nat) : Run Unit := modify fun p => { p with line := line }

end Run

end Conductor.Shell
