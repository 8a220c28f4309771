import Conductor.Output.Meaning
import Conductor.Signal

/-!
# Behaviors and verdicts

What a step may do besides handing on to the next one, and how its output and its signal decide it.
A checkpoint stops the workflow and comes before everything else; a loop that repeats comes before a
trigger. Main statement: a verdict never asks for two of stop, repeat and trigger.
-/

namespace Conductor

open Text Output

/-- Steps back by a positive number of positions when the output ends with the trigger word. -/
structure LoopBehavior where
  stepsBack : Nat
  trigger : String
  maxIterations : Option Nat
  skip : List String
  stepsBack_pos : 0 < stepsBack
  maxIterations_pos : ∀ m, maxIterations = some m → 0 < m
  deriving Repr, DecidableEq

instance : Inhabited LoopBehavior :=
  ⟨⟨1, "", none, [], Nat.one_pos, fun _ h => nomatch h⟩⟩

/-- Why numbers make no loop. -/
inductive LoopError where
  | stepsBack (n : Int)
  | maxIterations (n : Int)
  deriving DecidableEq, Repr

/-- Which number is wrong. -/
def LoopError.message : LoopError → String
  | stepsBack n => s!"steps_back must be positive, got {n}"
  | maxIterations n => s!"max_iterations must be positive, got {n}"

namespace LoopBehavior

theorem toNat_pos {n : Int} (h : 0 < n) : 0 < n.toNat := by omega

theorem pos_of_some_toNat {n : Int} (h : 0 < n) (k : Nat) (hk : some n.toNat = some k) : 0 < k :=
  Option.some.inj hk ▸ toNat_pos h

/-- The loop of two numbers, both of which must be positive. -/
def ofNumbers (stepsBack : Int) (trigger : String) (maxIterations : Option Int)
    (skip : List String) : Except LoopError LoopBehavior :=
  if hs : 0 < stepsBack then
    match maxIterations with
    | none => .ok ⟨stepsBack.toNat, trigger, none, skip, toNat_pos hs, fun _ h => nomatch h⟩
    | some m =>
      if hm : 0 < m then
        .ok ⟨stepsBack.toNat, trigger, some m.toNat, skip, toNat_pos hs, pos_of_some_toNat hm⟩
      else .error (.maxIterations m)
  else .error (.stepsBack stepsBack)

/-- Whether the loop can ever repeat: its trigger word is not blank. -/
def isActive (l : LoopBehavior) : Bool := !isBlankText l.trigger

end LoopBehavior

/-- What a step may do besides handing on. -/
inductive Behavior where
  | loop (l : LoopBehavior)
  | trigger (target : Option String)
  deriving Repr, DecidableEq, Inhabited

/-- The decision of a loop step. -/
structure LoopDecision where
  repeats : Bool
  stepsBack : Int
  skip : List String
  reason : Option String
  limitReached : Bool
  deriving DecidableEq, Repr, Inhabited

/-- The decision to run another step. -/
structure TriggerDecision where
  target : String
  reason : Option String
  deriving DecidableEq, Repr, Inhabited

/-- What follows from a step: a stop with an optional reason, a loop's decision, a trigger. -/
structure Verdict where
  checkpoint : Option (Option String) := none
  loop : Option LoopDecision := none
  trigger : Option TriggerDecision := none
  deriving DecidableEq, Repr, Inhabited

/-- The reason of a stop, if the signal asks for one. -/
def checkpointDecision (signal : Option Signal) : Option (Option String) :=
  match signal with
  | some s => if s.action = .checkpoint then some s.reason else none
  | none => none

/-- Whether the signal is of an action. -/
def asksFor (signal : Option Signal) (action : Action) : Bool :=
  match signal with
  | some s => s.action == action
  | none => false

/-- The decision of an active loop step after `iterations` repetitions. -/
def loopDecision (behavior : Option Behavior) (output : String) (iterations : Int)
    (signal : Option Signal) : Option LoopDecision :=
  match behavior with
  | some (.loop l) =>
    if !l.isActive then none
    else if asksFor signal .stop then
      some ⟨false, l.stepsBack, l.skip,
        some ((signal.bind (·.reason)).getD "loop stopped by agent"), false⟩
    else
      let signalled := asksFor signal .loop
      if !(finalToken? output == some l.trigger || signalled) then
        some ⟨false, l.stepsBack, l.skip, none, false⟩
      else
        let ended := match l.maxIterations with
          | some m => decide (iterations + 1 > m)
          | none => false
        if ended then
          some ⟨false, l.stepsBack, l.skip,
            some s!"loop limit reached ({l.maxIterations.getD 0})", true⟩
        else
          some ⟨true, l.stepsBack, l.skip,
            if signalled then signal.bind (·.reason) else none, false⟩
  | _ => none

/-- The target that a text names, if it is not empty. -/
def filledTarget (target : Option String) : Option String :=
  match target with
  | some t => if t.isEmpty then none else some t
  | none => none

/-- The decision of a trigger step, and whether a signal asked for one without any target. -/
def triggerDecision (behavior : Option Behavior) (signal : Option Signal) :
    Option TriggerDecision × Bool :=
  match behavior, signal with
  | some (.trigger own), some s =>
    if s.action ≠ .trigger then (none, false)
    else match filledTarget s.target with
      | some t => (some ⟨t, s.reason⟩, false)
      | none =>
        match filledTarget own with
        | some t => (some ⟨t, s.reason⟩, false)
        | none => (none, true)
  | _, _ => (none, false)

/-- What follows from a step, and whether its trigger lacks a target. -/
def evaluate (behavior : Option Behavior) (output : String) (signal : Option Signal)
    (iterations : Int) : Verdict × Bool :=
  match checkpointDecision signal with
  | some reason => ({ checkpoint := some reason }, false)
  | none =>
    let loop := loopDecision behavior output iterations signal
    if loop.any (·.repeats) then ({ loop := loop }, false)
    else
      let (trigger, lacksTarget) := triggerDecision behavior signal
      ({ loop := loop, trigger := trigger }, lacksTarget)

/-- A verdict never asks for two of a stop, a repetition and another step. -/
theorem evaluate_exclusive (behavior : Option Behavior) (output : String) (signal : Option Signal)
    (iterations : Int) :
    let v := (evaluate behavior output signal iterations).1
    (v.checkpoint.isSome → v.loop = none ∧ v.trigger = none) ∧
      (v.loop.any (·.repeats) → v.trigger = none) := by
  unfold evaluate
  split
  · simp
  · dsimp only
    split
    · simp
    · next h => simp [h]

/-- What a trigger without a target is reported with. -/
def lacksTargetMessage : String :=
  "Trigger signalled without a target step id in the signal or the step configuration"

end Conductor
