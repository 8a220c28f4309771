import Conductor.Json.Basic
import Conductor.Text.Case
import Conductor.Text.Quoted
import Conductor.Text.Blank

/-!
# Behavior signals

What an agent asks of the workflow beside its output: an action with an optional reason and an
optional target. A signal is read from a JSON object and printed as one. Main statement: every
action is read back from its word.
-/

namespace Conductor

open Text

/-- What a signal asks for. -/
inductive Action where
  | loop
  | checkpoint
  | proceed
  | trigger
  | stop
  deriving DecidableEq, Repr, Inhabited

namespace Action

/-- The word for an action. -/
def word : Action → String
  | loop => "loop"
  | checkpoint => "checkpoint"
  | proceed => "continue"
  | trigger => "trigger"
  | stop => "stop"

/-- All actions. -/
def every : List Action := [loop, checkpoint, proceed, trigger, stop]

/-- The action of a word. -/
def ofWord? (s : String) : Option Action := every.find? (·.word == s)

theorem ofWord?_word (a : Action) : ofWord? a.word = some a := by
  cases a <;> decide

end Action

/-- A signal of an agent. -/
structure Signal where
  action : Action
  reason : Option String
  target : Option String
  deriving DecidableEq, Repr, Inhabited

/-- Why an object is no signal. -/
inductive SignalError where
  /-- There is no text that names an action. -/
  | noAction
  /-- The word names no action. -/
  | unknownAction (word : String)
  deriving DecidableEq, Repr

/-- What is wrong with the object. -/
def SignalError.message : SignalError → String
  | noAction => "behavior signal requires a string 'action'"
  | unknownAction word => s!"{quoted word} is not a valid SignalAction"

namespace Signal

/-- A member that is a text and not blank. -/
def filledText? : Option Json → Option String
  | some (.str s) => unlessBlank s
  | _ => none

/-- The signal that an object's members describe. The action may be padded and in any case; the
target goes by either of two names, the first of which wins even where it holds no target. -/
def ofMembers (members : List (String × Json)) : Except SignalError Signal :=
  match Json.member? members "action" with
  | some (.str s) =>
    let word := lower (trimmed s)
    match Action.ofWord? word with
    | none => .error (.unknownAction word)
    | some action =>
      let target := match Json.member? members "trigger_target_id" with
        | some v => some v
        | none => Json.member? members "triggerAgentId"
      .ok ⟨action, filledText? (Json.member? members "reason"), (filledText? target).map trimmed⟩
  | _ => .error .noAction

/-- The members that describe a signal. -/
def toMembers (s : Signal) : List (String × Json) :=
  ("action", .str s.action.word) ::
    ((s.reason.map fun r => ("reason", Json.str r)).toList
      ++ (s.target.map fun t => ("trigger_target_id", Json.str t)).toList)

end Signal

end Conductor
