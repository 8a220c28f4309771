import Conductor.Text.Quoted

/-!
# Script plans

What a script asks for: stages in order, and in each stage tasks that may run side by side.
-/

namespace Conductor.Script

open Text

/-- A named task with its request, the files put before it and how much of its output to keep. -/
structure Task where
  name : String
  argument : String := ""
  inputFiles : List String := []
  tail : Option Nat := none
  deriving DecidableEq, Repr, Inhabited

/-- Tasks that may run side by side. -/
abbrev Stage := List Task

/-- Stages in order. -/
abbrev Plan := List Stage

/-- All tasks of a plan in order. -/
def Plan.tasks (p : Plan) : List Task := p.flatten

/-- What makes a script malformed. -/
inductive SyntaxFault where
  | emptyScript
  | emptyStage
  | emptyTask
  | unterminatedQuote
  | unterminatedOptions
  | missingName
  | invalidTask (text : String)
  | textAfterArgument
  | invalidOption (text : String)
  | unknownOption (key : String)
  | invalidTail (value : String)
  deriving DecidableEq, Repr

/-- What is wrong with the script, without the place. -/
def SyntaxFault.message : SyntaxFault → String
  | emptyScript => "Script is empty"
  | emptyStage => "Empty stage"
  | emptyTask => "Empty task"
  | unterminatedQuote => "Unterminated quoted argument"
  | unterminatedOptions => "Unterminated option list"
  | missingName => "Task name is missing"
  | invalidTask text =>
    s!"Invalid task {quoted text}; expected: name 'prompt' or name[options] 'prompt'"
  | textAfterArgument => "Unexpected text after quoted argument"
  | invalidOption text => s!"Invalid option {quoted text}; expected key:value"
  | unknownOption key => s!"Unknown option {quoted key}; expected input, tail or prompt"
  | invalidTail value => s!"tail must be an integer, got {quoted value}"

/-- A fault and the offset it is reported at. -/
structure SyntaxError where
  fault : SyntaxFault
  position : Option Nat
  deriving DecidableEq, Repr

/-- What is wrong with the script and where. -/
def SyntaxError.message (e : SyntaxError) : String :=
  match e.position with
  | none => e.fault.message
  | some p => s!"{e.fault.message} (at offset {p})"

end Conductor.Script
