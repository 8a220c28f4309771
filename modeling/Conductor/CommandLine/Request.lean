import Conductor.CommandLine.Options
import Conductor.Path

/-!
# Requests

What a command line asks for: to run a template, a script or a single step, or to forget the
progress of a working directory. Every request names a working directory, and all but the last may
name a catalog. Main statement: an empty command line asks for nothing.
-/

namespace Conductor.CommandLine

open Text

/-- What is to be done. -/
inductive Task where
  | run (template : Path) (fresh : Bool)
  | orchestrate (script : String)
  | step (agentId : String) (model effort : Option String)
  | reset
  deriving DecidableEq, Repr, Inhabited

/-- What a command line asks for. -/
structure Request where
  task : Task
  dir : Path
  catalog : Option Path := none
  deriving DecidableEq, Repr, Inhabited

/-- The name of the program. -/
def program : String := "orchestrator"

/-- The name and version that the program tells. -/
def versionText : String := "step-orchestrator 0.1.0"

/-- The option that shows help. -/
def helpOption : Opt := { names := ["-h", "--help"], kind := .help }

/-- An option that takes a value. -/
def valueOption (name : String) : Opt := { names := [name], kind := .value [] }

/-- The commands with the options and the argument of each. -/
def commands : List (String × Grammar) :=
  [("run", {
      program := "orchestrator run"
      options := [helpOption, { valueOption "--template" with isRequired := true },
        { names := ["--fresh"], kind := .flag }, valueOption "--dir", valueOption "--catalog"] }),
    ("orchestrate", {
      program := "orchestrator orchestrate"
      options := [helpOption, valueOption "--dir", valueOption "--catalog"]
      positional := some (.word "script") }),
    ("step", {
      program := "orchestrator step"
      options := [helpOption, valueOption "--model",
        { names := ["--reasoning"], kind := .value ["low", "medium", "high"] },
        valueOption "--dir", valueOption "--catalog"]
      positional := some (.word "agent_id") }),
    ("reset", { program := "orchestrator reset", options := [helpOption, valueOption "--dir"] })]

/-- What stands in front of a command. -/
def grammar : Grammar where
  program := program
  options := [helpOption, { names := ["--version"], kind := .version }]
  positional := some (.command "command" (commands.map (·.1)))

/-- How all command lines are written. -/
def usage : List String := (grammar :: commands.map (·.2)).map Grammar.usage

/-- The task of a command. -/
def taskOf (command : String) (given : Given) : Task :=
  let word := (given.words.getD []).headD ""
  match command with
  | "run" => .run (Path.ofString ((given.value? "--template").getD "")) (given.has "--fresh")
  | "orchestrate" => .orchestrate word
  | "step" => .step word (given.value? "--model") (given.value? "--reasoning")
  | _ => .reset

/-- The request of a command. An empty name of a catalog names none. -/
def requestOf (command : String) (given : Given) : Request where
  task := taskOf command given
  dir := Path.ofString ((given.value? "--dir").getD ".")
  catalog := match given.value? "--catalog" with
    | some name => if name.isEmpty then none else some (Path.ofString name)
    | none => none

/-- Reads what a command line asks for. -/
def read (words : List String) : Except Refusal Request := do
  let front ← grammar.read words
  let command := (front.words.getD []).headD ""
  match commands.find? (·.1 == command) with
  | none =>
    throw (.wrong program (s!"argument command: invalid choice: {quoted command} "
      ++ s!"(choose from {choicesText (commands.map (·.1))})"))
  | some (_, g) =>
    let given ← g.read ((front.words.getD []).drop 1)
    let unknown := front.unknown ++ given.unknown
    if unknown.isEmpty then return requestOf command given
    else throw (.wrong program ("unrecognized arguments: " ++ " ".intercalate unknown))

/-- An empty command line asks for nothing. -/
theorem read_nil :
    read [] = .error (.wrong program "the following arguments are required: command") := by
  rfl

end Conductor.CommandLine
