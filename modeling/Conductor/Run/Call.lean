import Conductor.Run.Engine
import Conductor.State.Registry

/-!
# Agent calls

An agent call is prepared, begun, answered and finished. Preparing reads what the prompt needs;
beginning refuses where the run has been cancelled, else records the call; answering is the engine's
part; finishing records how it ended. A call of a workflow step and a task of a script differ only
in how they are prepared.
-/

namespace Conductor

open Text

/-- Reads the prompt template that a name stands for, seen from a working directory. -/
abbrev PromptLoader := World → Path → String → Except ReadFault String

/-- The loader that reads files. -/
def Prompt.fromFile : PromptLoader := fun w dir name =>
  w.store.readText w.cwd (dir / Path.ofString name)

/-- Everything that agent calls share. -/
structure Workshop where
  engine : Engine
  dir : Path
  stateDir : Path
  catalog : Option Catalog := none
  loader : PromptLoader := Prompt.fromFile
  registry : Option Path := none
  timeout : Option Number.Binary64 := none

/-- An agent call, ready to be made. -/
structure Call where
  invocation : Invocation
  displayName : String
  identity : String
  parentId : Option String := none
  deriving Repr, Inhabited, DecidableEq

/-- The text, or another one where it is empty. -/
def textOr (s absent : String) : String := if s.isEmpty then absent else s

namespace Workshop

/-- The directories that a step which builds agents finds below the state directory. -/
def scaffoldNames : List String := ["agents", "plan"]

/-- Makes sure that the scaffold directories are there. -/
def ensureScaffold (shop : Workshop) : Act Unit :=
  scaffoldNames.forM fun name =>
    Act.ensureDirectory ((shop.dir / shop.stateDir).child name)

/-- Reads a prompt template; what cannot be read fails the call. -/
def loadTemplate (shop : Workshop) (name : String) (failure : String → CallFailure) :
    Act String := do
  match shop.loader (← get) shop.dir name with
  | .ok text => return text
  | .error .nul => throw (.read .nul)
  | .error e => throw (.failed (failure e.message))

/-- Prepares the call of a step. -/
def prepareStep (shop : Workshop) (step : Step) (identity : String) (parentId : Option String) :
    Act Call := do
  if step.isScaffold then shop.ensureScaffold
  let prompt ← shop.loadTemplate step.promptPath fun reason =>
    { message := s!"Failed to load prompt for {step.agentName}: {reason}",
      agentId := some step.agentId }
  return {
    invocation := { agentId := step.agentId, prompt := prompt, workingDir := shop.dir,
                    model := step.model, effort := step.reasoningEffort, engine := step.engine,
                    timeout := shop.timeout }
    displayName := step.agentName
    identity := textOr identity step.agentId
    parentId := parentId }

/-- The template of a catalog entry, empty where it has none. -/
def taskTemplate (shop : Workshop) (name : String) (entry : Option Entry) : Act String :=
  match orElseText (entry.bind (·.promptPath)) none with
  | none => pure ""
  | some path => shop.loadTemplate path fun reason =>
      { message := s!"Failed to load prompt template for {name}: {reason}", agentId := some name }

/-- Prepares the call of a task: an entry of its name in the catalog gives the model settings and
the template. -/
def prepareTask (shop : Workshop) (name request : String) (inputFiles : List String)
    (identity : String) (parentId : Option String) : Act Call := do
  let entry := shop.catalog.bind (·.findAny? name)
  let template ← shop.taskTemplate name entry
  let inputs ← Prompt.inputSections shop.dir inputFiles
  return {
    invocation := { agentId := name, prompt := Prompt.compose inputs template request,
                    workingDir := shop.dir, model := entry.bind (·.model),
                    effort := (entry.bind (·.effort)).map Effort.word,
                    engine := entry.bind (·.engine), timeout := shop.timeout }
    displayName := (orElseText (entry.bind (·.name)) none).getD name
    identity := textOr identity name
    parentId := parentId }

/-- Begins a call, unless the run has been cancelled, and yields the id of its record. -/
def enter (shop : Workshop) (call : Call) : Act (Option String) := do
  -- A call that is refused leaves no record.
  if (← get).cancelled then
    throw (.cancelled { message := s!"{call.displayName} not started: run cancelled",
                        agentId := some call.invocation.agentId })
  let runId ← match shop.registry with
    | none => pure none
    | some path => do
      let r ← Registry.start path call.identity call.displayName call.parentId
      pure (some r.runId)
  Act.note [{ level := .info, source := .execution,
              message := s!"{call.displayName} started to work.",
              details := [("agent", .str call.identity)] }]
  modify fun w => { w with calls := w.calls.push call.invocation }
  return runId

/-- Lets the engine answer a call that has begun. -/
def answer (shop : Workshop) (call : Call) : Act (Except Fault String) := do
  let w ← get
  let reply := shop.engine w call.invocation
  set (w.receive call.identity reply)
  return reply.result

/-- How a result is recorded: the state of the run and the error. -/
def verdictOf : Except Fault String → RunState × Option String
  | .ok _ => (.completed, none)
  | .error (.cancelled f) => (.cancelled, some f.message)
  | .error (.failed f) => (.failed, some f.message)
  | .error f => (.failed, some (if f.isOwn then "orchestrator error" else f.message))

/-- What a result hands on: a failure that is none of the program's own fails the call. -/
def handOn (call : Call) : Except Fault String → Except Fault String
  | .ok text => .ok text
  | .error f =>
    if f.isOwn then .error f
    else .error (.failed { message := s!"{call.displayName} failed: {f.message}",
                           agentId := some call.invocation.agentId })

/-- Finishes a call that was answered. -/
def finish (shop : Workshop) (call : Call) (runId : Option String)
    (result : Except Fault String) : Act String := do
  match shop.registry, runId with
  | some path, some id =>
    let _ ← Registry.finish path id (verdictOf result).1 (verdictOf result).2
  | _, _ => pure ()
  let text ← Act.lift (handOn call result)
  Act.note [{ level := .info, source := .execution,
              message := s!"{call.displayName} has completed their work.",
              details := [("agent", .str call.identity)] }]
  return text

/-- Makes a call from beginning to end. -/
def perform (shop : Workshop) (call : Call) : Act String := do
  let runId ← shop.enter call
  let result ← shop.answer call
  shop.finish call runId result

/-- Executes a step under an identity. -/
def execute (shop : Workshop) (step : Step) (identity : String) (parentId : Option String) :
    Act String := do
  let call ← shop.prepareStep step identity parentId
  -- The agent may have removed the directories, so they are made sure of once more.
  let text ← shop.perform call
  if step.isScaffold then shop.ensureScaffold
  return text

/-- Runs a task from beginning to end. -/
def runTask (shop : Workshop) (name request : String) (inputFiles : List String)
    (identity : String) (parentId : Option String) : Act String := do
  let call ← shop.prepareTask name request inputFiles identity parentId
  shop.perform call

end Workshop

end Conductor
