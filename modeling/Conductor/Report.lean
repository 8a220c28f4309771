import Conductor.Cursor
import Conductor.Json.Members
import Conductor.Run.Script
import Conductor.Settings.Basic
import Conductor.State.Progress
import Conductor.Text.Order

/-!
# Reports

How the values of this library are shown as JSON: steps and catalog entries with all their fields,
decisions, outcomes and records. Sets are shown in order and numbers as their shortest texts.
-/

namespace Conductor

open Text Json

/-- A number's report. -/
def reportNumber (x : Option Number.Binary64) : Json := .ofNumber? Number.Binary64.shortest x

/-- A list of texts. -/
def reportTexts (xs : List String) : Json := .arr (xs.map .str)

/-- A list of integers. -/
def reportInts (ns : List Int) : Json := .arr (ns.map .int)

/-- An option's report. -/
def reportOption {α : Type} (report : α → Json) : Option α → Json
  | none => .null
  | some a => report a

/-- A behavior. -/
def Behavior.report : Behavior → Json
  | .loop l => .obj [("type", .str "loop"), ("steps_back", .int l.stepsBack),
      ("trigger", .str l.trigger), ("max_iterations", .ofNat? l.maxIterations),
      ("skip", reportTexts (sortedSet l.skip))]
  | .trigger t => .obj [("type", .str "trigger"), ("target_step_id", .ofOption t)]

/-- A step. -/
def Step.report (s : Step) : Json :=
  .obj [("agent_id", .str s.agentId), ("agent_name", .str s.agentName),
    ("prompt_path", .str s.promptPath), ("model", .ofOption s.model),
    ("model_reasoning_effort", .ofOption s.reasoningEffort), ("engine", .ofOption s.engine),
    ("module_id", .ofOption s.moduleId), ("execute_once", .bool s.executeOnce),
    ("not_completed_fallback", .ofOption s.fallback), ("tolerant", .bool s.tolerant),
    ("scaffold", .bool s.scaffold), ("behavior", reportOption Behavior.report s.behavior)]

/-- The behavior that a report's members show. -/
def Behavior.ofReport? : Option Members → Except LoopError (Option Behavior)
  | some ms =>
    if ms.text "type" = "loop" then
      (LoopBehavior.ofNumbers (ms.int "steps_back") (ms.text "trigger") (ms.int? "max_iterations")
        (ms.texts "skip")).map fun l => some (.loop l)
    else .ok (some (.trigger (ms.text? "target_step_id")))
  | none => .ok none

/-- The step that a report shows; only its agent id must be given. -/
def Step.ofReport (ms : Members) : Except LoopError Step :=
  (Behavior.ofReport? ((ms.given? "behavior").map membersOf)).map fun behavior =>
    { agentId := ms.text "agent_id", agentName := ms.text "agent_name" (ms.text "agent_id"),
      promptPath := ms.text "prompt_path" "p.md", model := ms.text? "model",
      reasoningEffort := ms.text? "model_reasoning_effort", engine := ms.text? "engine",
      moduleId := ms.text? "module_id", behavior := behavior,
      executeOnce := ms.flag "execute_once", fallback := ms.text? "not_completed_fallback",
      tolerant := ms.flag "tolerant", scaffold := ms.flag "scaffold" }

/-- A declared behavior. -/
def DeclaredBehavior.report : DeclaredBehavior → Json
  | .loop steps word maxIterations skip => .obj [("type", .str "loop"),
      ("action", .str "stepBack"), ("steps", reportNumber steps), ("trigger", .ofOption word),
      ("max_iterations", reportNumber maxIterations), ("skip", reportTexts skip)]
  | .trigger t => .obj [("type", .str "trigger"), ("action", .str "mainAgentCall"),
      ("trigger_agent_id", .ofOption t)]

/-- A catalog entry. -/
def Entry.report (e : Entry) : Json :=
  .obj [("id", .str e.id), ("kind", .str e.kind.word), ("name", .ofOption e.name),
    ("description", .ofOption e.description), ("prompt_path", .ofOption e.promptPath),
    ("model", .ofOption e.model), ("model_reasoning_effort", .ofOption (e.effort.map Effort.word)),
    ("engine", .ofOption e.engine), ("behavior", reportOption DeclaredBehavior.report e.behavior)]

/-- The overrides of a step. -/
def Overrides.report (o : Overrides) : Json :=
  .obj [("agent_name", .ofOption o.agentName), ("prompt_path", .ofOption o.promptPath),
    ("model", .ofOption o.model), ("model_reasoning_effort", .ofOption (o.effort.map Effort.word)),
    ("engine", .ofOption o.engine), ("execute_once", .bool o.executeOnce),
    ("not_completed_fallback", .ofOption o.fallback), ("tolerant", .bool o.tolerant),
    ("scaffold", .bool o.scaffold), ("loop_steps", reportNumber o.loopSteps),
    ("loop_trigger", .ofOption o.loopTrigger),
    ("loop_max_iterations", reportNumber o.loopMaxIterations),
    ("loop_skip", reportOption reportTexts o.loopSkip),
    ("trigger_agent_id", .ofOption o.triggerTarget)]

/-- A template. -/
def Template.report (t : Template) : Json :=
  .obj [("name", .str t.name), ("sub_agent_ids", reportTexts t.subAgentIds),
    ("steps", .arr (t.steps.map fun d => .obj [("type", .str d.kind.word), ("id", .str d.id),
      ("overrides", d.overrides.report)]))]

/-- The reason of a stop. -/
def reportStop (reason : Option String) : Json :=
  .obj [("should_stop", .bool true), ("reason", .ofOption reason)]

/-- The decision of a loop. -/
def LoopDecision.report (d : LoopDecision) : Json :=
  .obj [("should_repeat", .bool d.repeats), ("steps_back", .int d.stepsBack),
    ("skip", reportTexts (sortedSet d.skip)), ("reason", .ofOption d.reason),
    ("limit_reached", .bool d.limitReached)]

/-- The decision to run another step. -/
def TriggerDecision.report (d : TriggerDecision) : Json :=
  .obj [("should_trigger", .bool true), ("target_step_id", .str d.target),
    ("reason", .ofOption d.reason)]

/-- What follows from a step. -/
def Verdict.report (v : Verdict) : Json :=
  .obj [("checkpoint", reportOption reportStop v.checkpoint),
    ("loop", reportOption LoopDecision.report v.loop),
    ("trigger", reportOption TriggerDecision.report v.trigger)]

/-- A signal. -/
def Signal.report (s : Signal) : Json := .obj s.toMembers

/-- An outcome. -/
def Outcome.report (o : Outcome) : Json :=
  .obj [("status", .str o.status.word), ("reason", .ofOption o.reason),
    ("messages", reportTexts o.messages), ("ok", .bool o.ok)]

/-- The integers of a set in order. -/
def reportIntSet (ns : List Int) : Json := reportInts (Progress.sortedSet ns)

/-- A cursor. -/
def Cursor.report (c : Cursor) : Json :=
  .obj [("index", .int c.index), ("completed", reportIntSet c.completed),
    ("not_completed", reportIntSet c.notCompleted),
    ("loop_counters", .obj (c.counters.map fun (k, n) => (k, .int n))),
    ("active_loop", reportOption (fun h => .obj [("anchor_index", .int h.anchor),
      ("skip", reportTexts (sortedSet h.skip))]) c.hot),
    ("pending_triggers", reportTexts c.pending),
    ("in_flight", reportTexts (sortTexts c.inFlight))]

/-- A task of a plan. -/
def Script.Task.report (t : Script.Task) : Json :=
  .obj [("name", .str t.name), ("argument", .str t.argument),
    ("input_files", reportTexts t.inputFiles), ("tail", .ofNat? t.tail)]

/-- The result of a task. -/
def Script.TaskResult.report (r : Script.TaskResult) : Json :=
  .obj [("name", .str r.name), ("success", .bool r.success), ("output", .str r.output),
    ("error", .ofOption r.error), ("cancelled", .bool r.cancelled),
    ("tail_applied", .ofInt? r.tailApplied)]

/-- The results of a script, and the last one of each name. -/
def Script.Result.report (r : Script.Result) : Json :=
  .obj [("outcome", r.outcome.report), ("ok", .bool r.ok),
    ("results", .arr (r.results.map TaskResult.report)),
    ("completed", .obj (r.results.foldl (fun ms t => Json.put ms t.name t.report) []))]

/-- A table of texts. -/
def reportTable (t : List (String × String)) : Json := .obj (t.map fun (name, v) => (name, .str v))

/-- Settings. -/
def Settings.report (s : Settings) : Members :=
  let layout := (LogLayout.byWord.find? (·.2 == s.logLayout)).map (·.1)
  [("log_level", .str s.logLevel), ("log_format", .ofOption layout),
    ("state_dir", .str s.stateDir.toString), ("catalog_path", .str s.catalogPath.toString),
    ("agent_command", .str s.agentCommand), ("agent_model_flag", .str s.modelFlag),
    ("agent_reasoning_flag", .str s.effortFlag), ("agent_engines", reportTable s.engines),
    ("agent_timeout_seconds", reportNumber (some s.timeout)),
    ("agent_timeout", reportNumber s.limit?), ("max_parallel", .int s.maxParallel),
    ("debug_loops", .bool s.debugLoops)]

/-- How agents are called. -/
def AgentCommand.report (c : AgentCommand) : Json :=
  .obj [("command", .str c.template), ("model_flag", .ofOption c.modelFlag),
    ("reasoning_flag", .ofOption c.effortFlag), ("engines", reportTable c.engines)]

/-- The progress of a workflow. -/
def Progress.report (p : Progress) : Json :=
  .obj [("active_template", .str p.activeTemplate), ("completed_steps", reportInts p.completed),
    ("not_completed_steps", reportInts p.notCompleted), ("resume_from_last_step", .bool p.resume)]

/-- An agent call. -/
def Invocation.report (i : Invocation) : Json :=
  .obj [("agent_id", .str i.agentId), ("prompt", .str i.prompt), ("model", .ofOption i.model),
    ("reasoning_effort", .ofOption i.effort), ("engine", .ofOption i.engine),
    ("timeout", reportNumber i.timeout), ("working_dir", .str i.workingDir.toString)]

/-- A log record. -/
def Record.report (r : Record) : Json :=
  .obj ([("level", .str r.level.word), ("message", .str r.message)]
    ++ (if r.details.isEmpty then [] else [("extra", .obj r.details)]))

end Conductor
