import Conductor.Catalog.File
import Conductor.Run.Script
import Conductor.Run.Workflow
import Conductor.Settings.Basic
import Conductor.Template.File

/-!
# Sessions

A session runs workflows, scripts and single steps with one engine and one set of settings. It loads
the catalog when it first needs it and keeps it from then on. Whatever is given is read and checked
before anything is run or recorded. Main statement: a session that starts has seen no signal and has
no catalog but the one it was given.
-/

namespace Conductor

open Text

/-- How a session runs. -/
structure Session where
  settings : Settings
  engine : Engine
  signals : SignalWay
  /-- A catalog given in place of the one in the file. -/
  catalog : Option Catalog := none
  schedule : Nat → List Nat := fun _ => []

namespace Session

/-- A session that takes signals from the file below the state directory. -/
def ofSettings (settings : Settings) (engine : Engine) : Session :=
  { settings := settings, engine := engine, signals := .file settings.stateDir }

/-- The world as a new session finds it. -/
def openWorld (s : Session) (w : World) : World :=
  { w with catalog := s.catalog, mailbox := { w.mailbox with seen := [] } }

/-- Starts a session. -/
def start (s : Session) : Act Unit := modify s.openWorld

/-- Runs an action with no catalog at hand but the one that was given; the one that was at hand is
kept for afterwards. -/
def apart {α : Type} (s : Session) (a : Act α) : Act α := do
  let kept := (← get).catalog
  modify fun w => { w with catalog := s.catalog }
  let result ← Act.attempt a
  modify fun w => { w with catalog := kept }
  Act.lift result

/-- The catalog, loaded where it is not yet at hand. -/
def needCatalog (s : Session) : Act Catalog := do
  match (← get).catalog with
  | some c => return c
  | none =>
    let c ← Catalog.load s.settings.catalogPath
    modify fun w => { w with catalog := some c }
    return c

/-- The record that there is no catalog. -/
def noCatalogRecord (path : Path) : Record :=
  { level := .info, source := .session,
    message := s!"No agent catalog at {path.toString}; running without one" }

/-- The catalog, or none where there is no file of one. -/
def findCatalog (s : Session) : Act (Option Catalog) := do
  let path := s.settings.catalogPath
  if (← get).catalog.isSome then return some (← s.needCatalog)
  else if ← Act.holds path then return some (← s.needCatalog)
  else
    Act.note [noCatalogRecord path]
    return none

/-- What the calls in a working directory share. -/
def shop (s : Session) (dir : Path) (catalog : Option Catalog) : Workshop :=
  { engine := s.engine, dir := dir, stateDir := s.settings.stateDir, catalog := catalog,
    registry := some (s.settings.registryFile dir), timeout := s.settings.limit? }

/-- The workflow of some steps in a working directory. -/
def workflow (s : Session) (dir : Path) (catalog : Catalog) (steps : List Step) : Workflow :=
  { steps := steps, shop := s.shop dir (some catalog), signals := s.signals,
    tracking := some (s.settings.trackingFile dir), catalog := some catalog,
    debugLoops := s.settings.debugLoops }

/-- Makes the template the active one, and forgets its progress where a fresh run is asked for. -/
def enterTemplate (s : Session) (dir : Path) (name : String) (fresh : Bool) : Act Unit := do
  let file := s.settings.trackingFile dir
  Progress.setActiveTemplate file name
  if fresh then Progress.clear file

/-- Runs a template. -/
def runTemplate (s : Session) (dir : Path) (t : Template) (fresh : Bool := false) :
    Act Outcome := do
  let catalog ← s.needCatalog
  let steps ← t.toSteps catalog
  s.enterTemplate dir t.name fresh
  Act.note [{ level := .info, source := .session,
              message := s!"Starting workflow {quoted t.name}" }]
  (s.workflow dir catalog steps).run

/-- Runs the template in a file. -/
def runTemplateFile (s : Session) (dir path : Path) (fresh : Bool := false) : Act Outcome := do
  s.runTemplate dir (← Template.load path) fresh

/-- Runs a script. -/
def runScript (s : Session) (dir : Path) (text : String) : Act Script.Result := do
  let catalog ← s.findCatalog
  Script.run { shop := s.shop dir catalog, workers := s.settings.maxParallel,
               schedule := s.schedule } text

/-- The overrides of a single step. -/
def stepOverrides (model effort : Option String) : Except Fault Overrides :=
  match Overrides.check (.obj [("model", .ofOption model),
      ("modelReasoningEffort", .ofOption effort)]) with
  | .ok o => .ok o
  | .bad issues => .error (.invalid "StepOverrides" issues)

/-- Runs a single agent of the catalog as a step. -/
def runStep (s : Session) (dir : Path) (agentId : String) (model effort : Option String) :
    Act String := do
  let overrides ← Act.lift (stepOverrides model effort)
  let catalog ← s.needCatalog
  Act.note (catalog.resolveRecords .agent agentId overrides)
  let step ← Act.lift ((catalog.resolve .agent agentId overrides).mapError .resolve)
  (s.shop dir (some catalog)).execute step step.agentId none

/-- Forgets the progress in a working directory. -/
def reset (s : Session) (dir : Path) : Act Unit := Progress.clear (s.settings.trackingFile dir)

theorem seen_openWorld (s : Session) (w : World) : (s.openWorld w).mailbox.seen = [] := rfl

theorem catalog_openWorld (s : Session) (w : World) : (s.openWorld w).catalog = s.catalog := rfl

end Session

end Conductor
