import Conductor.Template.Basic
import Conductor.Log.Record
import Conductor.Step

/-!
# Resolving templates

A step of a template becomes a step to run by taking every field from its overrides where they say
something, else from its catalog entry. What cannot be resolved is refused before any step runs.
-/

namespace Conductor

open Text Number

/-- Why a reference cannot be resolved. -/
inductive ResolveFault where
  /-- The catalog has no such entry. -/
  | unknown (kind reference : String)
  /-- Fields that must be given are not. -/
  | missing (reference : String) (fields : List String)
  deriving DecidableEq, Repr

/-- What is wrong with the reference. -/
def ResolveFault.message : ResolveFault → String
  | unknown kind reference => s!"Unknown {kind}: {reference}"
  | missing reference fields =>
    let names := ", ".intercalate fields
    s!"{reference} is missing required fields ({names})"

/-- The first text, unless it is absent or empty. -/
def orElseText (first second : Option String) : Option String :=
  match first with
  | some s => if s.isEmpty then second else some s
  | none => second

namespace Resolution

/-- The positive integer part of a number that may be absent. -/
def positiveFloor? (x : Option Binary64) : Option Nat := x.bind Binary64.positiveFloor?

theorem positiveFloor?_pos {x : Option Binary64} {n : Nat} (h : positiveFloor? x = some n) :
    0 < n := by
  unfold positiveFloor? at h
  cases x with
  | none => cases h
  | some b =>
    simp only [Option.bind_some] at h
    unfold Binary64.positiveFloor? at h
    split at h
    · split at h
      · next hp => cases h; exact hp
      · cases h
    · cases h

/-- How far a loop steps back: the positive integer part, else one. -/
def stepsBack (x : Option Binary64) : Nat := (positiveFloor? x).getD 1

theorem stepsBack_pos (x : Option Binary64) : 0 < stepsBack x := by
  unfold stepsBack
  cases h : positiveFloor? x with
  | none => exact Nat.one_pos
  | some n => exact positiveFloor?_pos h

/-- How an entry is named in messages. -/
def reference (e : Entry) : String := s!"{e.kind.title} {e.id}"

/-- The behavior of an entry with overrides. A loop must name a trigger word, and with a blank one
it is no loop. -/
def behavior (e : Entry) (o : Overrides) : Except ResolveFault (Option Behavior) :=
  match e.behavior with
  | none => .ok none
  | some (.trigger target) => .ok (some (.trigger (orElseText o.triggerTarget target)))
  | some (.loop steps trigger maxIterations skip) =>
    match o.loopTrigger.or trigger with
    | none => .error (.missing s!"Module {e.id}" ["trigger"])
    | some word =>
      if isBlankText word then .ok none
      else .ok (some (.loop {
        stepsBack := stepsBack (o.loopSteps.or steps)
        trigger := word
        maxIterations := positiveFloor? (o.loopMaxIterations.or maxIterations)
        skip := o.loopSkip.getD skip
        stepsBack_pos := stepsBack_pos _
        maxIterations_pos := fun _ h => positiveFloor?_pos h }))

/-- Whether an entry's loop is given a blank trigger word. -/
def isInert (e : Entry) (o : Overrides) : Bool :=
  match e.behavior with
  | some (.loop _ trigger _ _) => (o.loopTrigger.or trigger).any isBlankText
  | _ => false

/-- The record of a loop with a blank trigger word. -/
def inertRecord (e : Entry) : Record :=
  { level := .debug, source := .templates,
    message := "Loop behavior has a blank trigger; treating it as inert",
    details := [("step", .str s!"Module {e.id}")] }

/-- The step of an entry with overrides and a behavior. Name and prompt path must not be blank. -/
def build (e : Entry) (o : Overrides) (b : Option Behavior) : Except ResolveFault Step :=
  let name := orElseText o.agentName e.name
  let promptPath := orElseText o.promptPath e.promptPath
  let missing := (if isFilled name then [] else ["name"])
    ++ (if isFilled promptPath then [] else ["promptPath"])
  match missing, name, promptPath with
  | [], some name, some promptPath =>
    .ok { agentId := e.id, agentName := name, promptPath := promptPath,
          model := orElseText o.model e.model,
          reasoningEffort := (o.effort.or e.effort).map Effort.word,
          engine := orElseText o.engine e.engine,
          moduleId := if e.kind = .module then some e.id else none,
          behavior := b, executeOnce := o.executeOnce, fallback := o.fallback,
          tolerant := o.tolerant, scaffold := o.scaffold }
  | missing, _, _ => .error (.missing (reference e) missing)

/-- The entry of a kind and id. -/
def lookUp (c : Catalog) (kind : EntryKind) (id : String) : Except ResolveFault Entry :=
  match c.find? kind id with
  | some e => .ok e
  | none => .error (.unknown kind.word id)

/-- The step of an entry with overrides; only a module has a behavior. -/
def ofEntry (e : Entry) (o : Overrides) : Except ResolveFault Step := do
  let b ← if e.kind = .module then behavior e o else .ok none
  build e o b

end Resolution

open Resolution

/-- The step of a kind and id with overrides. -/
def Catalog.resolve (c : Catalog) (kind : EntryKind) (id : String) (o : Overrides) :
    Except ResolveFault Step := do
  let e ← lookUp c kind id
  ofEntry e o

/-- What is noted while a reference is resolved. -/
def Catalog.resolveRecords (c : Catalog) (kind : EntryKind) (id : String) (o : Overrides) :
    List Record :=
  match c.find? kind id with
  | some e => if isInert e o then [inertRecord e] else []
  | none => []

/-- The step of an id, an agent's if there is one, else a module's. -/
def Catalog.resolveAny (c : Catalog) (id : String) : Except ResolveFault Step :=
  match c.findAny? id with
  | some e => ofEntry e {}
  | none => .error (.unknown "agent" id)

/-- What is noted while an id is resolved. -/
def Catalog.resolveAnyRecords (c : Catalog) (id : String) : List Record :=
  match c.findAny? id with
  | some e => if isInert e {} then [inertRecord e] else []
  | none => []

/-- The step of a declaration. -/
def Declaration.resolve (c : Catalog) (d : Declaration) : Except ResolveFault Step :=
  c.resolve d.kind d.id d.overrides

/-- The steps of a template in order. The agents it may hand off to must be in the catalog. -/
def Template.resolve (c : Catalog) (t : Template) : Except ResolveFault (List Step) := do
  let steps ← t.steps.mapM (Declaration.resolve c)
  t.subAgentIds.forM fun id => do
    let _ ← lookUp c .agent id
  return steps

/-- What is noted while declarations are resolved, up to the first one that cannot be. -/
def resolveRecords (c : Catalog) : List Declaration → List Record
  | [] => []
  | d :: ds =>
    c.resolveRecords d.kind d.id d.overrides ++
      match d.resolve c with
      | .ok _ => resolveRecords c ds
      | .error _ => []

end Conductor
