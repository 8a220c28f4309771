import Conductor.Schema.Record
import Conductor.State.World
import Conductor.Json.Printer

/-!
# The registry of agent runs

Every agent call leaves a record: under which identity it ran, who started it, how and when it
ended. The records are kept in one file in the order of their starts. Main statements: a
finish fails iff its run has no record, and it neither adds nor loses one.
-/

namespace Conductor

open Schema

/-- How an agent run stands. -/
inductive RunState where
  | running
  | completed
  | failed
  | cancelled
  deriving DecidableEq, Repr, Inhabited

namespace RunState

/-- The word for a state. -/
def word : RunState → String
  | running => "running"
  | completed => "completed"
  | failed => "failed"
  | cancelled => "cancelled"

/-- The states by their words. -/
def byWord : List (String × RunState) :=
  [running, completed, failed, cancelled].map fun s => (s.word, s)

end RunState

/-- The record of an agent run. -/
structure RunRecord where
  runId : String
  agentId : String
  name : String
  state : RunState
  startedAt : String
  endedAt : Option String := none
  parentId : Option String := none
  error : Option String := none
  deriving DecidableEq, Repr, Inhabited

namespace RunRecord

/-- Checks a record. -/
def check : Json → Checked RunRecord :=
  Schema.record fun ms =>
    (fun runId agentId name state startedAt endedAt parentId error =>
      ⟨runId, agentId, name, state, startedAt, endedAt, parentId, error⟩)
      <$> field ms (.single "run_id") text
      <*> field ms (.single "agent_id") text
      <*> field ms (.single "name") text
      <*> field ms (.single "status") (oneOf .enumeration RunState.byWord)
      <*> field ms (.single "started_at") text
      <*> fieldOr ms (.single "ended_at") none (optional text)
      <*> fieldOr ms (.single "parent_id") none (optional text)
      <*> fieldOr ms (.single "error") none (optional text)

/-- The record as a value. -/
def toJson (r : RunRecord) : Json :=
  .obj [("run_id", .str r.runId), ("agent_id", .str r.agentId), ("name", .str r.name),
    ("status", .str r.state.word), ("started_at", .str r.startedAt),
    ("ended_at", .ofOption r.endedAt), ("parent_id", .ofOption r.parentId),
    ("error", .ofOption r.error)]

/-- The record of a run that has ended. -/
def ended (r : RunRecord) (state : RunState) (error : Option String) (time : String) : RunRecord :=
  { r with state := state, endedAt := some time, error := error }

end RunRecord

namespace Registry

/-- The records after the first one of a run has been ended, and that record. -/
def finished? (id : String) (state : RunState) (error : Option String) (time : String) :
    List RunRecord → Option (List RunRecord × RunRecord)
  | [] => none
  | r :: rs =>
    if r.runId = id then some (r.ended state error time :: rs, r.ended state error time)
    else (finished? id state error time rs).map fun (rs, ended) => (r :: rs, ended)

/-- The run id of a number: 32 hexadecimal digits. -/
def runId (n : Nat) : String :=
  let ds := Nat.toDigits 16 n
  String.ofList (List.replicate (32 - ds.length) '0' ++ ds)

/-- The records that a text holds. A text that is no JSON list holds none. -/
def ofText (text : String) : Except Fault (List RunRecord) :=
  match Json.read text with
  | .error (.malformed _) => .ok []
  | .error e => .error (.json e text)
  | .ok (.arr items) => items.mapM fun item =>
      match RunRecord.check item with
      | .ok r => .ok r
      | .bad issues => .error (.invalid "AgentRunRecord" issues)
  | .ok _ => .ok []

/-- The records in the file at a path. -/
def load (path : Path) : Act (List RunRecord) := do
  if !(← Act.holds path) then return []
  else match ← Act.readText path with
    | .ok text => Act.lift (ofText text)
    | .error (.file e) => throw (.file e)
    | .error e => throw (.read e)

/-- Writes the records to the file at a path. -/
def save (path : Path) (rs : List RunRecord) : Act Unit :=
  Act.saveText path (Json.document (.arr (rs.map RunRecord.toJson)))

/-- A fresh run id. -/
def freshId : Act String := do
  let n := (← get).nextRun
  modify fun w => { w with nextRun := n + 1 }
  return runId n

/-- Adds the record of a run that starts. -/
def start (path : Path) (agentId name : String) (parentId : Option String) : Act RunRecord := do
  let rs ← load path
  let r : RunRecord :=
    { runId := ← freshId, agentId := agentId, name := name, state := .running,
      startedAt := (← get).now.offsetText, parentId := parentId }
  save path (rs ++ [r])
  return r

/-- Ends the run of an id, which must have a record. -/
def finish (path : Path) (id : String) (state : RunState) (error : Option String) :
    Act RunRecord := do
  match finished? id state error (← get).now.offsetText (← load path) with
  | some (rs, r) =>
    save path rs
    return r
  | none => throw (.unknownRun id)

/-- The record of a run. -/
def find? (path : Path) (id : String) : Act (Option RunRecord) := do
  return (← load path).find? (·.runId == id)

/-! ### Ending a run -/

theorem finished?_eq_none_iff {id : String} {state : RunState} {error : Option String}
    {time : String} {rs : List RunRecord} :
    finished? id state error time rs = none ↔ ∀ r ∈ rs, r.runId ≠ id := by
  induction rs with
  | nil => simp [finished?]
  | cons r rs ih =>
    rw [finished?]
    split
    · next h => simp [h]
    · next h => simp [ih, h]

theorem length_finished? {id : String} {state : RunState} {error : Option String} {time : String}
    {rs rs' : List RunRecord} {r : RunRecord}
    (h : finished? id state error time rs = some (rs', r)) : rs'.length = rs.length := by
  induction rs generalizing rs' with
  | nil => cases h
  | cons a as ih =>
    rw [finished?] at h
    split at h
    · cases h
      rfl
    · obtain ⟨⟨bs, b⟩, hb, he⟩ := Option.map_eq_some_iff.mp h
      cases he
      simp [ih hb]

end Registry

end Conductor
