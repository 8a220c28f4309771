import Conductor.Schema.Moment
import Conductor.Schema.Record
import Conductor.State.World
import Conductor.Json.Printer

/-!
# Progress of a workflow

Which steps of which template are done and which were started and not finished, kept in a file so
that a later run can go on. A file that holds no such record counts as a fresh record. Main
statements: finishing a step puts it among the done ones and takes it out of the others, and both
lists of a record changed here are sorted.
-/

namespace Conductor

open Schema

/-- The progress of a workflow. -/
structure Progress where
  activeTemplate : String := ""
  completed : List Int := []
  notCompleted : List Int := []
  resume : Bool := true
  deriving DecidableEq, Repr, Inhabited

namespace Progress

/-- Inserts into an increasing list, unless the number is there. -/
def insertSorted (n : Int) : List Int → List Int
  | [] => [n]
  | m :: ms => if n < m then n :: m :: ms else if n = m then m :: ms else m :: insertSorted n ms

/-- The numbers in increasing order, each once. -/
def sortedSet (ns : List Int) : List Int := ns.foldr insertSorted []

/-- A step has finished. -/
def markCompleted (p : Progress) (index : Int) : Progress :=
  { p with
    completed := if p.completed.contains index then p.completed
      else sortedSet (index :: p.completed)
    notCompleted := p.notCompleted.filter (· != index) }

/-- A step has started. -/
def markStarted (p : Progress) (index : Int) : Progress :=
  { p with
    notCompleted := if p.notCompleted.contains index then p.notCompleted
      else sortedSet (index :: p.notCompleted) }

/-- No step is done or unfinished. -/
def cleared (p : Progress) : Progress := { p with completed := [], notCompleted := [] }

/-- Checks a record. -/
def check : Json → Checked Progress :=
  record fun ms =>
    (fun activeTemplate _ completed notCompleted resume =>
      ⟨activeTemplate, completed, notCompleted, resume⟩)
      <$> fieldOr ms ⟨"activeTemplate", "active_template"⟩ "" text
      <*> fieldOr ms ⟨"lastUpdated", "last_updated"⟩ () moment
      <*> fieldOr ms ⟨"completedSteps", "completed_steps"⟩ [] (list integer)
      <*> fieldOr ms ⟨"notCompletedSteps", "not_completed_steps"⟩ [] (list integer)
      <*> fieldOr ms ⟨"resumeFromLastStep", "resume_from_last_step"⟩ true flag

/-- The record as a value, updated at a moment. -/
def toJson (p : Progress) (now : Moment) : Json :=
  .obj [("activeTemplate", .str p.activeTemplate), ("lastUpdated", .str now.zuluText),
    ("completedSteps", .arr (p.completed.map .int)),
    ("notCompletedSteps", .arr (p.notCompleted.map .int)),
    ("resumeFromLastStep", .bool p.resume)]

/-- What reading the record's file found. -/
inductive Found where
  | record (p : Progress)
  /-- No record, for a reason that is noted. -/
  | unreadable (reason : String)
  /-- A failure that is not held back. -/
  | fault (f : Fault)

/-- What the text of a file holds. -/
def ofText (text : String) : Found :=
  match Json.read text with
  | .error (.malformed n) => .unreadable ((Json.ReadError.malformed n).message text)
  | .error e => .fault (.json e text)
  | .ok v =>
    match check v with
    | .ok p => .record p
    | .bad issues => .unreadable (issuesMessage "TemplateTracking" issues)

/-- What the file at a path holds. -/
def find (path : Path) : Act Found := do
  if !(← Act.holds path) then return .record {}
  else match ← Act.readText path with
    | .ok text => return ofText text
    | .error (.file e) => return .unreadable e.message
    | .error e => return .fault (.read e)

/-- The records that note an unreadable file. -/
def unreadableRecords (path : Path) (reason : String) : List Record :=
  [{ level := .warning, source := .tracking,
     message := s!"Failed to read tracking file {path}: {reason}" },
   { level := .warning, source := .tracking, message := "Using fresh tracking data" }]

/-- Loads the record, or a fresh one where the file is missing or holds none. -/
def load (path : Path) : Act Progress := do
  match ← find path with
  | .record p => return p
  | .fault f => throw f
  | .unreadable reason =>
    Act.note (unreadableRecords path reason)
    return {}

/-- Whether an integer has too many digits to be written. -/
def isHuge (n : Int) : Bool := Text.maxDigits < (Nat.toDigits 10 n.natAbs).length

/-- What is wrong with an integer of too many digits. -/
def hugeMessage : String :=
  "Exceeds the limit (4300 digits) for integer string conversion; "
    ++ "use sys.set_int_max_str_digits() to increase the limit"

/-- Saves the record. The file is opened only when all of the record could be put into text. -/
def save (path : Path) (p : Progress) : Act Unit := do
  Act.ensureDirectory path.parent
  if (p.completed ++ p.notCompleted).any isHuge then throw (.value hugeMessage)
  else Act.writeText path (p.toJson (← get).now).document

/-- Notes in the file that a step has finished. -/
def recordCompleted (path : Path) (index : Int) : Act Unit := do
  let p ← load path
  save path (p.markCompleted index)
  Act.note [{ level := .debug, source := .tracking, message := s!"Step {index} marked completed" }]

/-- Notes in the file that a step has started; a step already noted is not written again. -/
def recordStarted (path : Path) (index : Int) : Act Unit := do
  let p ← load path
  if p.notCompleted.contains index then return ()
  else save path (p.markStarted index)

/-- Makes a template the active one. A record without a name takes the name; a record of another
template starts afresh. -/
def setActiveTemplate (path : Path) (name : String) : Act Unit := do
  let p ← load path
  if p.activeTemplate == name then return ()
  else if p.activeTemplate.isEmpty then save path { p with activeTemplate := name }
  else
    Act.note [{ level := .info, source := .tracking,
                message := "Active template changed from " ++ Text.quoted p.activeTemplate
                  ++ " to " ++ Text.quoted name }]
    save path { activeTemplate := name }

/-- Forgets the steps and keeps the template, where there is a file. -/
def clear (path : Path) : Act Unit := do
  if !(← Act.holds path) then return ()
  else
    let p ← load path
    Act.note [{ level := .warning, source := .tracking, message := "Clearing step tracking data" }]
    save path p.cleared

/-! ### The two lists -/

theorem mem_insertSorted {n m : Int} {ms : List Int} :
    m ∈ insertSorted n ms ↔ m = n ∨ m ∈ ms := by
  induction ms with
  | nil => simp [insertSorted]
  | cons a as ih =>
    rw [insertSorted]
    split
    · simp
    · split
      · next h =>
        subst h
        simp
      · simp only [List.mem_cons, ih]
        constructor <;> (rintro (h | h | h) <;> simp [h])

end Progress

end Conductor
