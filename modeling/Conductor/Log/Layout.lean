import Conductor.Json.Printer
import Conductor.Log.Record
import Conductor.Text.Case
import Conductor.Time

/-!
# Layouts of log records

A record is written on a line as a JSON object or as plain text, both with the moment it was noted.
Names of levels are known beyond those that records have, as thresholds below which nothing is
written. Main statement: records noted later are written later.
-/

namespace Conductor

/-- How records are written. -/
inductive LogLayout where
  | json
  | text
  deriving DecidableEq, Repr, Inhabited

namespace LogLayout

/-- The layouts by their words. -/
def byWord : List (String × LogLayout) := [("json", json), ("text", text)]

/-- The layout that a word asks for; any other word than that for JSON asks for plain text. -/
def ofWord (word : String) : LogLayout := if word = "json" then json else text

end LogLayout

namespace Level

/-- The thresholds by name. -/
def thresholds : List (String × Nat) :=
  [("CRITICAL", 50), ("FATAL", 50), ("ERROR", 40), ("WARN", 30), ("WARNING", 30), ("INFO", 20),
    ("DEBUG", 10), ("NOTSET", 0)]

/-- The threshold of a name. -/
def threshold? (name : String) : Option Nat := (thresholds.find? (·.1 == name)).map (·.2)

/-- The threshold that a word asks for in any case, or its name in upper case where there is none.
-/
def thresholdOf (word : String) : Except String Nat :=
  let name := Text.upper word
  match threshold? name with
  | some n => .ok n
  | none => .error name

/-- The name of a number. -/
def nameOf (n : Int) : String :=
  match n with
  | 50 => "CRITICAL"
  | 40 => "ERROR"
  | 30 => "WARNING"
  | 20 => "INFO"
  | 10 => "DEBUG"
  | 0 => "NOTSET"
  | n => s!"Level {n}"

theorem nameOf_number (l : Level) : nameOf l.number = l.word := by
  cases l <;> rfl

end Level

/-- A line to be written: the parts of a record with the moment it was noted. -/
structure LogLine where
  time : Moment
  level : String
  logger : String
  message : String
  details : List (String × Json) := []
  failure : Option String := none
  deriving Repr, Inhabited

namespace LogLine

/-- The names that details cannot have; those that start with an underscore are none either. -/
def reserved : List String :=
  ["args", "asctime", "created", "exc_info", "exc_text", "filename", "funcName", "levelname",
    "levelno", "lineno", "module", "msecs", "message", "msg", "name", "pathname", "process",
    "processName", "relativeCreated", "stack_info", "taskName", "thread", "threadName"]

/-- Whether a detail is shown. -/
def isShown (name : String) : Bool := !reserved.contains name && !name.startsWith "_"

/-- The line of a record. -/
def ofRecord (time : Moment) (r : Record) : LogLine :=
  { time := time, level := r.level.word, logger := r.source.name, message := r.message,
    details := r.details, failure := r.failure }

/-- The members of a line in the JSON layout, without the moment. -/
def members (l : LogLine) : List (String × Json) :=
  let details := l.details.filter (isShown ·.1)
  [("level", .str l.level), ("logger", .str l.logger), ("message", .str l.message)]
    ++ (if details.isEmpty then [] else [("extra", .obj details)])
    ++ (l.failure.map fun f => ("exception", Json.str f)).toList

/-- The line in the JSON layout. -/
def json (l : LogLine) : String :=
  Json.line (.obj (("timestamp", .str l.time.offsetText) :: l.members))

/-- The line in plain text. -/
def plain (l : LogLine) : String :=
  let failure := match l.failure with
    | some f => "\n" ++ f
    | none => ""
  s!"{l.time.clockText} - {l.logger} - {l.level} - {l.message}{failure}"

/-- The line in a layout. -/
def text (l : LogLine) : LogLayout → String
  | .json => l.json
  | .text => l.plain

end LogLine

/-- Which records are written, and how. -/
structure Logging where
  layout : LogLayout := .json
  threshold : Nat := Level.warning.number
  deriving DecidableEq, Repr, Inhabited

namespace Logging

/-- Whether a record is written. -/
def shows (l : Logging) (r : Record) : Bool := l.threshold ≤ r.level.number

/-- The lines of the records that are written. -/
def lines (l : Logging) (time : Moment) (records : List Record) : List LogLine :=
  (records.filter l.shows).map (LogLine.ofRecord time)

theorem lines_append (l : Logging) (time : Moment) (rs ts : List Record) :
    l.lines time (rs ++ ts) = l.lines time rs ++ l.lines time ts := by
  simp [lines]

end Logging

end Conductor
