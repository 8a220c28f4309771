import Conductor.Path
import Conductor.Signal

/-!
# Where signals come from

Agents leave signals in one of two ways: in a file below the working directory, of which a record is
reported once, or in a mailbox, which hands each signal over once. Main statements: what was posted
last is taken once, and a record that has been seen is no news.
-/

namespace Conductor

/-- How agents leave signals: in a file below a state directory, or in the mailbox. -/
inductive SignalWay where
  | file (stateDir : Path)
  | mailbox
  deriving DecidableEq, Repr, Inhabited

/-- A version of the signal file: when it was written and what it holds. -/
structure Version where
  modified : Int
  text : String
  deriving DecidableEq, Repr

/-- What has been seen of signal files, and the signals that wait in the mailbox. -/
structure Mailbox where
  seen : List (Path × Version) := []
  waiting : List (Path × Signal) := []
  deriving Repr, Inhabited

namespace Mailbox

/-- The value of a path. -/
def valueAt? {α : Type} (entries : List (Path × α)) (p : Path) : Option α :=
  (entries.find? (·.1 == p)).map (·.2)

/-- Gives a path a value. -/
def setValue {α : Type} (entries : List (Path × α)) (p : Path) (a : α) : List (Path × α) :=
  (p, a) :: entries.filter (·.1 != p)

/-- Posts a signal for a working directory in place of one that waits there. -/
def post (b : Mailbox) (dir : Path) (s : Signal) : Mailbox :=
  { b with waiting := setValue b.waiting dir s }

/-- Takes the signal that waits for a working directory. -/
def take (b : Mailbox) (dir : Path) : Option Signal × Mailbox :=
  (valueAt? b.waiting dir, { b with waiting := b.waiting.filter (·.1 != dir) })

/-- Remembers a version of a file, and says whether it is news. -/
def notice (b : Mailbox) (path : Path) (v : Version) : Bool × Mailbox :=
  if valueAt? b.seen path = some v then (false, b)
  else (true, { b with seen := setValue b.seen path v })

theorem valueAt?_setValue_self {α : Type} (entries : List (Path × α)) (p : Path) (a : α) :
    valueAt? (setValue entries p a) p = some a := by
  simp [valueAt?, setValue]

theorem take_post (b : Mailbox) (dir : Path) (s : Signal) :
    ((b.post dir s).take dir).1 = some s :=
  valueAt?_setValue_self ..

theorem valueAt?_filter_ne {α : Type} (entries : List (Path × α)) (p : Path) :
    valueAt? (entries.filter (·.1 != p)) p = none := by
  simp [valueAt?, List.find?_filter]

theorem take_take (b : Mailbox) (dir : Path) : ((b.take dir).2.take dir).1 = none :=
  valueAt?_filter_ne ..

theorem notice_notice (b : Mailbox) (path : Path) (v : Version) :
    (((b.notice path v).2).notice path v).1 = false := by
  unfold notice
  split
  · next h => simp
  · simp [valueAt?_setValue_self]

end Mailbox

end Conductor
