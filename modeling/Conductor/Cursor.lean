import Conductor.Step

/-!
# The cursor of a workflow run

Where a run stands: the position in the step list, the steps that are done and those that were
started and not finished, the loops' counters, the loop that is hot, the steps to be run out of
order and the ids that are at work. Every change is one of the transitions here. Main statements:
starting a step puts it among the unfinished ones, and finishing it takes it out and puts it among
the finished ones.
-/

namespace Conductor

/-- A loop that has stepped back and not been left: while it is hot its skip set holds. -/
structure HotLoop where
  anchor : Nat
  skip : List String
  deriving DecidableEq, Repr, Inhabited

/-- Adds to a set kept as a list. -/
def insertNew {α : Type} [BEq α] (xs : List α) (x : α) : List α :=
  if xs.contains x then xs else xs ++ [x]

/-- Takes out of a set kept as a list. -/
def eraseAll {α : Type} [BEq α] (xs : List α) (x : α) : List α := xs.filter (· != x)

/-- Where a run stands. -/
structure Cursor where
  index : Nat := 0
  completed : List Int := []
  notCompleted : List Int := []
  counters : List (String × Int) := []
  hot : Option HotLoop := none
  pending : List String := []
  inFlight : List String := []
  deriving Repr, Inhabited, DecidableEq

namespace Cursor

/-- The cursor at the start of a run, with what an earlier run left. -/
def initial (completed notCompleted : List Int) : Cursor :=
  { completed := completed, notCompleted := notCompleted }

/-- The name of a step's loop counter. -/
def loopKey (step : Step) (index : Int) : String := s!"{step.loopId}:{index}"

/-- How often a loop has stepped back since it was last left. -/
def iterations (c : Cursor) (key : String) : Int :=
  ((c.counters.find? (·.1 == key)).map (·.2)).getD 0

/-- Sets a loop's counter. -/
def setCounter (c : Cursor) (key : String) (n : Int) : Cursor :=
  { c with counters := (key, n) :: c.counters.filter (·.1 != key) }

/-- Why a step is passed over. -/
inductive SkipCause where
  | alreadyCompleted
  | loopSkips
  deriving DecidableEq, Repr

/-- What is noted about a step that is passed over. -/
def SkipCause.message (cause : SkipCause) (step : Step) : String :=
  match cause with
  | .alreadyCompleted => s!"{step.agentName} skipped (already completed)."
  | .loopSkips => s!"{step.agentName} skipped (loop configuration)."

/-- Why the step at a position is passed over, if it is. -/
def skipCause? (c : Cursor) (step : Step) (index : Int) : Option SkipCause :=
  if step.executeOnce && c.completed.contains index then some .alreadyCompleted
  else if c.hot.any (·.skip.contains step.agentId) then some .loopSkips
  else none

/-- Whether the step at a position was started before, did not finish and names a fallback. -/
def needsFallback (c : Cursor) (step : Step) (index : Int) : Bool :=
  c.notCompleted.contains index && step.fallback.any (!·.isEmpty)

/-- A step starts. -/
def markStarted (c : Cursor) (index : Int) (id : String) : Cursor :=
  { c with
    notCompleted := insertNew c.notCompleted index
    inFlight := insertNew c.inFlight id }

/-- A step has finished. -/
def markCompleted (c : Cursor) (index : Int) : Cursor :=
  { c with
    completed := insertNew c.completed index
    notCompleted := eraseAll c.notCompleted index }

/-- An id is no longer at work. -/
def release (c : Cursor) (id : String) : Cursor :=
  { c with inFlight := eraseAll c.inFlight id }

/-- Steps back, no further than to the first step; the loop at the position left becomes hot and
its counter goes up. -/
def loopBack (c : Cursor) (decision : LoopDecision) (key : String) : Cursor :=
  { c.setCounter key (c.iterations key + 1) with
    index := ((c.index : Int) - decision.stepsBack).toNat
    hot := some ⟨c.index, decision.skip⟩ }

/-- A loop is left: no loop is hot and its counter is zero. -/
def endLoop (c : Cursor) (key : String) : Cursor :=
  { c.setCounter key 0 with hot := none }

/-- Goes to the next position; a hot loop cools down when it is passed. -/
def advance (c : Cursor) : Cursor :=
  { c with
    index := c.index + 1
    hot := c.hot.filter fun h => !decide (h.anchor < c.index + 1) }

/-- Puts an id before all others to be run next, unless it is queued or at work. -/
def enqueue (c : Cursor) (id : String) : Cursor × Bool :=
  if c.inFlight.contains id || c.pending.contains id then (c, false)
  else ({ c with pending := id :: c.pending }, true)

/-- Takes the id to be run next, which is then at work. -/
def pop (c : Cursor) : Cursor × Option String :=
  match c.pending with
  | [] => (c, none)
  | id :: rest => ({ c with pending := rest, inFlight := insertNew c.inFlight id }, some id)

/-! ### The two sets -/

theorem mem_insertNew {α : Type} [BEq α] [LawfulBEq α] {xs : List α} {x y : α} :
    y ∈ insertNew xs x ↔ y ∈ xs ∨ y = x := by
  unfold insertNew
  split
  · next h =>
    have : x ∈ xs := by simpa using h
    constructor
    · exact Or.inl
    · rintro (h | rfl)
      · exact h
      · exact this
  · simp

theorem mem_eraseAll {α : Type} [BEq α] [LawfulBEq α] {xs : List α} {x y : α} :
    y ∈ eraseAll xs x ↔ y ∈ xs ∧ y ≠ x := by
  simp [eraseAll]

theorem mem_notCompleted_markStarted {c : Cursor} {i j : Int} {id : String} :
    j ∈ (c.markStarted i id).notCompleted ↔ j ∈ c.notCompleted ∨ j = i :=
  mem_insertNew

theorem mem_completed_markCompleted {c : Cursor} {i j : Int} :
    j ∈ (c.markCompleted i).completed ↔ j ∈ c.completed ∨ j = i :=
  mem_insertNew

theorem mem_notCompleted_markCompleted {c : Cursor} {i j : Int} :
    j ∈ (c.markCompleted i).notCompleted ↔ j ∈ c.notCompleted ∧ j ≠ i :=
  mem_eraseAll

theorem iterations_setCounter_self (c : Cursor) (key : String) (n : Int) :
    (c.setCounter key n).iterations key = n := by
  simp [iterations, setCounter]

end Cursor

end Conductor
