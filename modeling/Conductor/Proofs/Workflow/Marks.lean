import Conductor.Proofs.Workflow.Ledger

/-!
# What was recorded last about a step

Two things are recorded about a step: that an attempt at it has started, and that it is finished.
Main statements: a cursor counts a step among the unfinished ones iff the last thing recorded about
it, in the run or else before it, is the start of an attempt (`Trail.mem_notCompleted_iff`), and
once a step is recorded as finished, cursor and file both count it among the finished ones and not
among the others (`Trail.finished`).

What is recorded last is read off the points of a run, so that runs that follow each other are
described by the points of all of them (`leftOpen_append`).
-/

namespace Conductor.Workflow

open Act Progress

variable {f : Workflow} {w w' w₀ : World} {s s' : State} {n : Point} {trail newer older : List Point}
  {p : Progress} {earlier : List Int} {i : Nat}

/-- What is recorded about a step. -/
inductive Mark where
  | started
  | finished
  deriving DecidableEq, Repr

/-- What has just been recorded about the step at a position where a run stands at a point. -/
def mark? (i : Nat) (n : Point) : Option Mark :=
  match n.2.phase with
  | .attempt index .. => if index = i then some .started else none
  | .recorded index .. => if index = i then some .finished else none
  | _ => none

/-- What was recorded last about the step at a position, the points being the newest first. -/
def lastMark? (i : Nat) (points : List Point) : Option Mark := points.findSome? (mark? i)

/-- The last attempt at the step at a position, at some points or else before them, has not ended
with its completion marker. -/
def LeftOpen (earlier : List Int) (i : Nat) (points : List Point) : Prop :=
  lastMark? i points = some .started ∨ lastMark? i points = none ∧ (i : Int) ∈ earlier

/-! ### Points one by one -/

theorem leftOpen_nil : LeftOpen earlier i [] ↔ (i : Int) ∈ earlier := by
  simp [LeftOpen, lastMark?]

theorem leftOpen_cons_of_none (h : mark? i n = none) :
    LeftOpen earlier i (n :: trail) ↔ LeftOpen earlier i trail := by
  unfold LeftOpen lastMark?
  rw [List.findSome?_cons, h]

theorem leftOpen_cons_of_started (h : mark? i n = some .started) :
    LeftOpen earlier i (n :: trail) := by
  refine .inl ?_
  unfold lastMark?
  rw [List.findSome?_cons, h]

theorem not_leftOpen_cons_of_finished (h : mark? i n = some .finished) :
    ¬ LeftOpen earlier i (n :: trail) := by
  have hlast : lastMark? i (n :: trail) = some .finished := by
    unfold lastMark?
    rw [List.findSome?_cons, h]
  unfold LeftOpen
  rw [hlast]
  rintro (h | ⟨h, -⟩) <;> cases h

/-- What the older points leave open stands for them. -/
theorem leftOpen_append {earlier' : List Int} (h : (i : Int) ∈ earlier' ↔ LeftOpen earlier i older) :
    LeftOpen earlier i (newer ++ older) ↔ LeftOpen earlier' i newer := by
  -- By induction on the newer points: the first one that marks the step decides on both sides.
  induction newer with
  | nil =>
    rw [List.nil_append, leftOpen_nil]
    exact h.symm
  | cons n newer ih =>
    rw [List.cons_append]
    rcases hn : mark? i n with _ | (_ | _)
    · rw [leftOpen_cons_of_none hn, leftOpen_cons_of_none hn, ih]
    · exact iff_of_true (leftOpen_cons_of_started hn) (leftOpen_cons_of_started hn)
    · exact iff_of_false (not_leftOpen_cons_of_finished hn) (not_leftOpen_cons_of_finished hn)

theorem mark?_of_attempt {index : Nat} {step run : Step} {identity : String}
    (h : n.2.phase = .attempt index step run identity) :
    mark? i n = if index = i then some .started else none := by
  unfold mark?
  rw [h]

theorem mark?_of_recorded {index : Nat} {step : Step} {output : String}
    (h : n.2.phase = .recorded index step output) :
    mark? i n = if index = i then some .finished else none := by
  unfold mark?
  rw [h]

theorem mark?_eq_none (ha : ∀ index step run identity, n.2.phase ≠ .attempt index step run identity)
    (hr : ∀ index step output, n.2.phase ≠ .recorded index step output) : mark? i n = none := by
  unfold mark?
  split
  · next h => exact absurd h (ha _ _ _ _)
  · next h => exact absurd h (hr _ _ _)
  · rfl

/-! ### The unfinished steps of a cursor -/

/-- Only a step that has returned is recorded. -/
theorem Takes.returned_of_recorded (h : Takes f w s (.next s') w') {index : Nat} {step : Step}
    {output : String} (hs : s'.phase = .recorded index step output) :
    s.phase = .returned index step output ∧ s'.cursor = s.cursor.markCompleted index ∧
      (f.recordCompleted index).exec w = (.ok (), w') := by
  cases h with
  | recorded hx =>
    cases hs
    exact ⟨rfl, rfl, hx⟩
  | _ => cases hs

/-- A transition changes for a step what it records about it. -/
theorem Takes.leftOpen (h : Takes f w s (.next s') w')
    (ih : (i : Int) ∈ s.cursor.notCompleted ↔ LeftOpen earlier i trail) :
    (i : Int) ∈ s'.cursor.notCompleted ↔ LeftOpen earlier i ((w', s') :: trail) := by
  have hcast : ∀ {index : Nat}, (i : Int) = index ↔ index = i := by omega
  -- A turn starts one step, records one, or does neither.
  rcases h.marks with ⟨index, hstart⟩ | ⟨index, hrecord⟩ | hpass
  · obtain ⟨step, run, identity, hphase⟩ := hstart.attempt
    have hmark := mark?_of_attempt (n := (w', s')) (i := i) hphase
    rw [hstart.notCompleted, Cursor.mem_insertNew, hcast]
    by_cases hi : index = i
    · rw [if_pos hi] at hmark
      exact iff_of_true (.inr hi) (leftOpen_cons_of_started hmark)
    · rw [if_neg hi] at hmark
      rw [leftOpen_cons_of_none hmark, or_iff_left hi]
      exact ih
  · obtain ⟨step, output, hphase⟩ := hrecord.recorded
    have hmark := mark?_of_recorded (n := (w', s')) (i := i) hphase
    rw [hrecord.notCompleted, Cursor.mem_eraseAll, Ne, hcast]
    by_cases hi : index = i
    · rw [if_pos hi] at hmark
      exact iff_of_false (fun h => h.2 hi) (not_leftOpen_cons_of_finished hmark)
    · rw [if_neg hi] at hmark
      rw [leftOpen_cons_of_none hmark, and_iff_left hi]
      exact ih
  · have hmark : mark? i (w', s') = none :=
      mark?_eq_none hpass.notAttempt fun index step output hs =>
        hpass.notReturned _ _ _ (h.returned_of_recorded hs).1
    rw [hpass.notCompleted, leftOpen_cons_of_none hmark]
    exact ih

/-- A cursor counts a step among the unfinished ones iff the last attempt at it, in the run or else
before it, has not ended with its completion marker. -/
theorem Trail.mem_notCompleted_iff (ht : Trail f w₀ (n :: trail)) (hp : f.remembered w₀ = .ok p) :
    (i : Int) ∈ n.2.cursor.notCompleted ↔ LeftOpen p.notCompleted i (n :: trail) := by
  induction trail generalizing n with
  | nil =>
    cases ht with
    | start h =>
      obtain ⟨p', log, hp', -, rfl⟩ := start_spec h
      obtain rfl : p' = p := Except.ok.inj (hp'.symm.trans hp)
      rw [leftOpen_cons_of_none (mark?_eq_none (by simp) (by simp)), leftOpen_nil]
      rfl
  | cons m trail ih => exact ht.takes.leftOpen (ih ht.tail)

/-! ### A step that is recorded as finished -/

theorem keptByCalls_now (shop : Workshop) (now : Moment) :
    shop.KeptByCalls fun w => w.now = now where
  log _ _ h := h
  calls _ _ h := h
  nextRun _ _ h := h
  directory _ _ _ h _ := h
  registry _ _ _ _ _ h _ := h
  reply _ _ _ h := h

/-- The clock of a run stands still. -/
theorem Trail.now_eq (ht : Trail f w₀ (n :: trail)) : n.1.now = w₀.now := by
  induction trail generalizing n with
  | nil =>
    cases ht with
    | start h =>
      obtain ⟨p, log, -, rfl, -⟩ := start_spec h
      rfl
  | cons m trail ih =>
    have hm := ih ht.tail
    rcases ht.takes.marks with ⟨index, hstart⟩ | ⟨index, hrecord⟩ | hpass
    · obtain ⟨log, hx⟩ := hstart.exec
      exact (place_of_recordStarted hx).2.trans hm
    · exact (place_of_recordCompleted hrecord.exec).2.trans hm
    · exact hpass.quiet (fun w => w.now = w₀.now) (fun _ _ h => h) (fun _ _ h => h)
        (fun run identity => Workshop.keeps_execute (keptByCalls_now f.shop w₀.now) run identity none)
        hm

/-- A step that has been recorded as finished is so for cursor and file. -/
theorem Trail.finished {step : Step} {output : String} (ht : Trail f w₀ (n :: trail))
    (hn : n.2.phase = .recorded i step output) :
    ((i : Int) ∈ n.2.cursor.completed ∧ (i : Int) ∉ n.2.cursor.notCompleted) ∧
      ∀ path, f.tracking = some path → w₀.now.InCalendar →
        ∃ q, stored n.1.store n.1.cwd path = .ok q ∧ (i : Int) ∈ q.completed ∧
          (i : Int) ∉ q.notCompleted := by
  cases ht with
  | start h =>
    obtain ⟨p, log, -, -, rfl⟩ := start_spec h
    cases hn
  | @next w s w' s' trail ht h =>
    obtain ⟨-, hcursor, hx⟩ := (takes_of_turn h).returned_of_recorded hn
    dsimp only
    rw [hcursor]
    refine ⟨⟨Cursor.mem_completed_markCompleted.mpr (.inr rfl),
      fun hmem => (Cursor.mem_notCompleted_markCompleted.mp hmem).2 rfl⟩, fun path hf hnow => ?_⟩
    rw [← ht.now_eq] at hnow
    unfold recordCompleted at hx
    rw [hf] at hx
    obtain ⟨q, -, hfile⟩ := inFile_of_recordCompleted hnow hx
    exact ⟨_, hfile.stored_eq, mem_completed_markCompleted.mpr (.inr rfl),
      fun hmem => (mem_notCompleted_markCompleted.mp hmem).2 rfl⟩

end Conductor.Workflow
