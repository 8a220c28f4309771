import Conductor.Proofs.Workflow.Marks
import Conductor.Proofs.Workflow.Onward

/-!
# Runs one after the other

Runs over one list of steps follow each other through the record that they keep: each begins with
the record as the run before has left it.  A run leaves off when it ends with an outcome, and it may
break off behind any of its points, by a fault (`leavesOff_of_fault`) or together with its process.
The record is written as a whole, so a run that breaks off leaves it as it stood at that point.

Main statement: after any number of runs the record has among its unfinished steps those whose last
attempt, in any of the runs or else before them, has not ended with its completion marker
(`History.record`).
-/

namespace Conductor.Workflow

open Act Progress

/-- A run that has left off: the world in which it began, the points that it went through, the
newest first, and the world that it left. -/
structure PastRun where
  flow : Workflow
  before : World
  trail : List Point
  after : World

/-- How a run leaves off that keeps its record at a path. -/
inductive LeavesOff (path : Path) : PastRun → Prop
  /-- The run ends with an outcome. -/
  | ended {f w₀ trail o w} (h : Ends f w₀ trail o w) : LeavesOff path ⟨f, w₀, trail, w⟩
  /-- The run breaks off behind a point. -/
  | brokeOff {f w₀ v s older w} (ht : Trail f w₀ ((v, s) :: older))
    (hr : stored w.store w.cwd path = stored v.store v.cwd path) :
    LeavesOff path ⟨f, w₀, (v, s) :: older, w⟩

/-- A workflow is run over a list of steps from a world in which the record at a path is found as
given, and nothing but the run writes that record while it lasts. -/
structure RunsOver (steps : List Step) (path : Path) (found : Except Fault Progress)
    (f : Workflow) (w₀ : World) : Prop where
  steps_eq : f.steps = steps
  tracking_eq : f.tracking = some path
  found_eq : stored w₀.store w₀.cwd path = found
  leavesAlone : f.shop.LeavesAlone w₀.cwd path
  inCalendar : w₀.now.InCalendar

/-- The record at a path after some runs, the newest first. -/
def recordAfter (path : Path) (p₀ : Progress) : List PastRun → Except Fault Progress
  | [] => .ok p₀
  | r :: _ => stored r.after.store r.after.cwd path

/-- Runs over one list of steps that follow each other, the newest first. The oldest one finds the
record `p₀`, and each later one finds what the one before has left. -/
inductive History (steps : List Step) (path : Path) (p₀ : Progress) : List PastRun → Prop
  | nil : History steps path p₀ []
  | cons {r runs} (h : History steps path p₀ runs)
    (hr : RunsOver steps path (recordAfter path p₀ runs) r.flow r.before)
    (hoff : LeavesOff path r) : History steps path p₀ (r :: runs)

/-- The points of all runs, the newest first. -/
def allPoints (runs : List PastRun) : List Point := runs.flatMap PastRun.trail

theorem allPoints_cons (r : PastRun) (runs : List PastRun) :
    allPoints (r :: runs) = r.trail ++ allPoints runs := List.flatMap_cons

variable {steps : List Step} {path : Path} {found : Except Fault Progress} {f : Workflow}
  {w w' w₀ : World} {s : State} {n : Point} {trail : List Point} {p p₀ : Progress} {r : PastRun}
  {runs : List PastRun} {i : Nat}

/-! ### One run -/

theorem RunsOver.remembered_eq (h : RunsOver steps path found f w₀) :
    f.remembered w₀ = found := by
  unfold remembered
  rw [h.tracking_eq]
  exact h.found_eq

theorem RunsOver.accounts (h : RunsOver steps path (.ok p) f w₀)
    (ht : Trail f w₀ ((w, s) :: trail)) : Accounts path p w₀ w s (heeded (w, s) trail) :=
  Trail.accounts h.tracking_eq h.leavesAlone h.inCalendar h.found_eq ht

/-- A run whose record can be read starts, with what the record says. -/
theorem RunsOver.starts (h : RunsOver steps path (.ok p) f w₀) :
    ∃ log, Trail f w₀
      [(w₀.withLog log, ⟨Cursor.initial p.completed p.notCompleted, [], .head⟩)] := by
  obtain ⟨log₁, hfirst⟩ := exec_load path w₀
  obtain ⟨log₂, hsecond⟩ := exec_load path (w₀.withLog log₁)
  have hagain : stored (w₀.withLog log₁).store (w₀.withLog log₁).cwd path = .ok p := h.found_eq
  rw [h.found_eq] at hfirst
  rw [hagain] at hsecond
  have hstart : ∃ log, f.start.exec w₀ =
      (.ok ⟨Cursor.initial p.completed p.notCompleted, [], .head⟩, w₀.withLog log) := by
    unfold start
    simp only [h.tracking_eq]
    rw [exec_bind_of_ok hfirst, exec_bind_of_ok hsecond]
    exact ⟨_, rfl⟩
  exact hstart.imp fun log h => .start h

/-- The record that a run leaves tells what the run has taken account of at its last point. -/
theorem LeavesOff.tells (h : LeavesOff path r) (hr : RunsOver steps path (.ok p) r.flow r.before) :
    ∃ n older q, r.trail = n :: older ∧ Trail r.flow r.before (n :: older) ∧
      stored r.after.store r.after.cwd path = .ok q ∧
      Tells p (heeded n older) q.completed q.notCompleted ∧
      Tells p (heeded n older) n.2.cursor.completed n.2.cursor.notCompleted := by
  cases h with
  | @ended f w₀ trail o w h =>
    cases h with
    | @intro v s older _ _ ht hturn =>
      obtain ⟨q, hq, hfile, hcursor⟩ := tells_of_ends hr.tracking_eq hr.leavesAlone hr.inCalendar
        hr.found_eq (.intro ht hturn)
      -- No return is left unrecorded where a turn ends the run.
      have hreturned := (takes_of_turn hturn).quiet_of_done.1
      refine ⟨(v, s), older, q, rfl, ht, hq, ?_, ?_⟩
      · rwa [heeded_of_ne hreturned]
      · rwa [heeded_of_ne hreturned]
  | @brokeOff f w₀ v s older w ht hsame =>
    have hacc := hr.accounts ht
    obtain ⟨q, hq, hfile⟩ := hacc.file
    exact ⟨(v, s), older, q, rfl, ht, hsame.trans hq, hfile, hacc.cursor⟩

/-- A turn that ends in a fault leaves the record as it is, where its file is there. -/
theorem stored_of_fault {e : Fault} {bytes : List UInt8} (hf : f.tracking = some path)
    (ha : f.shop.LeavesAlone w.cwd path) (hb : w.store.readBytes w.cwd path = .ok bytes)
    (h : (f.turn s).exec w = (.error e, w')) :
    stored w'.store w'.cwd path = stored w.store w.cwd path := by
  have hsame : w'.cwd = w.cwd ∧ w'.store.readBytes w.cwd path = .ok bytes →
      stored w'.store w'.cwd path = stored w.store w.cwd path := by
    rintro ⟨hcwd, hkept⟩
    rw [hcwd]
    exact stored_congr hb hkept
  cases hs : s.phase with
  | head =>
    rcases exec_turn_of_head (f := f) hs w with ⟨t, log, hok⟩ | ⟨step, run, identity, log, hbegin⟩
    · cases hok.symm.trans h
    · rw [hbegin] at h
      unfold begin recordStarted at h
      rw [hf, exec_bind] at h
      split at h
      · cases h
      · next hrecord =>
        cases h
        exact hsame (readBytes_of_recordStarted_fault (w := w.withLog log) hrecord hb)
  | returned index step output =>
    rw [exec_turn_of_returned hs] at h
    unfold recordCompleted at h
    rw [hf, exec_bind] at h
    split at h
    · cases h
    · next hrecord =>
      cases h
      exact hsame (readBytes_of_recordCompleted_fault hrecord hb)
  | _ =>
    have hquiet : Quiet f w w' := quiet_of_fault (by simp [hs]) (by simp [hs]) h
    exact hquiet.stored_eq ha hb

/-- A run that ends in a fault has left off, where the file of its record is there. -/
theorem leavesOff_of_fault {e : Fault} (hr : RunsOver steps path (.ok p) f w₀)
    (ht : Trail f w₀ ((w, s) :: trail)) (h : (f.turn s).exec w = (.error e, w'))
    (hfile : s.phase ≠ .head ∨ ∃ bytes, w.store.readBytes w.cwd path = .ok bytes) :
    LeavesOff path ⟨f, w₀, (w, s) :: trail, w'⟩ := by
  have hacc := hr.accounts ht
  obtain ⟨bytes, hb⟩ := hfile.elim hacc.exists_bytes id
  exact .brokeOff ht (stored_of_fault hr.tracking_eq (hacc.cwd.symm ▸ hr.leavesAlone) hb h)

/-- After all runs the record has those steps among the unfinished ones that the runs have left
open. -/
theorem History.record (h : History steps path p₀ runs) :
    ∃ q, recordAfter path p₀ runs = .ok q ∧
      ∀ i : Nat, (i : Int) ∈ q.notCompleted ↔ LeftOpen p₀.notCompleted i (allPoints runs) := by
  induction h with
  | nil => exact ⟨p₀, rfl, fun i => leftOpen_nil.symm⟩
  | @cons r runs h hr hoff ih =>
    obtain ⟨p, hp, hopen⟩ := ih
    rw [hp] at hr
    obtain ⟨n, older, q, htrail, ht, hq, hfile, hcursor⟩ := hoff.tells hr
    refine ⟨q, hq, fun i => ?_⟩
    rw [allPoints_cons, htrail, leftOpen_append (hopen i), ← ht.mem_notCompleted_iff hr.remembered_eq]
    exact (hfile.notCompleted_iff i).trans (hcursor.notCompleted_iff i).symm

/-- In a run that follows others, the cursor counts a step among the unfinished ones iff the last
attempt at it, in this run or else before it, has not ended with its completion marker. -/
theorem History.mem_notCompleted_iff (h : History steps path p₀ runs)
    (hr : RunsOver steps path (recordAfter path p₀ runs) f w₀) (ht : Trail f w₀ (n :: trail)) :
    (i : Int) ∈ n.2.cursor.notCompleted ↔
      LeftOpen p₀.notCompleted i ((n :: trail) ++ allPoints runs) := by
  obtain ⟨p, hp, hopen⟩ := h.record
  rw [hp] at hr
  rw [leftOpen_append (hopen i), ht.mem_notCompleted_iff hr.remembered_eq]

end Conductor.Workflow
