import Conductor.Proofs.Json.Digits
import Conductor.Proofs.State.Record
import Conductor.Proofs.State.Room

/-!
# Changes of a progress record

There are four ways to change a progress record, and each of them loads it, edits what it finds
(`Change.edit`) and saves the result, unless there is nothing to change.  So what a change does is
told by what loading yields and by what becomes of the saving (`comesTo`), and a record is saved
wherever a text can be written, if its numbers can be (`exec_save`, `exec_save_huge`).
-/

namespace Conductor.Progress

open Act Text

/-- A change of the record. -/
inductive Change where
  | activate (name : String)
  | started (index : Int)
  | completed (index : Int)
  | clear
  deriving DecidableEq

namespace Change

/-- How a change is made in the file. -/
def act (path : Path) : Change → Act Unit
  | activate name => setActiveTemplate path name
  | started index => recordStarted path index
  | completed index => recordCompleted path index
  | clear => Progress.clear path

/-- The record after a change. -/
def edit (p : Progress) : Change → Progress
  | activate name =>
    if name = p.activeTemplate then p
    else if p.activeTemplate = "" then { p with activeTemplate := name }
    else { activeTemplate := name }
  | started index => p.markStarted index
  | completed index => p.markCompleted index
  | clear => p.cleared

/-- The step that a change marks. -/
def step? : Change → Option Int
  | started index | completed index => some index
  | activate _ | clear => none

/-- The name of a template is a proper text. -/
def Proper (c : Change) : Prop := ∀ name, c = activate name → LoneHalf.occursIn name = false

/-- The number of the step can be written. -/
def Writable (c : Change) : Prop := ∀ index ∈ c.step?, isHuge index = false

end Change

variable {path : Path} {p : Progress} {w w' : World} {c : Change} {content : Option (List UInt8)}

/-! ### Editing a record -/

/-- The numbers of a record can be written. -/
def Printable (p : Progress) : Prop := ∀ n ∈ p.completed ++ p.notCompleted, isHuge n = false

theorem isHuge_eq_false_iff {n : Int} : isHuge n = false ↔ Fits n := by
  unfold isHuge Fits
  rw [decide_eq_false_iff_not, Nat.not_lt]

theorem mem_edit_of_step? {index : Int} (h : c.step? = some index) :
    index ∈ (c.edit p).completed ++ (c.edit p).notCompleted := by
  cases c with
  | started i =>
    cases h
    exact List.mem_append_right _ (mem_notCompleted_markStarted.mpr (.inr rfl))
  | completed i =>
    cases h
    exact List.mem_append_left _ (mem_completed_markCompleted.mpr (.inr rfl))
  | activate name => cases h
  | clear => cases h

/-- A change adds the number of its step and no other one. -/
theorem mem_of_mem_edit {n : Int} (h : n ∈ (c.edit p).completed ++ (c.edit p).notCompleted) :
    n ∈ p.completed ++ p.notCompleted ∨ c.step? = some n := by
  cases c with
  | activate name =>
    rw [Change.edit] at h
    split at h
    · exact .inl h
    · split at h
      · exact .inl h
      · cases h
  | started index =>
    rcases List.mem_append.mp h with h | h
    · exact .inl (List.mem_append_left _ h)
    · rcases mem_notCompleted_markStarted.mp h with h | rfl
      · exact .inl (List.mem_append_right _ h)
      · exact .inr rfl
  | completed index =>
    rcases List.mem_append.mp h with h | h
    · rcases mem_completed_markCompleted.mp h with h | rfl
      · exact .inl (List.mem_append_left _ h)
      · exact .inr rfl
    · exact .inl (List.mem_append_right _ (mem_notCompleted_markCompleted.mp h).1)
  | clear => cases h

theorem Printable.edit (h : Printable p) (hc : c.Writable) : Printable (c.edit p) := by
  intro n hn
  rcases mem_of_mem_edit hn with hn | hn
  · exact h n hn
  · exact hc n hn

theorem writable_of_printable_edit (h : Printable (c.edit p)) : c.Writable :=
  fun index hi => h index (mem_edit_of_step? hi)

theorem exists_isHuge_edit (hc : ¬ c.Writable) :
    ∃ n ∈ (c.edit p).completed ++ (c.edit p).notCompleted, isHuge n = true := by
  unfold Change.Writable at hc
  push Not at hc
  obtain ⟨index, hi, hhuge⟩ := hc
  exact ⟨index, mem_edit_of_step? hi, eq_true_of_ne_false hhuge⟩

theorem occursIn_edit (h : LoneHalf.occursIn p.activeTemplate = false) (hc : c.Proper) :
    LoneHalf.occursIn (c.edit p).activeTemplate = false := by
  cases c with
  | activate name =>
    rw [Change.edit]
    split
    · exact h
    · split <;> exact hc name rfl
  | _ => exact h

/-! ### Saving a record -/

/-- A record whose numbers can be written is saved and is the one that the file holds then. -/
theorem exec_save (h : Contents path w content)
    (hname : LoneHalf.occursIn p.activeTemplate = false) (hnow : w.now.InCalendar)
    (hn : Printable p) : ∃ s, (save path p).exec w = (.ok (), { w with store := s }) ∧
      path.names ≠ [] ∧ ∃ t, s.readText w.cwd path = .ok t ∧ ofText t = .record p := by
  obtain ⟨s, hs, hdir, hwrite, -⟩ := h.exec_ensureDirectory
  obtain ⟨s', hs'⟩ := hwrite (p.toJson w.now).document
  have hany : (p.completed ++ p.notCompleted).any isHuge = false :=
    List.any_eq_false.mpr fun n h => ne_true_of_eq_false (hn n h)
  refine ⟨s', ?_, Store.names_ne_nil_of_writeBytes hs (Store.writeBytes_of_writeText hs'), _,
    Store.readText_writeText hs' h.hasNul_eq (not_mem_document hname hn),
    ofText_document hname hn hnow⟩
  unfold save
  rw [exec_bind_of_ok hdir, hany, if_neg Bool.false_ne_true, exec_bind_of_ok (exec_get _)]
  exact exec_writeText h.hasNul_eq hs'

/-- A record with a number that cannot be written is not saved. -/
theorem exec_save_huge (h : Contents path w content)
    (hn : ∃ n ∈ p.completed ++ p.notCompleted, isHuge n = true) :
    ∃ s, (save path p).exec w = (.error (.value hugeMessage), { w with store := s }) ∧
      Contents path { w with store := s } content := by
  -- The directory is made before the numbers are written.
  obtain ⟨s, -, hdir, -, hcontents⟩ := h.exec_ensureDirectory
  refine ⟨s, ?_, hcontents⟩
  unfold save
  rw [exec_bind_of_ok hdir, List.any_eq_true.mpr hn, if_pos rfl]
  rfl

/-! ### Making a change -/

/-- What a change comes to where the record `p` is loaded. -/
inductive ComesTo (path : Path) (c : Change) (p : Progress) (w : World) : Prop
  /-- The record stays as it is, and nothing is written. -/
  | nothing (he : c.edit p = p) (log : Array Record)
    (hx : (c.act path).exec w = (.ok (), w.withLog log))
  /-- The changed record is saved, and the change ends as that does. -/
  | saving (log : Array Record)
    (hx : ∀ r w', (save path (c.edit p)).exec (w.withLog log) = (r, w') →
      ∃ log', (c.act path).exec w = (r, w'.withLog log'))

variable {log : Array Record}

theorem comesTo_activate {name : String} (hload : (load path).exec w = (.ok p, w.withLog log)) :
    ComesTo path (.activate name) p w := by
  have hact : ((Change.activate name).act path).exec w = (setActiveTemplate path name).exec w := rfl
  unfold setActiveTemplate at hact
  rw [exec_bind_of_ok hload] at hact
  by_cases hsame : p.activeTemplate = name
  · rw [if_pos (beq_iff_eq.mpr hsame)] at hact
    exact .nothing (if_pos hsame.symm) log hact
  · rw [if_neg fun he => hsame (beq_iff_eq.mp he)] at hact
    have hedit : (Change.activate name).edit p = _ := if_neg fun he => hsame he.symm
    by_cases hempty : p.activeTemplate = ""
    · rw [if_pos (String.isEmpty_iff.mpr hempty)] at hact
      rw [if_pos hempty] at hedit
      refine .saving log fun r w' hx => ⟨w'.log, hact.trans ?_⟩
      rw [← hedit]
      exact hx
    · rw [if_neg fun he => hempty (String.isEmpty_iff.mp he), exec_note_bind] at hact
      rw [if_neg hempty] at hedit
      generalize List.foldl Array.push _ _ = log' at hact
      refine .saving log' fun r w' hx => ⟨w'.log, hact.trans ?_⟩
      rw [← hedit]
      exact hx

theorem comesTo_started {index : Int} (hload : (load path).exec w = (.ok p, w.withLog log)) :
    ComesTo path (.started index) p w := by
  have hact : ((Change.started index).act path).exec w = (recordStarted path index).exec w := rfl
  unfold recordStarted at hact
  rw [exec_bind_of_ok hload] at hact
  cases hthere : p.notCompleted.contains index with
  | true =>
    -- Nothing is written where the step is among the unfinished ones already.
    rw [hthere, if_pos rfl] at hact
    refine .nothing ?_ log hact
    show p.markStarted index = p
    unfold markStarted
    rw [hthere, if_pos rfl]
  | false =>
    rw [hthere, if_neg Bool.false_ne_true] at hact
    exact .saving log fun r w' hx => ⟨w'.log, hact.trans hx⟩

theorem comesTo_completed {index : Int} (hload : (load path).exec w = (.ok p, w.withLog log)) :
    ComesTo path (.completed index) p w := by
  refine .saving log fun r w' hx => ?_
  have hact : ((Change.completed index).act path).exec w = (recordCompleted path index).exec w :=
    rfl
  unfold recordCompleted at hact
  have hx : (save path (p.markCompleted index)).exec (w.withLog log) = (r, w') := hx
  rw [exec_bind_of_ok hload, exec_bind, hx] at hact
  cases r with
  | ok u => exact ⟨_, hact⟩
  | error e => exact ⟨w'.log, hact⟩

theorem comesTo_clear (hload : (load path).exec w = (.ok p, w.withLog log))
    (hholds : (holds path).exec w = (.ok true, w) ∨ ((holds path).exec w = (.ok false, w) ∧ p = {})) :
    ComesTo path .clear p w := by
  have hact : (Change.clear.act path).exec w = (Progress.clear path).exec w := rfl
  unfold Progress.clear at hact
  rcases hholds with hheld | ⟨hheld, rfl⟩
  · rw [exec_bind_of_ok hheld, Bool.not_true, if_neg Bool.false_ne_true, exec_bind_of_ok hload,
      exec_note_bind] at hact
    generalize List.foldl Array.push _ _ = log' at hact
    exact .saving log' fun r w' hx => ⟨w'.log, hact.trans hx⟩
  · rw [exec_bind_of_ok hheld, Bool.not_false, if_pos rfl] at hact
    exact .nothing rfl w.log hact

/-- A change of a record that is loaded saves the changed record, unless there is nothing to
change. -/
theorem comesTo (c : Change) (hload : (load path).exec w = (.ok p, w.withLog log))
    (hholds : (holds path).exec w = (.ok true, w) ∨ ((holds path).exec w = (.ok false, w) ∧ p = {})) :
    ComesTo path c p w := by
  cases c with
  | activate name => exact comesTo_activate hload
  | started index => exact comesTo_started hload
  | completed index => exact comesTo_completed hload
  | clear => exact comesTo_clear hload hholds

theorem exec_holds_of_contents (h : Contents path w content) :
    (holds path).exec w = (.ok content.isSome, w) := by
  cases h with
  | file hp hnul hb =>
    rw [Act.exec_holds, held_of_readBytes hb, hnul]
    rfl
  | room h => exact h.exec_holds

end Conductor.Progress
