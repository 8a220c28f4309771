import Conductor.Proofs.Action
import Conductor.State.SignalFile

/-!
# Signals are read once

What reading a signal yields depends on the files and on what has been seen or waits, not on the
log, and it changes nothing but what has been seen or waits (`exec_readSafely`).  What has been read
is not read again (`unread?_look`).
-/

namespace Conductor.SignalWay

open Act Text

variable {way : SignalWay} {dir : Path} {w w' : World} {signal : Option Signal}

/-- What looking at the signal file at a path finds, and what has been seen then. -/
def lookAtFile (path : Path) (s : Store) (cwd : Path) (box : Mailbox) :
    Except Fault (Option Signal) × Mailbox :=
  if path.hasNul then (.error (.read .nul), box)
  else match s.stat cwd path, s.readText cwd path with
    | .error .missing, _ => (.ok none, box)
    | .error cause, _ =>
      let e : FileError := ⟨cause, path.toString⟩
      (.error (.signal s!"Failed to read behavior file {path}: {e.message}"), box)
    | _, .error (.file e) =>
      (.error (.signal s!"Failed to read behavior file {path}: {e.message}"), box)
    | _, .error e => (.error (.read e), box)
    | .ok (_, node), .ok text =>
      let modified := match node with
        | .file _ modified => modified
        | .directory => 0
      let v : Version := ⟨modified, text⟩
      (if (box.notice path v).1 then Signal.ofText path text else .ok none, (box.notice path v).2)

/-- What looking for the signal of a working directory finds, and what has been seen or waits
then. -/
def look (way : SignalWay) (dir : Path) (w : World) : Except Fault (Option Signal) × Mailbox :=
  match way with
  | .file stateDir => lookAtFile (signalFile stateDir dir) w.store w.cwd w.mailbox
  | .mailbox => (.ok (w.mailbox.take dir).1, (w.mailbox.take dir).2)

theorem exec_ifNews (isNews : Bool) (r : Except Fault (Option Signal)) (w : World) :
    (if isNews then Act.lift r else pure none : Act (Option Signal)).exec w =
      (if isNews then r else .ok none, w) := by
  cases isNews with
  | true => exact exec_lift r w
  | false => rfl

theorem exec_readFile (path : Path) (w : World) :
    (readFile path).exec w = ((lookAtFile path w.store w.cwd w.mailbox).1,
      { w with mailbox := (lookAtFile path w.store w.cwd w.mailbox).2 }) := by
  unfold readFile lookAtFile
  rw [exec_bind, exec_get]
  dsimp only
  cases path.hasNul with
  | true => rfl
  | false =>
    simp only [Bool.false_eq_true, ↓reduceIte]
    cases w.store.stat w.cwd path with
    | error cause => cases cause <;> rfl
    | ok found =>
      cases w.store.readText w.cwd path with
      | error e => cases e <;> rfl
      | ok text =>
        obtain ⟨place, node⟩ := found
        cases node with
        | directory => exact exec_ifNews _ _ _
        | file content modified => exact exec_ifNews _ _ _

theorem exec_read (way : SignalWay) (dir : Path) (w : World) :
    (read way dir).exec w = ((look way dir w).1, { w with mailbox := (look way dir w).2 }) := by
  cases way with
  | file stateDir => exact exec_readFile _ w
  | mailbox => rfl

/-- What is made of a look: a malformed signal counts as none. -/
def heard : Except Fault (Option Signal) → Except Fault (Option Signal)
  | .ok signal => .ok signal
  | .error (.signal _) => .ok none
  | .error f => .error f

theorem exec_readSafely (way : SignalWay) (dir : Path) (w : World) :
    ∃ log, (readSafely way dir).exec w = (heard (look way dir w).1,
      { w with mailbox := (look way dir w).2 }.withLog log) := by
  unfold readSafely
  rw [exec_bind_of_ok (exec_attempt _ w), exec_read]
  cases (look way dir w).1 with
  | ok signal => exact ⟨w.log, rfl⟩
  | error f =>
    cases f with
    | signal message => exact ⟨_, exec_note_bind ..⟩
    | _ => exact ⟨w.log, rfl⟩

/-! ### Unread signals -/

/-- The signal that a look found, if any. -/
def found : Except Fault (Option Signal) → Option Signal
  | .ok signal => signal
  | .error _ => none

/-- The signal that reading would yield. -/
def unread? (way : SignalWay) (dir : Path) (w : World) : Option Signal :=
  found (look way dir w).1

/-- A file that has been looked at yields no signal once more. -/
theorem found_lookAtFile_again (path : Path) (s : Store) (cwd : Path) (box : Mailbox) :
    found (lookAtFile path s cwd (lookAtFile path s cwd box).2).1 = none := by
  by_cases hnul : path.hasNul = true
  · simp [lookAtFile, hnul, found]
  · rcases hs : s.stat cwd path with cause | ⟨place, node⟩
    · cases cause <;> simp [lookAtFile, hnul, hs, found]
    · rcases ht : s.readText cwd path with e | text
      · cases e <;> simp [lookAtFile, hnul, hs, ht, found]
      · simp [lookAtFile, hnul, hs, ht, found, Mailbox.notice_notice]

theorem unread?_withLog (way : SignalWay) (dir : Path) (w : World) (log : Array Record) :
    unread? way dir (w.withLog log) = unread? way dir w := by
  cases way <;> rfl

/-- What has been looked at is not found once more. -/
theorem unread?_look (way : SignalWay) (dir : Path) (w : World) :
    unread? way dir { w with mailbox := (look way dir w).2 } = none := by
  cases way with
  | mailbox => exact Mailbox.take_take w.mailbox dir
  | file stateDir =>
    have h := found_lookAtFile_again (signalFile stateDir dir) w.store w.cwd w.mailbox
    exact h

/-- Reading yields the unread signal and leaves none. -/
theorem unread?_of_readSafely (h : (readSafely way dir).exec w = (.ok signal, w')) :
    signal = unread? way dir w ∧ unread? way dir w' = none := by
  obtain ⟨log, he⟩ := exec_readSafely way dir w
  obtain ⟨hs, rfl⟩ := Prod.mk.inj (he.symm.trans h)
  refine ⟨?_, (unread?_withLog ..).trans (unread?_look way dir w)⟩
  unfold unread?
  cases hl : (look way dir w).1 with
  | ok signal =>
    rw [hl] at hs
    exact (Except.ok.inj hs).symm
  | error f =>
    rw [hl] at hs
    cases f with
    | signal message => exact (Except.ok.inj hs).symm
    | _ => cases hs

/-- A signal that waits in the mailbox stays unread when nothing is posted and taken. -/
theorem unread?_mailbox_congr (h : w'.mailbox = w.mailbox) :
    unread? .mailbox dir w' = unread? .mailbox dir w := by
  show (w'.mailbox.take dir).1 = (w.mailbox.take dir).1
  rw [h]

end Conductor.SignalWay
