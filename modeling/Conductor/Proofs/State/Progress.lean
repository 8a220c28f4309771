import Conductor.Proofs.Action
import Conductor.State.Progress

/-!
# Progress as it stands in the store

`Progress.stored` is the record that the file at a path stands for, read off the store alone.
Loading yields it and changes nothing but the log (`exec_load`).
-/

namespace Conductor

open Act

namespace Progress

/-- What reading the record's file finds in a store. -/
def foundIn (s : Store) (cwd path : Path) : Except Fault Found :=
  match s.held cwd path with
  | .error e => .error e
  | .ok false => .ok (.record {})
  | .ok true =>
    match s.readText cwd path with
    | .ok text => .ok (ofText text)
    | .error (.file e) => .ok (.unreadable e.message)
    | .error e => .ok (.fault (.read e))

/-- The record that the file at a path stands for, a fresh one where it holds none. -/
def stored (s : Store) (cwd path : Path) : Except Fault Progress :=
  match foundIn s cwd path with
  | .error e => .error e
  | .ok (.record p) => .ok p
  | .ok (.unreadable _) => .ok {}
  | .ok (.fault e) => .error e

theorem exec_find (path : Path) (w : World) :
    (find path).exec w = (foundIn w.store w.cwd path, w) := by
  unfold find foundIn
  rw [exec_bind, exec_holds]
  cases w.store.held w.cwd path with
  | error e => rfl
  | ok there =>
    cases there with
    | false => rfl
    | true =>
      show (readText path >>= _ : Act Found).exec w = _
      rw [exec_bind_of_ok (exec_readText path w)]
      cases w.store.readText w.cwd path with
      | ok text => rfl
      | error e => cases e <;> rfl

/-- Loading yields the record that stands in the store and changes nothing but the log. -/
theorem exec_load (path : Path) (w : World) :
    ∃ log, (load path).exec w = (stored w.store w.cwd path, w.withLog log) := by
  unfold load stored
  rw [exec_bind, exec_find]
  cases foundIn w.store w.cwd path with
  | error e => exact ⟨w.log, rfl⟩
  | ok found =>
    cases found with
    | record p => exact ⟨w.log, rfl⟩
    | fault e => exact ⟨w.log, rfl⟩
    | unreadable reason => exact ⟨_, exec_note_bind ..⟩

theorem keeps_load {P : World → Prop} (hP : LogFree P) (path : Path) : Keeps P (load path) := by
  intro w hw
  obtain ⟨log, h⟩ := exec_load path w
  rw [h]
  exact hP w log hw

section

variable {P : World → Prop} {path : Path}
  (hdir : ∀ w s, P w → w.store.ensureDirectory w.cwd path.parent = .ok s → P { w with store := s })
  (hwrite : ∀ w text s, P w → w.store.writeText w.cwd path text = .ok s → P { w with store := s })
include hdir hwrite

/-- Recording keeps what outlasts the record being written and its directory being made. -/
theorem keeps_save (p : Progress) : Keeps P (save path p) := by
  refine (Keeps.ensureDirectory fun w s hw hs => hdir w s hw hs).bind fun _ => ?_
  split
  · exact Keeps.throw _
  · exact Keeps.get_bind fun w hw => Keeps.writeText (fun w s hw hs => hwrite w _ s hw hs) w hw

theorem keeps_recordCompleted (hP : LogFree P) (index : Int) :
    Keeps P (recordCompleted path index) :=
  (keeps_load hP path).bind fun _ => (keeps_save hdir hwrite _).bind fun _ => Keeps.note hP _

theorem keeps_recordStarted (hP : LogFree P) (index : Int) :
    Keeps P (recordStarted path index) := by
  refine (keeps_load hP path).bind fun p => ?_
  split
  · exact Keeps.pure _
  · exact keeps_save hdir hwrite _

end

end Progress

end Conductor
