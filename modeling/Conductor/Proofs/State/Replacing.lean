import Conductor.Proofs.State.Registry
import Conductor.Proofs.State.Veil

/-!
# Writing files over

What was in a file is gone once it is written over, and it makes no difference whether there was a
file (`Store.withFile_withFile`, `Store.withFile_removeNode`).  Where a file can be written over
(`Replaceable`), texts and records are saved by doing so, and so a step is recorded as started and
the first agent run is put on record.  A file that is there can be written over, and still can when
it has been taken away (`Replaceable.of_contents`).

Main statement: making a template the active one and clearing its progress is to write one record
over the former one, which keeps nothing but the flag of it (`Progress.exec_beginAnew`,
`Progress.anew_eq`).
-/

namespace Conductor

open Act

namespace Store

variable {s : Store} {base path : Path} {place : Place} {content : List UInt8}

/-- What was in a file does not matter once it is written over. -/
theorem withFile_withFile (s : Store) (place : Place) (content content' : List UInt8)
    (modified modified' : Int) :
    (s.withFile place content modified).withFile place content' modified' =
      s.withFile place content' modified' := by
  have h := putNode_removeNode (s.putNode place (.file content modified)) place
    (.file content' modified')
  rw [removeNode_putNode, putNode_removeNode] at h
  exact congrArg (fun t : Store => { t with clock := modified' + 1 }) h.symm

/-- Nor does it matter that there was none. -/
theorem withFile_removeNode (s : Store) (place : Place) (clock : Int) (content : List UInt8)
    (modified : Int) :
    ({ s.removeNode place with clock := clock } : Store).withFile place content modified =
      s.withFile place content modified :=
  congrArg (fun t : Store => { t with clock := modified + 1 })
    (putNode_removeNode s place (.file content modified))

theorem isDirectory_of_directories {s' : Store} (h : s.DirectoriesIn s')
    (hdir : s.isDirectory base path = true) : s'.isDirectory base path = true := by
  obtain ⟨place, hl, hplace⟩ := isDirectory_iff.mp hdir
  exact isDirectory_iff.mpr ⟨place, locate_of_directories h hl, h place hplace⟩

theorem at?_removeNode_self (s : Store) (h : place ≠ []) :
    (s.removeNode place).at? place = none := by
  unfold at? removeNode
  rw [if_neg h]
  simp

end Store

/-- The world without what stands at a place, at some moment of the store's clock. -/
def World.without (w : World) (place : Place) (clock : Int) : World :=
  { w with store := { w.store.removeNode place with clock := clock } }

/-- A file can be written at a path, below a directory that is there. -/
structure Replaceable (path : Path) (place : Place) (w : World) : Prop where
  hasNul_eq : path.hasNul = false
  directory : w.store.isDirectory w.cwd path.parent = true
  locate_eq : w.store.locate w.cwd path = .ok place
  ne_directory : w.store.at? place ≠ some .directory

namespace Replaceable

variable {path : Path} {place : Place} {w : World} {p : Progress}

theorem place_ne_nil (h : Replaceable path place w) : place ≠ [] := by
  rintro rfl
  exact h.ne_directory rfl

theorem writeBytes (h : Replaceable path place w) (content : List UInt8) :
    w.store.writeBytes w.cwd path content =
      .ok (w.store.withFile place content w.store.clock) := by
  have habove := Store.at?_dropLast_of_locate h.locate_eq h.place_ne_nil
  have hne := h.ne_directory
  rw [Store.writeBytes_eq, h.locate_eq]
  dsimp only
  rw [habove]
  cases hn : w.store.at? place with
  | none => rfl
  | some node =>
    cases node with
    | directory => exact absurd hn hne
    | file bytes modified => rfl

theorem exec_writeText (h : Replaceable path place w) (text : String) :
    (Act.writeText path text).exec w = (.ok (), { w with
      store := w.store.withFile place (Text.Utf8.encodeText text) w.store.clock }) := by
  refine Act.exec_writeText h.hasNul_eq ?_
  unfold Store.writeText
  rw [h.writeBytes]

theorem exec_ensureParent (h : Replaceable path place w) :
    (Act.ensureDirectory path.parent).exec w = (.ok (), w) :=
  exec_ensureDirectory (Path.hasNul_parent h.hasNul_eq)
    (Store.ensureDirectory_of_isDirectory h.directory)

theorem exec_saveText (h : Replaceable path place w) (text : String) :
    (Act.saveText path text).exec w = (.ok (), { w with
      store := w.store.withFile place (Text.Utf8.encodeText text) w.store.clock }) :=
  (exec_bind_of_ok h.exec_ensureParent).trans (h.exec_writeText text)

/-- A record that can be written is saved there. -/
theorem exec_save (h : Replaceable path place w) (hn : Progress.Printable p) :
    (Progress.save path p).exec w = (.ok (), { w with
      store := w.store.withFile place (p.written w.now) w.store.clock }) := by
  have hany : (p.completed ++ p.notCompleted).any Progress.isHuge = false :=
    List.any_eq_false.mpr fun n hmem => ne_true_of_eq_false (hn n hmem)
  unfold Progress.save
  rw [exec_bind_of_ok h.exec_ensureParent, hany, if_neg Bool.false_ne_true,
    exec_bind_of_ok (exec_get _)]
  exact h.exec_writeText _

/-- After a file has been written, one can be written over it. -/
theorem withFile (h : Replaceable path place w) (content : List UInt8) (log : Array Record) :
    Replaceable path place
      { w with store := w.store.withFile place content w.store.clock, log := log } := by
  have hdirs := Store.directoriesIn_writeBytes (h.writeBytes content)
  refine ⟨h.hasNul_eq, ?_, Store.locate_of_directories hdirs h.locate_eq, ?_⟩
  · exact Store.isDirectory_of_directories hdirs h.directory
  · have hput := Store.at?_putNode_self w.store h.place_ne_nil (.file content w.store.clock)
    intro hdir
    cases hput.symm.trans hdir

theorem withLog (h : Replaceable path place w) (log : Array Record) :
    Replaceable path place (w.withLog log) :=
  ⟨h.hasNul_eq, h.directory, h.locate_eq, h.ne_directory⟩

/-- A file that is there can be written over, and made anew when it has been taken away. -/
theorem of_contents {bytes : List UInt8} (h : Contents path w (some bytes)) :
    Replaceable path (Path.resolve w.cwd path).names w ∧
      ∀ clock, Replaceable path (Path.resolve w.cwd path).names
        (w.without (Path.resolve w.cwd path).names clock) := by
  cases h with
  | file hp hnul hb =>
    obtain ⟨place, modified, hl, hf⟩ := Store.readBytes_eq_ok_iff.mp hb
    obtain rfl := Store.names_resolve_of_locate hl
    have hdir := Store.isDirectory_parent_of_readBytes hp hb
    have hne : w.store.at? (Path.resolve w.cwd path).names ≠ some .directory := by
      intro hdir
      cases hf.symm.trans hdir
    refine ⟨⟨hnul, hdir, hl, hne⟩, fun clock => ?_⟩
    -- No directory goes away with the file.
    have hdirs : w.store.DirectoriesIn
        (w.without (Path.resolve w.cwd path).names clock).store := by
      intro p hp
      have hother : p ≠ (Path.resolve w.cwd path).names := by
        rintro rfl
        exact hne hp
      exact (Store.at?_removeNode_of_ne _ hother).trans hp
    have hroot : (Path.resolve w.cwd path).names ≠ [] := by
      intro hroot
      exact hne (hroot ▸ rfl)
    refine ⟨hnul, Store.isDirectory_of_directories hdirs hdir,
      Store.locate_of_directories hdirs hl, ?_⟩
    have hnone : (w.without (Path.resolve w.cwd path).names clock).store.at?
        (Path.resolve w.cwd path).names = none := Store.at?_removeNode_self _ hroot
    rw [hnone]
    exact nofun

theorem held_of_none (h : Replaceable path place w) (hnone : w.store.at? place = none) :
    w.store.held w.cwd path = .ok false := by
  unfold Store.held Store.stat
  rw [h.hasNul_eq, if_neg Bool.false_ne_true, h.locate_eq]
  simp only [bind, Except.bind, hnone]

/-- Where nothing stands at the place, a fresh record does. -/
theorem stored_of_none (h : Replaceable path place w) (hnone : w.store.at? place = none) :
    Progress.stored w.store w.cwd path = .ok {} := by
  unfold Progress.stored Progress.foundIn
  rw [h.held_of_none hnone]

/-- A step is recorded as started by writing the record over. -/
theorem exec_recordStarted (hw : Replaceable path place w) {index : Int}
    (hp : Progress.stored w.store w.cwd path = .ok p) (hn : Progress.Printable p)
    (hwritable : (Progress.Change.started index).Writable)
    (hnew : index ∉ p.notCompleted) :
    ∃ log, (Progress.recordStarted path index).exec w = (.ok (), { w with
      store := w.store.withFile place ((p.markStarted index).written w.now) w.store.clock
      log := log }) := by
  obtain ⟨log, hload⟩ := Progress.exec_load path w
  rw [hp] at hload
  have hcomes : Progress.ComesTo path (.started index) p w := Progress.comesTo_started hload
  cases hcomes with
  | nothing he =>
    refine absurd ?_ hnew
    rw [← he]
    exact Progress.mem_notCompleted_markStarted.mpr (.inr rfl)
  | saving log hx =>
    have hsave := (hw.withLog log).exec_save (hn.edit hwritable)
    exact hx _ _ hsave

/-- The first run is put on record in a file of its own. -/
theorem exec_start (hw : Replaceable path place w) (hnone : w.store.at? place = none)
    {agentId name : String} {parentId : Option String}
    (hr : (Registry.started agentId name parentId w).Proper) :
    ∃ content w', w' = { w with
        store := w.store.withFile place content w.store.clock
        nextRun := w.nextRun + 1 } ∧
      (Registry.start path agentId name parentId).exec w =
        (.ok (Registry.started agentId name parentId w), w') ∧
      Registry.InFile path [Registry.started agentId name parentId w] w' := by
  have hload : (Registry.load path).exec w = (.ok [], w) := by
    unfold Registry.load
    rw [exec_bind, exec_holds, hw.held_of_none hnone]
    rfl
  have hw' : Replaceable path place { w with nextRun := w.nextRun + 1 } :=
    ⟨hw.hasNul_eq, hw.directory, hw.locate_eq, hw.ne_directory⟩
  have hsave := hw'.exec_saveText
    (Registry.document [Registry.started agentId name parentId w])
  refine ⟨_, _, rfl, ?_, (Registry.inFile_of_save (List.forall_mem_singleton.mpr hr) hsave).1⟩
  rw [Registry.exec_start_of_load hload]
  exact exec_bind_of_ok hsave

end Replaceable

namespace Progress

variable {path : Path} {place : Place} {w : World} {p : Progress} {name : String}

theorem InFile.withLog (h : InFile path p w) (log : Array Record) : InFile path p (w.withLog log) :=
  ⟨h.stored_eq, h.isFile⟩

theorem activeTemplate_edit_activate (p : Progress) (name : String) :
    ((Change.activate name).edit p).activeTemplate = name := by
  rw [Change.edit]
  split
  · next h => exact h.symm
  · split <;> rfl

/-- The record of a fresh run of a template: nothing but the flag is left of the former one. -/
def anew (p : Progress) (name : String) : Progress := ((Change.activate name).edit p).cleared

theorem anew_eq (p : Progress) (name : String) :
    p.anew name = { activeTemplate := name, resume := (p.anew name).resume } := by
  unfold anew cleared
  rw [activeTemplate_edit_activate]

/-- How often the record is written when a fresh run of a template begins. -/
def writes (p : Progress) (name : String) : Int := if p.activeTemplate = name then 1 else 2

/-- The template that is active already stays so without a write. -/
theorem exec_setActiveTemplate_of_eq (hp : stored w.store w.cwd path = .ok p)
    (h : p.activeTemplate = name) :
    ∃ log, (setActiveTemplate path name).exec w = (.ok (), w.withLog log) := by
  obtain ⟨log, hload⟩ := exec_load path w
  rw [hp] at hload
  refine ⟨log, ?_⟩
  unfold setActiveTemplate
  rw [exec_bind_of_ok hload, if_pos (beq_iff_eq.mpr h)]
  rfl

/-- Another template is made the active one by writing the record that it changes. -/
theorem exec_setActiveTemplate_of_ne (hw : Replaceable path place w)
    (hp : stored w.store w.cwd path = .ok p) (hn : Printable p) (h : p.activeTemplate ≠ name) :
    ∃ log, (setActiveTemplate path name).exec w = (.ok (), { w with
      store := w.store.withFile place (((Change.activate name).edit p).written w.now)
        w.store.clock
      log := log }) := by
  obtain ⟨log, hload⟩ := exec_load path w
  rw [hp] at hload
  have hedit : Printable ((Change.activate name).edit p) := hn.edit nofun
  have hcomes : ComesTo path (.activate name) p w := comesTo_activate hload
  cases hcomes with
  | nothing he => exact absurd (he ▸ activeTemplate_edit_activate p name) h
  | saving log hx =>
    obtain ⟨log', hx'⟩ := hx _ _ ((hw.withLog log).exec_save hedit)
    exact ⟨log', hx'⟩

/-- A record that is there is cleared by writing it without its steps. -/
theorem exec_clear (hw : Replaceable path place w) (hp : InFile path p w) :
    ∃ log, (Progress.clear path).exec w = (.ok (), { w with
      store := w.store.withFile place (p.cleared.written w.now) w.store.clock
      log := log }) := by
  obtain ⟨bytes, hb⟩ := hp.isFile
  obtain ⟨log, hload⟩ := exec_load path w
  rw [hp.stored_eq] at hload
  have hheld : (holds path).exec w = (.ok true, w) := by
    rw [Act.exec_holds, held_of_readBytes hb, hw.hasNul_eq]
    rfl
  have hnone : Printable p.cleared := List.forall_mem_nil _
  unfold Progress.clear
  rw [exec_bind_of_ok hheld, Bool.not_true, if_neg Bool.false_ne_true, exec_bind_of_ok hload,
    exec_note_bind]
  exact ⟨_, (hw.withLog _).exec_save hnone⟩

/-- A fresh run begins with a record that is written over the former one. -/
theorem exec_beginAnew (hw : Replaceable path place w) (hp : stored w.store w.cwd path = .ok p)
    (hn : Printable p) (hne : name ≠ "") (hname : Text.LoneHalf.occursIn name = false)
    (hnow : w.now.InCalendar) :
    ∃ log, (do setActiveTemplate path name; Progress.clear path : Act Unit).exec w =
      (.ok (), { w with
        store := w.store.withFile place ((p.anew name).written w.now)
          (w.store.clock + p.writes name - 1)
        log := log }) := by
  unfold writes
  by_cases h : p.activeTemplate = name
  · have hfile : InFile path p w := by
      refine inFile_of_stored hp ?_
      rintro rfl
      exact hne h.symm
    obtain ⟨log, hx⟩ := exec_setActiveTemplate_of_eq hp h
    obtain ⟨log', hx'⟩ := exec_clear (hw.withLog log) (hfile.withLog log)
    have hedit : (Change.activate name).edit p = p := if_pos h.symm
    refine ⟨log', ?_⟩
    rw [exec_bind_of_ok hx, hx', if_pos h, add_sub_cancel_right]
    unfold anew
    rw [hedit]
    rfl
  · obtain ⟨log, hx⟩ := exec_setActiveTemplate_of_ne hw hp hn h
    have hedit : Printable ((Change.activate name).edit p) := hn.edit nofun
    have hproper :
        Text.LoneHalf.occursIn ((Change.activate name).edit p).activeTemplate = false := by
      rw [activeTemplate_edit_activate]
      exact hname
    have hfile := (inFile_of_save hproper hnow (hw.exec_save hedit)).withLog log
    obtain ⟨log', hx'⟩ := exec_clear (hw.withFile _ log) hfile
    refine ⟨log', ?_⟩
    rw [exec_bind_of_ok hx, hx', if_neg h, Store.withFile_withFile]
    have hclock : w.store.clock + 2 - 1 = w.store.clock + 1 := by omega
    rw [hclock]
    rfl

end Progress

end Conductor
