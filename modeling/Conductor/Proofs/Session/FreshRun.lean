import Conductor.Proofs.Session.Refusal
import Conductor.Proofs.State.Replacing
import Conductor.Proofs.Workflow.Blindness
import Conductor.Proofs.Workflow.Onward

/-!
# A fresh run forgets

A fresh run of a template is compared with the one in the same world without the file of progress
(`Session.lacking`).  Each first finds the catalog and the steps (`Session.prepare`), which touches
nothing.  Then it enters the template by writing the record over (`Session.exec_enterTemplate`), so
that when the first step starts the files are the same but for the flag that a record keeps
(`Session.records_anew`, `Session.worlds_entered`).  From there on the workflow runs behind a veil
that hides the flag and what has been logged (`Session.veil`), and a run is blind
(`Workflow.blind_run`).

Main statement: the calls, the outcome, the template and the steps are the same in both runs, if
everything else is (`Session.SameApart`) and what the run calls and reads does not show the flag
(`Session.Conceals`); where the steps are not found, both end alike and leave no trace
(`Session.fresh_run_forgets`).  A run whose agents report the flag does not forget it, nor does one
that is refused forget the record of another template (`Session.not_forgetsRecord_planRoom`).
-/

namespace Conductor

open Act

namespace Path

theorem resolveNames_concat {name : String} (h : name ≠ "..") (done names : List String) :
    resolveNames done (names ++ [name]) = resolveNames done names ++ [name] := by
  induction names generalizing done with
  | nil =>
    rw [List.nil_append, resolveNames, resolveNames, resolveNames, List.reverse_cons]
    exact h
  | cons n names ih =>
    by_cases hdots : n = ".."
    · subst hdots
      exact ih done.tail
    · rw [List.cons_append, resolveNames, resolveNames, ih]
      · exact hdots
      · exact hdots

/-- A name below a path resolves to the same name below the place of the path. -/
theorem names_resolve_child (base path : Path) {name : String} (h : name ≠ "..") :
    (resolve base (path.child name)).names = (resolve base path).names ++ [name] := by
  have hjoin : (base / path.child name).names = (base / path).names ++ [name] := by
    cases ha : path.isAbsolute with
    | true =>
      rw [join_of_isAbsolute base ha, join_of_isAbsolute base (q := path.child name) ha]
      rfl
    | false =>
      rw [join_of_not_isAbsolute base ha, join_of_not_isAbsolute base (q := path.child name) ha]
      exact (List.append_assoc _ _ _).symm
  show resolveNames [] (base / path.child name).names =
    resolveNames [] (base / path).names ++ [name]
  rw [hjoin, resolveNames_concat h]

end Path

/-- What a record tells of a run: the template and the steps that are done or unfinished. -/
def Progress.told (p : Progress) : String × List Int × List Int :=
  (p.activeTemplate, p.completed, p.notCompleted)

namespace Veil

variable {v : Veil} {w w' : World}

theorem Worlds.calls_eq (h : v.Worlds w w') : w'.calls = w.calls := by
  obtain ⟨-, -, -⟩ := h
  rfl

/-- In worlds that look the same the hidden record tells the same. -/
theorem Worlds.told_eq (h : v.Worlds w w') :
    (Progress.stored w'.store w'.cwd v.file).map Progress.told =
      (Progress.stored w.store w.cwd v.file).map Progress.told := by
  obtain ⟨hcwd, hs, -⟩ := h
  dsimp only
  rw [hcwd]
  rcases hs.alike_stored.cases with ⟨p, p', hp, hp', h⟩ | ⟨e, he, he'⟩
  · rw [hp, hp']
    rcases h with rfl | ⟨-, -, h⟩
    · rfl
    · rw [h]
      rfl
  · rw [he, he']

end Veil

namespace Schema

/-- A text that passes the check of a field for which it must not be empty. -/
theorem proper_of_field {members : List (String × Json)} {f : FieldName} {text : String}
    (h : field members f nonEmptyText = .ok text) :
    text ≠ "" ∧ Text.LoneHalf.occursIn text = false := by
  unfold field at h
  split at h
  · next name value _ =>
    cases value with
    | str given =>
      unfold nonEmptyText whole at h
      dsimp only at h
      split at h
      · cases h
      · next hproper =>
        split at h
        · cases h
        · next hempty =>
          cases h
          exact ⟨fun he => hempty (String.isEmpty_iff.mpr he), eq_false_of_ne_true hproper⟩
    | _ => cases h
  · cases h

end Schema

/-- A template that passes the check has a name, and it is a proper text. -/
theorem Template.name_of_check {value : Json} {t : Template} (h : Template.check value = .ok t) :
    t.name ≠ "" ∧ Text.LoneHalf.occursIn t.name = false := by
  unfold Template.check Schema.closedRecord Schema.record at h
  split at h
  · next members =>
    dsimp only at h
    split at h
    · cases h
    · -- The name is checked before what is said of the steps and the agents.
      obtain ⟨_, _, hbuilt, -, rfl⟩ := Schema.Checked.ap_eq_ok_iff.mp h
      obtain ⟨built, h₃, rfl⟩ := Schema.Checked.map_eq_ok_iff.mp hbuilt
      obtain ⟨_, _, h₂, -, rfl⟩ := Schema.Checked.ap_eq_ok_iff.mp h₃
      obtain ⟨_, _, h₁, -, rfl⟩ := Schema.Checked.ap_eq_ok_iff.mp h₂
      obtain ⟨name, hfield, rfl⟩ := Schema.Checked.map_eq_ok_iff.mp h₁
      exact Schema.proper_of_field hfield
  · cases h

theorem Template.exec_toSteps (catalog : Catalog) (t : Template) (w : World) :
    ∃ log, (t.toSteps catalog).exec w =
      ((t.resolve catalog).mapError .resolve, w.withLog log) := by
  unfold Template.toSteps
  rw [exec_note_bind, exec_lift]
  exact ⟨_, rfl⟩

namespace Session

variable {s : Session} {dir : Path} {t : Template} {w w' : World} {bytes : List UInt8} {clock : Int}
  {catalog : Catalog} {steps : List Step}

/-! ### What is read before a run -/

/-- The catalog and the steps of a template, found before anything is recorded. -/
def prepare (s : Session) (t : Template) : Act (Catalog × List Step) := do
  let catalog ← s.needCatalog
  let steps ← t.toSteps catalog
  return (catalog, steps)

/-- Runs the steps of a template from a fresh record. -/
def runAnew (s : Session) (dir : Path) (t : Template) (catalog : Catalog) (steps : List Step) :
    Act Outcome := do
  s.enterTemplate dir t.name true
  Act.note [{ level := .info, source := .session,
              message := s!"Starting workflow {Text.quoted t.name}" }]
  (s.workflow dir catalog steps).run

theorem runTemplate_eq (s : Session) (dir : Path) (t : Template) :
    s.runTemplate dir t true = (do
      let found ← s.prepare t
      s.runAnew dir t found.1 found.2) := by
  unfold prepare
  simp only [bind_assoc, pure_bind]
  rfl

theorem harmless_prepare (s : Session) (t : Template) : Harmless (s.prepare t) :=
  s.harmless_needCatalog.bind fun catalog =>
    (Template.harmless_toSteps catalog t).bind fun _ _ => Keeps.pure _

/-- What is found depends on what the catalog is found to be. -/
theorem fst_exec_prepare (s : Session) (t : Template) (w : World) :
    ((s.prepare t).exec w).1 = (s.needCatalog.exec w).1.bind fun catalog =>
      ((t.resolve catalog).mapError .resolve).map fun steps => (catalog, steps) := by
  unfold prepare
  rw [exec_bind]
  rcases s.needCatalog.exec w with ⟨(e | catalog), w₁⟩
  · rfl
  · obtain ⟨log, hx⟩ := Template.exec_toSteps catalog t w₁
    show _ = ((t.resolve catalog).mapError Fault.resolve).map fun steps => (catalog, steps)
    dsimp only
    rw [exec_bind, hx]
    cases t.resolve catalog <;> rfl

theorem fst_exec_prepare_eq_ok_iff :
    ((s.prepare t).exec w).1 = .ok (catalog, steps) ↔
      (s.needCatalog.exec w).1 = .ok catalog ∧ t.resolve catalog = .ok steps := by
  rw [fst_exec_prepare]
  cases (s.needCatalog.exec w).1 with
  | error e => exact ⟨nofun, nofun⟩
  | ok c =>
    show ((t.resolve c).mapError Fault.resolve).map _ = _ ↔ _
    cases hsteps : t.resolve c with
    | error e =>
      refine ⟨nofun, ?_⟩
      rintro ⟨⟨⟩, h⟩
      cases hsteps.symm.trans h
    | ok found =>
      constructor
      · rintro ⟨⟩
        exact ⟨rfl, hsteps⟩
      · rintro ⟨⟨⟩, h⟩
        cases hsteps.symm.trans h
        rfl

/-- A catalog that is found is kept at hand. -/
theorem eq_of_needCatalog (h : s.needCatalog.exec w = (.ok catalog, w')) :
    ∃ log, w' = { w with catalog := some catalog, log := log } := by
  unfold needCatalog at h
  rw [exec_bind_of_ok (exec_get w)] at h
  cases hc : w.catalog with
  | some c =>
    rw [hc] at h
    cases h
    exact ⟨w.log, by rw [← hc]⟩
  | none =>
    rw [hc] at h
    obtain ⟨c, w₁, hload, h⟩ := exec_bind_eq_ok_iff.mp h
    have hkept : Keeps (fun w₁ => ∃ log, w₁ = w.withLog log)
        (Catalog.load s.settings.catalogPath) :=
      Catalog.keeps_load (by rintro _ log ⟨_, rfl⟩; exact ⟨log, rfl⟩) _
    obtain ⟨log, hlog⟩ := hkept w ⟨w.log, rfl⟩
    rw [hload] at hlog
    obtain rfl : w₁ = w.withLog log := hlog
    cases h
    exact ⟨log, rfl⟩

theorem eq_of_prepare (h : (s.prepare t).exec w = (.ok (catalog, steps), w')) :
    ∃ log, w' = { w with catalog := some catalog, log := log } := by
  obtain ⟨c, w₁, hcatalog, h⟩ := exec_bind_eq_ok_iff.mp h
  obtain ⟨log, rfl⟩ := eq_of_needCatalog hcatalog
  obtain ⟨log', hx⟩ := Template.exec_toSteps c t { w with catalog := some c, log := log }
  rw [exec_bind, hx] at h
  cases hsteps : t.resolve c with
  | error e =>
    rw [hsteps] at h
    cases h
  | ok found =>
    rw [hsteps] at h
    cases h
    exact ⟨log', rfl⟩

/-! ### Two worlds -/

/-- The world without the file of progress, at some moment of the store's clock. -/
def lacking (s : Session) (dir : Path) (w : World) (clock : Int) : World :=
  w.without (Path.resolve w.cwd (s.settings.trackingFile dir)).names clock

/-- What a fresh run of a template keeps of the record in the file is hidden, if it is anything: the
flag, where it is off. -/
def veil (s : Session) (dir : Path) (t : Template) (w : World) (bytes : List UInt8) : Veil :=
  { cwd := w.cwd
    file := s.settings.trackingFile dir
    hides := ((Progress.recordOf (some bytes)).anew t.name).resume = false }

/-- The world without the file of progress is the same for a run of a template: the same catalog is
found, and when the first step starts the clock shows the same. -/
structure SameApart (s : Session) (dir : Path) (t : Template) (w : World) (clock : Int) : Prop where
  catalog : (s.needCatalog.exec (s.lacking dir w clock)).1 = (s.needCatalog.exec w).1
  clock : ((s.enterTemplate dir t.name true).exec (s.lacking dir w clock)).2.store.clock =
    ((s.enterTemplate dir t.name true).exec w).2.store.clock

/-- Neither the engine nor a prompt of a run of a template shows what is hidden. -/
structure Conceals (s : Session) (dir : Path) (t : Template) (w : World) (v : Veil) : Prop where
  engine : v.Overlooks s.engine
  prompts : ∀ catalog steps step, (s.needCatalog.exec w).1 = .ok catalog →
    t.resolve catalog = .ok steps → (s.workflow dir catalog steps).MayRun step →
    v.Open (dir / Path.ofString step.promptPath)

/-- The catalog is found, and so are the steps of the template in it. -/
def Prepares (s : Session) (t : Template) (w : World) : Prop :=
  ∃ found, ((s.prepare t).exec w).1 = .ok found

/-- A fresh run of a template makes the calls, ends with the outcome and leaves the template and the
steps that it would without the file of progress. -/
def Forgets (s : Session) (dir : Path) (t : Template) (w : World) (clock : Int) : Prop :=
  let run := (s.runTemplate dir t true).exec w
  let bare := (s.runTemplate dir t true).exec (s.lacking dir w clock)
  bare.2.calls = run.2.calls ∧ bare.1 = run.1 ∧
    (Progress.stored bare.2.store bare.2.cwd (s.settings.trackingFile dir)).map Progress.told =
      (Progress.stored run.2.store run.2.cwd (s.settings.trackingFile dir)).map Progress.told

/-- What is found is the same without the file of progress. -/
theorem SameApart.prepare_eq (h : s.SameApart dir t w clock) :
    ((s.prepare t).exec (s.lacking dir w clock)).1 = ((s.prepare t).exec w).1 := by
  rw [fst_exec_prepare, fst_exec_prepare, h.catalog]

section

variable {place : Place} {p : Progress} {name : String}
  (hw : Replaceable (s.settings.trackingFile dir) place w)
  (hp : Progress.stored w.store w.cwd (s.settings.trackingFile dir) = .ok p)
  (hn : Progress.Printable p) (hne : name ≠ "") (hname : Text.LoneHalf.occursIn name = false)
  (hnow : w.now.InCalendar)
include hw hp hn hne hname hnow

/-- A template is entered afresh by writing the record over, whatever catalog is at hand. -/
theorem exec_enterTemplate (catalog : Option Catalog) (log : Array Record) :
    ∃ log', (s.enterTemplate dir name true).exec { w with catalog := catalog, log := log } =
      (.ok (), { w with
        store := w.store.withFile place ((p.anew name).written w.now)
          (w.store.clock + p.writes name - 1)
        catalog := catalog
        log := log' }) := by
  have hw' : Replaceable (s.settings.trackingFile dir) place
      { w with catalog := catalog, log := log } :=
    ⟨hw.hasNul_eq, hw.directory, hw.locate_eq, hw.ne_directory⟩
  exact Progress.exec_beginAnew hw' hp hn hne hname hnow

end

theorem withFile_lacking (content : List UInt8) (modified : Int) :
    (s.lacking dir w clock).store.withFile
        (Path.resolve w.cwd (s.settings.trackingFile dir)).names content modified =
      w.store.withFile (Path.resolve w.cwd (s.settings.trackingFile dir)).names content modified :=
  Store.withFile_removeNode ..

/-- A file of another name is not the one that holds the progress. -/
theorem open_child (parent : Path) {name : String} (hdots : name ≠ "..")
    (hne : name ≠ "template.json") : (s.veil dir t w bytes).Open (parent.child name) := by
  intro _ he
  have hplace : (s.veil dir t w bytes).place = _ :=
    Path.names_resolve_child w.cwd (s.settings.statePath dir) (by decide)
  rw [hplace, Path.names_resolve_child _ _ hdots] at he
  exact hne (List.cons.inj (List.append_inj' he rfl).2).1

theorem loader_shop (s : Session) (dir : Path) (catalog : Option Catalog) :
    (s.shop dir catalog).loader = Prompt.fromFile := by
  unfold Session.shop
  dsimp only

/-- A prompt that is kept elsewhere reads the same. -/
theorem readsAlike_fromFile {v : Veil} {shop : Workshop} {name : String}
    (hloader : shop.loader = Prompt.fromFile) (h : v.Open (shop.dir / Path.ofString name)) :
    v.ReadsAlike shop name := by
  rintro w _ ⟨hcwd, hs, -⟩
  rw [hloader]
  unfold Prompt.fromFile
  rw [hcwd]
  exact hs.readText_eq h

/-- Records that a fresh run begins with look the same. -/
theorem records_anew (s : Session) (dir : Path) (t : Template) (w : World) (bytes : List UInt8)
    (hproper : Text.LoneHalf.occursIn t.name = false) :
    (s.veil dir t w bytes).Records ((Progress.recordOf (some bytes)).anew t.name)
      (({} : Progress).anew t.name) := by
  have hfresh : (({} : Progress).anew t.name).resume = true := by
    unfold Progress.anew Progress.Change.edit
    dsimp only
    split <;> rfl
  generalize hp : Progress.recordOf (some bytes) = p
  have hanew := Progress.anew_eq p t.name
  have hbare := Progress.anew_eq {} t.name
  rw [hfresh] at hbare
  cases hflag : (p.anew t.name).resume with
  | true =>
    rw [hflag] at hanew
    exact .inl (hbare.trans hanew.symm)
  | false =>
    refine .inr ⟨?_, ?_, ?_⟩
    · show ((Progress.recordOf (some bytes)).anew t.name).resume = false
      rw [hp, hflag]
    · rw [hanew]
      exact hproper
    · rw [hanew, hbare]

section

variable (hfile : Contents (s.settings.trackingFile dir) w (some bytes))
  (hread : ∀ e, ¬ Progress.Overtaxes (some bytes) e) (hnow : w.now.InCalendar)
  (hname : ∃ value, Template.check value = .ok t)
include hfile hread hnow hname

/-- The template is entered by writing over what the file has held. -/
theorem exec_enterTemplate_of_read (catalog : Option Catalog) (log : Array Record) :
    ∃ log', (s.enterTemplate dir t.name true).exec { w with catalog := catalog, log := log } =
      (.ok (), { w with
        store := w.store.withFile (Path.resolve w.cwd (s.settings.trackingFile dir)).names
          (((Progress.recordOf (some bytes)).anew t.name).written w.now)
          (w.store.clock + (Progress.recordOf (some bytes)).writes t.name - 1)
        catalog := catalog
        log := log' }) := by
  obtain ⟨value, hcheck⟩ := hname
  obtain ⟨hne, hproper⟩ := Template.name_of_check hcheck
  obtain ⟨hw, -⟩ := Replaceable.of_contents hfile
  exact exec_enterTemplate hw (Progress.stored_of_not_overtaxed hfile hread)
    (Progress.printable_recordOf _) hne hproper hnow catalog log

omit hread in
/-- Without the file the same is written where it was. -/
theorem exec_enterTemplate_lacking (clock : Int) (catalog : Option Catalog) (log : Array Record) :
    ∃ log', (s.enterTemplate dir t.name true).exec
        { s.lacking dir w clock with catalog := catalog, log := log } =
      (.ok (), { w with
        store := w.store.withFile (Path.resolve w.cwd (s.settings.trackingFile dir)).names
          ((({} : Progress).anew t.name).written w.now) (clock + 1)
        catalog := catalog
        log := log' }) := by
  obtain ⟨value, hcheck⟩ := hname
  obtain ⟨hne, hproper⟩ := Template.name_of_check hcheck
  obtain ⟨hw, hwithout⟩ := Replaceable.of_contents hfile
  have hlacking : Replaceable _ _ (s.lacking dir w clock) := hwithout clock
  have hfresh := hlacking.stored_of_none (Store.at?_removeNode_self _ hw.place_ne_nil)
  have hwrites : ({} : Progress).writes t.name = 2 := if_neg fun he => hne he.symm
  have hclock : (s.lacking dir w clock).store.clock + 2 - 1 = clock + 1 := by
    show clock + 2 - 1 = clock + 1
    omega
  obtain ⟨log', hx⟩ := exec_enterTemplate hlacking hfresh (List.forall_mem_nil _) hne hproper hnow
    catalog log
  refine ⟨log', hx.trans ?_⟩
  rw [hwrites, hclock, withFile_lacking]
  rfl

/-- What the clock shows when the first step starts. -/
theorem clock_entered (clock : Int) :
    ((s.enterTemplate dir t.name true).exec w).2.store.clock =
        w.store.clock + (Progress.recordOf (some bytes)).writes t.name ∧
      ((s.enterTemplate dir t.name true).exec (s.lacking dir w clock)).2.store.clock =
        clock + 2 := by
  obtain ⟨_, hx⟩ := exec_enterTemplate_of_read hfile hread hnow hname w.catalog w.log
  obtain ⟨_, hx'⟩ := exec_enterTemplate_lacking hfile hnow hname clock w.catalog w.log
  have hx : (s.enterTemplate dir t.name true).exec w = _ := hx
  have hx' : (s.enterTemplate dir t.name true).exec (s.lacking dir w clock) = _ := hx'
  rw [hx, hx']
  exact ⟨sub_add_cancel _ _, add_assoc clock 1 1⟩

/-- The clock can be such that it shows the same when the first step starts. -/
theorem sameApart_of_clock
    (hcatalog : (s.needCatalog.exec (s.lacking dir w clock)).1 = (s.needCatalog.exec w).1)
    (hclock : clock + 2 = w.store.clock + (Progress.recordOf (some bytes)).writes t.name) :
    s.SameApart dir t w clock := by
  obtain ⟨hx, hx'⟩ := clock_entered hfile hread hnow hname clock
  exact ⟨hcatalog, hx'.trans (hclock.trans hx.symm)⟩

/-- When the first step starts the worlds look the same. -/
theorem worlds_entered (h : s.SameApart dir t w clock) (catalog : Option Catalog)
    (log log' : Array Record) :
    ∃ e e', (s.enterTemplate dir t.name true).exec { w with catalog := catalog, log := log } =
        (.ok (), e) ∧
      (s.enterTemplate dir t.name true).exec
        { s.lacking dir w clock with catalog := catalog, log := log' } = (.ok (), e') ∧
      (s.veil dir t w bytes).Worlds e e' := by
  obtain ⟨hentered, hentered'⟩ := clock_entered hfile hread hnow hname clock
  obtain ⟨_, hx⟩ := exec_enterTemplate_of_read hfile hread hnow hname catalog log
  obtain ⟨_, hx'⟩ := exec_enterTemplate_lacking hfile hnow hname clock catalog log'
  have hclock : clock + 1 =
      w.store.clock + (Progress.recordOf (some bytes)).writes t.name - 1 := by
    have hsame := hentered'.symm.trans (h.clock.trans hentered)
    omega
  obtain ⟨value, hcheck⟩ := hname
  have hproper := (Template.name_of_check hcheck).2
  refine ⟨_, _, hx, hx', .mk rfl ?_ fun _ => hnow⟩
  rw [hclock]
  exact (Veil.Stores.same w.store).withRecord (s.records_anew dir t w bytes hproper)
    (List.forall_mem_nil _) (fun _ => hnow) (Replaceable.of_contents hfile).1.place_ne_nil _

/-- From there on the run of the workflow goes the same way. -/
theorem agree_runAnew (h : s.SameApart dir t w clock)
    (hconceals : s.Conceals dir t w (s.veil dir t w bytes)) {catalog : Catalog} {steps : List Step}
    (hcatalog : (s.needCatalog.exec w).1 = .ok catalog) (hsteps : t.resolve catalog = .ok steps)
    (log log' : Array Record) :
    (s.veil dir t w bytes).Match Eq (s.runAnew dir t catalog steps) (s.runAnew dir t catalog steps)
      { w with catalog := some catalog, log := log }
      { s.lacking dir w clock with catalog := some catalog, log := log' } := by
  have hbehind : Workflow.Behind (s.veil dir t w bytes) (s.workflow dir catalog steps) := by
    refine ⟨⟨hconceals.engine, ?_⟩, ?_, ?_, ?_⟩
    · rintro path ⟨⟩
      exact open_child _ (by decide) (by decide)
    · exact fun step hstep => readsAlike_fromFile (s.loader_shop dir (some catalog))
        (hconceals.prompts catalog steps step hcatalog hsteps hstep)
    · exact fun stateDir _ => open_child _ (by decide) (by decide)
    · rintro path ⟨⟩
      rfl
  obtain ⟨e, e', hx, hx', hworlds⟩ :=
    worlds_entered hfile hread hnow hname h (some catalog) log log'
  have hrun : (s.veil dir t w bytes).Blind (do
      Act.note [{ level := .info, source := .session,
                  message := s!"Starting workflow {Text.quoted t.name}" }]
      (s.workflow dir catalog steps).run) :=
    (Veil.Blind.note _).bind fun _ => Workflow.blind_run hbehind
  unfold Veil.Match runAnew
  rw [exec_bind_of_ok hx, exec_bind_of_ok hx']
  exact hrun e e' hworlds

/-- Where the steps are found, the run forgets the record. -/
theorem forgets_of_prepares (h : s.SameApart dir t w clock)
    (hconceals : s.Conceals dir t w (s.veil dir t w bytes)) (hprepares : s.Prepares t w) :
    s.Forgets dir t w clock := by
  obtain ⟨⟨catalog, steps⟩, hfound⟩ := hprepares
  have hfound' := h.prepare_eq.trans hfound
  obtain ⟨hcatalog, hsteps⟩ := fst_exec_prepare_eq_ok_iff.mp hfound
  have hx : (s.prepare t).exec w = (.ok (catalog, steps), _) := Prod.ext hfound rfl
  have hx' : (s.prepare t).exec (s.lacking dir w clock) = (.ok (catalog, steps), _) :=
    Prod.ext hfound' rfl
  obtain ⟨log, hw⟩ := eq_of_prepare hx
  obtain ⟨log', hw'⟩ := eq_of_prepare hx'
  obtain ⟨hresult, hworlds⟩ :=
    agree_runAnew hfile hread hnow hname h hconceals hcatalog hsteps log log'
  unfold Forgets
  rw [runTemplate_eq, exec_bind_of_ok hx, exec_bind_of_ok hx', hw, hw']
  exact ⟨hworlds.calls_eq, hresult.eq, hworlds.told_eq⟩

end

/-- Where they are not, the run ends as it would without the file, and leaves no trace. -/
theorem refused_of_not_prepares (h : s.SameApart dir t w clock) (hnot : ¬ s.Prepares t w) :
    ((s.runTemplate dir t true).exec (s.lacking dir w clock)).1 =
        ((s.runTemplate dir t true).exec w).1 ∧
      w.Untouched ((s.runTemplate dir t true).exec w).2 ∧
      (s.lacking dir w clock).Untouched
        ((s.runTemplate dir t true).exec (s.lacking dir w clock)).2 := by
  have hprepare := h.prepare_eq
  have hw := harmless_prepare s t w w ⟨rfl, rfl⟩
  have hw' := harmless_prepare s t _ (s.lacking dir w clock) ⟨rfl, rfl⟩
  rw [runTemplate_eq, exec_bind, exec_bind]
  unfold Prepares at hnot
  generalize (s.prepare t).exec w = ended at hprepare hw hnot ⊢
  generalize (s.prepare t).exec (s.lacking dir w clock) = ended' at hprepare hw' ⊢
  obtain ⟨r, w₁⟩ := ended
  obtain ⟨r', w₁'⟩ := ended'
  obtain rfl : r' = r := hprepare
  cases r' with
  | ok found => exact absurd ⟨found, rfl⟩ hnot
  | error e => exact ⟨rfl, hw, hw'⟩

/-! ### A run that shows the record -/

/-- Whatever the file of progress holds, a fresh run of a template forgets it. -/
def ForgetsRecord (s : Session) (dir : Path) (t : Template) (w : World) (bytes : List UInt8)
    (clock : Int) : Prop :=
  Contents (s.settings.trackingFile dir) w (some bytes) →
    (∀ e, ¬ Progress.Overtaxes (some bytes) e) → w.now.InCalendar →
    (∃ value, Template.check value = .ok t) → s.SameApart dir t w clock → s.Forgets dir t w clock

/-- The step of a template. -/
def planStep : Step :=
  { agentId := "plan", agentName := "Planner", promptPath := "plan.md", executeOnce := true }

/-- A catalog of one agent. -/
def planCatalog : Catalog where
  entries := [{ id := "plan", kind := .agent, name := some "Planner",
                promptPath := some "plan.md" }]
  nodup := by decide
  plain := by simp

/-- A template of one step, which is not to be executed twice. -/
def planTemplate : Template :=
  { name := "feature"
    steps := [{ kind := .agent, id := "plan", overrides := { executeOnce := true } }]
    subAgentIds := [] }

/-- A template of a step that the catalog does not know. -/
def strangeTemplate : Template :=
  { planTemplate with steps := [{ kind := .agent, id := "nobody", overrides := {} }] }

/-- The directory that the agents work in. -/
def planDir : Path := ⟨.slash, ["work"]⟩

/-- The file of progress. -/
def planFile : Path := ({} : Settings).trackingFile planDir

/-- Its place. -/
def planPlace : Place := ["work", ".orchestrator", "template.json"]

/-- A directory with a prompt and a record of progress. -/
def planRoom (p : Progress) : World :=
  { store :=
      { entries :=
          [(["work"], .directory), (["work", "plan.md"], .file [] 0),
           (["work", ".orchestrator"], .directory), (planPlace, .file (p.written 0) 0)]
        clock := 1 }
    cwd := planDir
    catalog := some planCatalog }

/-- A session with an engine. -/
def planningWith (engine : Engine) : Session :=
  { settings := {}, engine := engine, signals := .mailbox }

/-- The failure of an agent that tells whether the record says to resume. -/
def report (resume : Bool) : CallFailure :=
  { message := if resume then "resuming" else "starting over", agentId := none }

/-- A session with agents that look at the record and fail with what it says. -/
def reporting : Session :=
  planningWith fun w _ =>
    { store := w.store
      result := match Progress.stored w.store w.cwd planFile with
        | .ok p => .error (.failed (report p.resume))
        | .error e => .error e }

/-- A record in which the step is done, and which is not to be resumed. -/
def doneRecord : Progress := { activeTemplate := "feature", completed := [0], resume := false }

/-- The record of another template. -/
def otherRecord : Progress := { activeTemplate := "other", completed := [0] }

/-- The record with which a fresh run of the template begins. -/
def begunRecord (resume : Bool) : Progress := { activeTemplate := "feature", resume := resume }

/-- The room when a fresh run of the template has begun. -/
def begunRoom (resume : Bool) (log : Array Record) : World :=
  { planRoom doneRecord with
    store := (planRoom doneRecord).store.withFile planPlace ((begunRecord resume).written 0) 1
    log := log }

/-- The room when the step is about to be executed. -/
def startedRoom (resume : Bool) (log : Array Record) : World :=
  { begunRoom resume log with
    store := (begunRoom resume log).store.withFile planPlace
      (((begunRecord resume).markStarted 0).written 0) 2 }

/-- The workflow of the template. -/
def planFlow : Workflow := reporting.workflow planDir planCatalog [planStep]

/-- The call of the step. -/
def planCall : Call := planFlow.shop.callOf planStep "plan" ""

theorem planTemplate_check : ∃ value, Template.check value = .ok planTemplate :=
  ⟨.obj [("name", .str "feature"),
    ("steps", .arr [.obj [("id", .str "plan"),
      ("overrides", .obj [("executeOnce", .bool true)])]])], rfl⟩

theorem strangeTemplate_check : ∃ value, Template.check value = .ok strangeTemplate :=
  ⟨.obj [("name", .str "feature"), ("steps", .arr [.obj [("id", .str "nobody")]])], rfl⟩

/-- No name in the room has half a surrogate pair. -/
theorem plain_names : Text.LoneHalf.occursIn "feature" = false ∧
    Text.LoneHalf.occursIn "other" = false ∧ Text.LoneHalf.occursIn "plan" = false ∧
    Text.LoneHalf.occursIn "Planner" = false := by decide +kernel

theorem hasNul_files : planFile.hasNul = false ∧
    (({} : Settings).registryFile planDir).hasNul = false ∧
    (planDir / Path.ofString planStep.promptPath).hasNul = false := by decide +kernel

theorem contents_planRoom (p : Progress) :
    Contents planFile (planRoom p) (some (p.written 0)) :=
  .file (by decide) hasNul_files.1 rfl

/-- The clock of the room shows the same without the file where it is put back by what a fresh run
writes the more. -/
theorem sameApart_planRoom (engine : Engine) {p : Progress} {t : Template} {clock : Int}
    (hp : Progress.recordIn? (p.written 0) = some p) (ht : ∃ value, Template.check value = .ok t)
    (hclock : clock + 2 = 1 + p.writes t.name) :
    (planningWith engine).SameApart planDir t (planRoom p) clock := by
  refine sameApart_of_clock (contents_planRoom p) (Progress.not_overtaxes_of_recordIn? hp)
    (by decide : (0 : Moment).InCalendar) ht rfl ?_
  rw [Progress.recordOf_of_recordIn? hp]
  exact hclock

theorem recordIn?_doneRecord : Progress.recordIn? (doneRecord.written 0) = some doneRecord := by
  have hn : Progress.Printable doneRecord := List.forall_mem_singleton.mpr rfl
  exact Progress.recordIn?_written plain_names.1 hn (by decide)

theorem recordIn?_otherRecord : Progress.recordIn? (otherRecord.written 0) = some otherRecord := by
  have hn : Progress.Printable otherRecord := List.forall_mem_singleton.mpr rfl
  exact Progress.recordIn?_written plain_names.2.1 hn (by decide)

theorem recordIn?_begunRecord (resume : Bool) :
    Progress.recordIn? ((begunRecord resume).written 0) = some (begunRecord resume) := by
  have hn : Progress.Printable (begunRecord resume) := List.forall_mem_nil _
  exact Progress.recordIn?_written plain_names.1 hn (by decide)

theorem recordIn?_startedRecord (resume : Bool) :
    Progress.recordIn? (((begunRecord resume).markStarted 0).written 0) =
      some ((begunRecord resume).markStarted 0) := by
  have hn : Progress.Printable ((begunRecord resume).markStarted 0) :=
    List.forall_mem_singleton.mpr rfl
  exact Progress.recordIn?_written plain_names.1 hn (by decide)

theorem stored_begunRoom (resume : Bool) (log : Array Record) :
    Progress.stored (begunRoom resume log).store (begunRoom resume log).cwd planFile =
      .ok (begunRecord resume) :=
  Progress.stored_of_recordIn? hasNul_files.1 rfl (recordIn?_begunRecord resume)

/-- The step is taken up. -/
theorem exec_turn_begunRoom (resume : Bool) (log : Array Record) : ∃ log',
    (planFlow.turn ⟨Cursor.initial [] [], [], .head⟩).exec (begunRoom resume log) =
      (.ok (.next ⟨(Cursor.initial [] []).markStarted 0 "plan", [],
        .attempt 0 planStep planStep "plan"⟩), startedRoom resume log') := by
  have hvisit : (planFlow.turn ⟨Cursor.initial [] [], [], .head⟩).exec (begunRoom resume log) =
      (planFlow.visit ⟨Cursor.initial [] [], [], .head⟩ planStep).exec (begunRoom resume log) :=
    Workflow.exec_turn_of_visit (Workflow.visit?_of_step rfl rfl rfl) rfl
  obtain ⟨log₁, hbegin⟩ : ∃ log₁, (planFlow.visit ⟨Cursor.initial [] [], [], .head⟩ planStep).exec
      (begunRoom resume log) = (planFlow.begin ⟨Cursor.initial [] [], [], .head⟩ 0 planStep
        planStep "plan").exec (begunRoom resume log₁) := Workflow.exec_visit_of_chosen rfl rfl
  have hroom : Replaceable planFile planPlace (begunRoom resume log₁) :=
    ⟨hasNul_files.1, rfl, rfl, nofun⟩
  have hwritable : (Progress.Change.started 0).Writable := by
    rintro _ ⟨⟩
    rfl
  obtain ⟨log', hx⟩ := hroom.exec_recordStarted (stored_begunRoom resume log₁)
    (List.forall_mem_nil _) hwritable List.not_mem_nil
  exact ⟨log', hvisit.trans (hbegin.trans (exec_bind_of_ok hx))⟩

/-- The prompt of the step can be read. -/
theorem ready_startedRoom (resume : Bool) (log : Array Record) :
    planFlow.shop.Ready planStep "plan" (startedRoom resume log) planCall
      (startedRoom resume log) := by
  have hfile : (startedRoom resume log).store.stat (startedRoom resume log).cwd
      (planDir / Path.ofString planStep.promptPath) = .ok (["work", "plan.md"], .file [] 0) := rfl
  have hprompt : (startedRoom resume log).store.readText (startedRoom resume log).cwd
      (planDir / Path.ofString planStep.promptPath) = .ok "" := by
    rw [Store.readText_of_stat hasNul_files.2.2 hfile]
    decide +kernel
  refine ⟨"", ?_, hprompt, rfl⟩
  unfold Workshop.scaffolding
  rw [if_neg (by decide +kernel)]
  rfl

/-- The agent finds the flag in the record, and the call fails with it. -/
theorem fails_startedRoom (resume : Bool) (log : Array Record) :
    planFlow.shop.Fails planStep "plan" (startedRoom resume log) (.failed (report resume)) := by
  have hroom : Replaceable (({} : Settings).registryFile planDir)
      ["work", ".orchestrator", "registry.json"] (startedRoom resume log) :=
    ⟨hasNul_files.2.1, rfl, rfl, nofun⟩
  have hproper : (Registry.started "plan" "Planner" none (startedRoom resume log)).Proper :=
    Registry.proper_started plain_names.2.2.1 plain_names.2.2.2 (by rintro _ ⟨⟩) _
  obtain ⟨content, w₁, hw₁, hstart, hfile⟩ := hroom.exec_start rfl hproper
  generalize Registry.started "plan" "Planner" none (startedRoom resume log) = r at hstart hfile
  have hrecord : (planFlow.shop.recordStart planCall).exec (startedRoom resume log) =
      (.ok (some r.runId), w₁) := exec_bind_of_ok hstart
  obtain ⟨w₂, henter, hstore, hcwd⟩ := Workshop.exec_enter_of_recordStart rfl hrecord
  have hstored : Progress.stored w₂.store w₂.cwd planFile =
      .ok ((begunRecord resume).markStarted 0) := by
    rw [hstore, hcwd, hw₁]
    exact Progress.stored_of_recordIn? hasNul_files.1 rfl (recordIn?_startedRecord resume)
  have hresult : (planFlow.shop.engine w₂ planCall.invocation).result =
      .error (.failed (report resume)) := by
    show (match Progress.stored w₂.store w₂.cwd planFile with
      | .ok p => Except.error (Fault.failed (report p.resume))
      | .error e => Except.error e) = _
    rw [hstored]
    rfl
  have hfile₂ : Registry.InFile (({} : Settings).registryFile planDir) [r]
      (w₂.receive "plan" (planFlow.shop.engine w₂ planCall.invocation)) := by
    refine hfile.congr hcwd ?_
    show w₂.store.readBytes _ _ = _
    rw [hstore]
  obtain ⟨_, _, _, -, -, hfinish, -⟩ := Registry.exec_finish_of_foundIn hfile₂.foundIn
    ⟨r, List.mem_singleton_self r, rfl⟩ .failed (some (report resume).message)
  exact .held ⟨_, ready_startedRoom resume log, henter⟩ hresult rfl (exec_bind_of_ok hfinish)

/-- So the run ends with the report. -/
theorem exec_run_begunRoom (resume : Bool) (log : Array Record) : ∃ w',
    planFlow.run.exec (begunRoom resume log) =
      (.ok (Workflow.aborted (report resume).message []), w') := by
  obtain ⟨log₁, hstart⟩ := Workflow.exec_start_of_remembered (f := planFlow)
    (stored_begunRoom resume log)
  obtain ⟨log₂, hturn⟩ := exec_turn_begunRoom resume log₁
  have ht : Workflow.Trail planFlow (begunRoom resume log) _ := .next (.start hstart) hturn
  obtain ⟨w', hends⟩ := ht.ends_of_failed rfl (fails_startedRoom resume log₂) rfl
  have hfuel : 2 ≤ planFlow.maxTurns := Nat.le_trans (by decide) (Nat.le_max_left (Nat.pow 2 62) _)
  exact ⟨w', hends.exec_run hfuel⟩

/-- A run of the template that begins with a flag reports it. -/
theorem fst_exec_reporting {w : World} {resume : Bool} (hcatalog : w.catalog = some planCatalog)
    (henter : ∀ log, ∃ log', (reporting.enterTemplate planDir planTemplate.name true).exec
      { w with catalog := some planCatalog, log := log } = (.ok (), begunRoom resume log')) :
    ((reporting.runTemplate planDir planTemplate true).exec w).1 =
      .ok (Workflow.aborted (report resume).message []) := by
  have hneed : (reporting.needCatalog.exec w).1 = .ok planCatalog := by
    unfold needCatalog
    rw [exec_bind_of_ok (exec_get w), hcatalog]
    rfl
  have hfound : (reporting.prepare planTemplate).exec w = (.ok (planCatalog, [planStep]), _) :=
    Prod.ext (fst_exec_prepare_eq_ok_iff.mpr ⟨hneed, rfl⟩) rfl
  obtain ⟨log, hw⟩ := eq_of_prepare hfound
  obtain ⟨log', hx⟩ := henter log
  rw [runTemplate_eq, exec_bind_of_ok hfound, hw]
  unfold runAnew
  rw [exec_bind_of_ok hx, exec_note_bind]
  obtain ⟨w', hrun⟩ := exec_run_begunRoom resume _
  exact congrArg Prod.fst hrun

/-- The flag is off after a record in which it was, and on without one. -/
theorem not_forgets_reporting :
    ¬ reporting.Forgets planDir planTemplate (planRoom doneRecord) 0 := by
  rintro ⟨-, hresult, -⟩
  have hfile := contents_planRoom doneRecord
  have hread := Progress.not_overtaxes_of_recordIn? recordIn?_doneRecord
  have hnow : (planRoom doneRecord).now.InCalendar := by decide
  have hrun : _ = Except.ok (Workflow.aborted (report false).message []) :=
    fst_exec_reporting (w := planRoom doneRecord) rfl fun log => by
      have hx := exec_enterTemplate_of_read (s := reporting) hfile hread hnow planTemplate_check
        (some planCatalog) log
      rw [Progress.recordOf_of_recordIn? recordIn?_doneRecord] at hx
      exact hx
  have hbare : _ = Except.ok (Workflow.aborted (report true).message []) :=
    fst_exec_reporting (w := reporting.lacking planDir (planRoom doneRecord) 0) rfl fun log =>
      exec_enterTemplate_lacking (s := reporting) hfile hnow planTemplate_check 0
        (some planCatalog) log
  have hreason := congrArg (Except.map Outcome.reason) (hbare.symm.trans (hresult.trans hrun))
  exact absurd (Except.ok.inj hreason) (by decide)

/-- The record of another template stays where the steps of this one are not found. -/
theorem not_forgets_strange (engine : Engine) :
    ¬ (planningWith engine).Forgets planDir strangeTemplate (planRoom otherRecord) 1 := by
  rintro ⟨-, -, htold⟩
  have happart : (planningWith engine).SameApart planDir strangeTemplate (planRoom otherRecord) 1 :=
    sameApart_planRoom engine recordIn?_otherRecord strangeTemplate_check (by decide)
  have hnot : ¬ (planningWith engine).Prepares strangeTemplate (planRoom otherRecord) := by
    rintro ⟨⟨catalog, steps⟩, hfound⟩
    obtain ⟨hcatalog, hsteps⟩ := fst_exec_prepare_eq_ok_iff.mp hfound
    cases hcatalog
    cases hsteps
  obtain ⟨-, ⟨hstore, -⟩, hstore', -⟩ := refused_of_not_prepares happart hnot
  have hstored : Progress.stored (planRoom otherRecord).store planDir planFile = .ok otherRecord :=
    Progress.stored_of_recordIn? hasNul_files.1 rfl recordIn?_otherRecord
  obtain ⟨hw, hwithout⟩ := Replaceable.of_contents (contents_planRoom otherRecord)
  have hbare : Progress.stored
      ((planningWith engine).lacking planDir (planRoom otherRecord) 1).store planDir planFile =
        .ok {} :=
    (hwithout 1).stored_of_none (Store.at?_removeNode_self _ hw.place_ne_nil)
  rw [hstore, hstore'] at htold
  -- The directory that the runs end in is that of the room.
  have htold : (Progress.stored ((planningWith engine).lacking planDir
        (planRoom otherRecord) 1).store planDir planFile).map Progress.told =
      (Progress.stored (planRoom otherRecord).store planDir planFile).map Progress.told := htold
  rw [hstored, hbare] at htold
  exact absurd (Except.ok.inj htold) (by decide)

/-- Agents can show the flag that is kept, and a run that is refused keeps the whole record. -/
theorem not_forgetsRecord_planRoom :
    ¬ ForgetsRecord reporting planDir planTemplate (planRoom doneRecord)
        (doneRecord.written 0) 0 ∧
      ¬ ForgetsRecord reporting planDir strangeTemplate (planRoom otherRecord)
        (otherRecord.written 0) 1 := by
  refine ⟨fun h => not_forgets_reporting (h (contents_planRoom _) ?_ (by decide)
    planTemplate_check ?_), fun h => not_forgets_strange _ (h (contents_planRoom _) ?_ (by decide)
    strangeTemplate_check ?_)⟩
  · exact Progress.not_overtaxes_of_recordIn? recordIn?_doneRecord
  · exact sameApart_planRoom _ recordIn?_doneRecord planTemplate_check (by decide)
  · exact Progress.not_overtaxes_of_recordIn? recordIn?_otherRecord
  · exact sameApart_planRoom _ recordIn?_otherRecord strangeTemplate_check (by decide)

/-! ### Fresh runs -/

/-- A fresh run of a template forgets the record of progress, whatever it says and whether or not it
can be read. -/
theorem fresh_run_forgets (hfile : Contents (s.settings.trackingFile dir) w (some bytes))
    (hread : ∀ e, ¬ Progress.Overtaxes (some bytes) e) (hnow : w.now.InCalendar)
    (hname : ∃ value, Template.check value = .ok t) (happart : s.SameApart dir t w clock)
    (hconceals : s.Conceals dir t w (s.veil dir t w bytes)) :
    (s.Prepares t w → s.Forgets dir t w clock) ∧
      (¬ s.Prepares t w →
        ((s.runTemplate dir t true).exec (s.lacking dir w clock)).1 =
            ((s.runTemplate dir t true).exec w).1 ∧
          w.Untouched ((s.runTemplate dir t true).exec w).2 ∧
          (s.lacking dir w clock).Untouched
            ((s.runTemplate dir t true).exec (s.lacking dir w clock)).2) :=
  ⟨forgets_of_prepares hfile hread hnow hname happart hconceals, refused_of_not_prepares happart⟩

/-- A session with agents that always succeed. -/
def planning : Session :=
  planningWith fun w _ => { store := w.store, result := .ok "done" }

theorem promptPath_of_mayRun {steps : List Step}
    (hsteps : planTemplate.resolve planCatalog = .ok steps) {step : Step}
    (h : (planning.workflow planDir planCatalog steps).MayRun step) :
    step.promptPath = "plan.md" := by
  cases hsteps
  rcases h with hmem | ⟨id, hid⟩
  · cases List.mem_singleton.mp hmem
    rfl
  · change planCatalog.resolveAny id = _ at hid
    unfold Catalog.resolveAny at hid
    split at hid
    · next e he =>
      have hmem : e ∈ planCatalog.entries := by
        rcases Option.or_eq_some_iff.mp he with h | ⟨-, h⟩
        · exact (Catalog.find?_some h).1
        · exact (Catalog.find?_some h).1
      cases List.mem_singleton.mp hmem
      cases hid
      rfl
    · cases hid

/-- The step that the record calls done is executed as if there were no record. -/
theorem planning_forgets :
    Contents (planning.settings.trackingFile planDir) (planRoom doneRecord)
        (some (doneRecord.written 0)) ∧
      (∀ e, ¬ Progress.Overtaxes (some (doneRecord.written 0)) e) ∧
      (planRoom doneRecord).now.InCalendar ∧ (∃ value, Template.check value = .ok planTemplate) ∧
      planning.SameApart planDir planTemplate (planRoom doneRecord) 0 ∧
      planning.Conceals planDir planTemplate (planRoom doneRecord)
        (planning.veil planDir planTemplate (planRoom doneRecord) (doneRecord.written 0)) ∧
      planning.Prepares planTemplate (planRoom doneRecord) ∧
      planning.Forgets planDir planTemplate (planRoom doneRecord) 0 := by
  have hfile : Contents (planning.settings.trackingFile planDir) _ _ :=
    contents_planRoom doneRecord
  have hread := Progress.not_overtaxes_of_recordIn? recordIn?_doneRecord
  have hnow : (planRoom doneRecord).now.InCalendar := by decide
  have happart : planning.SameApart planDir planTemplate (planRoom doneRecord) 0 :=
    sameApart_planRoom _ recordIn?_doneRecord planTemplate_check (by decide)
  have hconceals : planning.Conceals planDir planTemplate (planRoom doneRecord)
      (planning.veil planDir planTemplate (planRoom doneRecord) (doneRecord.written 0)) := by
    refine ⟨?_, fun catalog steps step hcatalog hsteps hstep => ?_⟩
    · rintro _ _ call ⟨-, hstores, -⟩
      exact ⟨hstores, rfl, rfl, rfl⟩
    · cases hcatalog
      rw [promptPath_of_mayRun hsteps hstep]
      intro _
      decide +kernel
  have hprepares : planning.Prepares planTemplate (planRoom doneRecord) :=
    ⟨_, fst_exec_prepare_eq_ok_iff.mpr ⟨rfl, rfl⟩⟩
  exact ⟨hfile, hread, hnow, planTemplate_check, happart, hconceals, hprepares,
    (fresh_run_forgets hfile hread hnow planTemplate_check happart hconceals).1 hprepares⟩

end Session

end Conductor
