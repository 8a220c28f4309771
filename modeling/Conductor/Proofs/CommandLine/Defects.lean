import Conductor.Proofs.Session.Documents
import Conductor.Proofs.Session.Refusal
import Conductor.Proofs.Settings.Reading
import Conductor.Proofs.State.Room

/-!
# What is found wrong with a request

Much can be wrong with what a request is given: its settings, the catalog, the template, the script
and what one says of another.  Each defect is listed with what comes of it (`RequestDefect`, and
`TaskDefect` for what a task uses).  Most are refused.  Of the others, some fail like anything
unforeseen: files that are no texts or go beyond what can be decoded, and a blank command; and some
escape, since they come up before anything is held: variables that are garbled, and a level that
there is not.

Main statement: a request in which something is found wrong ends as listed, and nothing else is
refused (`ends_as_found`).  So not all that is wrong is refused (`not_refusesDefects_garbled`).
Where a part of an action ends in a fault the whole does (`EndsIn.bind`, `EndsIn.bind_of_ok`), and
what a fault lies in is found by going back through the parts (`EndsIn.of_bind`).
-/

namespace Conductor

open Act Document

/-! ### What a task uses -/

namespace Session

/-- What is wrong with what a task uses, each with what comes of it.  A file is used once what is
read before it is right. -/
inductive TaskDefect (settings : Settings) (s : Store) (base : Path) :
    CommandLine.Task → Handling → Prop
  | template {path fresh k} (h : Defect Template.meant s base path k) :
    TaskDefect settings s base (.run path fresh) k
  | catalogOfTemplate {path fresh t k} (ht : Holds Template.meant s base path t)
    (h : Defect Catalog.meant s base settings.catalogPath k) :
    TaskDefect settings s base (.run path fresh) k
  /-- A step of the template names nothing in the catalog, or fields that it needs are missing. -/
  | steps {path fresh t c f} (ht : Holds Template.meant s base path t)
    (hc : Holds Catalog.meant s base settings.catalogPath c) (h : t.resolve c = .error f) :
    TaskDefect settings s base (.run path fresh) .refused
  /-- The path of the catalog is too long. -/
  | catalogPath {script e} (h : s.held base settings.catalogPath = .error e) :
    TaskDefect settings s base (.orchestrate script) .failed
  | catalogOfScript {script k} (hthere : s.held base settings.catalogPath = .ok true)
    (h : Defect Catalog.meant s base settings.catalogPath k) :
    TaskDefect settings s base (.orchestrate script) k
  | script {script e}
    (hc : s.held base settings.catalogPath = .ok true →
      ∃ c, Holds Catalog.meant s base settings.catalogPath c)
    (hthere : ∃ there, s.held base settings.catalogPath = .ok there)
    (h : Script.read script = .error e) :
    TaskDefect settings s base (.orchestrate script) .refused
  /-- The reasoning effort is none of those that there are. -/
  | overrides {agentId model effort e} (h : stepOverrides model effort = .error e) :
    TaskDefect settings s base (.step agentId model effort) .failed
  | catalogOfStep {agentId model effort o k} (ho : stepOverrides model effort = .ok o)
    (h : Defect Catalog.meant s base settings.catalogPath k) :
    TaskDefect settings s base (.step agentId model effort) k
  | agent {agentId model effort o c f} (ho : stepOverrides model effort = .ok o)
    (hc : Holds Catalog.meant s base settings.catalogPath c)
    (h : c.resolve .agent agentId o = .error f) :
    TaskDefect settings s base (.step agentId model effort) .refused

/-- The action ends in a fault that is handled in some way. -/
def EndsIn {α : Type} (k : Handling) (a : Act α) (w : World) : Prop :=
  ∃ e, (a.exec w).1 = .error e ∧ k.Meets e

section Ends

variable {α β : Type} {a : Act α} {g : α → Act β} {k : Handling} {w w' : World} {x : α} {e : Fault}

theorem EndsIn.of_eq (h : a.exec w = (.error e, w')) (hk : k.Meets e) : EndsIn k a w :=
  ⟨e, congrArg Prod.fst h, hk⟩

theorem EndsIn.bind (h : EndsIn k a w) : EndsIn k (a >>= g) w := by
  obtain ⟨e, he, hk⟩ := h
  exact ⟨e, exec_bind_eq_error_iff.mpr (.inl he), hk⟩

theorem EndsIn.bind_of_ok (h : a.exec w = (.ok x, w')) (hg : EndsIn k (g x) w') :
    EndsIn k (a >>= g) w := by
  obtain ⟨e, he, hk⟩ := hg
  exact ⟨e, exec_bind_eq_error_iff.mpr (.inr ⟨x, w', h, he⟩), hk⟩

/-- A fault that lies in what was given comes from the first part or from the second one. -/
theorem EndsIn.of_bind (h : EndsIn .refused (a >>= g) w) :
    EndsIn .refused a w ∨ ∃ x w', a.exec w = (.ok x, w') ∧ EndsIn .refused (g x) w' := by
  obtain ⟨e, he, hk⟩ := h
  rcases exec_bind_eq_error_iff.mp he with he | ⟨x, w', hx, he⟩
  · exact .inl ⟨e, he, hk⟩
  · exact .inr ⟨x, w', hx, e, he, hk⟩

theorem EndsIn.of_map {f : α → β} (h : EndsIn k (f <$> a) w) : EndsIn k a w := by
  obtain ⟨e, he, hk⟩ := h
  rw [exec_map] at he
  cases hx : (a.exec w).1 with
  | error e' =>
    rw [hx] at he
    cases he
    exact ⟨_, hx, hk⟩
  | ok x =>
    rw [hx] at he
    cases he

theorem EndsIn.map {f : α → β} (h : EndsIn k a w) : EndsIn k (f <$> a) w := by
  obtain ⟨e, he, hk⟩ := h
  refine ⟨e, ?_, hk⟩
  rw [exec_map, he]
  rfl

theorem endsIn_lift {r : Except Fault α} :
    EndsIn k (lift r) w ↔ ∃ e, r = .error e ∧ k.Meets e := by
  unfold EndsIn
  rw [exec_lift]

theorem not_endsIn_of_faultsIn (h : FaultsIn (·.isUsage = false) a) : ¬ EndsIn .refused a w := by
  rintro ⟨e, he, hk⟩
  cases (h w e he).symm.trans hk

theorem not_endsIn_of_ok {x : α} (h : (a.exec w).1 = .ok x) : ¬ EndsIn k a w := by
  rintro ⟨e, he, -⟩
  cases h.symm.trans he

end Ends

variable {s : Session} {w w' : World} {c : Catalog} {k : Handling} {dir path : Path}

/-! ### The catalog -/

theorem exec_needCatalog (hw : w.catalog = none) :
    s.needCatalog.exec w = (do
      let c ← Catalog.load s.settings.catalogPath
      modify fun w => { w with catalog := some c }
      return c : Act Catalog).exec w := by
  unfold needCatalog
  rw [exec_bind_of_ok (exec_get w), hw]

/-- The catalog is loaded from its file where none is at hand. -/
theorem needCatalog_of_holds (hw : w.catalog = none)
    (h : Holds Catalog.meant w.store w.cwd s.settings.catalogPath c) :
    ∃ w', s.needCatalog.exec w = (.ok c, w') := by
  obtain ⟨log, hx⟩ := (Catalog.loads _).ok h
  rw [exec_needCatalog hw, exec_bind_of_ok hx]
  exact ⟨_, rfl⟩

theorem needCatalog_of_defect (hw : w.catalog = none)
    (h : Defect Catalog.meant w.store w.cwd s.settings.catalogPath k) :
    EndsIn k s.needCatalog w := by
  obtain ⟨e, hx, hmeets⟩ := (Catalog.loads _).fault h
  unfold EndsIn
  rw [exec_needCatalog hw, exec_bind, hx]
  exact ⟨e, rfl, hmeets⟩

theorem defect_of_needCatalog (hw : w.catalog = none) (h : EndsIn .refused s.needCatalog w) :
    Defect Catalog.meant w.store w.cwd s.settings.catalogPath .refused := by
  obtain ⟨e, he, husage⟩ := h
  rw [exec_needCatalog hw] at he
  rcases exec_bind_eq_error_iff.mp he with he | ⟨_, _, -, he⟩
  · exact (Catalog.loads _).defect_of_isUsage he husage
  · cases he

theorem holds_of_needCatalog (hw : w.catalog = none) (h : s.needCatalog.exec w = (.ok c, w')) :
    Holds Catalog.meant w.store w.cwd s.settings.catalogPath c := by
  rw [exec_needCatalog hw] at h
  obtain ⟨c', w₁, hload, h⟩ := exec_bind_eq_ok_iff.mp h
  cases h
  exact ((Catalog.loads _).eq_ok hload).1

/-! ### Templates -/

theorem endsIn_runTemplateFile (hw : w.catalog = none) {fresh : Bool}
    (h : TaskDefect s.settings w.store w.cwd (.run path fresh) k) :
    EndsIn k (s.runTemplateFile dir path fresh) w := by
  cases h with
  | template h =>
    obtain ⟨e, hx, hmeets⟩ := (Template.loads path).fault h
    exact (EndsIn.of_eq hx hmeets).bind
  | catalogOfTemplate ht h =>
    obtain ⟨log, hx⟩ := (Template.loads path).ok ht
    have hcatalog : EndsIn k s.needCatalog (w.withLog log) := needCatalog_of_defect hw h
    exact EndsIn.bind_of_ok hx hcatalog.bind
  | @steps _ _ t c f ht hc h =>
    obtain ⟨log, hx⟩ := (Template.loads path).ok ht
    have hw' : (w.withLog log).catalog = none := hw
    obtain ⟨w', hc'⟩ := needCatalog_of_holds hw' hc
    refine EndsIn.bind_of_ok hx (EndsIn.bind_of_ok hc' (EndsIn.bind ?_))
    have hsteps : ((t.toSteps c).exec w').1 = .error (.resolve f) := by
      unfold Template.toSteps
      rw [exec_note_bind, h]
      rfl
    exact ⟨_, hsteps, rfl⟩

theorem taskDefect_of_runTemplateFile (hs : s.engine.Modest) (hw : w.catalog = none) {fresh : Bool}
    (h : EndsIn .refused (s.runTemplateFile dir path fresh) w) :
    TaskDefect s.settings w.store w.cwd (.run path fresh) .refused := by
  rcases h.of_bind with ⟨e, he, husage⟩ | ⟨t, w₁, ht, h⟩
  · exact .template ((Template.loads path).defect_of_isUsage he husage)
  · obtain ⟨hholds, log, rfl⟩ := (Template.loads path).eq_ok ht
    have hw₁ : (w.withLog log).catalog = none := hw
    rcases h.of_bind with h | ⟨c, w₂, hc, h⟩
    · have hdefect := defect_of_needCatalog hw₁ h
      exact .catalogOfTemplate hholds hdefect
    · have hcatalog := holds_of_needCatalog hw₁ hc
      rcases h.of_bind with h | ⟨steps, w₃, -, h⟩
      · obtain ⟨e, he, -⟩ := h
        unfold Template.toSteps at he
        rw [exec_note_bind] at he
        cases hresolve : t.resolve c with
        | ok steps =>
          rw [hresolve] at he
          cases he
        | error f => exact .steps hholds hcatalog hresolve
      · exact absurd h (not_endsIn_of_faultsIn (faultsIn_afterSteps hs dir t fresh c steps))

/-! ### Scripts -/

theorem exec_findCatalog (hw : w.catalog = none) :
    s.findCatalog.exec w = (match w.store.held w.cwd s.settings.catalogPath with
      | .error e => (.error e, w)
      | .ok true => (some <$> s.needCatalog : Act (Option Catalog)).exec w
      | .ok false =>
        (.ok none, w.withLog (w.log.push (noCatalogRecord s.settings.catalogPath)))) := by
  unfold findCatalog
  dsimp only
  rw [exec_bind_of_ok (exec_get w), hw]
  show (holds s.settings.catalogPath >>= _ : Act (Option Catalog)).exec w = _
  rw [exec_bind, exec_holds]
  cases w.store.held w.cwd s.settings.catalogPath with
  | error e => rfl
  | ok there => cases there <;> rfl

theorem meets_of_held_error {store : Store} {base : Path} {e : Fault}
    (h : store.held base path = .error e) : Handling.failed.Meets e := by
  unfold Store.held at h
  split at h
  · cases h
  · split at h <;> cases h
    exact ⟨rfl, rfl⟩

theorem endsIn_runScript (hw : w.catalog = none) {text : String}
    (h : TaskDefect s.settings w.store w.cwd (.orchestrate text) k) :
    EndsIn k (s.runScript dir text) w := by
  have hfind := exec_findCatalog (s := s) hw
  cases h with
  | catalogPath h =>
    rw [h] at hfind
    exact (EndsIn.of_eq hfind (meets_of_held_error h)).bind
  | catalogOfScript hthere h =>
    rw [hthere] at hfind
    obtain ⟨e, he, hk⟩ := (needCatalog_of_defect hw h).map (f := some)
    exact EndsIn.bind ⟨e, (congrArg Prod.fst hfind).trans he, hk⟩
  | @script text e hc hthere h =>
    have hread : ∀ w' catalog, EndsIn .refused (Script.run
        { shop := s.shop dir catalog, workers := s.settings.maxParallel,
          schedule := s.schedule } text) w' :=
      fun w' _ => .of_eq (Script.exec_run_of_read_error h _ w') rfl
    obtain ⟨there, hthere⟩ := hthere
    rw [hthere] at hfind
    cases there with
    | false => exact EndsIn.bind_of_ok hfind (hread _ _)
    | true =>
      obtain ⟨c, hc⟩ := hc hthere
      obtain ⟨w', hx⟩ := needCatalog_of_holds hw hc
      dsimp only at hfind
      rw [exec_map, hx] at hfind
      exact EndsIn.bind_of_ok hfind (hread _ _)

theorem taskDefect_of_runScript (hw : w.catalog = none) {text : String}
    (h : EndsIn .refused (s.runScript dir text) w) :
    TaskDefect s.settings w.store w.cwd (.orchestrate text) .refused := by
  have hfind := exec_findCatalog (s := s) hw
  cases hthere : w.store.held w.cwd s.settings.catalogPath with
  | error e =>
    rw [hthere] at hfind
    rcases h.of_bind with ⟨e', he, husage⟩ | ⟨_, _, hx, -⟩
    · rw [hfind] at he
      cases he
      cases (meets_of_held_error hthere).1.symm.trans husage
    · cases hfind.symm.trans hx
  | ok there =>
    rw [hthere] at hfind
    -- The catalog has been found, or it has a defect.
    have hcatalog : EndsIn .refused s.findCatalog w →
        there = true ∧ Defect Catalog.meant w.store w.cwd s.settings.catalogPath .refused := by
      rintro ⟨e, he, husage⟩
      rw [hfind] at he
      cases there with
      | false => cases he
      | true => exact ⟨rfl, defect_of_needCatalog hw (EndsIn.of_map ⟨e, he, husage⟩)⟩
    rcases h.of_bind with h | ⟨catalog, w₁, hx, h⟩
    · obtain ⟨rfl, hdefect⟩ := hcatalog h
      exact .catalogOfScript hthere hdefect
    · cases hread : Script.read text with
      | error e =>
        refine .script (fun htrue => ?_) ⟨there, hthere⟩ hread
        cases htrue.symm.trans hthere
        rw [hfind] at hx
        rcases holds_or_defect Catalog.meant w.store w.cwd s.settings.catalogPath with
          hholds | ⟨k, hdefect⟩
        · exact hholds
        · have hends := (needCatalog_of_defect hw hdefect).map (f := some)
          exact absurd hends (not_endsIn_of_ok (congrArg Prod.fst hx))
      | ok plan =>
        obtain ⟨e, he, husage⟩ := h
        rw [Script.exec_run_of_read hread] at he
        exact absurd ⟨e, he, husage⟩ (not_endsIn_of_faultsIn (faultsIn_runPlan _ plan))

/-! ### Steps -/

theorem meets_of_stepOverrides_error {model effort : Option String} {e : Fault}
    (h : stepOverrides model effort = .error e) : Handling.failed.Meets e := by
  unfold stepOverrides at h
  split at h <;> cases h
  exact ⟨rfl, rfl⟩

theorem endsIn_runStep (hw : w.catalog = none) {agentId : String} {model effort : Option String}
    (h : TaskDefect s.settings w.store w.cwd (.step agentId model effort) k) :
    EndsIn k (s.runStep dir agentId model effort) w := by
  unfold runStep
  cases h with
  | overrides h => exact (endsIn_lift.mpr ⟨_, h, meets_of_stepOverrides_error h⟩).bind
  | catalogOfStep ho h =>
    rw [ho]
    exact EndsIn.bind_of_ok (exec_lift _ w) (needCatalog_of_defect hw h).bind
  | agent ho hc h =>
    obtain ⟨w', hx⟩ := needCatalog_of_holds hw hc
    rw [ho]
    refine EndsIn.bind_of_ok (exec_lift _ w) (EndsIn.bind_of_ok hx ?_)
    refine EndsIn.bind_of_ok (exec_note _ w') (EndsIn.bind ?_)
    rw [h]
    exact endsIn_lift.mpr ⟨_, rfl, rfl⟩

theorem taskDefect_of_runStep (hs : s.engine.Modest) (hw : w.catalog = none) {agentId : String}
    {model effort : Option String}
    (h : EndsIn .refused (s.runStep dir agentId model effort) w) :
    TaskDefect s.settings w.store w.cwd (.step agentId model effort) .refused := by
  rcases h.of_bind with h | ⟨o, w₁, hx, h⟩
  · obtain ⟨e, he, husage⟩ := endsIn_lift.mp h
    cases (meets_of_stepOverrides_error he).1.symm.trans husage
  · obtain ⟨ho, rfl⟩ := Prod.mk.inj ((exec_lift _ w).symm.trans hx)
    rcases h.of_bind with h | ⟨c, w₂, hc, h⟩
    · exact .catalogOfStep ho (defect_of_needCatalog hw h)
    · have hcatalog := holds_of_needCatalog hw hc
      rcases h.of_bind with h | ⟨_, w₃, -, h⟩
      · exact absurd h (not_endsIn_of_faultsIn (FaultsIn.note _))
      · rcases h.of_bind with h | ⟨step, w₄, -, h⟩
        · obtain ⟨e, he, -⟩ := endsIn_lift.mp h
          cases hresolve : c.resolve .agent agentId o with
          | error f => exact .agent ho hcatalog hresolve
          | ok step =>
            rw [hresolve] at he
            cases he
        · exact absurd h (not_endsIn_of_faultsIn (faultsIn_execute hs dir c step))

end Session

namespace CommandLine

open Session

/-- What is told where something is handled so. -/
def Shows : Handling → Except Fault Ended → Prop
  | .refused, r => ∃ ended, r = .ok ended ∧ ended.exit = .refused ∧ ended.errors ≠ []
  | .failed, r => ∃ ended, r = .ok ended ∧ ended.exit = .failed
  | .escapes, r => ∃ e, r = .error e

/-- The settings are right as far as logging goes. -/
def Settles (vars : Variables) (w : World) (settings : Settings) : Prop :=
  Settings.Gives vars w settings ∧ ∃ n, Level.thresholdOf settings.logLevel = .ok n

/-- What is wrong with a request, its surroundings and its files, each with what comes of it. A file
is used once what is read before it is right. -/
inductive RequestDefect (vars : Variables) (r : Request) (w : World) : Handling → Prop
  | garbled (h : Settings.Garbled vars w) : RequestDefect vars r w .escapes
  | settings {ms issues} (h : Settings.Supplies vars w ms) (hbad : Settings.check ms = .bad issues) :
    RequestDefect vars r w .refused
  | level {settings name} (h : Settings.Gives vars w settings)
    (hlevel : Level.thresholdOf settings.logLevel = .error name) : RequestDefect vars r w .escapes
  | place {settings} (h : Settles vars w settings) (hnul : r.dir.hasNul = true) :
    RequestDefect vars r w .escapes
  | command {settings} (h : Settles vars w settings) (hnul : r.dir.hasNul = false)
    (hblank : Text.isBlankText settings.agentCommand = true) : RequestDefect vars r w .failed
  | task {settings k} (h : Settles vars w settings) (hnul : r.dir.hasNul = false)
    (hcommand : Text.isBlankText settings.agentCommand = false)
    (ht : TaskDefect (r.adjust settings) w.store w.cwd r.task k) : RequestDefect vars r w k

variable {spawn : Child.Spawner} {vars : Variables} {r : Request} {w : World} {k : Handling}
  {settings : Settings} {dir : Path} {task : Task} {make : Settings → Act Engine}

theorem shows_ofFault {f : Fault} (h : k.Meets f) : Shows k (.ok (Ended.ofFault f)) := by
  cases k with
  | refused =>
    have hexit : exitOf f = .refused := if_pos h
    refine ⟨_, rfl, ?_⟩
    unfold Ended.ofFault
    rw [hexit]
    exact ⟨rfl, List.cons_ne_nil _ _⟩
  | failed =>
    have hexit : exitOf f = .failed := by
      unfold exitOf
      rw [h.1, if_neg Bool.false_ne_true]
      have hheld := h.2
      cases f <;> first | rfl | cases hheld
    refine ⟨_, rfl, ?_⟩
    unfold Ended.ofFault
    rw [hexit]
  | escapes => cases h

theorem shows_performWith (h : EndsIn k (inSession make settings dir task) w) :
    Shows k ((performWith make settings dir task).exec w).1 := by
  obtain ⟨f, hf, hk⟩ := h
  have hperform : (performWith make settings dir task).exec w = _ :=
    exec_bind_of_ok (exec_attempt (inSession make settings dir task) w)
  rw [hperform, hf]
  exact shows_ofFault hk

theorem endsIn_performTask {s : Session} (hw : w.catalog = none)
    (h : TaskDefect s.settings w.store w.cwd task k) : EndsIn k (performTask s dir task) w := by
  cases task with
  | run template fresh => exact (endsIn_runTemplateFile hw h).map
  | orchestrate script => exact (endsIn_runScript hw h).bind
  | step agentId model effort => exact (endsIn_runStep hw h).bind
  | reset => cases h

theorem taskDefect_of_performTask {s : Session} (hs : s.engine.Modest) (hw : w.catalog = none)
    (h : EndsIn .refused (performTask s dir task) w) :
    TaskDefect s.settings w.store w.cwd task .refused := by
  cases task with
  | run template fresh => exact taskDefect_of_runTemplateFile hs hw h.of_map
  | orchestrate script =>
    rcases h.of_bind with h | ⟨_, w', -, h⟩
    · exact taskDefect_of_runScript hw h
    · exact absurd h (not_endsIn_of_faultsIn (FaultsIn.pure _))
  | step agentId model effort =>
    rcases h.of_bind with h | ⟨_, w', -, h⟩
    · exact taskDefect_of_runStep hs hw h
    · exact absurd h (not_endsIn_of_faultsIn (FaultsIn.pure _))
  | reset =>
    have hreset : FaultsIn (·.isUsage = false) (performTask s dir .reset) :=
      (s.faultsIn_reset dir).bind fun _ => FaultsIn.pure _
    exact absurd h (not_endsIn_of_faultsIn hreset)

/-! ### Sessions of child processes -/

theorem exec_engineOf (spawn : Child.Spawner) (vars : Variables)
    (h : Text.isBlankText settings.agentCommand = false) (w : World) :
    ∃ engine log, (Child.engineOf spawn vars settings).exec w = (.ok engine, w.withLog log) ∧
      engine.Modest := by
  have hcheck : settings.command.check = .ok () :=
    if_neg (Bool.eq_false_iff.mp h)
  unfold Child.engineOf
  rw [exec_note_bind, hcheck]
  exact ⟨_, _, rfl, Child.modest_engine _⟩

theorem endsIn_inSession_of_blank (h : Text.isBlankText settings.agentCommand = true) :
    EndsIn .failed (inSession (Child.engineOf spawn vars) settings dir task) w := by
  have hcheck : settings.command.check = .error .blankTemplate := if_pos h
  unfold inSession
  refine EndsIn.bind ?_
  unfold Child.engineOf
  refine EndsIn.bind_of_ok (exec_note _ w) (EndsIn.bind (endsIn_lift.mpr ?_))
  rw [hcheck]
  exact ⟨_, rfl, rfl, rfl⟩

theorem endsIn_inSession (hcommand : Text.isBlankText settings.agentCommand = false)
    (h : TaskDefect settings w.store w.cwd task k) :
    EndsIn k (inSession (Child.engineOf spawn vars) settings dir task) w := by
  obtain ⟨engine, log, hx, -⟩ := exec_engineOf spawn vars hcommand w
  let s := Session.ofSettings settings engine
  have htask : EndsIn k (performTask s dir task) (s.openWorld (w.withLog log)) :=
    endsIn_performTask rfl h
  have hstart : s.start.exec (w.withLog log) = (.ok ⟨⟩, s.openWorld (w.withLog log)) := rfl
  exact EndsIn.bind_of_ok hx (EndsIn.bind_of_ok hstart htask)

theorem taskDefect_of_inSession (hcommand : Text.isBlankText settings.agentCommand = false)
    (h : EndsIn .refused (inSession (Child.engineOf spawn vars) settings dir task) w) :
    TaskDefect settings w.store w.cwd task .refused := by
  obtain ⟨engine, log, hx, hmodest⟩ := exec_engineOf spawn vars hcommand w
  let s := Session.ofSettings settings engine
  rcases h.of_bind with h | ⟨engine', w', hx', h⟩
  · exact absurd h (not_endsIn_of_ok (congrArg Prod.fst hx))
  · cases hx.symm.trans hx'
    have hstart : s.start.exec (w.withLog log) = (.ok ⟨⟩, s.openWorld (w.withLog log)) := rfl
    have hs : s.engine.Modest := hmodest
    rcases h.of_bind with h | ⟨_, w', hx', h⟩
    · exact absurd h (not_endsIn_of_ok (congrArg Prod.fst hstart))
    · cases hstart.symm.trans hx'
      have hdefect := taskDefect_of_performTask hs rfl h
      exact hdefect

/-! ### Requests -/

theorem exec_perform_of_gives (make : Settings → Act Engine) (h : Settings.Gives vars w settings) :
    (perform make vars r).exec w = (do
      let logging ← Act.lift (loggingOf settings)
      if r.dir.hasNul then throw (.read .nul)
      let ended ← performWith make (r.adjust settings) (r.place (← get).cwd) r.task
      return { ended with logging := logging } : Act Ended).exec w := by
  unfold perform
  rw [exec_bind_of_ok (exec_attempt_of_eq (Settings.exec_load_of_gives h))]

theorem exec_perform_of_settles (make : Settings → Act Engine) (h : Settles vars w settings)
    (hnul : r.dir.hasNul = false) :
    ∃ logging : Logging, (perform make vars r).exec w =
      ((fun ended : Ended => { ended with logging := logging }) <$>
        performWith make (r.adjust settings) (r.place w.cwd) r.task).exec w := by
  obtain ⟨hgives, n, hn⟩ := h
  have hlogging : loggingOf settings = .ok { layout := settings.logLayout, threshold := n } := by
    unfold loggingOf
    rw [hn]
  refine ⟨{ layout := settings.logLayout, threshold := n }, ?_⟩
  rw [exec_perform_of_gives _ hgives, hlogging, exec_bind_of_ok (exec_lift _ w), hnul,
    if_neg Bool.false_ne_true, exec_bind_of_ok (exec_get w), map_eq_pure_bind]

/-- How records are written does not matter. -/
theorem shows_map {logging : Logging} {result : Except Fault Ended} (h : Shows k result) :
    Shows k (result.map fun ended => { ended with logging := logging }) := by
  cases k with
  | refused =>
    obtain ⟨ended, rfl, hexit, herrors⟩ := h
    exact ⟨_, rfl, hexit, herrors⟩
  | failed =>
    obtain ⟨ended, rfl, hexit⟩ := h
    exact ⟨_, rfl, hexit⟩
  | escapes =>
    obtain ⟨e, rfl⟩ := h
    exact ⟨e, rfl⟩

/-- What is wrong with a request is told as it is to be handled. -/
theorem shows_of_defect (spawn : Child.Spawner) (h : RequestDefect vars r w k) :
    Shows k ((perform (Child.engineOf spawn vars) vars r).exec w).1 := by
  have hsession : ∀ {settings}, Settles vars w settings → r.dir.hasNul = false →
      EndsIn k (inSession (Child.engineOf spawn vars) (r.adjust settings) (r.place w.cwd) r.task)
        w → Shows k ((perform (Child.engineOf spawn vars) vars r).exec w).1 := by
    intro settings hsettles hnul hends
    obtain ⟨logging, hx⟩ := exec_perform_of_settles _ hsettles hnul
    rw [hx, exec_map]
    exact shows_map (shows_performWith hends)
  cases h with
  | garbled h =>
    obtain ⟨e, hx, hforeign⟩ := Settings.exec_load_of_garbled h
    unfold perform
    rw [exec_bind_of_ok (exec_attempt_of_eq hx)]
    cases e with
    | invalid title issues => exact absurd rfl (hforeign title issues)
    | _ => exact ⟨_, rfl⟩
  | @settings ms issues h hbad =>
    have hx := Settings.exec_load_of_supplies h
    rw [hbad] at hx
    unfold perform
    rw [exec_bind_of_ok (exec_attempt_of_eq hx)]
    exact ⟨_, rfl, rfl, List.cons_ne_nil _ _⟩
  | @level settings name h hlevel =>
    have hlogging : loggingOf settings = .error (.unknownLevel name) := by
      unfold loggingOf
      rw [hlevel]
    rw [exec_perform_of_gives _ h, hlogging, exec_bind, exec_lift]
    exact ⟨_, rfl⟩
  | @place settings h hnul =>
    obtain ⟨hgives, n, hn⟩ := h
    have hlogging : loggingOf settings = .ok { layout := settings.logLayout, threshold := n } := by
      unfold loggingOf
      rw [hn]
    rw [exec_perform_of_gives _ hgives, hlogging, exec_bind_of_ok (exec_lift _ w), hnul, if_pos rfl]
    exact ⟨_, rfl⟩
  | command h hnul hblank => exact hsession h hnul (endsIn_inSession_of_blank hblank)
  | task h hnul hcommand ht => exact hsession h hnul (endsIn_inSession hcommand ht)

/-- A request is refused only if something is wrong with it that is to be refused. -/
theorem defect_of_refused
    (h : Refused ((perform (Child.engineOf spawn vars) vars r).exec w).1) :
    RequestDefect vars r w .refused := by
  -- What is handled otherwise is not refused.
  have hnot : ∀ {k}, Shows k ((perform (Child.engineOf spawn vars) vars r).exec w).1 →
      k = .refused := by
    intro k hk
    obtain ⟨ended, hended, hexit⟩ := h
    cases k with
    | refused => rfl
    | failed =>
      obtain ⟨ended', hended', hexit'⟩ := hk
      cases hended.symm.trans hended'
      cases hexit.symm.trans hexit'
    | escapes =>
      obtain ⟨e, he⟩ := hk
      cases hended.symm.trans he
  have hdefect : ∀ {k}, RequestDefect vars r w k → RequestDefect vars r w .refused := by
    intro k hk
    have hrefused := hnot (shows_of_defect spawn hk)
    exact hrefused ▸ hk
  rcases Settings.supplies_or_garbled vars w with ⟨ms, hms⟩ | hgarbled
  · cases hcheck : Settings.check ms with
    | bad issues => exact .settings hms hcheck
    | ok settings =>
      have hgives : Settings.Gives vars w settings := ⟨ms, hms, hcheck⟩
      cases hlevel : Level.thresholdOf settings.logLevel with
      | error name => exact hdefect (.level hgives hlevel)
      | ok n =>
        have hsettles : Settles vars w settings := ⟨hgives, n, hlevel⟩
        cases hnul : r.dir.hasNul with
        | true => exact hdefect (.place hsettles hnul)
        | false =>
          cases hcommand : Text.isBlankText settings.agentCommand with
          | true => exact hdefect (.command hsettles hnul hcommand)
          | false =>
            obtain ⟨logging, hx⟩ :=
              exec_perform_of_settles (Child.engineOf spawn vars) hsettles hnul
            rw [hx, exec_map] at h
            -- Something is wrong with what the task uses.
            have hends := rejection_of_refused h.of_map
            exact .task hsettles hnul hcommand (taskDefect_of_inSession hcommand hends)
  · exact hdefect (.garbled hgarbled)

/-- What is found wrong with a request decides how it ends: it is refused and told of, fails like
anything unforeseen, or the fault escapes; and nothing is refused in which nothing is wrong. -/
theorem ends_as_found (spawn : Child.Spawner) (vars : Variables) (r : Request) (w : World) :
    (∀ k, RequestDefect vars r w k →
        Shows k ((perform (Child.engineOf spawn vars) vars r).exec w).1) ∧
      (Refused ((perform (Child.engineOf spawn vars) vars r).exec w).1 →
        RequestDefect vars r w .refused) :=
  ⟨fun _ => shows_of_defect spawn, defect_of_refused⟩

/-- Whatever is wrong with a request, it is refused. -/
def RefusesDefects (spawn : Child.Spawner) (vars : Variables) (r : Request) (w : World) : Prop :=
  ∀ k, RequestDefect vars r w k →
    Shows .refused ((perform (Child.engineOf spawn vars) vars r).exec w).1

/-- Surroundings that give a table of engines that is no JSON. -/
def garblingVars : Variables := [(Settings.enginesName, some "\x7b")]

/-- A table of engines that is no JSON is not among what is refused. -/
theorem not_refusesDefects_garbled :
    ¬ RefusesDefects nobody.spawn garblingVars ⟨.reset, .ofString ".", none⟩ emptyRoom := by
  intro h
  have hread : Json.read "\x7b" = .error (.malformed 0) := by rfl
  have htable : Settings.GarblesTable garblingVars :=
    ⟨"\x7b", by decide +kernel, fun v hv => by cases hread.symm.trans hv⟩
  have hdefect : RequestDefect garblingVars ⟨.reset, .ofString ".", none⟩ emptyRoom .escapes :=
    .garbled (.surroundings htable)
  obtain ⟨e, he⟩ := shows_of_defect nobody.spawn hdefect
  obtain ⟨ended, hended, -⟩ := h _ hdefect
  cases he.symm.trans hended

end CommandLine

end Conductor
