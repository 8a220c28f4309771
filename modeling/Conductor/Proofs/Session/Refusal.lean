import Conductor.Child.Engine
import Conductor.CommandLine.Perform
import Conductor.Proofs.Run.Faults

/-!
# What is refused leaves no trace

A fault that lies in what was given is found before anything is recorded or run: each way into the
program first reads and checks, which touches neither the files nor the calls, and then acts, which
ends in no such fault (`Workflow.faultsIn_run`, `Script.faultsIn_runPlan`).  So an action that ends
in such a fault has left the files as they were and made no call (`Traceless`); that is kept by
another action in front that touches nothing (`Traceless.bind`).

Main statement: a request that is refused, a template that cannot be run and a script that cannot be
read leave no trace (`CommandLine.refused_leaves_no_trace`), if the engine is modest and made
without a trace, as one of child processes is (`Child.makes_engineOf`).
-/

namespace Conductor

open Act

/-- The files are as they were, and no call has been made. -/
def World.Untouched (w₀ w : World) : Prop := w.store = w₀.store ∧ w.calls = w₀.calls

/-- Whether a result is a fault that lies in what was given. -/
def Rejection {α : Type} (r : Except Fault α) : Prop := ∃ e, r = .error e ∧ e.isUsage = true

namespace Act

variable {α β : Type} {a : Act α} {g : α → Act β}

/-- The action leaves no trace, however it ends. -/
def Harmless (a : Act α) : Prop := ∀ w₀, Keeps (World.Untouched w₀) a

/-- The action leaves no trace where it ends in one of some results. -/
def Traceless (Q : Except Fault α → Prop) (a : Act α) : Prop :=
  ∀ w, Q (a.exec w).1 → w.Untouched (a.exec w).2

theorem logFree_untouched (w₀ : World) : LogFree (World.Untouched w₀) := fun _ _ h => h

theorem Harmless.note (rs : List Record) : Harmless (note rs) :=
  fun w₀ => Keeps.note (logFree_untouched w₀) rs

theorem Harmless.bind (ha : Harmless a) (hg : ∀ x, Harmless (g x)) : Harmless (a >>= g) :=
  fun w₀ => (ha w₀).bind fun x => hg x w₀

theorem FaultsIn.traceless (ha : FaultsIn (·.isUsage = false) a) : Traceless Rejection a := by
  rintro w ⟨e, he, husage⟩
  rw [ha w e he] at husage
  cases husage

variable {Q : Except Fault α → Prop} {Q' : Except Fault β → Prop} {V : α → Prop}

theorem Harmless.traceless (ha : Harmless a) : Traceless Q a := fun w _ => ha w w ⟨rfl, rfl⟩

/-- What comes behind an action that touches nothing leaves no more traces than alone. -/
theorem Traceless.bind_of_yields (ha : Harmless a) (hv : Yields V a)
    (hg : ∀ x, V x → Traceless Q' (g x)) : Traceless Q' (a >>= g) := by
  intro w hQ
  have hw := ha w w ⟨rfl, rfl⟩
  rw [exec_bind] at hQ ⊢
  rcases hx : a.exec w with ⟨(e | x), w'⟩
  · rw [hx] at hw
    exact hw
  · rw [hx] at hQ hw
    obtain ⟨hstore, hcalls⟩ := hg x (hv w x (congrArg Prod.fst hx)) w' hQ
    exact ⟨hstore.trans hw.1, hcalls.trans hw.2⟩

theorem Traceless.bind (ha : Harmless a) (hg : ∀ x, Traceless Q' (g x)) : Traceless Q' (a >>= g) :=
  Traceless.bind_of_yields ha (yields_true a) fun x _ => hg x

/-- What is made of a value leaves no trace where it tells the results apart no better. -/
theorem Traceless.map (ha : Traceless Q a) (f : α → β) (hf : ∀ r, Q' (r.map f) → Q r) :
    Traceless Q' (f <$> a) := by
  intro w hQ
  rw [exec_map] at hQ ⊢
  exact ha w (hf _ hQ)

theorem Rejection.of_map (f : α → β) (r : Except Fault α) (h : Rejection (r.map f)) :
    Rejection r := by
  obtain ⟨e, he, husage⟩ := h
  cases r <;> cases he
  exact ⟨e, rfl, husage⟩

end Act

/-! ### Reading what is given -/

theorem Catalog.keeps_load {P : World → Prop} (hP : LogFree P) (path : Path) :
    Keeps P (load path) := by
  refine (Keeps.readText path).bind fun read => ?_
  split
  · exact Keeps.throw _
  · exact Keeps.throw _
  · exact (Keeps.lift _).bind fun _ => (Keeps.note hP _).bind fun _ => Keeps.pure _

theorem Catalog.harmless_load (path : Path) : Harmless (load path) :=
  fun w₀ => keeps_load (logFree_untouched w₀) path

theorem Template.harmless_load (path : Path) : Harmless (load path) := by
  intro w₀
  refine (Keeps.readText path).bind fun read => ?_
  split
  · exact Keeps.throw _
  · exact Keeps.throw _
  · exact Keeps.lift _

theorem Template.harmless_toSteps (c : Catalog) (t : Template) : Harmless (t.toSteps c) :=
  fun w₀ => (Harmless.note _ w₀).bind fun _ => Keeps.lift _

theorem Settings.harmless_load (surroundings : Variables) (given : Json.Members) :
    Harmless (load surroundings given) := by
  have hfile : Harmless (fileVariables surroundings) := by
    intro w₀
    refine Keeps.get_bind fun w hw => ?_
    split
    · refine ((Keeps.readText _).bind fun read => ?_) w hw
      split
      · exact Keeps.throw _
      · exact Keeps.pure _
    · exact hw
  intro w₀
  refine (hfile w₀).bind fun _ => (Keeps.lift _).bind fun _ => (Keeps.lift _).bind fun _ => ?_
  split
  · exact Keeps.pure _
  · exact Keeps.throw _

/-! ### Sessions -/

namespace Session

variable {s : Session}

theorem harmless_start (s : Session) : Harmless s.start :=
  fun _ => Keeps.modify fun _ h => h

theorem harmless_needCatalog (s : Session) : Harmless s.needCatalog := by
  intro w₀
  refine Keeps.get.bind fun w => ?_
  split
  · exact Keeps.pure _
  · refine (Catalog.harmless_load _ w₀).bind fun c => ?_
    have hkept : Keeps w₀.Untouched (modify fun w => { w with catalog := some c } : Act PUnit) :=
      Keeps.modify fun _ h => h
    exact hkept.bind fun _ => Keeps.pure _

theorem harmless_findCatalog (s : Session) : Harmless s.findCatalog := by
  intro w₀
  refine Keeps.get.bind fun w => ?_
  split
  · exact (s.harmless_needCatalog w₀).bind fun _ => Keeps.pure _
  · refine (Keeps.holds _).bind fun there => ?_
    split
    · exact (s.harmless_needCatalog w₀).bind fun _ => Keeps.pure _
    · exact (Harmless.note _ w₀).bind fun _ => Keeps.pure _

theorem faultsIn_enterTemplate (s : Session) (dir : Path) (name : String) (fresh : Bool) :
    FaultsIn (·.isOfFiles = true) (s.enterTemplate dir name fresh) := by
  refine (Progress.faultsIn_setActiveTemplate _ _).bind fun _ => ?_
  split
  · exact Progress.faultsIn_clear _
  · exact FaultsIn.pure _

/-- Once the steps of a template are known, no fault lies in what was given. -/
theorem faultsIn_afterSteps (h : s.engine.Modest) (dir : Path) (t : Template) (fresh : Bool)
    (catalog : Catalog) (steps : List Step) : FaultsIn (·.isUsage = false) (do
      s.enterTemplate dir t.name fresh
      Act.note [{ level := .info, source := .session,
                  message := s!"Starting workflow {Text.quoted t.name}" }]
      (s.workflow dir catalog steps).run) := by
  have henter : FaultsIn (·.isOwn = false) (s.enterTemplate dir t.name fresh) :=
    (s.faultsIn_enterTemplate dir t.name fresh).mono fun _ => Fault.not_isOwn_of_isOfFiles
  have hrun : FaultsIn (·.isOwn = false) (s.workflow dir catalog steps).run :=
    Workflow.faultsIn_run h
  exact (henter.bind fun _ => (FaultsIn.note _).bind fun _ => hrun).mono
    fun _ => Fault.not_isUsage_of_not_isOwn

/-- A template that cannot be run leaves no trace. -/
theorem traceless_runTemplate (h : s.engine.Modest) (dir : Path) (t : Template) (fresh : Bool) :
    Traceless Rejection (s.runTemplate dir t fresh) :=
  Traceless.bind s.harmless_needCatalog fun catalog =>
    Traceless.bind (Template.harmless_toSteps catalog t) fun steps =>
      (faultsIn_afterSteps h dir t fresh catalog steps).traceless

/-- Neither does the template in a file. -/
theorem traceless_runTemplateFile (h : s.engine.Modest) (dir path : Path) (fresh : Bool) :
    Traceless Rejection (s.runTemplateFile dir path fresh) :=
  Traceless.bind (Template.harmless_load path) fun t => traceless_runTemplate h dir t fresh

theorem faultsIn_runPlan (setup : Script.Setup) (plan : Script.Plan) :
    FaultsIn (·.isUsage = false) (Script.runPlan setup plan) :=
  (Script.faultsIn_runPlan setup plan).mono fun _ => Fault.not_isUsage_of_not_isOwn

/-- A script that cannot be read leaves no trace, whatever the engine. -/
theorem traceless_runScript (s : Session) (dir : Path) (text : String) :
    Traceless Rejection (s.runScript dir text) :=
  Traceless.bind s.harmless_findCatalog fun _ =>
    Traceless.bind (fun _ => Keeps.lift _) fun plan => (faultsIn_runPlan _ plan).traceless

theorem faultsIn_execute (h : s.engine.Modest) (dir : Path) (catalog : Catalog) (step : Step) :
    FaultsIn (·.isUsage = false)
      ((s.shop dir (some catalog)).execute step step.agentId none) := by
  have hmodest : (s.shop dir (some catalog)).engine.Modest := h
  refine (Workshop.faultsIn_execute hmodest step step.agentId).mono fun e he => ?_
  rcases he with he | he
  · exact Fault.not_isUsage_of_not_isOwn (Fault.not_isOwn_of_isOfFiles he)
  · exact Fault.not_isUsage_of_isHeld he

/-- A step that the catalog cannot give leaves no trace. -/
theorem traceless_runStep (h : s.engine.Modest) (dir : Path) (agentId : String)
    (model effort : Option String) : Traceless Rejection (s.runStep dir agentId model effort) := by
  refine Traceless.bind (fun _ => Keeps.lift _) fun overrides => ?_
  refine Traceless.bind s.harmless_needCatalog fun catalog => ?_
  refine Traceless.bind (Harmless.note _) fun _ => ?_
  exact Traceless.bind (fun _ => Keeps.lift _) fun step =>
    (faultsIn_execute h dir catalog step).traceless

theorem faultsIn_reset (s : Session) (dir : Path) : FaultsIn (·.isUsage = false) (s.reset dir) :=
  (Progress.faultsIn_clear _).mono fun _ he =>
    Fault.not_isUsage_of_not_isOwn (Fault.not_isOwn_of_isOfFiles he)

end Session

/-! ### Engines -/

/-- An engine is made without a trace, and it is modest. -/
structure Makes (make : Settings → Act Engine) : Prop where
  harmless : ∀ settings, Harmless (make settings)
  modest : ∀ settings, Yields Engine.Modest (make settings)

namespace Child

theorem isHeld_of_conclude {call : Invocation} {cancelFirst : Bool} {t : Transcript}
    {texts : List (Stream × List Char)} {e : Fault}
    (h : conclude call cancelFirst t texts = .error e) : e.isHeld = true := by
  unfold conclude at h
  dsimp only at h
  split at h
  · split at h <;> cases h <;> rfl
  · split at h <;> cases h
    rfl

theorem modest_engine (a : Agents) : a.engine.Modest := by
  intro w call e h hown
  have hmapped : (a.invoke w call).result.map (·.text) = .error e := h
  have h : (a.invoke w call).result = .error e := by
    cases hresult : (a.invoke w call).result with
    | ok answer =>
      rw [hresult] at hmapped
      cases hmapped
    | error e' =>
      rw [hresult] at hmapped
      cases hmapped
      rfl
  unfold Agents.invoke at h
  split at h
  · cases h
    rfl
  · split at h
    · next hcommand =>
      cases h
      unfold Agents.commandOf at hcommand
      split at hcommand <;> cases hcommand
      · rfl
      · cases hown
    · unfold Agents.follow at h
      dsimp only at h
      split at h
      · cases h
        cases hown
      · split at h
        · cases h
          rfl
        · exact isHeld_of_conclude h

/-- Agents that are child processes report only calls that failed or were cancelled. -/
theorem makes_engineOf (spawn : Spawner) (vars : Variables) : Makes (engineOf spawn vars) where
  harmless _ := (Harmless.note _).bind fun _ => Harmless.bind (fun _ => Keeps.lift _)
    fun _ _ => Keeps.pure _
  modest _ := (yields_true _).bind fun _ _ => (yields_true _).bind fun _ _ =>
    Yields.pure (modest_engine _)

end Child

/-! ### Requests -/

namespace CommandLine

/-- Whether a result tells that the request was refused. -/
def Refused (r : Except Fault Ended) : Prop := ∃ ended, r = .ok ended ∧ ended.exit = .refused

variable {s : Session} {make : Settings → Act Engine}

/-- How records are written does not matter. -/
theorem Refused.of_map {logging : Logging} {result : Except Fault Ended}
    (h : Refused (result.map fun ended => { ended with logging := logging })) : Refused result := by
  obtain ⟨ended, hended, hexit⟩ := h
  cases result <;> cases hended
  exact ⟨_, rfl, hexit⟩

theorem traceless_performTask (h : s.engine.Modest) (dir : Path) (task : Task) :
    Traceless Rejection (performTask s dir task) := by
  cases task with
  | run template fresh =>
    exact (Session.traceless_runTemplateFile h dir template fresh).map _ (Rejection.of_map _)
  | orchestrate script => exact (s.traceless_runScript dir script).map _ (Rejection.of_map _)
  | step agentId model effort =>
    exact (Session.traceless_runStep h dir agentId model effort).map _ (Rejection.of_map _)
  | reset => exact ((s.faultsIn_reset dir).bind fun _ => FaultsIn.pure _).traceless

/-- What has run to an end was not refused. -/
theorem exit_ofOutcome_ne (before : List String) (o : Outcome) :
    (Ended.ofOutcome before o).exit ≠ .refused := by
  unfold Ended.ofOutcome Exit.ofStatus
  cases o.status <;> exact fun h => by cases h

theorem yields_performTask (s : Session) (dir : Path) (task : Task) :
    Yields (·.exit ≠ .refused) (performTask s dir task) := by
  cases task with
  | run template fresh =>
    have hrun := yields_true (s.runTemplateFile dir template fresh)
    exact hrun.bind fun o _ => Yields.pure (exit_ofOutcome_ne [] o)
  | orchestrate script =>
    exact (yields_true _).bind fun r _ => Yields.pure (exit_ofOutcome_ne _ r.outcome)
  | step agentId model effort =>
    exact (yields_true _).bind fun _ _ => Yields.pure fun h => by cases h
  | reset => exact (yields_true _).bind fun _ _ => Yields.pure fun h => by cases h

theorem isUsage_of_exit_ofFault {f : Fault} (h : (Ended.ofFault f).exit = .refused) :
    f.isUsage = true := by
  unfold Ended.ofFault at h
  cases husage : f.isUsage with
  | true => rfl
  | false =>
    unfold exitOf at h
    rw [husage, if_neg Bool.false_ne_true] at h
    cases f <;> cases h

/-- Performs a task in a session with an engine that is made for it. -/
def inSession (make : Settings → Act Engine) (settings : Settings) (dir : Path) (task : Task) :
    Act Ended := do
  let s := Session.ofSettings settings (← make settings)
  s.start
  performTask s dir task

/-- What is refused has ended in a fault that lies in what was given. -/
theorem rejection_of_refused {settings : Settings} {dir : Path} {task : Task} {w : World}
    (h : Refused ((performWith make settings dir task).exec w).1) :
    Rejection ((inSession make settings dir task).exec w).1 := by
  have hyields : Yields (·.exit ≠ .refused) (inSession make settings dir task) :=
    (yields_true _).bind fun _ _ => (yields_true _).bind fun _ _ => yields_performTask _ dir task
  obtain ⟨ended, hended, hexit⟩ := h
  have hperform : (performWith make settings dir task).exec w = _ :=
    exec_bind_of_ok (exec_attempt (inSession make settings dir task) w)
  rw [hperform] at hended
  cases hresult : ((inSession make settings dir task).exec w).1 with
  | ok ended' =>
    rw [hresult] at hended
    cases hended
    exact absurd hexit (hyields w _ hresult)
  | error f =>
    rw [hresult] at hended
    cases hended
    exact ⟨f, rfl, isUsage_of_exit_ofFault hexit⟩

theorem traceless_performWith (hmake : Makes make) (settings : Settings) (dir : Path)
    (task : Task) : Traceless Refused (performWith make settings dir task) := by
  have hsession : Traceless Rejection (inSession make settings dir task) :=
    Traceless.bind_of_yields (hmake.harmless settings) (hmake.modest settings) fun _ hmodest =>
      Traceless.bind (Session.harmless_start _) fun _ => traceless_performTask hmodest dir task
  intro w h
  have hrejection := rejection_of_refused h
  have hperform : (performWith make settings dir task).exec w = _ :=
    exec_bind_of_ok (exec_attempt (inSession make settings dir task) w)
  have hsame : ((performWith make settings dir task).exec w).2.Untouched
      ((inSession make settings dir task).exec w).2 := by
    rw [hperform]
    split <;> exact ⟨rfl, rfl⟩
  obtain ⟨hstore, hcalls⟩ := hsession w hrejection
  exact ⟨hsame.1.symm.trans hstore, hsame.2.symm.trans hcalls⟩

theorem traceless_perform (hmake : Makes make) (vars : Variables) (r : Request) :
    Traceless Refused (perform make vars r) := by
  have hload := Settings.harmless_load vars []
  refine Traceless.bind (fun w₀ => (hload w₀).attempt) fun read => ?_
  split
  · exact Harmless.traceless fun _ => Keeps.pure _
  · exact Harmless.traceless fun _ => Keeps.throw _
  · next settings =>
    refine Traceless.bind (fun _ => Keeps.lift _) fun logging => ?_
    dsimp only
    split
    · exact Harmless.traceless fun _ _ h => h
    · refine Traceless.bind (fun _ => Keeps.get) fun w => ?_
      have hwith := traceless_performWith hmake (r.adjust settings) (r.place w.cwd) r.task
      exact hwith.map (fun ended => { ended with logging := logging }) fun _ => Refused.of_map

/-- What is refused leaves no trace: no file has changed and no call has been made where a request
is refused, and where a template, a script or a step ends in a fault that lies in what was given. -/
theorem refused_leaves_no_trace (hmake : Makes make) (hs : s.engine.Modest) :
    (∀ vars r, Traceless Refused (perform make vars r)) ∧
      (∀ dir t fresh, Traceless Rejection (s.runTemplate dir t fresh)) ∧
      (∀ dir path fresh, Traceless Rejection (s.runTemplateFile dir path fresh)) ∧
      (∀ dir text, Traceless Rejection (s.runScript dir text)) ∧
      ∀ dir agentId model effort, Traceless Rejection (s.runStep dir agentId model effort) :=
  ⟨traceless_perform hmake, Session.traceless_runTemplate hs, Session.traceless_runTemplateFile hs,
    s.traceless_runScript, Session.traceless_runStep hs⟩

/-- A directory with a template of a step that the catalog does not have, and the progress of another
template. -/
def strangeRoom : World :=
  let file (v : Json) : Node := .file (Text.Utf8.encodeText v.line) 0
  let step : Json := .obj [("id", .str "nobody")]
  { store :=
      { entries :=
          [(["work"], .directory), (["work", "config"], .directory),
           (["work", "config", "catalog.json"], file (.obj [("agents", .arr [])])),
           (["work", "feature.json"],
              file (.obj [("name", .str "feature"), ("steps", .arr [step])])),
           (["work", ".orchestrator"], .directory),
           (["work", ".orchestrator", "template.json"],
              file (.obj [("activeTemplate", .str "other"), ("completedSteps", .arr [.int 0])]))]
        clock := 1 }
    cwd := ⟨.slash, ["work"]⟩ }

/-- Agents of which none can be started. -/
def nobody : Child.Agents :=
  { command := ({} : Settings).command, spawn := fun l => .error ⟨.missing, l.dir.toString⟩ }

/-- The request to run the template afresh. -/
def strangeRequest : Request :=
  { task := .run (.ofString "feature.json") true, dir := .ofString "." }

/-- What comes of the request. -/
def strangeEnd : Except Fault Ended × World :=
  (perform (Child.engineOf nobody.spawn []) [] strangeRequest).exec strangeRoom

theorem strange_leaves_no_trace :
    Refused strangeEnd.1 ∧ strangeRoom.Untouched strangeEnd.2 := by
  have hexit : strangeEnd.1.toOption.map (·.exit) = some .refused := by decide +kernel
  have hrefused : Refused strangeEnd.1 := by
    cases hresult : strangeEnd.1 with
    | error e =>
      rw [hresult] at hexit
      cases hexit
    | ok ended =>
      rw [hresult] at hexit
      exact ⟨ended, rfl, Option.some.inj hexit⟩
  have hsession : (Session.ofSettings {} nobody.engine).engine.Modest := Child.modest_engine nobody
  exact ⟨hrefused, (refused_leaves_no_trace (Child.makes_engineOf nobody.spawn []) hsession).1
    [] strangeRequest strangeRoom hrefused⟩

end CommandLine

end Conductor
