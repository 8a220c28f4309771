import Conductor.Proofs.Run.ProperTexts
import Conductor.Proofs.Script.Independence
import Conductor.Proofs.State.RegistryHistory

/-!
# Every call is on record

A run whose registry is its own leaves the former records as they were, and behind them one record
for each call that it made, which tells how the call was answered (`OnRecord`).  A script puts its
own record before them, as soon as it has been read (`Script.LeavesRecords`); a text that is no
script leaves none.

Main statement: this holds of every run, however it ends (`every_call_on_record`).
-/

namespace Conductor

open Act Text

/-- A script leaves its own record, which tells how it ended, and one of each of its calls. -/
def Script.LeavesRecords (setup : Script.Setup) (path : Path) (former : List RunRecord)
    (w₀ : World) (events : List CallEvent) (ended : Except Fault Script.Result) (w : World) :
    Prop :=
  ∃ parent recs, (parent.agentId, parent.name, parent.parentId) =
      ("orchestrate", "orchestration script", none) ∧ Script.Tells parent ended ∧
    OnRecord setup.shop path former (some parent) w₀.calls.toList events recs w

variable {path : Path} {former : List RunRecord} {w w₀ : World}

/-! ### Courses -/

/-- A workflow that has come to its end has each call on record. -/
theorem Workflow.Course.onRecord {f : Workflow} {trail : List Workflow.Point}
    {r : Except Fault Outcome} (hown : f.shop.OwnsRegistry path former w₀)
    (htracking : ∀ p ∈ f.tracking, Path.resolve w₀.cwd p ≠ Path.resolve w₀.cwd path)
    (h : f.Course w₀ trail r w) (hended : r ≠ .error .endless)
    (hproper : ∀ e ∈ f.events trail, e.Proper) :
    ∃ recs, OnRecord f.shop path former none w₀.calls.toList (f.events trail) recs w := by
  obtain ⟨recs, hrecs⟩ := h.kept (j := hown.journal none) htracking rfl hended
    (Journal.kept_nil hown) hproper
  exact ⟨recs, hrecs.onRecord⟩

namespace Script

variable {setup : Setup} {plan : Plan} {trail : List Point} {r : Except Fault Result}

theorem Trail.opened {n : Point} (ht : Trail setup plan w₀ (n :: trail)) :
    ∃ parentId w, (opening setup).exec w₀ = (.ok parentId, w) := by
  induction trail generalizing n with
  | nil =>
    cases ht with
    | start h => exact ⟨_, _, h⟩
  | cons m trail ih =>
    cases ht with
    | next ht _ => exact ih ht

/-- A script that was opened has its own record and each call on record. -/
theorem Course.leavesRecords {parentId : Option String}
    (hown : setup.shop.OwnsRegistry path former w₀) (hworkers : 0 < setup.workers)
    (h : Course setup plan w₀ trail r w) (hopened : ((opening setup).exec w₀).1 = .ok parentId)
    (hproper : ∀ e ∈ events setup trail, e.Proper)
    (hclosing : ∀ s ∈ (closingState r).2, LoneHalf.occursIn s = false) :
    LeavesRecords setup path former w₀ (events setup trail) r w := by
  cases h with
  | unopened h =>
    rw [h] at hopened
    cases hopened
  | closed hs h =>
    obtain ⟨rfl, hkept⟩ := hs.kept (j := hown.journal (some (openedRecord w₀))) rfl hworkers
      (fun _ _ => kept_of_opening hown) hproper
    obtain ⟨w₂, hx, honRecord⟩ := exec_closing_of_kept rfl hkept _
    obtain ⟨rfl, rfl⟩ := Prod.mk.inj (h.symm.trans hx)
    obtain ⟨time, recs, hrec⟩ := honRecord hclosing
    exact ⟨_, recs, rfl, tells_ended (openedRecord w₀) (fun _ => hs.concludes) time, hrec⟩

/-- A script that could not be opened leaves the records as they were and has called no agent. -/
theorem Course.of_unopened {e : Fault} (hown : setup.shop.OwnsRegistry path former w₀)
    (h : Course setup plan w₀ trail r w) (hunopened : ((opening setup).exec w₀).1 = .error e) :
    r = .error e ∧ Registry.Holds path w former ∧ w.calls = w₀.calls := by
  cases h with
  | @unopened e' _ h =>
    obtain rfl : e' = e := by
      rw [h] at hunopened
      exact Except.error.inj hunopened
    exact ⟨rfl, holds_of_opening_fault hown h⟩
  | closed hs h =>
    obtain ⟨parentId, w, hopened⟩ : ∃ parentId w, (opening setup).exec w₀ = (.ok parentId, w) := by
      cases hs with
      | done ht => exact ht.opened
      | failed ht => exact ht.opened
    rw [hopened] at hunopened
    cases hunopened

/-! ### A text that is no script -/

/-- Whatever the text, a script leaves its own record. -/
def AlwaysLeavesRecords (setup : Setup) (path : Path) : Prop :=
  ∀ former text w₀, setup.shop.OwnsRegistry path former w₀ →
    ∃ events, LeavesRecords setup path former w₀ events ((run setup text).exec w₀).1
      ((run setup text).exec w₀).2

/-- Where the drafting is put on record. -/
def draftingRegistry : Path := ⟨.slash, ["work", "state", "runs.json"]⟩

theorem lacksFile_drafting : draftingWorld.store.LacksFile draftingWorld.cwd draftingRegistry := by
  have hnone : draftingWorld.store.at? (Path.resolve draftingWorld.cwd draftingRegistry).names =
      none := by decide +kernel
  intro bytes modified h
  cases hnone.symm.trans h

theorem ownsRegistry_drafting : draftingShop.OwnsRegistry draftingRegistry [] draftingWorld where
  registry_eq := rfl
  holds := .none lacksFile_drafting
  fresh := List.forall_mem_nil _
  spares _ _ _ _ h := h

/-- A text that ends within a quotation. -/
def brokenScript : String := "check 'look"

/-- The broken text runs nothing and leaves no record. -/
theorem not_alwaysLeavesRecords_drafting :
    ¬AlwaysLeavesRecords ⟨draftingShop, 2, fun _ => []⟩ draftingRegistry := by
  intro h
  have hread : read brokenScript = .error ⟨.unterminatedQuote, some 6⟩ := by decide +kernel
  obtain ⟨events, parent, recs, -, -, hrec⟩ :=
    h [] brokenScript draftingWorld ownsRegistry_drafting
  rw [exec_run_of_read_error hread] at hrec
  have hholds : Registry.Holds draftingRegistry draftingWorld (parent :: recs) := hrec.holds
  -- Records are held in a file only, and there is none.
  cases hholds with
  | file hfile =>
    obtain ⟨text, htext, -⟩ := hfile.text
    obtain ⟨-, bytes, hbytes⟩ := Store.exists_readBytes_of_readText htext
    exact lacksFile_drafting.readBytes_ne bytes hbytes

end Script

/-! ### All runs -/

/-- What a run leaves in a registry of its own, however it ends: the former records as they were,
and behind them a record of each of its calls.  Progress is kept in another file, and the texts that
go on record are proper ones.  A script that has been opened puts its own record before those of its
calls; one that cannot be opened leaves no record and calls no agent, and a text that is no script
does nothing. -/
theorem every_call_on_record (path : Path) (former : List RunRecord) (w₀ : World) :
    (∀ f : Workflow, f.shop.OwnsRegistry path former w₀ →
      (∀ p ∈ f.tracking, Path.resolve w₀.cwd p ≠ Path.resolve w₀.cwd path) →
      (∃ trail, f.Course w₀ trail (f.run.exec w₀).1 (f.run.exec w₀).2) ∧
      ∀ trail r w, f.Course w₀ trail r w → r ≠ .error .endless →
        (∀ e ∈ f.events trail, e.Proper) →
        ∃ recs, OnRecord f.shop path former none w₀.calls.toList (f.events trail) recs w) ∧
    ∀ setup : Script.Setup, setup.shop.OwnsRegistry path former w₀ → 0 < setup.workers →
      (∀ text e, Script.read text = .error e →
        (Script.run setup text).exec w₀ = (.error (.script e), w₀)) ∧
      (∀ text plan, Script.read text = .ok plan →
        (Script.run setup text).exec w₀ = (Script.runPlan setup plan).exec w₀) ∧
      ∀ plan,
        (∃ trail, Script.Course setup plan w₀ trail ((Script.runPlan setup plan).exec w₀).1
          ((Script.runPlan setup plan).exec w₀).2) ∧
        ∀ trail r w, Script.Course setup plan w₀ trail r w →
          (∀ e, ((Script.opening setup).exec w₀).1 = .error e →
            r = .error e ∧ Registry.Holds path w former ∧ w.calls = w₀.calls) ∧
          (∀ id, ((Script.opening setup).exec w₀).1 = .ok id →
            (∀ e ∈ Script.events setup trail, e.Proper) →
            (∀ s ∈ (Script.closingState r).2, LoneHalf.occursIn s = false) →
            Script.LeavesRecords setup path former w₀ (Script.events setup trail) r w) := by
  refine ⟨fun f hown htracking => ⟨f.exists_course w₀, fun trail r w h hended hproper => ?_⟩,
    fun setup hown hworkers => ⟨fun text e h => ?_, fun text plan h => ?_, fun plan => ⟨?_, ?_⟩⟩⟩
  · exact h.onRecord hown htracking hended hproper
  · exact Script.exec_run_of_read_error h setup w₀
  · exact Script.exec_run_of_read h setup w₀
  · exact Script.exists_course setup plan w₀
  · intro trail r w h
    exact ⟨fun e he => h.of_unopened hown he, fun id hid hproper hclosing =>
      h.leavesRecords hown hworkers hid hproper hclosing⟩

/-! ### A check that fails -/

/-- A step whose agent fails. -/
def checkStep : Step := { agentId := "check", agentName := "Check", promptPath := "notes.txt" }

/-- A workflow with this step alone. -/
def checkingWorkflow : Workflow :=
  { steps := [checkStep], shop := Script.draftingShop, signals := .mailbox }

theorem plain_checking : checkingWorkflow.Plain :=
  List.forall_mem_singleton.mpr ⟨rfl, nofun⟩

theorem answersProperly_drafting : Script.draftingShop.AnswersProperly := by
  intro w call runId
  have herrors := (Script.draftingRecordable Script.draftingRegistry rfl).errors
  exact herrors call.agentId call.prompt

theorem hasRoom_drafting : HasRoom Script.draftingRegistry Script.draftingWorld :=
  ⟨by decide, by decide +kernel, _, _, rfl, by decide +kernel, rfl⟩

/-- The agent is called and fails. -/
theorem execute_check {w : World} (hstore : w.store = Script.draftingWorld.store)
    (hcwd : w.cwd = Script.draftingWorld.cwd) (hcancelled : w.cancelled = false) :
    ((Script.draftingShop.execute checkStep "check" none).exec w).1 =
      .error (.failed { message := "Check failed: no paper", agentId := some "check" }) := by
  let call := Script.draftingShop.callOf checkStep "check" "m"
  have hready : Script.draftingShop.Ready checkStep "check" w call w := by
    refine ⟨"m", rfl, ?_, rfl⟩
    rw [Script.draftingCalm.loader Script.draftingWorld w hstore hcwd]
    decide +kernel
  have hstart : ∃ runId w₁, (Script.draftingShop.enter call).exec w = (.ok (some runId), w₁) := by
    have hserves : Registry.Serves Script.draftingRegistry w [] :=
      .room (hasRoom_drafting.congr hstore hcwd)
    have hproper : (Registry.Request.start "check" "Check" none).Proper :=
      ⟨by decide, by decide, nofun⟩
    obtain ⟨s, hstart, -⟩ := hserves.exec_start hproper
    have hrecord : (Script.draftingShop.recordStart call).exec w =
        (.ok (some _), _) := exec_bind_of_ok hstart
    rw [Workshop.exec_enter, hcancelled, if_neg Bool.false_ne_true]
    exact ⟨_, _, exec_bind_of_ok hrecord⟩
  obtain ⟨runId, w₁, henter⟩ := hstart
  have hown : Script.draftingShop.OwnsRegistry Script.draftingRegistry [] w := by
    refine ⟨rfl, .none ?_, List.forall_mem_nil _, fun _ _ _ _ h => h⟩
    rw [hstore, hcwd]
    exact Script.lacksFile_drafting
  obtain ⟨id, hid, hawaits, hopen⟩ :=
    (Journal.kept_nil hown).of_enter ⟨by decide, by decide⟩ rfl henter
  obtain rfl := Option.some.inj hid
  have hanswer := hopen.of_answer hawaits
  obtain ⟨w₂, hfinish, -⟩ := hanswer.of_finish call
    (mem_answeredIn_concat _ _ _) (answersProperly_drafting _ _ _)
  have hbegun : Script.draftingShop.Begun checkStep "check" w call (some runId) w₁ :=
    ⟨w, hready, henter⟩
  refine hbegun.execute_eq_error ?_
  rw [hfinish]
  rfl

/-- The workflow with the check is aborted. -/
theorem exists_course_checking : ∃ trail w, checkingWorkflow.Course Script.draftingWorld trail
    (.ok (Workflow.aborted "Check failed: no paper" [])) w := by
  obtain ⟨w, s, trail, ht, hphase, hmessages, hstore, hcwd, hcancelled⟩ : ∃ w s trail,
      checkingWorkflow.Trail Script.draftingWorld ((w, s) :: trail) ∧
        s.phase = .attempt 0 checkStep checkStep "check" ∧ s.messages = [] ∧
        w.store = Script.draftingWorld.store ∧ w.cwd = Script.draftingWorld.cwd ∧
        w.cancelled = false :=
    ⟨_, _, _, .next (.start rfl) rfl, rfl, rfl, rfl, rfl, rfl⟩
  have hexecutes : s.phase.executes? = some (checkStep, checkStep, "check") := by rw [hphase]; rfl
  have hturn := Workflow.exec_turn_of_executes (f := checkingWorkflow) hexecutes w
  have hfails : ((checkingWorkflow.shop.execute checkStep "check" none).exec w).1 = _ :=
    execute_check hstore hcwd hcancelled
  rw [hfails, Workflow.goOnAfter_of_not_tolerant rfl, hmessages] at hturn
  obtain ⟨log, habort⟩ := Workflow.exec_abort "Check failed: no paper" []
    ((checkingWorkflow.shop.execute checkStep "check" none).exec w).2
  exact ⟨_, _, .ended (.intro ht (hturn.trans habort))⟩

/-- The tasks of the drafting take turns. -/
def draftingSetup : Script.Setup :=
  { shop := Script.draftingShop, workers := 2, schedule := fun _ => [0, 1, 1, 0, 1] }

theorem namedProperly_drafting : ∀ stage ∈ Script.draftingPlan, ∀ t ∈ stage,
    Script.NamedProperly draftingSetup.shop t := by
  intro stage hstage t ht
  obtain ⟨hname, hdisplay⟩ := (Script.draftingRecordable Script.draftingRegistry rfl).names t
    (List.mem_flatten.mpr ⟨stage, hstage, ht⟩)
  exact Script.namedProperly hname hdisplay

/-- A check fails in a workflow and in a script whose tasks take turns.  Both leave the record of
its call, the script also that of the other task and its own one. -/
theorem checks_on_record :
    (∃ trail w recs, checkingWorkflow.Course Script.draftingWorld trail
        (.ok (Workflow.aborted "Check failed: no paper" [])) w ∧
      OnRecord Script.draftingShop Script.draftingRegistry [] none []
        (checkingWorkflow.events trail) recs w) ∧
    ∃ trail w, (Script.runPlan draftingSetup Script.draftingPlan).exec Script.draftingWorld =
        (.ok Script.draftingResult, w) ∧
      Script.Course draftingSetup Script.draftingPlan Script.draftingWorld trail
        (.ok Script.draftingResult) w ∧
      Script.LeavesRecords draftingSetup Script.draftingRegistry [] Script.draftingWorld
        (Script.events draftingSetup trail) (.ok Script.draftingResult) w := by
  have hown := Script.ownsRegistry_drafting
  obtain ⟨hworkflows, hscripts⟩ :=
    every_call_on_record Script.draftingRegistry [] Script.draftingWorld
  constructor
  · obtain ⟨-, hall⟩ := hworkflows checkingWorkflow hown nofun
    obtain ⟨trail, w, hc⟩ := exists_course_checking
    have hproper := hc.proper_events plain_checking answersProperly_drafting
      (List.forall_mem_singleton.mpr ⟨by decide, by decide⟩)
    obtain ⟨recs, hrecs⟩ := hall trail _ w hc nofun hproper
    exact ⟨trail, w, recs, hc, hrecs⟩
  · obtain ⟨-, -, hplans⟩ := hscripts draftingSetup hown (by decide)
    obtain ⟨⟨trail, hc⟩, hall⟩ := hplans Script.draftingPlan
    obtain ⟨w, -, hrun, -⟩ := Script.exec_runPlan draftingSetup Script.draftingCalm
      Script.draftingRecordable (by decide) fun stage hstage t ht =>
        have hmem := List.mem_flatten.mpr ⟨stage, hstage, ht⟩
        ⟨hmem, Script.draftingNamed t hmem⟩
    -- The result does not depend on the turns that the tasks take.
    have hresult : Script.expected draftingSetup.shop _ _ _ = _ := Script.expected_drafting
    rw [hresult] at hrun
    rw [hrun] at hc
    obtain ⟨id, -, _, hopening, -⟩ := Script.exec_opening draftingSetup Script.draftingCalm
      Script.draftingRecordable
    have hproper := hc.proper_events answersProperly_drafting namedProperly_drafting
    have hclosing : ∀ s ∈ (Script.closingState (.ok Script.draftingResult)).2,
        LoneHalf.occursIn s = false := by decide
    exact ⟨trail, w, hrun, hc, (hall trail _ w hc).2 id (by rw [hopening]) hproper hclosing⟩

end Conductor
