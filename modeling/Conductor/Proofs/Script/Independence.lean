import Conductor.Proofs.Script.Course
import Conductor.Proofs.Script.Stage
import Mathlib.Data.List.Forall2

/-!
# What a script comes to does not depend on the schedule

In a calm run the results of a script are settled before it starts: by its plan, by what the tasks
read and by what their agents answer (`expected`).  Main statement: the run ends with them, having
made the calls of the stages that run and no others (`run_independent_of_schedule`), in whatever
order the tasks of each stage move and however many workers there are.

Every path that the tasks read must be able to name a file.  A task that names one that cannot makes
the run end without a result, though nothing else is the matter (`not_runsAsPlanned_nul`).
-/

namespace Conductor.Script

open Act Text

/-! ### What the plan and the answers say -/

/-- The stages that run: those before the first one in which a task fails, and that one. -/
def stagesRun (fails : Task → Bool) : Plan → Plan
  | [] => []
  | stage :: rest => if stage.any fails then [stage] else stage :: stagesRun fails rest

/-- The stages that run where agents answer by their name and prompt. -/
def stagesOf (shop : Workshop) (answer : Answers) (w : World) (plan : Plan) : Plan :=
  stagesRun (fun t => !(resultOf shop answer w t).success) plan

/-- The results of the stages that run, in script order. -/
def resultsOf (shop : Workshop) (answer : Answers) (w : World) (plan : Plan) : List TaskResult :=
  (stagesOf shop answer w plan).flatten.map (resultOf shop answer w)

/-- The outcome by the results of all tasks: the first failure in script order ends a script. -/
def outcomeBy (rs : List TaskResult) : Outcome :=
  match rs.find? (!·.success) with
  | none => { status := .completed }
  | some r => { status := .aborted, reason := some s!"{r.name} failed: {r.errorText}" }

/-- The result that a script has to have. -/
def expected (shop : Workshop) (answer : Answers) (w : World) (plan : Plan) : Result where
  outcome := outcomeBy (resultsOf shop answer w plan)
  results := resultsOf shop answer w plan

/-- Calls made stage by stage, and in each stage those of its tasks in some order. -/
def MadeBy (shop : Workshop) (w : World) (stages : Plan) (calls : List Invocation) : Prop :=
  ∃ made, List.Forall₂ (fun cs stage => cs.Perm (stage.filterMap (invocationOf? shop w))) made
    stages ∧ calls = made.flatten

/-- A run ends with the result that the plan and the answers say, having made the calls of the
stages that run. -/
def RunsAsPlanned (shop : Workshop) (answer : Answers) (plan : Plan) (w₀ : World)
    (ended : Except Fault Result × World) : Prop :=
  ended.1 = .ok (expected shop answer w₀ plan) ∧
    ∃ calls, ended.2.calls.toList = w₀.calls.toList ++ calls ∧
      MadeBy shop w₀ (stagesOf shop answer w₀ plan) calls

variable {shop : Workshop} {answer : Answers} {ts : List Task} {w₀ w : World}
  {parentId : Option String} {ids : List String} {plan : Plan} {stage : Stage}

/-! ### The end of a stage -/

theorem cancelled_resultOf (hcalm : Calm shop answer ts w₀) (w : World) (t : Task) :
    (resultOf shop answer w t).cancelled = false := by
  have hend : ∀ f, endOf shop answer t (readsOf shop w t) ≠ .error (.cancelled f) := by
    intro f h
    unfold endOf at h
    cases hprompt : promptOf t (readsOf shop w t) with
    | error e =>
      rw [hprompt] at h
      cases h
      unfold promptOf Reads.templateText at hprompt
      split at hprompt <;> cases hprompt
    | ok prompt =>
      rw [hprompt] at h
      change Workshop.handOn _ (answer t.name prompt) = _ at h
      cases ha : answer t.name prompt with
      | ok text =>
        rw [ha] at h
        cases h
      | error e =>
        rw [ha, Workshop.handOn] at h
        split at h
        · cases h
          exact hcalm.uncancelled t.name prompt f ha
        · cases h
  unfold resultOf resultBy
  split
  · rfl
  · next f h => exact absurd h (hend f)
  · rfl

/-- The first failure of a stage ends the script, unless a task was cancelled. -/
theorem endedBy?_of_not_cancelled {rs : List TaskResult} (h : ∀ r ∈ rs, r.cancelled = false) :
    endedBy? false rs = match rs.find? (!·.success) with
      | some r => (some (outcomeBy rs), some r)
      | none => (none, none) := by
  have hany : rs.any (·.cancelled) = false := by
    rw [List.any_eq_false]
    intro r hr
    rw [h r hr]
    exact Bool.false_ne_true
  unfold endedBy? outcomeBy
  rw [hany]
  cases rs.find? (!·.success) <;> rfl

/-- Where no task of a stage fails, the next stages decide. -/
theorem stagesOf_cons_of_none
    (h : (stage.map (resultOf shop answer w₀)).find? (!·.success) = none) (rest : List Stage) :
    stagesOf shop answer w₀ (stage :: rest) = stage :: stagesOf shop answer w₀ rest ∧
      outcomeBy (resultsOf shop answer w₀ (stage :: rest)) =
        outcomeBy (resultsOf shop answer w₀ rest) := by
  have hany : stage.any (fun t => !(resultOf shop answer w₀ t).success) = false := by
    rw [List.any_eq_false]
    intro t ht
    exact List.find?_eq_none.mp h _ (List.mem_map_of_mem ht)
  have hstages : stagesOf shop answer w₀ (stage :: rest) =
      stage :: stagesOf shop answer w₀ rest := by
    unfold stagesOf
    rw [stagesRun, hany, if_neg Bool.false_ne_true]
  refine ⟨hstages, ?_⟩
  unfold outcomeBy resultsOf
  rw [hstages, List.flatten_cons, List.map_append, List.find?_append, h, Option.none_or]

/-- A stage in which a task fails is the last one. -/
theorem stagesOf_cons_of_some {r : TaskResult}
    (h : (stage.map (resultOf shop answer w₀)).find? (!·.success) = some r) (rest : List Stage) :
    stagesOf shop answer w₀ (stage :: rest) = [stage] := by
  have hany : stage.any (fun t => !(resultOf shop answer w₀ t).success) = true := by
    obtain ⟨t, ht, rfl⟩ := List.mem_map.mp (List.mem_of_find?_eq_some h)
    exact List.any_eq_true.mpr ⟨t, ht, List.find?_some (p := fun r : TaskResult => !r.success) h⟩
  unfold stagesOf
  rw [stagesRun, hany, if_pos rfl]

theorem MadeBy.cons {cs calls : List Invocation} {stages : Plan}
    (hcs : cs.Perm (stage.filterMap (invocationOf? shop w₀)))
    (h : MadeBy shop w₀ stages calls) : MadeBy shop w₀ (stage :: stages) (cs ++ calls) := by
  obtain ⟨made, hmade, rfl⟩ := h
  exact ⟨cs :: made, .cons hcs hmade, rfl⟩

theorem madeBy_nil : MadeBy shop w₀ [] [] := ⟨[], .nil, rfl⟩

/-! ### The run -/

section

variable (setup : Setup) (hcalm : Calm setup.shop answer ts w₀)
  (hrecordable : ∀ path ∈ setup.shop.registry, Recordable setup.shop answer ts w₀ path)
include hcalm hrecordable

/-- A stage comes to its end, and its first failure decides how the script goes on. -/
theorem exec_runStages_cons (hworkers : 0 < setup.workers)
    (hstage : ∀ t ∈ stage, t ∈ ts ∧ (readsOf setup.shop w₀ t).Named)
    (hw : Steady setup.shop ts w₀ ids w) (hparent : ∀ id ∈ parentId, id ∈ ids)
    (total number : Nat) (before : List TaskResult) (rest : List Stage) :
    ∃ ids' w' cs, (runStages setup parentId total number before (stage :: rest)).exec w =
        (match (stage.map (resultOf setup.shop answer w₀)).find? (!·.success) with
        | some r => do
          note .error s!"Task {r.name} failed, stopping script: {r.errorText}"
          return { outcome := outcomeBy (stage.map (resultOf setup.shop answer w₀)),
                   results := before ++ stage.map (resultOf setup.shop answer w₀) }
        | none => runStages setup parentId total (number + 1)
            (before ++ stage.map (resultOf setup.shop answer w₀)) rest : Act Result).exec w' ∧
      ids ⊆ ids' ∧ Steady setup.shop ts w₀ ids' w' ∧ w'.calls.toList = w.calls.toList ++ cs ∧
      cs.Perm (stage.filterMap (invocationOf? setup.shop w₀)) := by
  rw [runStages, exec_bind, exec_get]
  dsimp only
  rw [hw.cancelled, if_neg Bool.false_ne_true, note, exec_note_bind]
  generalize List.foldl Array.push w.log _ = log
  have hlog : Steady setup.shop ts w₀ ids (w.withLog log) := hw.of_files hcalm rfl rfl rfl
  obtain ⟨ids', runs, w', cs, hrun, hresults, hgrows, hw', hcalls, hcs⟩ :=
    exec_runStage hcalm hrecordable (fun t ht => (hstage t ht).1) (fun t ht => (hstage t ht).2)
      hworkers hlog hparent (setup.schedule number)
  have hnot : ∀ r ∈ stage.map (resultOf setup.shop answer w₀), r.cancelled = false := by
    intro r hr
    obtain ⟨t, -, rfl⟩ := List.mem_map.mp hr
    exact cancelled_resultOf hcalm w₀ t
  refine ⟨ids', w', cs, ?_, hgrows, hw', hcalls, hcs⟩
  rw [exec_bind_of_ok hrun, hresults, exec_bind_of_ok (exec_lift _ w'),
    exec_bind_of_ok (exec_get w'), hw'.cancelled, endedBy?_of_not_cancelled hnot]
  cases (stage.map (resultOf setup.shop answer w₀)).find? (!·.success) <;> rfl

/-- The stages run up to the first one in which a task fails. -/
theorem exec_runStages (hworkers : 0 < setup.workers)
    (hplan : ∀ stage ∈ plan, ∀ t ∈ stage, t ∈ ts ∧ (readsOf setup.shop w₀ t).Named)
    (hw : Steady setup.shop ts w₀ ids w) (hparent : ∀ id ∈ parentId, id ∈ ids)
    (total number : Nat) (before : List TaskResult) :
    ∃ ids' w' calls, (runStages setup parentId total number before plan).exec w =
        (.ok { outcome := outcomeBy (resultsOf setup.shop answer w₀ plan),
               results := before ++ resultsOf setup.shop answer w₀ plan }, w') ∧
      ids ⊆ ids' ∧ Steady setup.shop ts w₀ ids' w' ∧
      w'.calls.toList = w.calls.toList ++ calls ∧
      MadeBy setup.shop w₀ (stagesOf setup.shop answer w₀ plan) calls := by
  induction plan generalizing ids w number before with
  | nil =>
    refine ⟨ids, w, [], ?_, fun _ hid => hid, hw, (List.append_nil _).symm, madeBy_nil⟩
    have hnone : resultsOf setup.shop answer w₀ [] = [] := rfl
    rw [hnone, List.append_nil]
    rfl
  | cons stage rest ih =>
    obtain ⟨ids₁, w₁, cs, hrun, hgrows, hw₁, hcalls, hcs⟩ :=
      exec_runStages_cons setup hcalm hrecordable hworkers (hplan stage (List.mem_cons_self ..))
        hw hparent total number before rest
    rw [hrun]
    cases hfind : (stage.map (resultOf setup.shop answer w₀)).find? (!·.success) with
    | none =>
      obtain ⟨hstages, houtcome⟩ := stagesOf_cons_of_none hfind rest
      -- The run goes on from a world in which the tasks still read the same.
      obtain ⟨ids', w', calls, hrest, hgrows', hw', hcalls', hmade⟩ :=
        ih (fun s hs => hplan s (List.mem_cons_of_mem _ hs)) hw₁
          (fun id hid => hgrows (hparent id hid)) (number + 1)
          (before ++ stage.map (resultOf setup.shop answer w₀))
      refine ⟨ids', w', cs ++ calls, ?_, fun id hid => hgrows' (hgrows hid), hw', ?_, ?_⟩
      · dsimp only
        rw [hrest, houtcome, List.append_assoc]
        unfold resultsOf
        rw [hstages, List.flatten_cons, List.map_append]
      · rw [hcalls', hcalls, List.append_assoc]
      · rw [hstages]
        exact hmade.cons hcs
    | some r =>
      -- The script ends here, all tasks of the stage being done.
      have hstages := stagesOf_cons_of_some hfind rest
      have hresults : resultsOf setup.shop answer w₀ (stage :: rest) =
          stage.map (resultOf setup.shop answer w₀) := by
        unfold resultsOf
        rw [hstages, List.flatten_cons, List.flatten_nil, List.append_nil]
      rw [hresults, hstages]
      refine ⟨ids₁, _, cs ++ [], rfl, hgrows, hw₁.of_files hcalm rfl rfl rfl, ?_,
        madeBy_nil.cons hcs⟩
      rw [List.append_nil]
      exact hcalls

/-- The script is put on record where a registry is kept. -/
theorem exec_opening :
    ∃ parentId ids w, (opening setup).exec w₀ = (.ok parentId, w) ∧
      Steady setup.shop ts w₀ ids w ∧ (∀ id ∈ parentId, id ∈ ids) ∧ w.calls = w₀.calls := by
  have hfirst : Alike setup.shop ts w₀ w₀ := ⟨rfl, fun _ _ => rfl⟩
  unfold opening
  cases hr : setup.shop.registry with
  | none =>
    refine ⟨none, [], w₀, rfl, ⟨hfirst, hcalm.cancelled, ?_⟩, nofun, rfl⟩
    intro path hp
    rw [hr] at hp
    cases hp
  | some path =>
    have hkept := hrecordable path hr
    obtain ⟨parent, hopens⟩ := hkept.opens
    rcases hstart : (Registry.start path "orchestrate" "orchestration script" none).exec w₀
      with ⟨x, w⟩
    rw [hstart] at hopens
    obtain rfl : x = .ok parent := hopens
    have hproper : (Registry.started "orchestrate" "orchestration script" none w₀).Proper :=
      Registry.proper_started (by decide) (by decide) (by rintro s ⟨⟩) w₀
    obtain ⟨rs, s₁, s₂, -, hfile, hs₁, hs₂, rfl⟩ := Registry.inFile_of_start hproper hstart
    refine ⟨some parent.runId, [parent.runId], _, exec_bind_of_ok hstart,
      ⟨?_, hcalm.cancelled, ?_⟩, ?_, rfl⟩
    · have hdirectory := hkept.directory w₀ s₁ hfirst hs₁
      exact (hkept.file { w₀ with store := s₁ } _ s₂ hdirectory hs₂).of_files hcalm rfl rfl
    · intro path' hp'
      cases hr.symm.trans hp'
      refine ⟨_, hfile, fun id hid => ⟨parent, ?_, (List.mem_singleton.mp hid).symm⟩⟩
      exact List.mem_append_right _ (List.mem_singleton_self _)
    · rintro id ⟨⟩
      exact List.mem_singleton_self _

omit hcalm hrecordable in
/-- The end of the script is put on record. -/
theorem exec_closing (hw : Steady setup.shop ts w₀ ids w) (hparent : ∀ id ∈ parentId, id ∈ ids)
    (ended : Except Fault Result) :
    ∃ w', (closing setup parentId ended).exec w = (ended, w') ∧ w'.calls = w.calls := by
  have hrecord : ∃ w', (recordClosing setup parentId ended).exec w = (.ok (), w') ∧
      w'.calls = w.calls := by
    unfold recordClosing
    cases hr : setup.shop.registry with
    | none => exact ⟨w, rfl, rfl⟩
    | some path =>
      cases parentId with
      | none => exact ⟨w, rfl, rfl⟩
      | some id =>
        obtain ⟨r, text, s, -, hfinish, -⟩ := Registry.exec_finish_of_lists (hw.registry path hr)
          (hparent id rfl) (closingState ended).1 (closingState ended).2
        exact ⟨_, exec_bind_of_ok hfinish, rfl⟩
  obtain ⟨w', hend, hcalls⟩ := hrecord
  refine ⟨w', ?_, hcalls⟩
  unfold closing
  rw [exec_bind_of_ok hend, exec_lift]

/-- A calm run of a plan ends as the plan and the answers of the agents say. -/
theorem exec_runPlan (hworkers : 0 < setup.workers)
    (hplan : ∀ stage ∈ plan, ∀ t ∈ stage, t ∈ ts ∧ (readsOf setup.shop w₀ t).Named) :
    ∃ w calls, (runPlan setup plan).exec w₀ = (.ok (expected setup.shop answer w₀ plan), w) ∧
      w.calls.toList = w₀.calls.toList ++ calls ∧
      MadeBy setup.shop w₀ (stagesOf setup.shop answer w₀ plan) calls := by
  obtain ⟨parentId, ids, w, hopen, hw, hparent, hcalls⟩ := exec_opening setup hcalm hrecordable
  obtain ⟨ids', w', calls, hstages, hgrows, hw', hcalls', hmade⟩ :=
    exec_runStages setup hcalm hrecordable hworkers hplan hw hparent plan.length 1 []
  obtain ⟨w'', hclose, hcalls''⟩ := exec_closing setup hw'
    (fun id hid => hgrows (hparent id hid)) (.ok (expected setup.shop answer w₀ plan))
  refine ⟨w'', calls, ?_, ?_, hmade⟩
  · rw [runPlan_eq, exec_bind_of_ok hopen, exec_bind_of_ok (exec_attempt _ w), hstages]
    exact hclose
  · rw [hcalls'', hcalls', hcalls]

end

/-- A calm run of a script ends as its plan and the answers of the agents say, by any schedule and
with any number of workers. -/
theorem run_independent_of_schedule {text : String} {workers : Nat} (schedule : Nat → List Nat)
    (hread : read text = .ok plan) (hworkers : 0 < workers)
    (hcalm : Calm shop answer plan.tasks w₀)
    (hnamed : ∀ t ∈ plan.tasks, (readsOf shop w₀ t).Named)
    (hrecordable : ∀ path ∈ shop.registry, Recordable shop answer plan.tasks w₀ path) :
    RunsAsPlanned shop answer plan w₀ ((run ⟨shop, workers, schedule⟩ text).exec w₀) := by
  have hplan : ∀ stage ∈ plan, ∀ t ∈ stage, t ∈ plan.tasks ∧ (readsOf shop w₀ t).Named := by
    intro stage hstage t ht
    have hmem : t ∈ plan.tasks := List.mem_flatten.mpr ⟨stage, hstage, ht⟩
    exact ⟨hmem, hnamed t hmem⟩
  obtain ⟨w, calls, hx, hcalls, hmade⟩ :=
    exec_runPlan ⟨shop, workers, schedule⟩ hcalm hrecordable hworkers hplan
  rw [exec_run_of_read hread, hx]
  exact ⟨rfl, calls, hcalls, hmade⟩

/-! ### A stage in which a task fails -/

/-- What the agents answer: all are done but the one that checks. -/
def draftingAnswers : Answers := fun name _ =>
  if name = "check" then .error (.foreign "no paper") else .ok "done"

/-- Agents that leave all files alone and answer in this way, on record. -/
def draftingShop : Workshop :=
  { engine := fun w call =>
      { store := w.store, result := draftingAnswers call.agentId call.prompt }
    dir := ⟨.slash, ["work"]⟩
    stateDir := ⟨.none, ["state"]⟩
    registry := some ⟨.slash, ["work", "state", "runs.json"]⟩ }

/-- A script whose first stage has a task that fails. -/
def draftingScript : String := "check 'look' & draft[input:notes.txt] 'sum up' && send"

/-- The plan of the script. -/
def draftingPlan : Plan :=
  [[{ name := "check", argument := "look" },
    { name := "draft", argument := "sum up", inputFiles := ["notes.txt"] }], [{ name := "send" }]]

/-- The world of the script: a directory with the notes. -/
def draftingWorld : World :=
  { store :=
      { entries := [(["work"], .directory), (["work", "notes.txt"], .file [109] 0)], clock := 1 }
    cwd := ⟨.slash, ["work"]⟩ }

/-- The result of the script: what comes behind the failure in its stage runs, the next stage does
not. -/
def draftingResult : Result :=
  { outcome := { status := .aborted, reason := some "check failed: check failed: no paper" }
    results := [
      { name := "check", success := false, error := some "check failed: no paper" },
      { name := "draft", success := true, output := "done" }] }

/-- The tasks of the script read the notes and nothing else. -/
theorem readsOf_drafting (w : World) :
    draftingPlan.tasks.map (readsOf draftingShop w) = [⟨none, []⟩,
      ⟨none, [("notes.txt", w.store.readText w.cwd ⟨.slash, ["work", "notes.txt"]⟩)]⟩,
      ⟨none, []⟩] := rfl

theorem draftingNotes : draftingWorld.store.readText draftingWorld.cwd
    ⟨.slash, ["work", "notes.txt"]⟩ = .ok "m" := by decide +kernel

theorem draftingAlike_iff :
    Alike draftingShop draftingPlan.tasks draftingWorld w ↔ w.cwd = ⟨.slash, ["work"]⟩ ∧
      w.store.readText w.cwd ⟨.slash, ["work", "notes.txt"]⟩ = .ok "m" := by
  have hall : Alike draftingShop draftingPlan.tasks draftingWorld w ↔ w.cwd = ⟨.slash, ["work"]⟩ ∧
      draftingPlan.tasks.map (readsOf draftingShop w) =
        draftingPlan.tasks.map (readsOf draftingShop draftingWorld) :=
    and_congr Iff.rfl List.map_inj_left.symm
  rw [hall, readsOf_drafting, readsOf_drafting, draftingNotes]
  simp

theorem loader_draftingShop : draftingShop.loader = Prompt.fromFile := by
  unfold draftingShop
  dsimp only

theorem draftingCalm : Calm draftingShop draftingAnswers draftingPlan.tasks draftingWorld where
  cancelled := rfl
  answers _ _ := rfl
  quiet _ _ := rfl
  uncancelled name prompt f := by
    unfold draftingAnswers
    split <;> nofun
  loader _ _ hstore hcwd := by
    rw [loader_draftingShop]
    exact fromFile_of_files hstore hcwd
  files _ _ h := h

theorem draftingRecordable (path : Path) (h : path ∈ draftingShop.registry) :
    Recordable draftingShop draftingAnswers draftingPlan.tasks draftingWorld path := by
  obtain rfl : ⟨.slash, ["work", "state", "runs.json"]⟩ = path := Option.some.inj h
  refine ⟨⟨Registry.started "orchestrate" "orchestration script" none draftingWorld,
    by decide +kernel⟩, ?_, ?_, fun _ _ _ _ hb => hb, by decide, ?_⟩
  · intro w s hw hs
    obtain ⟨hcwd, hread⟩ := draftingAlike_iff.mp hw
    exact draftingAlike_iff.mpr ⟨hcwd, Store.readText_ensureDirectory hs hread⟩
  · intro w text s hw hs
    obtain ⟨hcwd, hread⟩ := draftingAlike_iff.mp hw
    refine draftingAlike_iff.mpr ⟨hcwd, Store.readText_writeText_of_ne hs ?_ hread⟩
    rw [hcwd]
    decide
  · intro name prompt
    unfold draftingAnswers
    split
    · rintro e ⟨⟩
      decide
    · nofun

theorem draftingNamed : ∀ t ∈ draftingPlan.tasks, (readsOf draftingShop draftingWorld t).Named := by
  have hnamed : ∀ r ∈ draftingPlan.tasks.map (readsOf draftingShop draftingWorld), r.Named := by
    rw [readsOf_drafting, draftingNotes]
    unfold Reads.Named
    simp
  exact List.forall_mem_map.mp hnamed

theorem expected_drafting :
    expected draftingShop draftingAnswers draftingWorld draftingPlan = draftingResult := by
  decide +kernel

/-- Two workers take turns at a stage in which one task fails: the other one is done all the same,
and the script ends there. -/
theorem drafting_runs_as_planned :
    read draftingScript = .ok draftingPlan ∧
      RunsAsPlanned draftingShop draftingAnswers draftingPlan draftingWorld
        ((run ⟨draftingShop, 2, fun _ => [0, 1, 1, 0, 1]⟩ draftingScript).exec draftingWorld) ∧
      expected draftingShop draftingAnswers draftingWorld draftingPlan = draftingResult := by
  have hread : read draftingScript = .ok draftingPlan := by decide +kernel
  exact ⟨hread, run_independent_of_schedule _ hread (by decide) draftingCalm draftingNamed
    draftingRecordable, expected_drafting⟩

/-! ### A path that can name no file -/

/-- A script whose only task names a path with a null character. -/
def nulScript : String := "a[input:x\x00y] 'go'"

/-- The plan of the script. -/
def nulPlan : Plan := [[{ name := "a", argument := "go", inputFiles := ["x\x00y"] }]]

/-- Agents that leave all files alone and are always done. -/
def nulShop : Workshop :=
  { engine := fun w _ => { store := w.store, result := .ok "done" }
    dir := ⟨.slash, ["work"]⟩
    stateDir := ⟨.none, ["state"]⟩ }

theorem loader_nulShop : nulShop.loader = Prompt.fromFile := by
  unfold nulShop
  dsimp only

theorem not_runsAsPlanned_nul :
    read nulScript = .ok nulPlan ∧ Calm nulShop (fun _ _ => .ok "done") nulPlan.tasks default ∧
      expected nulShop (fun _ _ => .ok "done") default nulPlan =
        { outcome := { status := .completed }
          results := [{ name := "a", success := true, output := "done" }] } ∧
      ¬RunsAsPlanned nulShop (fun _ _ => .ok "done") nulPlan default
        ((run ⟨nulShop, 1, fun _ => []⟩ nulScript).exec default) := by
  refine ⟨by decide +kernel, ⟨rfl, fun _ _ => rfl, fun _ _ => rfl, nofun,
    fun _ _ => loader_nulShop ▸ fromFile_of_files, fun _ _ h => h⟩, by decide +kernel, fun h => ?_⟩
  have hfault : ((run ⟨nulShop, 1, fun _ => []⟩ nulScript).exec default).1 =
      .error (.read .nul) := by decide +kernel
  cases hfault.symm.trans h.1

end Conductor.Script
