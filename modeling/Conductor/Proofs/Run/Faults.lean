import Conductor.Proofs.Script.Course
import Conductor.Proofs.Workflow.Onward

/-!
# The faults that runs end in

An engine is modest if no fault that it reports is one of the program's own, but for calls that
failed or were cancelled (`Engine.Modest`).  With a modest engine a run of a workflow ends in no
fault of the program's own (`Workflow.faultsIn_run`): failed and cancelled calls are taken in, what
the catalog does not know aborts the run, and the rest comes from the files.  A script ends in none
of them whatever the engine reports (`Script.faultsIn_runPlan`), since its tasks report them as
their failures.
-/

namespace Conductor

open Act

/-- The program's own faults that the engine reports are failed and cancelled calls. -/
def Engine.Modest (engine : Engine) : Prop :=
  ∀ w call e, (engine w call).result = .error e → e.isOwn = true → e.isHeld = true

/-! ### Progress and signals -/

namespace Progress

theorem isOfFiles_of_ofText {text : String} {e : Fault} (h : ofText text = .fault e) :
    e.isOfFiles = true := by
  unfold ofText at h
  split at h
  · cases h
  · cases h
    rfl
  · split at h <;> cases h

theorem faultsIn_find (path : Path) : FaultsIn (·.isOfFiles = true) (find path) := by
  refine (FaultsIn.holds fun _ => rfl).bind fun there => ?_
  split
  · exact FaultsIn.pure _
  · refine (FaultsIn.readText path).bind fun read => ?_
    split <;> exact FaultsIn.pure _

theorem yields_find (path : Path) :
    Yields (fun found => ∀ e, found = .fault e → e.isOfFiles = true) (find path) := by
  refine (yields_true _).bind fun there _ => ?_
  split
  · exact Yields.pure fun _ h => by cases h
  · refine (yields_true _).bind fun read _ => ?_
    split
    · exact Yields.pure fun _ h => isOfFiles_of_ofText h
    · exact Yields.pure fun _ h => by cases h
    · exact Yields.pure fun _ h => by
        cases h
        rfl

theorem faultsIn_load (path : Path) : FaultsIn (·.isOfFiles = true) (load path) := by
  refine (faultsIn_find path).bind_of_yields (yields_find path) fun found hfound => ?_
  split
  · exact FaultsIn.pure _
  · exact FaultsIn.throw (hfound _ rfl)
  · exact (FaultsIn.note _).bind fun _ => FaultsIn.pure _

theorem faultsIn_save (path : Path) (p : Progress) :
    FaultsIn (·.isOfFiles = true) (save path p) := by
  have hdir : FaultsIn (·.isOfFiles = true) (ensureDirectory path.parent) :=
    FaultsIn.ensureDirectory (fun _ => rfl) rfl
  have hwrite : ∀ text, FaultsIn (·.isOfFiles = true) (writeText path text) :=
    FaultsIn.writeText (fun _ => rfl) rfl
  refine hdir.bind fun _ => ?_
  split
  · exact FaultsIn.throw rfl
  · exact FaultsIn.get.bind fun _ => hwrite _

theorem faultsIn_recordCompleted (path : Path) (index : Int) :
    FaultsIn (·.isOfFiles = true) (recordCompleted path index) :=
  (faultsIn_load path).bind fun _ => (faultsIn_save path _).bind fun _ => FaultsIn.note _

theorem faultsIn_recordStarted (path : Path) (index : Int) :
    FaultsIn (·.isOfFiles = true) (recordStarted path index) := by
  refine (faultsIn_load path).bind fun p => ?_
  split
  · exact FaultsIn.pure _
  · exact faultsIn_save path _

theorem faultsIn_setActiveTemplate (path : Path) (name : String) :
    FaultsIn (·.isOfFiles = true) (setActiveTemplate path name) := by
  refine (faultsIn_load path).bind fun p => ?_
  split
  · exact FaultsIn.pure _
  · split
    · exact faultsIn_save path _
    · exact (FaultsIn.note _).bind fun _ => faultsIn_save path _

theorem faultsIn_clear (path : Path) : FaultsIn (·.isOfFiles = true) (Progress.clear path) := by
  refine (FaultsIn.holds fun _ => rfl).bind fun there => ?_
  split
  · exact FaultsIn.pure _
  · exact (faultsIn_load path).bind fun _ => (FaultsIn.note _).bind fun _ => faultsIn_save path _

end Progress

theorem SignalWay.faultsIn_readSafely (way : SignalWay) (dir : Path) :
    FaultsIn (·.isOfFiles = true) (readSafely way dir) := by
  intro w e h
  cases way with
  | file stateDir => cases readSafely_eq_error_iff.mp h <;> rfl
  | mailbox => cases h

/-! ### Steps -/

namespace Workshop

variable {shop : Workshop} {step : Step} {identity : String} {w : World} {e : Fault}

/-- With a modest engine only the files break an execution off. -/
theorem Breaks.isOfFiles (hmodest : shop.engine.Modest) (h : shop.Breaks step identity w e) :
    e.isOfFiles = true := by
  rcases h.isOfFiles_or_reported with hfiles | ⟨hown, hheld, _, _, hresult⟩
  · exact hfiles
  · cases hheld.symm.trans (hmodest _ _ _ hresult hown)

/-- The execution of a step ends in a fault of the files or in one that a run takes in. -/
theorem faultsIn_execute (hmodest : shop.engine.Modest) (step : Step) (identity : String) :
    FaultsIn (fun e => e.isOfFiles = true ∨ e.isHeld = true)
      (shop.execute step identity none) := by
  intro w e h
  rcases execute_eq_error_iff.mp h with hfails | hbreaks
  · exact .inr hfails.isHeld
  · exact .inl (hbreaks.isOfFiles hmodest)

end Workshop

/-! ### Workflows -/

namespace Workflow

variable {f : Workflow}

theorem faultsIn_start (f : Workflow) : FaultsIn (·.isOfFiles = true) f.start := by
  have hnoted : ∀ cursor : Cursor, FaultsIn (·.isOfFiles = true) (do
      note .info s!"Running workflow with {f.steps.length} step(s) in {f.shop.dir}"
      return { cursor := cursor } : Act State) :=
    fun cursor => (FaultsIn.note _).bind fun _ => FaultsIn.pure _
  unfold start
  dsimp only
  split
  · exact (FaultsIn.pure _).bind hnoted
  · exact (Progress.faultsIn_load _).bind fun _ => (Progress.faultsIn_load _).bind fun _ =>
      (FaultsIn.pure _).bind hnoted

theorem faultsIn_recordStarted (f : Workflow) (index : Nat) :
    FaultsIn (·.isOfFiles = true) (f.recordStarted index) := by
  unfold recordStarted
  split
  · exact Progress.faultsIn_recordStarted _ _
  · exact FaultsIn.pure _

theorem faultsIn_recordCompleted (f : Workflow) (index : Nat) :
    FaultsIn (·.isOfFiles = true) (f.recordCompleted index) := by
  unfold recordCompleted
  split
  · exact Progress.faultsIn_recordCompleted _ _
  · exact FaultsIn.pure _

theorem faultsIn_begin (s : State) (i : Nat) (step run : Step) (identity : String) :
    FaultsIn (·.isOfFiles = true) (f.begin s i step run identity) :=
  (f.faultsIn_recordStarted i).bind fun _ => FaultsIn.pure _

/-- A turn ends in faults of the files only. -/
theorem faultsIn_turn (h : f.shop.engine.Modest) (s : State) :
    FaultsIn (·.isOfFiles = true) (f.turn s) := by
  intro w e he
  have hexecutes : ∀ {owner run identity}, s.phase.executes? = some (owner, run, identity) →
      e.isOfFiles = true := by
    intro owner run identity hs
    rcases (exec_turn_eq_error_iff hs).mp he with hbreaks | ⟨-, -, -, hr⟩
    · exact hbreaks.isOfFiles h
    · exact SignalWay.faultsIn_readSafely _ _ _ _ hr
  have hjudges : ∀ {step}, s.phase.judged? = some step → e.isOfFiles = true :=
    fun hs => SignalWay.faultsIn_readSafely _ _ _ _ ((turn_error_iff hs).mp he)
  cases hphase : s.phase with
  | head =>
    have hhead := exec_turn_of_head (f := f) hphase w
    rcases hhead with ⟨t, log, hx⟩ | ⟨step, run, identity, log, hx⟩
    · rw [hx] at he
      cases he
    · rw [hx] at he
      exact faultsIn_begin _ _ _ _ _ _ _ he
  | returned index step output =>
    rw [exec_turn_of_returned hphase] at he
    exact ((f.faultsIn_recordCompleted index).bind fun _ => FaultsIn.pure _) _ _ he
  | attempt index step run identity => exact hexecutes (by rw [hphase]; rfl)
  | triggered target step => exact hexecutes (by rw [hphase]; rfl)
  | recorded index step output => exact hjudges (by rw [hphase]; rfl)
  | handedBack target step => exact hjudges (by rw [hphase]; rfl)

/-- A run ends in no fault of the program's own. -/
theorem faultsIn_run (h : f.shop.engine.Modest) : FaultsIn (·.isOwn = false) f.run := by
  intro w e he
  rcases exists_turn_of_run he with rfl | hstart | ⟨v, s, trail, -, hturn⟩
  · rfl
  · exact Fault.not_isOwn_of_isOfFiles (f.faultsIn_start _ _ hstart)
  · exact Fault.not_isOwn_of_isOfFiles (faultsIn_turn h s _ _ hturn)

end Workflow

/-! ### Scripts -/

namespace Script

variable {setup : Setup}

/-- No fault of the program's own has been handed on by a task. -/
def TaskPhase.HandsOn (phase : TaskPhase) : Prop :=
  ∀ e, phase = .done (.error e) → e.isOwn = false

/-- Nor by any of the tasks of a stage. -/
def HandOn (runs : List TaskRun) : Prop := ∀ r ∈ runs, r.phase.HandsOn

theorem yields_settle (t : Task) (ended : Except Fault String) :
    Yields (fun result => ∀ e, result = .error e → e.isOwn = false) (settle t ended) := by
  have hok : ∀ r : TaskResult, ∀ e, (.ok r : Except Fault TaskResult) = .error e →
      e.isOwn = false := by
    intro _ _ h
    cases h
  unfold settle
  split
  · dsimp only
    split
    · exact (yields_true _).bind fun _ _ => Yields.pure (hok _)
    · exact Yields.pure (hok _)
  · exact Yields.pure (hok _)
  · split
    · exact Yields.pure (hok _)
    · next hown =>
      exact Yields.pure fun e h => by
        cases h
        exact Bool.eq_false_iff.mpr hown

theorem yields_settled (t : Task) (ended : Except Fault String) :
    Yields TaskPhase.HandsOn (settled t ended) :=
  (yields_settle t ended).bind fun _ h => Yields.pure fun e he => h e (TaskPhase.done.inj he)

theorem yields_move (shop : Workshop) (parentId : Option String) {r : TaskRun}
    (hr : r.phase.HandsOn) : Yields TaskPhase.HandsOn (r.move shop parentId) := by
  have hnot : ∀ {phase : TaskPhase}, phase.result? = none → phase.HandsOn := by
    intro phase hnone e he
    rw [he] at hnone
    cases hnone
  unfold TaskRun.move
  split
  · refine (yields_true _).bind fun result _ => ?_
    split
    · exact Yields.pure (hnot rfl)
    · exact yields_settled _ _
  · refine (yields_true _).bind fun result _ => ?_
    split
    · exact Yields.pure (hnot rfl)
    · exact yields_settled _ _
  · exact (yields_true _).bind fun _ _ => Yields.pure (hnot rfl)
  · exact (yields_true _).bind fun _ _ => yields_settled _ _
  · next hdone =>
    rw [hdone] at hr
    exact Yields.pure hr

theorem yields_moveAt (shop : Workshop) (parentId : Option String) (workers : Nat)
    {runs : List TaskRun} (hruns : HandOn runs) (i : Nat) :
    Yields HandOn (moveAt shop parentId workers runs i) := by
  unfold moveAt
  split
  · split
    · exact Yields.pure hruns
    · next r hr =>
      refine (yields_move shop parentId (hruns r (List.mem_of_getElem? hr))).bind fun phase hp => ?_
      refine Yields.pure fun a ha => ?_
      rcases List.mem_or_eq_of_mem_set ha with ha | rfl
      · exact hruns a ha
      · exact hp
  · exact Yields.pure hruns

theorem faultsIn_moveAt {Q : Fault → Prop} (shop : Workshop) (parentId : Option String)
    (workers : Nat) (runs : List TaskRun) (i : Nat) :
    FaultsIn Q (moveAt shop parentId workers runs i) := by
  intro w e h
  obtain ⟨runs', w', hx⟩ := exists_exec_moveAt shop parentId workers i runs w
  rw [hx] at h
  cases h

theorem not_isOwn_of_results {runs : List TaskRun} (hruns : HandOn runs) {e : Fault}
    (h : results runs = .error e) : e.isOwn = false := by
  obtain ⟨result, hmem, rfl⟩ := exists_of_mapM_eq_error h
  obtain ⟨r, hr, hresult⟩ := List.mem_filterMap.mp hmem
  refine hruns r hr e ?_
  cases hphase : r.phase <;> rw [hphase] at hresult <;> cases hresult
  rfl

theorem faultsIn_runStages (setup : Setup) (parentId : Option String) (total number : Nat)
    (before : List TaskResult) (stages : List Stage) :
    FaultsIn (·.isOwn = false) (runStages setup parentId total number before stages) := by
  induction stages generalizing number before with
  | nil => exact FaultsIn.pure _
  | cons stage rest ih =>
    unfold runStages
    refine FaultsIn.get.bind fun w => ?_
    split
    · exact (FaultsIn.note _).bind fun _ => FaultsIn.pure _
    · refine (FaultsIn.note _).bind fun _ => ?_
      have huntouched : HandOn (untouched stage) := by
        intro r hr e he
        obtain ⟨t, -, rfl⟩ := List.mem_map.mp hr
        cases he
      refine (FaultsIn.foldlM (faultsIn_moveAt _ _ _) _ _).bind_of_yields
        (Yields.foldlM (fun _ i h => yields_moveAt _ _ _ h i) _ huntouched) fun runs hruns => ?_
      refine (FaultsIn.lift fun e he => not_isOwn_of_results hruns he).bind fun rs => ?_
      refine FaultsIn.get.bind fun w => ?_
      split
      · dsimp only
        split
        · exact (FaultsIn.note _).bind fun _ => FaultsIn.pure _
        · exact FaultsIn.pure _
      · exact ih _ _

/-- The run of a plan ends in no fault of the program's own, whatever the engine reports. -/
theorem faultsIn_runPlan (setup : Setup) (plan : Plan) :
    FaultsIn (·.isOwn = false) (runPlan setup plan) := by
  have hopening : FaultsIn (·.isOwn = false) (opening setup) := by
    unfold opening
    split
    · exact FaultsIn.pure _
    · exact ((Registry.faultsIn_start _ _ _ _).mono fun _ => Fault.not_isOwn_of_isOfFiles).bind
        fun _ => FaultsIn.pure _
  have hclosing : ∀ parentId ended,
      FaultsIn (·.isOwn = false) (recordClosing setup parentId ended) := by
    intro parentId ended
    unfold recordClosing
    split
    · exact ((Registry.faultsIn_finish _ _ _ _).mono fun _ => Fault.not_isOwn_of_isOfFiles).bind
        fun _ => FaultsIn.pure _
    · exact FaultsIn.pure _
  intro w e h
  rw [runPlan_eq] at h
  refine (hopening.bind fun parentId => ?_) w e h
  refine (FaultsIn.attempt _).bind_of_yields
    (faultsIn_runStages setup parentId plan.length 1 [] plan).yields_attempt fun ended hended => ?_
  exact (hclosing parentId ended).bind fun _ => FaultsIn.lift hended

end Script

end Conductor
