import Conductor.Proofs.Run.Starts
import Conductor.Proofs.Script.Moving
import Conductor.Run.Script

/-!
# The course of a script

The run of a script is a sequence of turns: a stage begins, a task of it moves, or the stage is
left.  Where a run stands is the stages that have not begun, and those tasks and moves of the
present stage that are left (`State`).  What a turn can do is told by cases (`takes_of_turn`).  The
program runs stage after stage and folds over the moves of a stage; main statement: it goes through
the turns of a course, whatever the schedule, and ends as the last of them says (`exists_course`).
-/

namespace Conductor.Script

open Act

/-- Where a run stands: before a stage, or at work on one with moves left. -/
inductive Station where
  | before
  | atWork (runs : List TaskRun) (moves : List Nat)

/-- Where a run stands, with the results of the stages before and the stages that have not begun. -/
structure State where
  parentId : Option String
  number : Nat
  results : List TaskResult
  station : Station
  ahead : List Stage

/-- What a turn leads to. -/
inductive Turn where
  | next (s : State)
  | done (r : Result)

/-- Leaves a stage with the results of its tasks, for the next one or for good. -/
def leave (s : State) (rs : List TaskResult) : Act Turn := do
  match endedBy? (← get).cancelled rs with
  | (some outcome, failed) =>
    if let some r := failed then
      note .error s!"Task {r.name} failed, stopping script: {r.errorText}"
    return .done { outcome := outcome, results := s.results ++ rs }
  | (none, _) =>
    return .next { s with number := s.number + 1, results := s.results ++ rs, station := .before }

/-- One turn of a run. -/
def turn (setup : Setup) (total : Nat) (s : State) : Act Turn :=
  match s.station, s.ahead with
  | .before, [] => return .done { outcome := { status := .completed }, results := s.results }
  | .before, stage :: rest => do
    if (← get).cancelled then
      note .warning s!"Script cancelled before stage {s.number}/{total}"
      return .done { outcome := cancelledOutcome, results := s.results }
    else
      let names := ", ".intercalate (stage.map (·.name))
      note .info s!"Executing stage {s.number}/{total}: {names}"
      return .next { s with
        station := .atWork (stage.map fun t => { task := t })
          (setup.schedule s.number ++ inOrder stage.length)
        ahead := rest }
  | .atWork runs (i :: moves), _ => do
    let runs ← moveAt setup.shop s.parentId setup.workers runs i
    return .next { s with station := .atWork runs moves }
  | .atWork runs [], _ => do
    let rs ← Act.lift (Script.results runs)
    leave s rs

/-- Puts the script on record, where records are kept, and yields the id of its record. -/
def opening (setup : Setup) : Act (Option String) :=
  match setup.shop.registry with
  | none => return none
  | some path => do
    let parent ← Registry.start path "orchestrate" "orchestration script" none
    return some parent.runId

/-- How the end of a script is recorded: the state and the error. -/
def closingState : Except Fault Result → RunState × Option String
  | .ok r => (recordedState r.outcome, r.outcome.reason)
  | .error f => (.failed, some f.message)

/-- Puts the end of a script on record. -/
def recordClosing (setup : Setup) (parentId : Option String) (ended : Except Fault Result) :
    Act Unit :=
  match setup.shop.registry, parentId with
  | some path, some id => do
    let _ ← Registry.finish path id (closingState ended).1 (closingState ended).2
  | _, _ => return ()

/-- Ends a script as its last turn says, after that has been put on record. -/
def closing (setup : Setup) (parentId : Option String) (ended : Except Fault Result) :
    Act Result := do
  recordClosing setup parentId ended
  Act.lift ended

/-- Where a run starts. -/
def start (parentId : Option String) (plan : Plan) : State := ⟨parentId, 1, [], .before, plan⟩

/-- Where a run stands, and in which world. -/
abbrev Point := World × State

/-- The points that the run of a plan has gone through, the newest first. -/
inductive Trail (setup : Setup) (plan : Plan) (w₀ : World) : List Point → Prop
  | start {parentId w} (h : (opening setup).exec w₀ = (.ok parentId, w)) :
    Trail setup plan w₀ [(w, start parentId plan)]
  | next {w s w' s' trail} (ht : Trail setup plan w₀ ((w, s) :: trail))
    (h : (turn setup plan.length s).exec w = (.ok (.next s'), w')) :
    Trail setup plan w₀ ((w', s') :: (w, s) :: trail)

/-- The last turn of a run: the script ends, or a fault leaves it. -/
inductive Stops (setup : Setup) (plan : Plan) (w₀ : World) :
    List Point → Option String → Except Fault Result → World → Prop
  | done {w s trail r w'} (ht : Trail setup plan w₀ ((w, s) :: trail))
    (h : (turn setup plan.length s).exec w = (.ok (.done r), w')) :
    Stops setup plan w₀ ((w, s) :: trail) s.parentId (.ok r) w'
  | failed {w s trail e w'} (ht : Trail setup plan w₀ ((w, s) :: trail))
    (h : (turn setup plan.length s).exec w = (.error e, w')) :
    Stops setup plan w₀ ((w, s) :: trail) s.parentId (.error e) w'

/-- The course of a run from its first world to its end. -/
inductive Course (setup : Setup) (plan : Plan) (w₀ : World) :
    List Point → Except Fault Result → World → Prop
  | unopened {e w} (h : (opening setup).exec w₀ = (.error e, w)) :
    Course setup plan w₀ [] (.error e) w
  | closed {trail parentId ended w r w'} (hs : Stops setup plan w₀ trail parentId ended w)
    (h : (closing setup parentId ended).exec w = (r, w')) : Course setup plan w₀ trail r w'

/-- What a turn does, from a state in a world: where it leads and the world after it. -/
inductive Takes (setup : Setup) (w : World) : State → Except Fault Turn → World → Prop
  /-- No stage is left. -/
  | completed {parentId number before} :
    Takes setup w ⟨parentId, number, before, .before, []⟩
      (.ok (.done ⟨{ status := .completed }, before⟩)) w
  /-- A run that was cancelled begins no stage. -/
  | cancelled {parentId number before stage ahead log} (hw : w.cancelled = true) :
    Takes setup w ⟨parentId, number, before, .before, stage :: ahead⟩
      (.ok (.done ⟨cancelledOutcome, before⟩)) (w.withLog log)
  /-- A stage begins. -/
  | begun {parentId number before stage ahead log} (hw : w.cancelled = false) :
    Takes setup w ⟨parentId, number, before, .before, stage :: ahead⟩
      (.ok (.next ⟨parentId, number, before,
        .atWork (untouched stage) (setup.schedule number ++ inOrder stage.length), ahead⟩))
      (w.withLog log)
  /-- A task of the stage moves, if it may. -/
  | moved {parentId number before runs i moves ahead runs' w'}
    (h : (moveAt setup.shop parentId setup.workers runs i).exec w = (.ok runs', w')) :
    Takes setup w ⟨parentId, number, before, .atWork runs (i :: moves), ahead⟩
      (.ok (.next ⟨parentId, number, before, .atWork runs' moves, ahead⟩)) w'
  /-- A task has no result but a fault. -/
  | broken {parentId number before runs ahead e} (h : Script.results runs = .error e) :
    Takes setup w ⟨parentId, number, before, .atWork runs [], ahead⟩ (.error e) w
  /-- The stage is left for the next one. -/
  | left {parentId number before runs ahead rs failed} (hrs : Script.results runs = .ok rs)
    (he : endedBy? w.cancelled rs = (none, failed)) :
    Takes setup w ⟨parentId, number, before, .atWork runs [], ahead⟩
      (.ok (.next ⟨parentId, number + 1, before ++ rs, .before, ahead⟩)) w
  /-- The stage ends the script. -/
  | ended {parentId number before runs ahead rs outcome failed log}
    (hrs : Script.results runs = .ok rs)
    (he : endedBy? w.cancelled rs = (some outcome, failed)) :
    Takes setup w ⟨parentId, number, before, .atWork runs [], ahead⟩
      (.ok (.done ⟨outcome, before ++ rs⟩)) (w.withLog log)

variable {setup : Setup} {plan : Plan} {w₀ w w' : World} {s : State} {trail : List Point}
  {parentId : Option String}

/-! ### The program runs a course -/

theorem runPlan_eq (setup : Setup) (plan : Plan) (w : World) :
    (runPlan setup plan).exec w = (do
      let parentId ← opening setup
      let ended ← Act.attempt (runStages setup parentId plan.length 1 [] plan)
      closing setup parentId ended : Act Result).exec w := by
  unfold runPlan opening closing recordClosing
  cases setup.shop.registry with
  | none =>
    show _ = ((Act.attempt (runStages setup none plan.length 1 [] plan)) >>= Act.lift).exec w
    rw [exec_bind_of_ok (exec_attempt _ w), exec_lift]
  | some path =>
    dsimp only
    rw [bind_assoc, exec_bind, exec_bind]
    rcases (Registry.start path "orchestrate" "orchestration script" none).exec w
      with ⟨(e | parent), w₁⟩
    · rfl
    · dsimp only
      rw [pure_bind, exec_bind_of_ok (exec_attempt _ w₁), exec_bind_of_ok (exec_attempt _ w₁)]
      dsimp only
      cases ((runStages setup (some parent.runId) plan.length 1 [] plan).exec w₁).1 with
      | ok r =>
        dsimp only
        rw [bind_assoc]
        rfl
      | error f =>
        dsimp only
        rw [bind_assoc]
        rfl

theorem exec_run_of_read_error {text : String} {e : SyntaxError} (h : read text = .error e)
    (setup : Setup) (w : World) : (run setup text).exec w = (.error (.script e), w) := by
  unfold run
  rw [h]
  rfl

theorem exec_run_of_read {text : String} (h : read text = .ok plan) (setup : Setup) (w : World) :
    (run setup text).exec w = (runPlan setup plan).exec w := by
  unfold run
  rw [h]
  exact exec_bind_of_ok (exec_lift (.ok plan) w)

/-- Before a stage a cancelled run ends, and any other begins the stage. -/
theorem exec_turn_stage (setup : Setup) (total number : Nat) (parentId : Option String)
    (before : List TaskResult) (stage : Stage) (rest : List Stage) (w : World) :
    (turn setup total ⟨parentId, number, before, .before, stage :: rest⟩).exec w =
      if w.cancelled then (do
        note .warning s!"Script cancelled before stage {number}/{total}"
        return .done { outcome := cancelledOutcome, results := before } : Act Turn).exec w
      else (do
        let names := ", ".intercalate (stage.map (·.name))
        note .info s!"Executing stage {number}/{total}: {names}"
        return .next ⟨parentId, number, before, .atWork (stage.map fun t => { task := t })
          (setup.schedule number ++ inOrder stage.length), rest⟩ : Act Turn).exec w := by
  show ((MonadState.get : Act World) >>= _).exec w = _
  rw [exec_bind]
  dsimp only [exec_get]
  split <;> rfl

/-- A task that has no result but a fault ends the script with that. -/
theorem exec_turn_broken (setup : Setup) (total number : Nat) (parentId : Option String)
    (before : List TaskResult) (ahead : List Stage) (w : World) {runs : List TaskRun} {e : Fault}
    (hrs : results runs = .error e) :
    (turn setup total ⟨parentId, number, before, .atWork runs [], ahead⟩).exec w =
      (.error e, w) := by
  show (Act.lift (results runs) >>= leave _).exec w = _
  rw [hrs]
  rfl

/-- After the last move of a stage it is left with the results of its tasks. -/
theorem exec_turn_leave (setup : Setup) (total number : Nat) (parentId : Option String)
    (before : List TaskResult) (ahead : List Stage) (w : World) {runs : List TaskRun}
    {rs : List TaskResult} (hrs : results runs = .ok rs) :
    (turn setup total ⟨parentId, number, before, .atWork runs [], ahead⟩).exec w =
      (match endedBy? w.cancelled rs with
      | (some outcome, failed) => do
        if let some r := failed then
          note .error s!"Task {r.name} failed, stopping script: {r.errorText}"
        return .done { outcome := outcome, results := before ++ rs }
      | (none, _) =>
        return .next ⟨parentId, number + 1, before ++ rs, .before, ahead⟩ : Act Turn).exec w := by
  show (Act.lift (results runs) >>= leave _).exec w = _
  rw [hrs, exec_bind_of_ok (exec_lift _ w), leave, exec_bind_of_ok (exec_get w)]

/-- Each turn is one of those listed. -/
theorem takes_of_turn {total : Nat} {x : Except Fault Turn}
    (h : (turn setup total s).exec w = (x, w')) : Takes setup w s x w' := by
  obtain ⟨parentId, number, before, station, ahead⟩ := s
  cases station with
  | before =>
    cases ahead with
    | nil =>
      cases h
      exact .completed
    | cons stage ahead =>
      rw [exec_turn_stage] at h
      cases hw : w.cancelled with
      | true =>
        rw [hw, if_pos rfl, note, exec_note_bind] at h
        cases h
        exact .cancelled hw
      | false =>
        rw [hw, if_neg Bool.false_ne_true] at h
        dsimp only at h
        rw [note, exec_note_bind] at h
        cases h
        exact .begun hw
  | atWork runs moves =>
    cases moves with
    | cons i moves =>
      obtain ⟨runs', w₁, hmove⟩ := exists_exec_moveAt setup.shop parentId setup.workers i runs w
      obtain ⟨rfl, rfl⟩ := Prod.mk.inj ((exec_bind_of_ok hmove).symm.trans h)
      exact .moved hmove
    | nil =>
      cases hrs : Script.results runs with
      | error e =>
        rw [exec_turn_broken setup total number parentId before ahead w hrs] at h
        cases h
        exact .broken hrs
      | ok rs =>
        rw [exec_turn_leave setup total number parentId before ahead w hrs] at h
        rcases he : endedBy? w.cancelled rs with ⟨_ | outcome, failed⟩
        · rw [he] at h
          cases h
          exact .left hrs he
        · rw [he] at h
          cases failed <;> cases h <;> exact .ended hrs he

/-- Only the log tells that a stage is left. -/
theorem keeps_leave {P : World → Prop} (hP : LogFree P) (s : State) (rs : List TaskResult) :
    Keeps P (leave s rs) := by
  refine Keeps.get_bind fun w hw => ?_
  split
  · dsimp only
    split
    · exact ((Keeps.note hP _).bind fun _ => Keeps.pure _) w hw
    · exact hw
  · exact hw

/-- The moves of a stage are turns: they come to their end, or a fault leaves the script. -/
theorem goes_on_through_moves {runs : List TaskRun} {moves : List Nat} {number : Nat}
    {before : List TaskResult} {ahead : List Stage} {x : Except Fault (List TaskRun)}
    (ht : Trail setup plan w₀ ((w, ⟨parentId, number, before, .atWork runs moves, ahead⟩) :: trail))
    (h : (moves.foldlM (moveAt setup.shop parentId setup.workers) runs).exec w = (x, w')) :
    (∃ runs' trail', x = .ok runs' ∧ Trail setup plan w₀
      ((w', ⟨parentId, number, before, .atWork runs' [], ahead⟩) :: trail')) ∨
    ∃ e trail', x = .error e ∧ Stops setup plan w₀ trail' parentId (.error e) w' := by
  induction moves generalizing runs w trail with
  | nil =>
    cases h
    exact .inl ⟨runs, trail, rfl, ht⟩
  | cons i moves ih =>
    rw [List.foldlM_cons, exec_bind] at h
    rcases hm : (moveAt setup.shop parentId setup.workers runs i).exec w with ⟨(e | runs₁), w₁⟩
    · rw [hm] at h
      cases h
      refine .inr ⟨e, _, rfl, .failed ht ?_⟩
      show (moveAt setup.shop parentId setup.workers runs i >>= _).exec w = _
      rw [exec_bind, hm]
    · rw [hm] at h
      refine ih (.next ht ?_) h
      show (moveAt setup.shop parentId setup.workers runs i >>= _).exec w = _
      rw [exec_bind, hm]
      rfl

/-- The stages ahead are run turn by turn. -/
theorem stops_of_runStages {number : Nat} {before : List TaskResult} {ahead : List Stage}
    {r : Except Fault Result}
    (ht : Trail setup plan w₀ ((w, ⟨parentId, number, before, .before, ahead⟩) :: trail))
    (h : (runStages setup parentId plan.length number before ahead).exec w = (r, w')) :
    ∃ trail', Stops setup plan w₀ trail' parentId r w' := by
  induction ahead generalizing number before w trail with
  | nil =>
    cases h
    exact ⟨_, .done ht rfl⟩
  | cons stage ahead ih =>
    -- The turn that begins the stage and the recursion look at the same cancellation.
    have hturn := exec_turn_stage setup plan.length number parentId before stage ahead w
    rw [runStages, exec_bind, exec_get] at h
    dsimp only at h
    cases hw : w.cancelled with
    | true =>
      rw [hw, if_pos rfl, note, exec_note_bind] at h hturn
      cases h
      exact ⟨_, .done ht hturn⟩
    | false =>
      rw [hw, if_neg Bool.false_ne_true] at h hturn
      dsimp only at h hturn
      rw [note, exec_note_bind] at h hturn
      have hbegun := Trail.next ht hturn
      rw [exec_bind] at h
      rcases hmoves : (runStage setup.shop parentId setup.workers (setup.schedule number)
        stage).exec (w.withLog _) with ⟨x, w₁⟩
      rw [hmoves] at h
      rcases goes_on_through_moves hbegun hmoves with
        ⟨runs, trail', rfl, hwork⟩ | ⟨e, trail', rfl, hs⟩
      · -- All moves are made: the results end the script or the next stage is ahead.
        dsimp only at h
        cases hrs : results runs with
        | error e =>
          rw [hrs] at h
          cases h
          exact ⟨_, .failed hwork (exec_turn_broken setup plan.length number parentId before ahead
            w' hrs)⟩
        | ok rs =>
          rw [hrs, exec_bind_of_ok (exec_lift _ w₁), exec_bind_of_ok (exec_get w₁)] at h
          have hturn := exec_turn_leave setup plan.length number parentId before ahead w₁ hrs
          rcases he : endedBy? w₁.cancelled rs with ⟨_ | outcome, failed⟩
          · rw [he] at h hturn
            exact ih (.next hwork hturn) h
          · rw [he] at h hturn
            cases failed with
            | none =>
              cases h
              exact ⟨_, .done hwork hturn⟩
            | some failed =>
              cases h
              exact ⟨_, .done hwork hturn⟩
      · cases h
        exact ⟨trail', hs⟩

/-- The run of a plan goes through a course. -/
theorem exists_course (setup : Setup) (plan : Plan) (w₀ : World) :
    ∃ trail, Course setup plan w₀ trail ((runPlan setup plan).exec w₀).1
      ((runPlan setup plan).exec w₀).2 := by
  rw [runPlan_eq, exec_bind]
  rcases ho : (opening setup).exec w₀ with ⟨(e | parentId), w⟩
  · exact ⟨[], .unopened ho⟩
  · dsimp only
    rw [exec_bind_of_ok (exec_attempt _ w)]
    obtain ⟨trail, hs⟩ := stops_of_runStages (.start ho) rfl
    exact ⟨trail, .closed hs rfl⟩

/-! ### What holds of all tasks -/

/-- Something holds of the tasks that a script works at, and of those ahead. -/
structure State.All (P : TaskRun → Prop) (s : State) : Prop where
  ahead : ∀ stage ∈ s.ahead, ∀ t ∈ stage, P { task := t }
  station : ∀ runs moves, s.station = .atWork runs moves → ∀ r ∈ runs, P r

theorem State.All.imp {P Q : TaskRun → Prop} (h : s.All P) (hPQ : ∀ r, P r → Q r) : s.All Q :=
  ⟨fun stage hstage t ht => hPQ _ (h.ahead stage hstage t ht),
    fun runs moves hs r hr => hPQ r (h.station runs moves hs r hr)⟩

theorem forall_of_moveAt {P : TaskRun → Prop} {shop : Workshop} {workers i : Nat}
    {runs runs' : List TaskRun} (h : ∀ r ∈ runs, P r)
    (hmoves : ∀ r phase w', P r → Moves shop parentId r.task w r.phase phase w' →
      P { r with phase := phase })
    (hx : (moveAt shop parentId workers runs i).exec w = (.ok runs', w')) : ∀ r ∈ runs', P r := by
  rcases exec_moveAt_cases shop parentId workers i runs w with
    ⟨-, hsame⟩ | ⟨earlier, a, later, phase, w₁, rfl, -, -, hm, hmove⟩
  · cases hsame.symm.trans hx
    exact h
  · cases hmove.symm.trans hx
    obtain ⟨hearlier, hrest⟩ := List.forall_mem_append.mp h
    obtain ⟨ha, hlater⟩ := List.forall_mem_cons.mp hrest
    exact List.forall_mem_append.mpr
      ⟨hearlier, List.forall_mem_cons.mpr ⟨hmoves a phase _ ha hm, hlater⟩⟩

/-- What the moves of a turn keep holds after the turn. -/
theorem State.All.turn {P : TaskRun → Prop} {total : Nat} {s' : State} (h : s.All P)
    (hmoves : ∀ r phase w', P r → Moves setup.shop s.parentId r.task w r.phase phase w' →
      P { r with phase := phase })
    (hx : (turn setup total s).exec w = (.ok (.next s'), w')) : s'.All P := by
  cases takes_of_turn hx with
  | begun =>
    obtain ⟨hstage, hahead⟩ := List.forall_mem_cons.mp h.ahead
    refine ⟨hahead, ?_⟩
    rintro _ _ ⟨⟩ r hr
    obtain ⟨t, ht, rfl⟩ := List.mem_map.mp hr
    exact hstage t ht
  | moved hmove =>
    refine ⟨h.ahead, ?_⟩
    rintro _ _ ⟨⟩
    exact forall_of_moveAt (h.station _ _ rfl) hmoves hmove
  | left => exact ⟨h.ahead, fun _ _ hs => by cases hs⟩

/-- What holds of the tasks of a plan and is kept by every move of a run holds all along it. -/
theorem Trail.all {P : TaskRun → Prop} (ht : Trail setup plan w₀ trail)
    (hplan : ∀ t ∈ plan.tasks, P { task := t })
    (hmoves : ∀ n ∈ trail, ∀ r phase w', P r →
      Moves setup.shop n.2.parentId r.task n.1 r.phase phase w' → P { r with phase := phase }) :
    ∀ n ∈ trail, n.2.All P := by
  induction ht with
  | start h =>
    refine List.forall_mem_singleton.mpr ⟨fun stage hstage t ht => ?_, fun _ _ hs => by cases hs⟩
    exact hplan t (List.mem_flatten.mpr ⟨stage, hstage, ht⟩)
  | next ht h ih =>
    -- A turn makes its moves at the point that it starts from.
    obtain ⟨hlast, hearlier⟩ := List.forall_mem_cons.mp
      (ih fun n hn => hmoves n (List.mem_cons_of_mem _ hn))
    have hkept := hmoves _ (List.mem_cons_of_mem _ List.mem_cons_self)
    exact List.forall_mem_cons.mpr
      ⟨hlast.turn hkept h, List.forall_mem_cons.mpr ⟨hlast, hearlier⟩⟩

/-! ### The end of a stage and of a script -/

/-- A run stops with the turn at the last of its points. -/
theorem Stops.exists_turn {ended : Except Fault Result}
    (h : Stops setup plan w₀ trail parentId ended w') :
    ∃ w s older x, trail = (w, s) :: older ∧ Trail setup plan w₀ trail ∧
      (turn setup plan.length s).exec w = (x, w') := by
  cases h with
  | done ht hturn => exact ⟨_, _, _, _, rfl, ht, hturn⟩
  | failed ht hturn => exact ⟨_, _, _, _, rfl, ht, hturn⟩

/-- The moves of a stage that are made and those that are left are all its moves. -/
theorem Trail.movedBy (h : Trail setup plan w₀ ((w, s) :: trail)) {runs : List TaskRun} {moves : List Nat}
    (hs : s.station = .atWork runs moves) :
    ∃ made schedule stage, MovedBy setup.workers made (untouched stage) runs ∧
      made ++ moves = schedule ++ inOrder stage.length := by
  generalize hpoints : (w, s) :: trail = points at h
  induction h generalizing w s trail runs moves with
  | start _ =>
    cases hpoints
    cases hs
  | next _ hturn ih =>
    cases hpoints
    cases takes_of_turn hturn with
    | @begun _ _ _ stage =>
      cases hs
      exact ⟨[], _, stage, .nil _, List.nil_append _⟩
    | @moved _ _ _ runs₀ i _ _ _ _ hmove =>
      cases hs
      obtain ⟨made, schedule, stage, hmoved, hmoves⟩ := ih rfl rfl
      rw [List.append_cons] at hmoves
      refine ⟨made ++ [i], schedule, stage, hmoved.append ?_, hmoves⟩
      rcases exec_moveAt_cases setup.shop _ setup.workers i runs₀ _ with
        ⟨hmay, hx⟩ | ⟨earlier, r, later, phase, w₁, rfl, rfl, hmay, hm, hx⟩
      · cases hx.symm.trans hmove
        exact .stayed hmay (.nil _)
      · cases hx.symm.trans hmove
        exact .moved hmay hm.movesLeft_lt (.nil _)
    | left _ _ => cases hs

/-- When no move of a stage is left, all its tasks are done. -/
theorem Trail.all_done (hworkers : 0 < setup.workers)
    {runs : List TaskRun}
    (h : Trail setup plan w₀ ((w, s) :: trail)) (hs : s.station = .atWork runs []) :
    ∀ r ∈ runs, r.phase.movesLeft = 0 := by
  obtain ⟨made, schedule, stage, hmoved, hmoves⟩ := h.movedBy hs
  rw [List.append_nil] at hmoves
  rw [hmoves] at hmoved
  exact hmoved.all_done hworkers

/-- The script has only those results that its last turn yields. -/
theorem closing_eq_ok {ended : Except Fault Result} {result : Result}
    (h : (closing setup parentId ended).exec w = (.ok result, w')) : ended = .ok result := by
  obtain ⟨_, _, -, hlift⟩ := exec_bind_eq_ok_iff.mp h
  rw [exec_lift] at hlift
  exact congrArg Prod.fst hlift

end Conductor.Script
