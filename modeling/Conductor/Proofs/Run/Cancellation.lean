import Conductor.Proofs.Script.Course
import Conductor.Proofs.Script.Grammar
import Conductor.Proofs.Workflow.Trail
import Mathlib.Data.List.Chain

/-!
# What follows a cancellation

A run is cancelled before it starts or in an agent call.  Once it is, no call of it starts any more,
no stage of a script begins, and the run does not complete, even if it was cancelled in its last
call and every call succeeded (`nothing_starts_after_cancellation`).

One turn starts at most one call, and only where nothing has been cancelled, so what holds from turn
to turn holds from each world of a run to all later ones (`Heeding.of_isChain`).  A run that
completes has asked for a cancellation in the world it ends in: a workflow at the head of its last
round, a script when it left its last stage.
-/

namespace Conductor

open Act

/-- The worlds of a run, the newest first, in which no call starts after a cancellation. -/
structure Heeding (ws : List World) : Prop where
  /-- From each world to the next one at most one call starts, and none where the run has been
  cancelled. -/
  turns : ws.IsChain fun new old => old.Heeds new
  /-- No call starts after a world in which the run has been cancelled. -/
  after : ws.Pairwise fun new old =>
    old.cancelled = true → new.cancelled = true ∧ new.calls = old.calls

theorem Heeding.of_isChain {ws : List World} (h : ws.IsChain fun new old => old.Heeds new) :
    Heeding ws := by
  let R : World → World → Prop := fun new old =>
    old.cancelled = true → new.cancelled = true ∧ new.calls = old.calls
  have htrans : Trans R R R := by
    refine ⟨fun {a b c} hab hbc hc => ?_⟩
    obtain ⟨hb, hcalls⟩ := hbc hc
    obtain ⟨ha, hcalls'⟩ := hab hb
    exact ⟨ha, hcalls'.trans hcalls⟩
  have hchain : ws.IsChain R := h.imp fun new old hheeds hold =>
    ⟨hheeds.cancelled hold, hheeds.calls_eq hold⟩
  exact ⟨h, hchain.pairwise⟩

/-! ### Workflows -/

namespace Workflow

variable {f : Workflow} {w₀ w : World} {trail : List Point}

/-- The course of a run from its first world to its end: it cannot start, a turn ends it, a fault
leaves a turn, or it has taken as many turns as it may. -/
inductive Course (f : Workflow) (w₀ : World) : List Point → Except Fault Outcome → World → Prop
  | unstarted {e w} (h : f.start.exec w₀ = (.error e, w)) : Course f w₀ [] (.error e) w
  | ended {trail o w} (h : Ends f w₀ trail o w) : Course f w₀ trail (.ok o) w
  | failed {w s trail e w'} (ht : Trail f w₀ ((w, s) :: trail))
    (h : (f.turn s).exec w = (.error e, w')) : Course f w₀ ((w, s) :: trail) (.error e) w'
  | endless {w s trail} (ht : Trail f w₀ ((w, s) :: trail)) :
    Course f w₀ ((w, s) :: trail) (.error .endless) w

theorem course_of_runFrom {fuel : Nat} {s : State} (ht : Trail f w₀ ((w, s) :: trail)) :
    ∃ trail', Course f w₀ trail' ((f.runFrom fuel s).exec w).1 ((f.runFrom fuel s).exec w).2 := by
  induction fuel generalizing w s trail with
  | zero => exact ⟨_, .endless ht⟩
  | succ fuel ih =>
    unfold runFrom
    rw [exec_bind]
    rcases hturn : (f.turn s).exec w with ⟨(e | s' | o), w'⟩
    · exact ⟨_, .failed ht hturn⟩
    · exact ih (.next ht hturn)
    · exact ⟨_, .ended (.intro ht hturn)⟩

/-- A run goes through a course. -/
theorem exists_course (f : Workflow) (w₀ : World) :
    ∃ trail, Course f w₀ trail (f.run.exec w₀).1 (f.run.exec w₀).2 := by
  unfold run
  rw [exec_bind]
  rcases hs : f.start.exec w₀ with ⟨(e | s), w⟩
  · exact ⟨[], .unstarted hs⟩
  · exact course_of_runFrom (.start hs)

/-- A run that has come to its end was ended by its last turn. -/
theorem Course.turn_last {p : Point} {result : Except Fault Outcome}
    (h : f.Course w₀ (p :: trail) result w) (hended : result ≠ .error .endless) :
    Trail f w₀ (p :: trail) ∧ ∃ t, (f.turn p.2).exec p.1 = (t, w) := by
  cases h with
  | ended h =>
    cases h with
    | intro ht hx => exact ⟨ht, _, hx⟩
  | failed ht hx => exact ⟨ht, _, hx⟩
  | endless ht => exact absurd rfl hended

theorem staysAside_start (f : Workflow) : StaysAside f.start := fun _ hP => keeps_start hP.log f

theorem staysAside_abort (reason : String) (ms : List String) : StaysAside (abort reason ms) :=
  (staysAside_note _).bind fun _ => staysAside_pure _

theorem staysAside_stopAt (step : Step) (reason : Option String) (ms : List String) :
    StaysAside (stopAt step reason ms) :=
  (staysAside_note _).bind fun _ => staysAside_pure _

theorem staysAside_lookUp (f : Workflow) (id : String) : StaysAside (f.lookUp id) := by
  unfold lookUp
  split
  · exact staysAside_pure _
  · exact (staysAside_note _).bind fun _ => staysAside_pure _

theorem staysAside_choose (f : Workflow) (c : Cursor) (step : Step) (index : Nat) :
    StaysAside (f.choose c step index) := by
  unfold choose
  split
  · exact staysAside_pure _
  · split
    · exact staysAside_pure _
    · refine (f.staysAside_lookUp _).bind fun found => ?_
      split
      · exact staysAside_pure _
      · exact (staysAside_note _).bind fun _ => staysAside_pure _

theorem staysAside_takeUp (f : Workflow) (s : State) (id : String) :
    StaysAside (f.takeUp s id) := by
  unfold takeUp
  have htaken : ∀ step : Step, StaysAside (do
      note .info s!"Running triggered step {step.agentName}" [("agent", .str step.agentId)]
      return .next { s with phase := .triggered id step } : Act Turn) :=
    fun _ => (staysAside_note _).bind fun _ => staysAside_pure _
  dsimp only
  split
  · exact htaken _
  · refine (f.staysAside_lookUp id).bind fun found => ?_
    split
    · exact staysAside_abort _ _
    · exact htaken _

theorem staysAside_visit (f : Workflow) (s : State) (step : Step) :
    StaysAside (f.visit s step) := by
  unfold visit
  dsimp only
  split
  · exact (staysAside_note _).bind fun _ => staysAside_pure _
  · refine (f.staysAside_choose _ _ _).bind fun chosen => ?_
    split
    · exact staysAside_abort _ _
    · split
      · exact (Progress.staysAside_recordStarted _ _).bind fun _ => staysAside_pure _
      · exact staysAside_pure _

theorem staysAside_atHead (f : Workflow) (s : State) : StaysAside (f.atHead s) := by
  unfold atHead
  refine .get_bind fun w => ?_
  split
  · exact staysAside_abort _ _
  · split
    · exact f.staysAside_takeUp _ _
    · split
      · exact f.staysAside_visit _ _
      · exact (staysAside_note _).bind fun _ => staysAside_pure _

theorem staysAside_atReturned (f : Workflow) (s : State) (index : Nat) (step : Step)
    (output : String) : StaysAside (f.atReturned s index step output) := by
  unfold atReturned
  split
  · exact (Progress.staysAside_recordCompleted _ _).bind fun _ => staysAside_pure _
  · exact staysAside_pure _

theorem staysAside_leaveLoop (s : State) (step : Step) (index : Nat) (key : String)
    (d : LoopDecision) : StaysAside (leaveLoop s step index key d) := by
  unfold leaveLoop
  split
  · exact staysAside_pure _
  · split
    · exact (staysAside_note _).bind fun _ => staysAside_pure _
    · exact (staysAside_note _).bind fun _ => staysAside_pure _

theorem staysAside_queue (s : State) (step : Step) (id : String) :
    StaysAside (queue s step id) := by
  unfold queue
  dsimp only
  split
  · exact (staysAside_note _).bind fun _ => staysAside_pure _
  · exact (staysAside_note _).bind fun _ => staysAside_pure _

theorem staysAside_goOn (step : Step) (v : Verdict) (s : State) :
    StaysAside (follow.goOn step v s) := by
  unfold follow.goOn
  split
  · exact (staysAside_queue _ _ _).bind fun _ => staysAside_pure _
  · exact staysAside_pure _

theorem staysAside_follow (s : State) (step : Step) (index : Nat) (key : String) (v : Verdict) :
    StaysAside (follow s step index key v) := by
  unfold follow
  split
  · exact staysAside_stopAt _ _ _
  · split
    · split
      · exact (staysAside_note _).bind fun _ => staysAside_pure _
      · exact (staysAside_leaveLoop _ _ _ _ _).bind fun _ => staysAside_goOn _ _ _
    · exact staysAside_goOn _ _ _

theorem staysAside_atRecorded (f : Workflow) (s : State) (index : Nat) (step : Step)
    (output : String) : StaysAside (f.atRecorded s index step output) := by
  unfold atRecorded
  refine (f.signals.staysAside_readSafely f.shop.dir).bind fun signal => ?_
  have hfollow := staysAside_follow s step index (Cursor.loopKey step index)
  have hshown : ∀ v, StaysAside (do
      if f.debugLoops then
        Act.note [verdictRecord s.cursor step index (Cursor.loopKey step index) v]
      follow s step index (Cursor.loopKey step index) v) := by
    intro v
    dsimp only
    split
    · exact (staysAside_note _).bind fun _ => hfollow v
    · exact hfollow v
  dsimp only
  split
  · exact (staysAside_note _).bind fun _ => hshown _
  · exact hshown _

theorem staysAside_atHandedBack (f : Workflow) (s : State) (id : String) (step : Step) :
    StaysAside (f.atHandedBack s id step) := by
  unfold atHandedBack
  refine (f.signals.staysAside_readSafely f.shop.dir).bind fun signal => ?_
  split
  · exact staysAside_pure _
  · split
    · exact staysAside_stopAt _ _ _
    · exact (staysAside_note _).bind fun _ => staysAside_pure _

theorem startsOne_atAttempt (f : Workflow) (s : State) (index : Nat) (step run : Step)
    (identity : String) : StartsOne (f.atAttempt s index step run identity) := by
  unfold atAttempt
  refine (f.shop.startsOne_execute run identity).attempt.bind fun result => ?_
  refine StaysAside.startsNone ?_
  split
  · exact staysAside_pure _
  · exact staysAside_abort _ _
  · split
    · exact staysAside_abort _ _
    · exact (staysAside_note _).bind fun _ =>
        (f.signals.staysAside_readSafely f.shop.dir).bind fun _ => staysAside_pure _
  · exact staysAside_throw _

theorem startsOne_atTriggered (f : Workflow) (s : State) (id : String) (step : Step) :
    StartsOne (f.atTriggered s id step) := by
  unfold atTriggered
  refine (f.shop.startsOne_execute step id).attempt.bind fun result => ?_
  refine StaysAside.startsNone ?_
  split
  · exact staysAside_pure _
  · exact staysAside_abort _ _
  · split
    · exact staysAside_abort _ _
    · exact (staysAside_note _).bind fun _ => staysAside_pure _
  · exact staysAside_throw _

/-- A turn starts at most one call, and none in a run that has been cancelled. -/
theorem startsOne_turn (f : Workflow) (s : State) : StartsOne (f.turn s) := by
  unfold turn
  split
  · exact (f.staysAside_atHead s).startsNone.startsOne
  · exact f.startsOne_atAttempt s _ _ _ _
  · exact (f.staysAside_atReturned s _ _ _).startsNone.startsOne
  · exact (f.staysAside_atRecorded s _ _ _).startsNone.startsOne
  · exact f.startsOne_atTriggered s _ _
  · exact (f.staysAside_atHandedBack s _ _).startsNone.startsOne

theorem Trail.isChain (ht : Trail f w₀ trail) :
    (trail.map Prod.fst ++ [w₀]).IsChain fun new old => old.Heeds new := by
  induction ht with
  | start h =>
    have hstart := f.staysAside_start.startsNone.startsOne w₀
    rw [h] at hstart
    exact .cons_cons hstart (.singleton _)
  | @next w s w' s' trail ht h ih =>
    have hturn := f.startsOne_turn s w
    rw [h] at hturn
    exact .cons_cons hturn ih

theorem Course.heeding {r : Except Fault Outcome} (h : Course f w₀ trail r w) :
    Heeding (w :: (trail.map Prod.fst ++ [w₀])) := by
  refine .of_isChain ?_
  cases h with
  | unstarted h =>
    have hstart := f.staysAside_start.startsNone.startsOne w₀
    rw [h] at hstart
    exact .cons_cons hstart (.singleton _)
  | ended h =>
    obtain @⟨w', s, trail, o, w, ht, h⟩ := h
    have hturn := f.startsOne_turn s w'
    rw [h] at hturn
    exact .cons_cons hturn ht.isChain
  | @failed w' s trail e w ht h =>
    have hturn := f.startsOne_turn s w'
    rw [h] at hturn
    exact .cons_cons hturn ht.isChain
  | endless ht => exact .cons_cons ⟨id, .inl rfl⟩ ht.isChain

/-- A run that completes has not been cancelled. -/
theorem Course.not_completed {o : Outcome} (h : Course f w₀ trail (.ok o) w)
    (hw : w.cancelled = true) : o.status ≠ .completed := by
  intro ho
  cases h with
  | ended h =>
    obtain @⟨w', s, trail, o, w, ht, h⟩ := h
    cases takes_of_turn h with
    | completed hw' hp hs =>
      have hw : w'.cancelled = true := hw
      rw [hw'] at hw
      cases hw
    | _ => cases ho

end Workflow

/-! ### Scripts -/

namespace Script

variable {setup : Setup} {plan : Plan} {w₀ w w' : World} {s s' : State} {trail : List Point}

theorem staysAside_settled (t : Task) (ended : Except Fault String) :
    StaysAside (settled t ended) := by
  refine StaysAside.bind ?_ fun _ => staysAside_pure _
  unfold settle
  split
  · dsimp only
    split
    · exact (staysAside_note _).bind fun _ => staysAside_pure _
    · exact staysAside_pure _
  · exact staysAside_pure _
  · split
    · exact staysAside_pure _
    · exact staysAside_pure _

theorem startsOne_move (shop : Workshop) (parentId : Option String) (r : TaskRun) :
    StartsOne (r.move shop parentId) := by
  unfold TaskRun.move
  split
  · refine (shop.staysAside_prepareTask _ _ _ _ _).attempt.startsNone.startsOne.bind fun ended => ?_
    refine StaysAside.startsNone ?_
    split
    · exact staysAside_pure _
    · exact staysAside_settled _ _
  · next call _ =>
    refine (shop.startsOne_enter call).attempt.bind fun ended => StaysAside.startsNone ?_
    split
    · exact staysAside_pure _
    · exact staysAside_settled _ _
  · next call _ _ =>
    exact (shop.startsNone_answer call).startsOne.bind fun _ => (staysAside_pure _).startsNone
  · refine (shop.staysAside_finish _ _ _).attempt.startsNone.startsOne.bind fun ended => ?_
    exact (staysAside_settled _ _).startsNone
  · exact (staysAside_pure _).startsNone.startsOne

theorem startsOne_moveAt (shop : Workshop) (parentId : Option String) (workers : Nat)
    (runs : List TaskRun) (i : Nat) : StartsOne (moveAt shop parentId workers runs i) := by
  unfold moveAt
  split
  · split
    · exact (staysAside_pure _).startsNone.startsOne
    · exact (startsOne_move shop parentId _).bind fun _ => (staysAside_pure _).startsNone
  · exact (staysAside_pure _).startsNone.startsOne

theorem staysAside_leave (s : State) (rs : List TaskResult) : StaysAside (leave s rs) :=
  fun _ hP => keeps_leave hP.log s rs

/-- A turn starts at most one call, and none in a run that has been cancelled. -/
theorem startsOne_turn (setup : Setup) (total : Nat) (s : State) :
    StartsOne (turn setup total s) := by
  unfold turn
  split
  · exact (staysAside_pure _).startsNone.startsOne
  · refine StaysAside.startsNone ?_ |>.startsOne
    refine .get_bind fun w => ?_
    split
    · exact (staysAside_note _).bind fun _ => staysAside_pure _
    · exact (staysAside_note _).bind fun _ => staysAside_pure _
  · exact (startsOne_moveAt _ _ _ _ _).bind fun _ => (staysAside_pure _).startsNone
  · exact ((staysAside_lift _).bind fun rs => staysAside_leave s rs).startsNone.startsOne

theorem staysAside_opening (setup : Setup) : StaysAside (opening setup) := by
  unfold opening
  split
  · exact staysAside_pure _
  · exact (Registry.staysAside_start _ _ _ _).bind fun _ => staysAside_pure _

theorem staysAside_closing (setup : Setup) (parentId : Option String)
    (ended : Except Fault Result) : StaysAside (closing setup parentId ended) := by
  refine StaysAside.bind ?_ fun _ => staysAside_lift _
  unfold recordClosing
  split
  · exact (Registry.staysAside_finish _ _ _ _).bind fun _ => staysAside_pure _
  · exact staysAside_pure _

/-- In a cancelled run no turn begins a stage. -/
theorem ahead_of_cancelled {total : Nat} (hw : w.cancelled = true)
    (h : (turn setup total s).exec w = (.ok (.next s'), w')) : s'.ahead = s.ahead := by
  cases takes_of_turn h with
  | begun hnot =>
    rw [hw] at hnot
    cases hnot
  | moved => rfl
  | left => rfl

/-- Where no stage is left the run has not been cancelled. -/
theorem Trail.cancelled_eq_false (hplan : plan ≠ []) (ht : Trail setup plan w₀ ((w, s) :: trail))
    (hs : s.station = .before) (ha : s.ahead = []) : w.cancelled = false := by
  cases ht with
  | start h => exact absurd ha hplan
  | next ht h =>
    cases takes_of_turn h with
    | begun => cases hs
    | moved => cases hs
    | left hrs he =>
      cases hw : w.cancelled with
      | false => rfl
      | true =>
        rw [hw] at he
        cases he

/-- A script that was cancelled ends so. -/
theorem Stops.outcome_eq {parentId : Option String} {r : Result} (hplan : plan ≠ [])
    (h : Stops setup plan w₀ trail parentId (.ok r) w) (hw : w.cancelled = true) :
    r.outcome = cancelledOutcome := by
  generalize hended : Except.ok r = ended at h
  cases h with
  | failed => cases hended
  | @done v s trail r' w' ht h =>
    cases hended
    cases takes_of_turn h with
    | completed =>
      rw [ht.cancelled_eq_false hplan rfl rfl] at hw
      cases hw
    | cancelled => rfl
    | @ended _ _ _ _ _ rs _ _ log hrs he =>
      have hw : v.cancelled = true := hw
      rw [hw] at he
      cases he
      rfl

theorem Trail.isChain (ht : Trail setup plan w₀ trail) :
    (trail.map Prod.fst ++ [w₀]).IsChain fun new old => old.Heeds new := by
  induction ht with
  | start h =>
    have hopening := (staysAside_opening setup).startsNone.startsOne w₀
    rw [h] at hopening
    exact .cons_cons hopening (.singleton _)
  | @next w s w' s' trail ht h ih =>
    have hturn := startsOne_turn setup plan.length s w
    rw [h] at hturn
    exact .cons_cons hturn ih

theorem Course.heeding {r : Except Fault Result} (h : Course setup plan w₀ trail r w) :
    Heeding (w :: (trail.map Prod.fst ++ [w₀])) := by
  refine .of_isChain ?_
  cases h with
  | unopened h =>
    have hopening := (staysAside_opening setup).startsNone.startsOne w₀
    rw [h] at hopening
    exact .cons_cons hopening (.singleton _)
  | @closed _ parentId ended w₁ _ _ hs h =>
    obtain ⟨v, s, older, x, rfl, ht, hturn⟩ := hs.exists_turn
    obtain rfl : ((turn setup plan.length s).exec v).2 = w₁ := congrArg Prod.snd hturn
    -- The last turn and what puts it on record go from the last point to the end.
    have hstarts : StartsOne (Act.attempt (turn setup plan.length s) >>= fun _ =>
        closing setup parentId ended) :=
      (startsOne_turn setup plan.length s).attempt.bind fun _ =>
        (staysAside_closing setup parentId ended).startsNone
    have hend := hstarts v
    rw [exec_bind_of_ok (exec_attempt _ v), h] at hend
    exact .cons_cons hend ht.isChain

/-- After a cancellation no stage begins. -/
theorem Trail.pairwise_ahead (ht : Trail setup plan w₀ trail) :
    (trail.map (fun p => (p.1.cancelled, p.2.ahead)) ++ [(w₀.cancelled, plan)]).Pairwise
      fun new old => old.1 = true → new = old := by
  let R : Bool × List Stage → Bool × List Stage → Prop := fun new old => old.1 = true → new = old
  have htrans : Trans R R R := by
    refine ⟨fun {a b c} hab hbc hc => ?_⟩
    obtain rfl := hbc hc
    exact hab hc
  have hchain : (trail.map (fun p => (p.1.cancelled, p.2.ahead)) ++
      [(w₀.cancelled, plan)]).IsChain R := by
    induction ht with
    | start h =>
      have hsame := (staysAside_opening setup).cancelled_eq w₀
      rw [h] at hsame
      exact .cons_cons (fun _ => Prod.ext hsame rfl) (.singleton _)
    | @next w s w' s' trail ht h ih =>
      have hturn := startsOne_turn setup plan.length s w
      rw [h] at hturn
      refine .cons_cons (fun hw => Prod.ext ?_ (ahead_of_cancelled hw h)) ih
      exact (hturn.cancelled hw).trans hw.symm
  exact hchain.pairwise

theorem Course.pairwise_ahead {r : Except Fault Result} (h : Course setup plan w₀ trail r w) :
    (trail.map (fun p => (p.1.cancelled, p.2.ahead)) ++ [(w₀.cancelled, plan)]).Pairwise
      fun new old => old.1 = true → new = old := by
  cases h with
  | unopened => exact List.pairwise_singleton _ _
  | closed hs =>
    cases hs with
    | done ht => exact ht.pairwise_ahead
    | failed ht => exact ht.pairwise_ahead

/-- A script that was cancelled ends so. -/
theorem Course.outcome_eq {r : Result} (hplan : plan ≠ [])
    (h : Course setup plan w₀ trail (.ok r) w) (hw : w.cancelled = true) :
    r.outcome = cancelledOutcome := by
  generalize he : Except.ok r = ended at h
  cases h with
  | unopened => cases he
  | @closed _ parentId ended w₁ _ _ hs h =>
    subst he
    have hsame := (staysAside_closing setup parentId ended).cancelled_eq w₁
    rw [h] at hsame
    obtain ⟨_, w₂, -, hl⟩ := exec_bind_eq_ok_iff.mp h
    rw [exec_lift] at hl
    obtain ⟨rfl, rfl⟩ := Prod.mk.inj hl
    exact hs.outcome_eq hplan (hsame.symm.trans hw)

theorem ne_nil_of_read {text : String} (h : read text = .ok plan) : plan ≠ [] := by
  rintro rfl
  obtain ⟨stages, hd, hw⟩ := exists_decomposes h
  cases hw
  exact hd.stages_ne rfl

end Script

/-! ### Both -/

/-- After a cancellation no call of a run starts and no stage of a script begins, and a run in which
there was one does not complete. -/
theorem nothing_starts_after_cancellation :
    (∀ (f : Workflow) (w₀ : World), ∃ trail,
      f.Course w₀ trail (f.run.exec w₀).1 (f.run.exec w₀).2 ∧
      Heeding ((f.run.exec w₀).2 :: (trail.map Prod.fst ++ [w₀])) ∧
      ∀ o, (f.run.exec w₀).1 = .ok o → (f.run.exec w₀).2.cancelled = true →
        o.status ≠ .completed) ∧
    ∀ (setup : Script.Setup) (text : String) (plan : Script.Plan) (w₀ : World),
      Script.read text = .ok plan → ∃ trail,
        Script.Course setup plan w₀ trail ((Script.run setup text).exec w₀).1
          ((Script.run setup text).exec w₀).2 ∧
        Heeding (((Script.run setup text).exec w₀).2 :: (trail.map Prod.fst ++ [w₀])) ∧
        (trail.map (fun p => (p.1.cancelled, p.2.ahead)) ++ [(w₀.cancelled, plan)]).Pairwise
          (fun new old => old.1 = true → new = old) ∧
        ∀ r, ((Script.run setup text).exec w₀).1 = .ok r →
          ((Script.run setup text).exec w₀).2.cancelled = true →
          r.outcome = Script.cancelledOutcome := by
  constructor
  · intro f w₀
    obtain ⟨trail, h⟩ := f.exists_course w₀
    refine ⟨trail, h, h.heeding, fun o ho hw => ?_⟩
    rw [ho] at h
    exact h.not_completed hw
  · intro setup text plan w₀ hread
    rw [Script.exec_run_of_read hread]
    obtain ⟨trail, h⟩ := Script.exists_course setup plan w₀
    refine ⟨trail, h, h.heeding, ?_, fun r hr hw => ?_⟩
    · exact h.pairwise_ahead
    · rw [hr] at h
      exact h.outcome_eq (Script.ne_nil_of_read hread) hw

/-- Agents of which one is cancelled while it works, and all succeed. -/
def interruptedShop : Workshop :=
  { engine := fun w call =>
      { store := w.store, cancels := call.agentId == "review", result := .ok "done" }
    dir := ⟨.slash, ["work"]⟩
    stateDir := ⟨.none, ["state"]⟩
    loader := fun _ _ _ => .ok "prompt" }

/-- A workflow that is cancelled in its last step. -/
def interruptedWorkflow : Workflow :=
  { steps := [{ agentId := "review", agentName := "Review", promptPath := "review.md" }]
    shop := interruptedShop
    signals := .mailbox }

/-- Two tasks begin one after the other, and the first one that is answered is cancelled. -/
def interruptedSetup : Script.Setup :=
  { shop := interruptedShop, workers := 2, schedule := fun _ => [0, 1, 1, 0, 1, 0] }

/-- A script of one stage. -/
def interruptedScript : String := "code 'x' & review 'y'"

/-- The plan of the script. -/
def interruptedPlan : Script.Plan :=
  [[{ name := "code", argument := "x" }, { name := "review", argument := "y" }]]

/-- A workflow is cancelled in its last step and a script in its last stage, in calls that succeed;
neither completes. -/
theorem interrupted_do_not_complete :
    (∃ o, (interruptedWorkflow.run.exec default).1 = .ok o ∧
      (interruptedWorkflow.run.exec default).2.calls.size = 1 ∧ o.status ≠ .completed) ∧
    ∃ r, ((Script.run interruptedSetup interruptedScript).exec default).1 = .ok r ∧
      ((Script.run interruptedSetup interruptedScript).exec default).2.calls.size = 2 ∧
      (∀ t ∈ r.results, t.success = true) ∧ r.outcome = Script.cancelledOutcome := by
  obtain ⟨hworkflow, hscript⟩ := nothing_starts_after_cancellation
  constructor
  · obtain ⟨-, -, -, hstatus⟩ := hworkflow interruptedWorkflow default
    have hend : (interruptedWorkflow.run.exec default).1
        = .ok (Workflow.aborted cancelledReason []) := by decide +kernel
    exact ⟨_, hend, by decide +kernel, hstatus _ hend (by decide +kernel)⟩
  · have hread : Script.read interruptedScript = .ok interruptedPlan := by decide +kernel
    obtain ⟨-, -, -, -, hout⟩ := hscript interruptedSetup _ _ default hread
    have hend : ((Script.run interruptedSetup interruptedScript).exec default).1
        = .ok ⟨Script.cancelledOutcome, [⟨"code", true, "done", none, false, none⟩,
            ⟨"review", true, "done", none, false, none⟩]⟩ := by decide +kernel
    exact ⟨_, hend, by decide +kernel, by decide, hout _ hend (by decide +kernel)⟩

end Conductor
