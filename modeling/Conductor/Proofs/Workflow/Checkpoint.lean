import Conductor.Proofs.Workflow.Marks
import Conductor.Proofs.Workflow.Onward

/-!
# Checkpoints

A checkpoint is met in two places: after a step of the main sequence, which may have been replaced
by its fallback, and after a triggered step.  Main statement: a run is stopped iff the last step that
it has executed has succeeded and the signal that is read after it is a checkpoint; wherever that is
so, the run ends there, no agent is called any more, and a step of the main sequence is recorded as
finished (`stopped_iff_endsInCheckpoint`).

Every step that is judged has been executed with success, with nothing executed in between
(`Trail.succeeded_of_judged`), and every step that has been executed with success comes to be judged
unless its record ends in a fault (`Trail.judged_of_succeeded`).  The turn that judges it asks for the
checkpoint before all else: what loops, triggers, queue and a cancellation say is not looked at.
-/

namespace Conductor.Workflow

open Act Progress

variable {f : Workflow} {w w' w₀ : World} {s : State} {n j : Point} {trail older : List Point}
  {o : Outcome} {owner step run : Step} {identity output : String} {signal : Signal}

/-- The next turn judges a step by a signal that is a checkpoint. -/
def MeetsCheckpoint (f : Workflow) (n : Point) : Prop :=
  n.2.phase.judged?.isSome ∧ ∃ signal,
    ((f.signals.readSafely f.shop.dir).exec n.1).1 = .ok (some signal) ∧ signal.action = .checkpoint

/-- The last execution of a run has succeeded, and the signal that is read after it is a
checkpoint. -/
def EndsInCheckpoint (f : Workflow) (trail : List Point) : Prop :=
  ∃ since n older owner run identity output, trail = since ++ n :: older ∧
    n.2.phase.executes? = some (owner, run, identity) ∧ (∀ x ∈ since, x.2.phase.executes? = none) ∧
    ((f.shop.execute run identity none).exec n.1).1 = .ok output ∧ ∃ j ∈ since, MeetsCheckpoint f j

/-! ### What is judged has been executed -/

theorem Phase.executes?_of_judged {phase : Phase} (h : phase.judged? = some step) :
    phase.executes? = none := by
  cases phase with
  | recorded index step output => rfl
  | handedBack id step => rfl
  | _ => cases h

/-- A step that is judged has been executed with success, and nothing was executed since. -/
theorem Trail.succeeded_of_judged (ht : Trail f w₀ (j :: trail))
    (hj : j.2.phase.judged? = some step) :
    ∃ since n older run identity output, trail = since ++ n :: older ∧
      n.2.phase.executes? = some (step, run, identity) ∧
      (∀ x ∈ since, x.2.phase.executes? = none) ∧
      ((f.shop.execute run identity none).exec n.1).1 = .ok output := by
  cases hphase : j.2.phase with
  | recorded index owner output =>
    rw [hphase] at hj
    cases hj
    obtain ⟨b, n, older, run, identity, rfl, hn, hx, -⟩ := ht.judged hphase
    have hb : Returns index b := ht.tail.takes.returns_iff.mpr ⟨_, _, _, _, hn, congrArg Prod.fst hx⟩
    obtain ⟨_, _, _, hreturned, -⟩ := hb
    refine ⟨[b], n, older, run, identity, output, rfl, by rw [hn]; rfl, ?_, congrArg Prod.fst hx⟩
    exact List.forall_mem_singleton.mpr (by rw [hreturned]; rfl)
  | handedBack id owner =>
    rw [hphase] at hj
    cases hj
    cases ht with
    | start h =>
      obtain ⟨p, log, -, -, rfl⟩ := start_spec h
      cases hphase
    | next ht hturn =>
      cases takes_of_turn hturn with
      | triggeredExecuted hx =>
        cases hphase
        exact ⟨[], _, _, _, _, _, rfl, rfl, List.forall_mem_nil _, congrArg Prod.fst hx⟩
      | _ => cases hphase
  | _ =>
    rw [hphase] at hj
    cases hj

/-- Recording a step calls no agent. -/
theorem calls_of_recordCompleted {index : Nat} {u : Unit}
    (h : (f.recordCompleted index).exec w = (.ok u, w')) : w'.calls = w.calls := by
  have hkeeps : Keeps (fun v => v.calls = w.calls) (f.recordCompleted index) :=
    keeps_recordCompleted (fun _ _ _ _ hv _ => hv) (fun _ _ _ _ _ hv _ => hv) (fun _ _ hv => hv) _
  have := hkeeps w rfl
  rwa [h] at this

/-- A step that has been executed with success comes to be judged before anything else is executed,
unless its record ends in a fault. -/
theorem Trail.judged_of_succeeded (ht : Trail f w₀ (n :: older))
    (hn : n.2.phase.executes? = some (owner, run, identity))
    (hx : (f.shop.execute run identity none).exec n.1 = (.ok output, w')) :
    (∃ j since, Trail f w₀ (j :: (since ++ n :: older)) ∧
        (∀ x ∈ since, x.2.phase.executes? = none) ∧ j.2.phase.judged? = some owner ∧
        j.1.calls = w'.calls ∧ (∀ index step, n.2.phase = .attempt index step run identity →
          j.2.phase = .recorded index step output)) ∨
      ∃ index step m e, n.2.phase = .attempt index step run identity ∧
        Trail f w₀ (m :: n :: older) ∧ ((f.turn m.2).exec m.1).1 = .error e ∧
        ((f.recordCompleted index).exec w').1 = .error e := by
  obtain ⟨w, s⟩ := n
  have hturn := exec_turn_of_executes (f := f) hn w
  rw [hx] at hturn
  have hnext : Trail f w₀ ((w', s.afterReturn output) :: (w, s) :: older) := .next ht hturn
  -- A step of the main sequence is recorded first, a triggered one is judged at once.
  cases hs : s.phase with
  | attempt index step run' identity' =>
    dsimp only at hn
    rw [hs] at hn
    cases hn
    have hreturned : (s.afterReturn output).phase = .returned index owner output := by
      unfold State.afterReturn
      rw [hs]
    rcases hnext.next_of_returned hreturned with ⟨j, hj, hrecorded⟩ | ⟨e, hbreaks, hfault⟩
    · obtain ⟨-, -, hx⟩ := hj.takes.returned_of_recorded hrecorded
      refine .inl ⟨j, [(w', s.afterReturn output)], hj, ?_, by rw [hrecorded]; rfl,
        calls_of_recordCompleted hx, ?_⟩
      · exact List.forall_mem_singleton.mpr (by rw [hreturned]; rfl)
      · rintro index' step' ⟨⟩
        exact hrecorded
    · exact .inr ⟨index, owner, _, e, rfl, hnext, hbreaks, hfault⟩
  | triggered id step =>
    dsimp only at hn
    rw [hs] at hn
    cases hn
    have hback : (s.afterReturn output).phase = .handedBack identity owner := by
      unfold State.afterReturn
      rw [hs]
    refine .inl ⟨_, [], hnext, List.forall_mem_nil _, by rw [hback]; rfl, rfl, ?_⟩
    intro index step hattempt
    cases hattempt
  | _ =>
    dsimp only at hn
    rw [hs] at hn
    cases hn

/-! ### What is judged by a checkpoint ends the run -/

/-- A turn that judges a step changes neither the files nor the calls. -/
theorem Takes.kept_of_judged {o : Outcome} (h : Takes f w s (.done o) w')
    (hs : s.phase.judged? = some step) :
    w'.calls = w.calls ∧ w'.store = w.store ∧ w'.cwd = w.cwd := by
  have hread : ∀ {r w₁}, (f.signals.readSafely f.shop.dir).exec w = (r, w₁) →
      w₁.calls = w.calls ∧ w₁.store = w.store ∧ w₁.cwd = w.cwd := by
    intro r w₁ hr
    obtain ⟨log, hl⟩ := SignalWay.exec_readSafely f.signals f.shop.dir w
    cases hl.symm.trans hr
    exact ⟨rfl, rfl, rfl⟩
  cases h with
  | stopped hr _ =>
    have hkept := hread hr
    exact hkept
  | triggeredStopped hr _ =>
    have hkept := hread hr
    exact hkept
  | _ => cases hs

/-- Where a step is judged by a checkpoint the run ends, whatever else is the case. -/
theorem Trail.ends_of_checkpoint (ht : Trail f w₀ (j :: trail)) (hj : j.2.phase.judged? = some step)
    (hr : ((f.signals.readSafely f.shop.dir).exec j.1).1 = .ok (some signal))
    (ha : signal.action = .checkpoint) :
    ∃ w, Ends f w₀ (j :: trail) (stopped step signal.reason j.2.messages) w ∧
      w.calls = j.1.calls ∧ w.store = j.1.store ∧ w.cwd = j.1.cwd := by
  obtain ⟨v, s⟩ := j
  have hdone := (turn_done_iff hj).mpr ⟨signal, hr, ha, rfl⟩
  have hturn : (f.turn s).exec v = (_, ((f.turn s).exec v).2) := Prod.ext hdone rfl
  exact ⟨_, .intro ht hturn, (takes_of_turn hturn).kept_of_judged hj⟩

/-- No point follows the end of a run. -/
theorem Ends.not_next {m : Point} (h : Ends f w₀ trail o w) : ¬ Trail f w₀ (m :: trail) := by
  intro hm
  cases h with
  | intro ht hturn =>
    cases hm with
    | next _ hnext => cases hturn.symm.trans hnext

/-- A transition that stops the run judges a step by a checkpoint. -/
theorem Takes.meetsCheckpoint (h : Takes f w s (.done o) w') (ho : o.status = .stopped) :
    MeetsCheckpoint f (w, s) := by
  cases h with
  | @stopped c ms log index step output _ _ v hr hv =>
    have hread := congrArg Prod.fst hr
    have htakes : Takes f w ⟨c, ms, .recorded index step output⟩ _ (v.withLog log) := .stopped hr hv
    obtain ⟨r, rfl, ha, -⟩ := (htakes.done_iff rfl hr).mp rfl
    exact ⟨rfl, r, hread, ha⟩
  | triggeredStopped hr ha => exact ⟨rfl, _, congrArg Prod.fst hr, ha⟩
  | _ => cases ho

theorem Ends.stopped_iff (h : Ends f w₀ trail o w) :
    o.status = .stopped ↔ EndsInCheckpoint f trail := by
  cases h with
  | @intro v s older _ _ ht hturn =>
    constructor
    · intro ho
      have hmeets := (takes_of_turn hturn).meetsCheckpoint ho
      obtain ⟨step, hstep⟩ := Option.isSome_iff_exists.mp hmeets.1
      obtain ⟨since, n, older', run, identity, output, rfl, hn, hsince, hx⟩ :=
        ht.succeeded_of_judged hstep
      have hnone : s.phase.executes? = none := Phase.executes?_of_judged hstep
      exact ⟨(v, s) :: since, n, older', step, run, identity, output, rfl, hn,
        List.forall_mem_cons.mpr ⟨hnone, hsince⟩, hx, (v, s), List.mem_cons_self .., hmeets⟩
    · rintro ⟨since, n, older', owner, run, identity, output, heq, -, -, -, j, hj, hjudged, signal,
        hr, ha⟩
      obtain ⟨step, hstep⟩ := Option.isSome_iff_exists.mp hjudged
      have hdone := (turn_done_iff hstep).mpr ⟨signal, hr, ha, rfl⟩
      -- Had an earlier point met the checkpoint, no point would follow it.
      have hmem : j ∈ (v, s) :: older := by
        rw [heq]
        exact List.mem_append_left _ hj
      rcases List.mem_cons.mp hmem with rfl | hmem
      · dsimp only at hdone
        rw [hturn] at hdone
        cases hdone
        rfl
      · obtain ⟨s', w', hnext⟩ := ht.next_of_mem hmem
        rw [hnext] at hdone
        cases hdone

/-- A run is stopped iff the last step that it has executed has succeeded and the signal that is read
after it is a checkpoint.  A step that has been executed with success, be it one of the main
sequence, its fallback or a triggered one, comes to be judged unless its record, and with it the
run, ends in a fault; if the signal it is judged by is a checkpoint, the run ends there, no agent is
called any more, and a step of the main sequence is finished for cursor and file. -/
theorem stopped_iff_endsInCheckpoint (f : Workflow) (w₀ : World) :
    (∀ o w, f.run.exec w₀ = (.ok o, w) → ∃ trail, Ends f w₀ trail o w) ∧
    (∀ trail o w, Ends f w₀ trail o w → (o.status = .stopped ↔ EndsInCheckpoint f trail)) ∧
    ∀ n older owner run identity output w', Trail f w₀ (n :: older) →
      n.2.phase.executes? = some (owner, run, identity) →
      (f.shop.execute run identity none).exec n.1 = (.ok output, w') →
      (∃ j since, Trail f w₀ (j :: (since ++ n :: older)) ∧
        (∀ x ∈ since, x.2.phase.executes? = none) ∧ j.2.phase.judged? = some owner ∧
        ∀ signal, ((f.signals.readSafely f.shop.dir).exec j.1).1 = .ok (some signal) →
          signal.action = .checkpoint →
          ∃ w, Ends f w₀ (j :: (since ++ n :: older)) (stopped owner signal.reason j.2.messages) w ∧
            (∀ m, ¬ Trail f w₀ (m :: j :: (since ++ n :: older))) ∧ w.calls = w'.calls ∧
            ∀ index step, n.2.phase = .attempt index step run identity →
              ((index : Int) ∈ j.2.cursor.completed ∧ (index : Int) ∉ j.2.cursor.notCompleted) ∧
              ∀ path, f.tracking = some path → w₀.now.InCalendar →
                ∃ q, stored w.store w.cwd path = .ok q ∧ (index : Int) ∈ q.completed ∧
                  (index : Int) ∉ q.notCompleted) ∨
        ∃ index step m e, n.2.phase = .attempt index step run identity ∧
          Trail f w₀ (m :: n :: older) ∧ ((f.turn m.2).exec m.1).1 = .error e ∧
          ((f.recordCompleted index).exec w').1 = .error e := by
  refine ⟨fun o w h => ends_of_run h, fun trail o w h => h.stopped_iff, ?_⟩
  intro n older owner run identity output w' ht hn hx
  rcases ht.judged_of_succeeded hn hx with ⟨j, since, hj, hsince, hjudged, hcalls, hmain⟩ | hfault
  · refine .inl ⟨j, since, hj, hsince, hjudged, fun signal hr ha => ?_⟩
    obtain ⟨w, hends, hw, hstore, hcwd⟩ := hj.ends_of_checkpoint hjudged hr ha
    refine ⟨w, hends, fun m => hends.not_next, hw.trans hcalls, fun index step hphase => ?_⟩
    rw [hstore, hcwd]
    exact hj.finished (hmain index step hphase)
  · exact .inr hfault

/-- A review whose output asks for another round while its signal is a checkpoint. -/
def halting : Workflow :=
  { overlapping with
    steps := [reviewStep]
    shop :=
      { overlapping.shop with
        engine := fun w _ =>
          { store := w.store, result := .ok "AGAIN"
            published := [(⟨.slash, ["work"]⟩, ⟨.checkpoint, some "enough", none⟩)] } } }

/-- The checkpoint stops the run. -/
theorem halting_stops :
    ∃ trail o w, Ends halting default trail o w ∧ o = stopped reviewStep (some "enough") [] ∧
      EndsInCheckpoint halting trail := by
  have ht : Trail halting default (halting.points default 3) := trail_points (points_ne_nil rfl 3)
  have hdone : ((halting.turn ((halting.points default 3).getD 0 default).2).exec
      ((halting.points default 3).getD 0 default).1).1
        = .ok (.done (stopped reviewStep (some "enough") [])) := by decide +kernel
  obtain ⟨⟨v, s⟩, older, hp⟩ := List.exists_cons_of_ne_nil ht.ne_nil
  rw [hp] at ht hdone
  have hends : Ends halting default ((v, s) :: older) (stopped reviewStep (some "enough") [])
      ((halting.turn s).exec v).2 := .intro ht (Prod.ext hdone rfl)
  obtain ⟨-, hstopped, -⟩ := stopped_iff_endsInCheckpoint halting default
  exact ⟨_, _, _, hends, rfl, (hstopped _ _ _ hends).mp rfl⟩

end Conductor.Workflow
