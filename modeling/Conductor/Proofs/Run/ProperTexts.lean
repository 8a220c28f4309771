import Conductor.Proofs.Script.Books
import Conductor.Proofs.Script.Task
import Conductor.Proofs.Workflow.Books

/-!
# Proper texts on record

The texts that a run puts on record are the names of what it calls and the messages of failures.  A
script calls agents for its own tasks alone, and a workflow whose steps neither trigger others nor
have fallbacks calls them for its own steps alone, each under its own id.  So all that goes on
record is proper where the names and the answers of the agents are (`Script.Course.proper_events`,
`Workflow.Course.proper_events`).
-/

namespace Conductor

open Act Text

/-- The answers of the agents are proper texts. -/
def Workshop.AnswersProperly (shop : Workshop) : Prop :=
  ∀ w call runId, (CallEvent.answered runId (shop.engine w call).result).Proper

theorem textOr_self (s : String) : textOr s s = s := ite_self s

/-! ### Workflows -/

namespace Workflow

variable {f : Workflow} {w w' w₀ : World} {s s' : State} {n : Point} {trail : List Point}

/-- No step has a fallback or triggers another one. -/
def Plain (f : Workflow) : Prop :=
  ∀ step ∈ f.steps, step.fallback = none ∧ ∀ target, step.behavior ≠ some (.trigger target)

/-- A run is at one of its own steps, and no other one waits. -/
def AtOwnStep (f : Workflow) (s : State) : Prop :=
  s.cursor.pending = [] ∧
    match s.phase with
    | .head => True
    | .attempt _ step run identity => step ∈ f.steps ∧ run = step ∧ identity = step.agentId
    | .returned _ step _ => step ∈ f.steps
    | .recorded _ step _ => step ∈ f.steps
    | .triggered .. => False
    | .handedBack .. => False

theorem trigger_verdict_eq_none {step : Step} (h : ∀ target, step.behavior ≠ some (.trigger target))
    (c : Cursor) (index : Nat) (output : String) (signal : Option Signal) :
    (verdict c step index output signal).trigger = none := by
  have hnone : triggerDecision step.behavior signal = (none, false) := by
    cases hb : step.behavior with
    | none => rfl
    | some b =>
      cases b with
      | trigger target => exact absurd hb (h target)
      | loop => rfl
  unfold verdict evaluate
  rw [hnone]
  split
  · rfl
  · dsimp only
    split <;> rfl

theorem pending_settled_of_none (c : Cursor) (step : Step) (index : Nat) {v : Verdict}
    (h : v.trigger = none) : (settled c step index v).pending = c.pending := by
  unfold settled queued
  rw [h]
  dsimp only
  split <;> rfl

/-- A plain workflow stays at its own steps. -/
theorem Takes.atOwnStep (hplain : f.Plain) (h : Takes f w s (.next s') w') (hs : f.AtOwnStep s) :
    f.AtOwnStep s' := by
  cases h with
  | takenUp _ hpop _ =>
    obtain ⟨rest, hrest, -⟩ := Cursor.pop_eq_some hpop
    cases hs.1.symm.trans hrest
  | passed => exact ⟨hs.1, trivial⟩
  | started _ _ hstep _ hr =>
    have hmem := List.mem_of_getElem? hstep
    unfold chosen at hr
    rw [(hplain _ hmem).1] at hr
    cases hr
    exact ⟨hs.1, hmem, rfl, rfl⟩
  | executed => exact ⟨hs.1, hs.2.1⟩
  | tolerated => exact ⟨hs.1, trivial⟩
  | recorded => exact hs
  | loopedBack => exact ⟨hs.1, trivial⟩
  | wentOn =>
    have hnone := trigger_verdict_eq_none (hplain _ hs.2).2
    exact ⟨(pending_settled_of_none _ _ _ (hnone _ _ _ _)).trans hs.1, trivial⟩
  | triggeredExecuted => exact hs.2.elim
  | triggeredTolerated => exact hs.2.elim
  | handedBack => exact hs.2.elim

theorem Trail.atOwnStep (hplain : f.Plain) (ht : Trail f w₀ trail) :
    ∀ p ∈ trail, f.AtOwnStep p.2 :=
  ht.forall_state (fun _ _ => ⟨rfl, trivial⟩) fun hs h => h.atOwnStep hplain hs

/-- What a plain workflow puts on record is proper where the names of its steps are. -/
theorem Trail.proper_events (hplain : f.Plain) (hanswers : f.shop.AnswersProperly)
    (hnames : ∀ step ∈ f.steps,
      LoneHalf.occursIn step.agentId = false ∧ LoneHalf.occursIn step.agentName = false)
    (ht : Trail f w₀ trail) : ∀ e ∈ f.events trail, e.Proper := by
  intro e he
  obtain ⟨p, hp, he⟩ := List.mem_flatMap.mp he
  have hown := ht.atOwnStep hplain p (List.mem_reverse.mp hp)
  unfold eventsAt at he
  unfold AtOwnStep at hown
  -- At its own steps a run makes calls in its attempts alone.
  cases hphase : p.2.phase with
  | attempt index step run identity =>
    rw [hphase] at he hown
    obtain ⟨-, hmem, rfl, rfl⟩ := hown
    dsimp only [Phase.executes?, Workshop.eventsOf] at he
    split at he
    · next call w₁ hready =>
      obtain ⟨prompt, -, -, rfl⟩ := Workshop.exec_prepareStep_eq_ok_iff.mp hready
      split at he
      · rcases List.mem_cons.mp he with rfl | he
        · refine ⟨?_, (hnames run hmem).2⟩
          show LoneHalf.occursIn (textOr run.agentId run.agentId) = false
          rw [textOr_self]
          exact (hnames run hmem).1
        · rw [List.mem_singleton.mp he]
          exact hanswers _ _ _
      · cases he
    · cases he
  | triggered target step =>
    rw [hphase] at hown
    exact hown.2.elim
  | _ =>
    rw [hphase] at he
    cases he

theorem Course.proper_events {r : Except Fault Outcome} (hplain : f.Plain)
    (hanswers : f.shop.AnswersProperly)
    (hnames : ∀ step ∈ f.steps,
      LoneHalf.occursIn step.agentId = false ∧ LoneHalf.occursIn step.agentName = false)
    (h : f.Course w₀ trail r w) : ∀ e ∈ f.events trail, e.Proper := by
  cases h with
  | unstarted => exact List.forall_mem_nil _
  | ended h =>
    cases h with
    | intro ht => exact ht.proper_events hplain hanswers hnames
  | failed ht => exact ht.proper_events hplain hanswers hnames
  | endless ht => exact ht.proper_events hplain hanswers hnames

end Workflow

/-! ### Scripts -/

namespace Script

variable {setup : Setup} {plan : Plan} {w w' w₀ : World} {s s' : State} {n : Point}
  {trail : List Point} {total : Nat}

/-- The calls for a task go by proper names. -/
def NamedProperly (shop : Workshop) (t : Task) : Prop :=
  ∀ parentId w call w', (shop.prepareTask t.name t.argument t.inputFiles t.name parentId).exec w =
    (.ok call, w') → ∀ runId, (CallEvent.begun runId call).Proper

theorem namedProperly {shop : Workshop} {t : Task} (hname : LoneHalf.occursIn t.name = false)
    (hdisplay : LoneHalf.occursIn (displayNameOf shop t) = false) : NamedProperly shop t := by
  intro parentId w call w' h runId
  unfold Workshop.prepareTask at h
  obtain ⟨_, _, -, h⟩ := exec_bind_eq_ok_iff.mp h
  obtain ⟨_, _, -, h⟩ := exec_bind_eq_ok_iff.mp h
  cases h
  refine ⟨?_, hdisplay⟩
  show LoneHalf.occursIn (textOr t.name t.name) = false
  rw [textOr_self]
  exact hname

/-- A task goes by proper names, and so does the call that has been prepared for it. -/
structure ProperRun (shop : Workshop) (r : TaskRun) : Prop where
  task : NamedProperly shop r.task
  prepared : ∀ call, r.phase = .prepared call → ∀ runId, (CallEvent.begun runId call).Proper

theorem ProperRun.moves {shop : Workshop} {parentId : Option String} {r : TaskRun}
    {phase : TaskPhase} (h : ProperRun shop r)
    (hm : Moves shop parentId r.task w r.phase phase w') :
    ProperRun shop { r with phase := phase } := by
  refine ⟨h.task, fun call hcall => ?_⟩
  obtain rfl : phase = .prepared call := hcall
  obtain ⟨t, phase⟩ := r
  cases hm with
  | prepared hx => exact h.task _ _ _ _ hx

theorem proper_eventsAt (h : s.All (ProperRun setup.shop)) (hanswers : setup.shop.AnswersProperly) :
    ∀ e ∈ eventsAt setup (w, s), e.Proper := by
  intro e he
  unfold eventsAt at he
  split at he
  · next runs i moves hstation =>
    unfold eventsOfMove at he
    split at he
    · cases hr : runs[i]? with
      | none =>
        rw [hr] at he
        cases he
      | some r =>
        rw [hr] at he
        have hproper := h.station _ _ hstation r (List.mem_of_getElem? hr)
        dsimp only [Option.map_some, Option.getD_some] at he
        unfold TaskPhase.events at he
        split at he
        · next call hphase =>
          split at he
          · rw [List.mem_singleton.mp he]
            exact hproper.prepared call hphase _
          · cases he
        · rw [List.mem_singleton.mp he]
          exact hanswers _ _ _
        · cases he
    · cases he
  · cases he

theorem Trail.all_properRun (hnames : ∀ stage ∈ plan, ∀ t ∈ stage, NamedProperly setup.shop t)
    (ht : Trail setup plan w₀ trail) : ∀ p ∈ trail, p.2.All (ProperRun setup.shop) := by
  refine ht.all (fun t ht => ?_) fun _ _ _ _ _ h hm => h.moves hm
  obtain ⟨stage, hstage, ht⟩ := List.mem_flatten.mp ht
  exact ⟨hnames stage hstage t ht, fun call hcall => by cases hcall⟩

/-- What a script puts on record is proper where the names of its tasks are. -/
theorem Trail.proper_events (hanswers : setup.shop.AnswersProperly)
    (hnames : ∀ stage ∈ plan, ∀ t ∈ stage, NamedProperly setup.shop t)
    (ht : Trail setup plan w₀ trail) : ∀ e ∈ events setup trail, e.Proper := by
  intro e he
  obtain ⟨p, hp, he⟩ := List.mem_flatMap.mp he
  exact proper_eventsAt (ht.all_properRun hnames p (List.mem_reverse.mp hp)) hanswers e he

theorem Course.proper_events {r : Except Fault Result} (hanswers : setup.shop.AnswersProperly)
    (hnames : ∀ stage ∈ plan, ∀ t ∈ stage, NamedProperly setup.shop t)
    (h : Course setup plan w₀ trail r w) : ∀ e ∈ events setup trail, e.Proper := by
  cases h with
  | unopened => exact List.forall_mem_nil _
  | closed hs =>
    cases hs with
    | done ht => exact ht.proper_events hanswers hnames
    | failed ht => exact ht.proper_events hanswers hnames

end Script

end Conductor
