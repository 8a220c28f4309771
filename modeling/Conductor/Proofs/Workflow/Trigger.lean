import Conductor.Proofs.Workflow.Onward

/-!
# Triggers

A verdict may ask for another step, which is run out of order.  Main statement: the ids that have
been taken up and the one that waits are those that verdicts have asked for, one by one and in order,
where an id that is the step's own does not count; after such a verdict the next step to be executed
is the one that goes by the id, unless the run has been cancelled or nothing goes by it
(`triggers_taken_up_once`).

An id is asked for where nothing waits and only the step's own id is at work, so it is queued unless
it is that one (`pending_settled`).  It waits at the next head, in front of the step at the cursor
and of the end of the list, and so the turn from there takes it up (`Trail.takes_up`).  Nothing else
queues an id, in particular no triggered step does (`Takes.pending_append`).
-/

namespace Conductor.Workflow

open Act SignalWay

variable {f : Workflow} {w w' w₁ w₀ : World} {s s' : State} {c : Cursor} {n : Point}
  {trail older : List Point} {step : Step} {index : Nat} {output id : String}
  {signal : Option Signal} {v : Verdict} {t : TriggerDecision}

/-- The id that a verdict on a step asks for, unless it is the step's own. -/
def asked? (step : Step) (v : Verdict) : Option String :=
  match v.trigger with
  | some t => if t.target = step.agentId then none else some t.target
  | none => none

/-- The id that the verdict of the next turn asks for. -/
def triggers? (f : Workflow) (n : Point) : Option String :=
  match n.2.phase with
  | .recorded index step output =>
    asked? step (verdict n.2.cursor step index output (f.unread? n.1))
  | _ => none

/-- The id that has just been taken up. -/
def takenUp? (n : Point) : Option String :=
  match n.2.phase with
  | .triggered id _ => some id
  | _ => none

/-- The ids that verdicts ask for in a part of a trail, the newest first. -/
def triggers (f : Workflow) (trail : List Point) : List String := trail.filterMap f.triggers?

/-- The ids that are taken up in a part of a trail, the newest first. -/
def takenUps (trail : List Point) : List String := trail.filterMap takenUp?

/-- The step goes by an id, as an agent or as a module. -/
def GoesBy (id : String) (step : Step) : Prop := step.agentId = id ∨ step.moduleId = some id

/-- The step is the first one of the list that goes by an id. -/
def IsListed (f : Workflow) (id : String) (step : Step) : Prop :=
  ∃ before after, f.steps = before ++ step :: after ∧ GoesBy id step ∧
    ∀ other ∈ before, ¬ GoesBy id other

/-- The step is that of the entry with an id in the catalog, an agent's if there is one, else a
module's. -/
def IsCataloged (f : Workflow) (id : String) (step : Step) : Prop :=
  ∃ c e, f.catalog = some c ∧
    (c.find? .agent id = some e ∨ c.find? .agent id = none ∧ c.find? .module id = some e) ∧
    Resolution.ofEntry e {} = .ok step

/-! ### The step that goes by an id -/

theorem goesBy_iff : (step.agentId == id || step.moduleId == some id) = true ↔ GoesBy id step := by
  simp [GoesBy]

theorem resolved_eq_ok_iff : f.resolved id = .ok step ↔ IsCataloged f id step := by
  unfold resolved IsCataloged
  cases f.catalog with
  | none => exact iff_of_false nofun fun ⟨_, _, h, _⟩ => nomatch h
  | some c =>
    unfold Catalog.resolveAny Catalog.findAny?
    dsimp only
    constructor
    · intro h
      split at h
      · next e hfind =>
        refine ⟨c, e, rfl, ?_, h⟩
        rcases Option.or_eq_some_iff.mp hfind with hagent | hmodule
        · exact .inl hagent
        · exact .inr hmodule
      · cases h
    · rintro ⟨_, e, ⟨⟩, hfind, hentry⟩
      have hsome : (c.find? .agent id).or (c.find? .module id) = some e :=
        Option.or_eq_some_iff.mpr hfind
      rw [hsome]
      exact hentry

theorem not_goesBy_iff :
    (!(step.agentId == id || step.moduleId == some id)) = true ↔ ¬ GoesBy id step := by
  rw [← goesBy_iff, Bool.not_eq_true', Bool.not_eq_true]

theorem named?_eq_some_iff : f.named? id = some step ↔ IsListed f id step := by
  unfold named? IsListed
  simp only [List.find?_eq_some_iff_append, goesBy_iff, not_goesBy_iff]
  constructor
  · rintro ⟨hgoes, before, after, heq, hbefore⟩
    exact ⟨before, after, heq, hgoes, hbefore⟩
  · rintro ⟨before, after, heq, hgoes, hbefore⟩
    exact ⟨hgoes, before, after, heq, hbefore⟩

theorem named?_eq_none_iff : f.named? id = none ↔ ∀ other ∈ f.steps, ¬ GoesBy id other := by
  unfold named?
  simp only [List.find?_eq_none, goesBy_iff]

/-- What is run for an id is the first step of the list that goes by it, else the step of the
catalog. -/
theorem target_eq_ok_iff : f.target id = .ok step ↔
    IsListed f id step ∨ (∀ other ∈ f.steps, ¬ GoesBy id other) ∧ IsCataloged f id step := by
  unfold target
  rw [← named?_eq_some_iff, ← named?_eq_none_iff, ← resolved_eq_ok_iff]
  cases f.named? id with
  | some found => simp
  | none => simp

/-! ### Verdicts that trigger -/

/-- A verdict that triggers asks for no stop and no repetition. -/
theorem of_trigger (h : (verdict c step index output signal).trigger = some t) :
    (verdict c step index output signal).checkpoint = none ∧
      ∀ d, (verdict c step index output signal).loop = some d → d.repeats = false := by
  have hexclusive := evaluate_exclusive step.behavior output signal
    (c.iterations (Cursor.loopKey step index))
  unfold verdict at h ⊢
  constructor
  · cases hc : (evaluate step.behavior output signal
        (c.iterations (Cursor.loopKey step index))).1.checkpoint with
    | none => rfl
    | some reason =>
      have hnone := (hexclusive.1 (by rw [hc]; rfl)).2
      cases hnone.symm.trans h
  · intro d hd
    cases hrepeats : d.repeats with
    | false => rfl
    | true =>
      have hnone := hexclusive.2 (by rw [hd]; exact hrepeats)
      cases hnone.symm.trans h

theorem asked?_of_repeats {d : LoopDecision}
    (hl : (verdict c step index output signal).loop = some d) (hd : d.repeats = true) :
    asked? step (verdict c step index output signal) = none := by
  unfold asked?
  cases h : (verdict c step index output signal).trigger with
  | none => rfl
  | some t => cases ((of_trigger h).2 d hl).symm.trans hd

/-- Where nothing waits and the step's own id is at work, an id that a verdict asks for is queued
unless it is that one. -/
theorem pending_settled (hq : c.pending = []) (hw : c.inFlight = [step.agentId]) :
    (settled c step index v).pending = (asked? step v).toList := by
  have hqueued : ∀ c' : Cursor, c'.pending = [] → c'.inFlight = [step.agentId] →
      (queued c' v).pending = (asked? step v).toList := by
    intro c' hq hw
    unfold queued asked?
    cases v.trigger with
    | none => exact hq
    | some t =>
      unfold Cursor.enqueue
      rw [hq, hw]
      by_cases ht : t.target = step.agentId <;> simp [ht, hq]
  -- Leaving a loop touches neither the queue nor what is at work.
  unfold settled
  dsimp only
  split
  · exact hqueued (c.endLoop (Cursor.loopKey step index)) hq hw
  · exact hqueued c hq hw

/-! ### The queue against what was asked for -/

theorem triggers_cons (f : Workflow) (n : Point) (trail : List Point) :
    f.triggers (n :: trail) = (f.triggers? n).toList ++ f.triggers trail :=
  filterMap_cons_toList f.triggers? n trail

theorem takenUps_cons (n : Point) (trail : List Point) :
    takenUps (n :: trail) = (takenUp? n).toList ++ takenUps trail :=
  filterMap_cons_toList takenUp? n trail

/-- A transition takes up the id that waited or queues the one that was asked for. -/
theorem Takes.pending_append (h : Takes f w s (.next s') w')
    (hwork : s.cursor.inFlight = s.phase.atWork) (hroom : s.cursor.pending.length ≤ s.phase.room) :
    s'.cursor.pending ++ (takenUp? (w', s')).toList =
      (f.triggers? (w, s)).toList ++ s.cursor.pending := by
  cases h with
  | takenUp _ hpop _ =>
    obtain ⟨rest, hrest, rfl⟩ := Cursor.pop_eq_some hpop
    dsimp only at hroom ⊢
    rw [hrest] at hroom ⊢
    -- No other id waits behind the one that is taken up, since there is room for one only.
    obtain rfl : rest = [] :=
      List.length_eq_zero_iff.mp (Nat.le_zero.mp (Nat.le_of_succ_le_succ hroom))
    rfl
  | passed => exact List.append_nil _
  | started => exact List.append_nil _
  | executed => exact List.append_nil _
  | tolerated => exact List.append_nil _
  | recorded => exact List.append_nil _
  | @loopedBack c _ _ index step output _ d _ hr _ hl hd =>
    have hsignal : f.unread? w = _ := (unread?_of_readSafely hr).1.symm
    show c.pending ++ [] =
      (asked? step (verdict c step index output (f.unread? w))).toList ++ c.pending
    rw [hsignal, asked?_of_repeats hl hd]
    exact List.append_nil _
  | @wentOn c _ _ index step output _ _ hr _ _ =>
    have hempty : c.pending = [] := List.length_eq_zero_iff.mp (Nat.le_zero.mp hroom)
    rw [(unread?_of_readSafely hr).1]
    dsimp only
    rw [pending_settled hempty hwork, hempty]
    rfl
  | triggeredExecuted => exact List.append_nil _
  | triggeredTolerated => exact List.append_nil _
  | handedBack => exact List.append_nil _

/-- What waits and what has been taken up is what was asked for, one by one and in order. -/
theorem Trail.pending_append (ht : Trail f w₀ (n :: trail)) :
    n.2.cursor.pending ++ takenUps (n :: trail) = f.triggers trail := by
  induction trail generalizing n with
  | nil =>
    cases ht with
    | start h =>
      obtain ⟨p, log, -, -, rfl⟩ := start_spec h
      rfl
  | cons m trail ih =>
    have hm : m ∈ m :: trail := List.mem_cons_self ..
    have hstep := ht.takes.pending_append (ht.tail.inFlight_eq m hm)
      (ht.tail.length_pending_le m hm)
    calc n.2.cursor.pending ++ takenUps (n :: m :: trail)
        = n.2.cursor.pending ++ ((takenUp? n).toList ++ takenUps (m :: trail)) := by
          rw [takenUps_cons]
      _ = (f.triggers? m).toList ++ (m.2.cursor.pending ++ takenUps (m :: trail)) := by
          rw [← List.append_assoc, hstep, List.append_assoc]
      _ = (f.triggers? m).toList ++ f.triggers trail := by rw [ih ht.tail]
      _ = f.triggers (m :: trail) := (triggers_cons f m trail).symm

/-! ### What follows a verdict that triggers -/

/-- After a verdict that triggers, the cursor goes on, and the id waits unless it is the step's
own. -/
theorem Trail.next_of_trigger (ht : Trail f w₀ (n :: trail))
    (hn : n.2.phase = .recorded index step output)
    (hr : (f.signals.readSafely f.shop.dir).exec n.1 = (.ok signal, w₁))
    (hv : (verdict n.2.cursor step index output signal).trigger = some t) :
    ∃ m, Trail f w₀ (m :: n :: trail) ∧ m.2.phase = .head ∧ m.2.cursor.index = index + 1 ∧
      m.2.cursor.pending = if t.target = step.agentId then [] else [t.target] := by
  obtain ⟨w, s⟩ := n
  have hmem : (w, s) ∈ (w, s) :: trail := List.mem_cons_self ..
  have hplaced := ht.placed _ hmem
  have hwork := ht.inFlight_eq _ hmem
  have hroom := ht.length_pending_le _ hmem
  obtain ⟨u, w', hturn⟩ := exec_turn_of_heard (by rw [hn]; rfl) hr
  obtain ⟨hnostop, hnorepeat⟩ := of_trigger hv
  obtain ⟨c, ms, phase⟩ := s
  dsimp only at hn hwork hroom hplaced hv hnostop hnorepeat hr
  subst hn
  cases takes_of_turn hturn with
  | stopped hr' hstops =>
    cases hr.symm.trans hr'
    cases hnostop.symm.trans hstops
  | loopedBack hr' _ hl hd =>
    cases hr.symm.trans hr'
    cases (hnorepeat _ hl).symm.trans hd
  | wentOn hr' _ _ =>
    cases hr.symm.trans hr'
    refine ⟨_, .next ht hturn, rfl, ?_, ?_⟩
    · dsimp only
      rw [index_settled, ← hplaced.of_recorded.1]
    · dsimp only
      rw [pending_settled (List.length_eq_zero_iff.mp (Nat.le_zero.mp hroom)) hwork]
      unfold asked?
      rw [hv]
      dsimp only
      split <;> rfl

/-- An id that waits is taken up by the next turn, unless the run has been cancelled or nothing goes
by it. -/
theorem Trail.takes_up (ht : Trail f w₀ (n :: trail)) (hn : n.2.phase = .head)
    (hq : n.2.cursor.pending = [id]) :
    (n.1.cancelled = true ∧
        ∃ w, Ends f w₀ (n :: trail) (aborted cancelledReason n.2.messages) w) ∨
      (∃ e, f.target id = .error e ∧
        ∃ w, Ends f w₀ (n :: trail) (aborted s!"Cannot trigger {id}: {e.message}" n.2.messages) w) ∨
      ∃ target m, f.target id = .ok target ∧ Trail f w₀ (m :: n :: trail) ∧
        m.2.phase = .triggered id target ∧ m.2.cursor.pending = [] ∧
        m.2.cursor.index = n.2.cursor.index := by
  obtain ⟨w, s⟩ := n
  cases hw : w.cancelled with
  | true =>
    obtain ⟨log, hturn⟩ := exec_turn_of_cancelled (f := f) hn hw
    exact .inl ⟨rfl, _, .intro ht hturn⟩
  | false =>
    obtain ⟨log, hturn⟩ := exec_turn_of_pending (f := f) hn hw hq
    cases htarget : f.target id with
    | error e =>
      rw [htarget] at hturn
      exact .inr (.inl ⟨e, rfl, _, .intro ht hturn⟩)
    | ok target =>
      rw [htarget] at hturn
      exact .inr (.inr ⟨target, _, rfl, .next ht hturn, rfl, rfl, rfl⟩)

/-- A triggered step leaves nothing waiting, whatever its signal asks for. -/
theorem Trail.pending_of_outOfOrder {m : Point} (ht : Trail f w₀ (m :: n :: trail))
    (hn : n.2.phase.outOfOrder) : m.2.cursor.pending = [] := by
  have hmem : n ∈ n :: trail := List.mem_cons_self ..
  have hroom := ht.tail.length_pending_le n hmem
  have hstep := ht.takes.pending_append (ht.tail.inFlight_eq n hmem) hroom
  have hasks : f.triggers? n = none ∧ n.2.phase.room = 0 := by
    unfold triggers?
    cases hphase : n.2.phase with
    | triggered id step => exact ⟨rfl, rfl⟩
    | handedBack id step => exact ⟨rfl, rfl⟩
    | _ =>
      rw [hphase] at hn
      cases hn
  rw [hasks.2] at hroom
  rw [hasks.1, List.length_eq_zero_iff.mp (Nat.le_zero.mp hroom)] at hstep
  exact (List.append_eq_nil_iff.mp hstep).1

/-- The ids that have been taken up and the one that waits are those that verdicts have asked for,
one by one and in order, and no triggered step leaves another id waiting.  What is run for an id is
the first step of the list that goes by it, else the step of the catalog.  After a verdict that
triggers, the cursor goes on, behind the last step as well; unless the id is the step's own, the
next turn takes it up, if the run has not been cancelled and something goes by the id. -/
theorem triggers_taken_up_once (f : Workflow) (w₀ : World) :
    (∀ n trail, Trail f w₀ (n :: trail) →
      n.2.cursor.pending ++ takenUps (n :: trail) = f.triggers trail) ∧
    (∀ m n trail, Trail f w₀ (m :: n :: trail) → n.2.phase.outOfOrder → m.2.cursor.pending = []) ∧
    (∀ id step, f.target id = .ok step ↔
      IsListed f id step ∨ (∀ other ∈ f.steps, ¬ GoesBy id other) ∧ IsCataloged f id step) ∧
    ∀ n trail index step output signal w₁ t, Trail f w₀ (n :: trail) →
      n.2.phase = .recorded index step output →
      (f.signals.readSafely f.shop.dir).exec n.1 = (.ok signal, w₁) →
      (verdict n.2.cursor step index output signal).trigger = some t →
      ∃ m, Trail f w₀ (m :: n :: trail) ∧ m.2.phase = .head ∧ m.2.cursor.index = index + 1 ∧
        (t.target = step.agentId → m.2.cursor.pending = []) ∧
        (t.target ≠ step.agentId →
          (m.1.cancelled = true ∧
            ∃ w, Ends f w₀ (m :: n :: trail) (aborted cancelledReason m.2.messages) w) ∨
          (∃ e, f.target t.target = .error e ∧ ∃ w, Ends f w₀ (m :: n :: trail)
            (aborted s!"Cannot trigger {t.target}: {e.message}" m.2.messages) w) ∨
          ∃ target k, f.target t.target = .ok target ∧ Trail f w₀ (k :: m :: n :: trail) ∧
            k.2.phase = .triggered t.target target ∧ k.2.cursor.pending = [] ∧
            k.2.cursor.index = index + 1) := by
  refine ⟨fun n trail ht => ht.pending_append, fun m n trail ht hn => ht.pending_of_outOfOrder hn,
    fun id step => target_eq_ok_iff, ?_⟩
  intro n trail index step output signal w₁ t ht hn hr hv
  obtain ⟨m, hm, hhead, hindex, hpending⟩ := ht.next_of_trigger hn hr hv
  refine ⟨m, hm, hhead, hindex, fun hown => ?_, fun hother => ?_⟩
  · rw [hpending, if_pos hown]
  · rw [if_neg hother] at hpending
    rw [← hindex]
    exact hm.takes_up hhead hpending

/-- A step that triggers a fix. -/
def dispatchStep : Step :=
  { agentId := "dispatch", agentName := "Dispatch", promptPath := "dispatch.md"
    behavior := some (.trigger (some "fix")) }

/-- The fix, which is not in the list. -/
def fixStep : Step := { agentId := "fix", agentName := "Fix", promptPath := "fix.md" }

/-- A dispatcher, which is the only step, triggers a fix of the catalog. -/
def dispatching : Workflow :=
  { handOff with
    steps := [dispatchStep]
    catalog := some
      { entries := [{ id := "fix", kind := .agent, name := some "Fix"
                      promptPath := some "fix.md" }]
        nodup := by decide
        plain := by decide } }

theorem target_dispatching : dispatching.target "fix" = .ok fixStep := rfl

/-- The fix is taken up behind the end of the list. -/
theorem dispatching_takes_up :
    ∃ k trail, Trail dispatching default (k :: trail) ∧ k.2.phase = .triggered "fix" fixStep ∧
      k.2.cursor.index = dispatching.steps.length := by
  have ht : Trail dispatching default (dispatching.points default 3) :=
    trail_points (points_ne_nil rfl 3)
  obtain ⟨hphase, hread, hverdict, hgoing⟩ :
      ((dispatching.points default 3).getD 0 default).2.phase = .recorded 0 dispatchStep "go" ∧
      ((dispatching.signals.readSafely dispatching.shop.dir).exec
        ((dispatching.points default 3).getD 0 default).1).1 = .ok (some ⟨.trigger, none, none⟩) ∧
      (verdict ((dispatching.points default 3).getD 0 default).2.cursor dispatchStep 0 "go"
        (some ⟨.trigger, none, none⟩)).trigger = some ⟨"fix", none⟩ ∧
      ((dispatching.turn ((dispatching.points default 3).getD 0 default).2).exec
        ((dispatching.points default 3).getD 0 default).1).2.cancelled = false := by
    decide +kernel
  obtain ⟨n, trail, hp⟩ := List.exists_cons_of_ne_nil ht.ne_nil
  rw [hp] at ht hphase hread hverdict hgoing
  obtain ⟨-, -, -, hfollows⟩ := triggers_taken_up_once dispatching default
  obtain ⟨m, hm, -, -, -, hother⟩ :=
    hfollows n trail _ _ _ _ _ _ ht hphase (Prod.ext hread rfl) hverdict
  rcases hother (by decide) with ⟨hcancelled, -⟩ | ⟨e, hunknown, -⟩ |
    ⟨target, k, htarget, hk, htriggered, -, hindex⟩
  · cases hm with
    | next _ hturn =>
      rw [List.getD_cons_zero, hturn] at hgoing
      cases hgoing.symm.trans hcancelled
  · cases hunknown.symm.trans target_dispatching
  · cases htarget.symm.trans target_dispatching
    exact ⟨k, _, hk, htriggered, hindex⟩

end Conductor.Workflow
