import Conductor.Proofs.DecisionTable
import Conductor.Proofs.Workflow.Budget
import Conductor.Proofs.Workflow.Failure

/-!
# The messages of a run

A run has two things to tell: that a step failed whose failures are tolerated, and that a loop was
left because its limit was reached (`Notice`).  Whether there is such a notice at a point of the run
is told by the phase, the execution and the signal there (`Due`).  Main statement: the messages of
an outcome, of whichever kind, are the texts of the notices along the run, in order and each once;
so the failures of a completed run are all in its messages, and without messages every step that was
executed returned (`messages_eq_notices`).

A turn adds the notice of its point to the messages and nothing else (`Takes.messages_append`), and
the turn that ends a run has none to add (`Takes.notice?_eq_none`).  A failure is told under the
name of the step that tolerates it: for a fallback that is the step in whose place it runs.
-/

namespace Conductor.Workflow

open Cursor

/-- What a run has to tell. -/
inductive Notice where
  /-- The execution for a step failed and the failure is tolerated. -/
  | excused (step : Step) (failure : CallFailure)
  /-- The loop of a step is left at its limit. -/
  | exhausted (step : Step) (limit : Nat)
  deriving DecidableEq, Repr

/-- The step that a notice is about. -/
def Notice.step : Notice → Step
  | excused step _ => step
  | exhausted step _ => step

/-- What a notice says. -/
def Notice.text : Notice → String
  | excused step failure => failureMessage step failure
  | exhausted step limit => limitMessage step limit

/-- There is a notice at a point of a run. -/
inductive Due (f : Workflow) (p : Point) : Notice → Prop
  /-- An execution fails for a step that tolerates it. -/
  | excused {owner run identity c} (hs : p.2.phase.executes? = some (owner, run, identity))
    (ht : owner.tolerant = true) (hf : f.shop.Fails run identity p.1 (.failed c)) :
    f.Due p (.excused owner c)
  /-- A loop is asked to step back and has done so as often as its limit says. -/
  | exhausted {index step output l m} (hs : p.2.phase = .recorded index step output)
    (hl : SendsBack step.behavior output (f.unread? p.1) l) (hm : l.maxIterations = some m)
    (hn : m ≤ p.2.cursor.iterations (loopKey step index)) : f.Due p (.exhausted step m)

/-- The notice of an execution, if it fails and the failure is tolerated. -/
def excused? (f : Workflow) (w : World) (owner run : Step) (identity : String) : Option Notice :=
  match ((f.shop.execute run identity none).exec w).1 with
  | .error (.failed c) => if owner.tolerant then some (.excused owner c) else none
  | _ => none

/-- The notice of a verdict, if it leaves a loop at its limit. -/
def exhausted? (step : Step) (v : Verdict) : Option Notice :=
  if v.loop.any (·.limitReached) then some (.exhausted step step.loopLimit) else none

/-- The notice at a point of a run, if there is one. -/
def notice? (f : Workflow) (p : Point) : Option Notice :=
  match p.2.phase with
  | .attempt _ step run identity => f.excused? p.1 step run identity
  | .triggered target step => f.excused? p.1 step step target
  | .recorded index step output =>
    exhausted? step (verdict p.2.cursor step index output (f.unread? p.1))
  | _ => none

/-- The notices along a trail, in the order in which they come up. -/
def notices (f : Workflow) (trail : List Point) : List Notice :=
  (trail.filterMap f.notice?).reverse

/-- What is executed at a point, if anything is, returns. -/
def Untroubled (f : Workflow) (p : Point) : Prop :=
  ∀ owner run identity, p.2.phase.executes? = some (owner, run, identity) →
    ∃ output, ((f.shop.execute run identity none).exec p.1).1 = .ok output

variable {f : Workflow} {w w' w₀ : World} {s s' : State} {p q : Point} {trail : List Point}
  {step owner run : Step} {identity output : String} {o : Outcome} {c : CallFailure}
  {notice : Notice} {v : Verdict} {ms : List String} {d : LoopDecision} {l : LoopBehavior}
  {signal : Option Signal} {n : Int} {m : Nat}

/-! ### Which notice there is -/

theorem fails_of_failed (hx : ((f.shop.execute run identity none).exec w).1 = .error (.failed c)) :
    f.shop.Fails run identity w (.failed c) := by
  rcases Workshop.fails_or_breaks hx with hf | hb
  · exact hf
  · cases hb.not_isHeld

theorem excused?_eq_some_iff : f.excused? w owner run identity = some notice ↔
    ∃ c, notice = .excused owner c ∧ owner.tolerant = true ∧
      f.shop.Fails run identity w (.failed c) := by
  unfold excused?
  constructor
  · intro h
    split at h
    · next c hx =>
      split at h
      · next ht =>
        cases h
        exact ⟨c, rfl, ht, fails_of_failed hx⟩
      · cases h
    · cases h
  · rintro ⟨c, rfl, ht, hf⟩
    rw [hf.execute_eq_error]
    exact if_pos ht

theorem loopLimit_of_activeLoop? (hl : step.activeLoop? = some l) (hm : l.maxIterations = some m) :
    step.loopLimit = m := by
  rw [Step.loopLimit, hl, Option.bind_some, hm, Option.getD_some]

theorem loopLimit_of_sendsBack (h : SendsBack step.behavior output signal l)
    (hm : l.maxIterations = some m) : step.loopLimit = m :=
  loopLimit_of_activeLoop? (Step.activeLoop?_of_behavior h.behavior h.active) hm

theorem exhausted?_evaluate_eq_some_iff :
    exhausted? step (evaluate step.behavior output signal n).1 = some notice ↔
      ∃ l m, notice = .exhausted step m ∧ SendsBack step.behavior output signal l ∧
        l.maxIterations = some m ∧ m ≤ n := by
  have hlimit := (tabled_evaluate step.behavior output signal n).limitReached
  unfold exhausted?
  constructor
  · intro h
    split at h
    · next hany =>
      cases h
      obtain ⟨l, hl, m, hm, hn⟩ := hlimit.mp hany
      exact ⟨l, m, by rw [loopLimit_of_sendsBack hl hm], hl, hm, hn⟩
    · cases h
  · rintro ⟨l, m, rfl, hl, hm, hn⟩
    rw [if_pos (hlimit.mpr ⟨l, hl, m, hm, hn⟩), loopLimit_of_sendsBack hl hm]

/-- The notice at a point is the one that is due there. -/
theorem notice?_eq_some_iff : f.notice? p = some notice ↔ f.Due p notice := by
  obtain ⟨w, c, ms, phase⟩ := p
  constructor
  · intro h
    cases phase with
    | attempt index step run identity =>
      obtain ⟨c, rfl, ht, hf⟩ := excused?_eq_some_iff.mp h
      exact .excused rfl ht hf
    | triggered target step =>
      obtain ⟨c, rfl, ht, hf⟩ := excused?_eq_some_iff.mp h
      exact .excused rfl ht hf
    | recorded index step output =>
      obtain ⟨l, m, rfl, hl, hm, hn⟩ := exhausted?_evaluate_eq_some_iff.mp h
      exact .exhausted rfl hl hm hn
    | _ => cases h
  · intro h
    cases h with
    | @excused owner run identity c hs ht hf =>
      have hnotice := excused?_eq_some_iff.mpr ⟨c, rfl, ht, hf⟩
      cases phase with
      | attempt index step run' identity' =>
        cases hs
        exact hnotice
      | triggered target step =>
        cases hs
        exact hnotice
      | _ => cases hs
    | exhausted hs hl hm hn =>
      cases hs
      exact exhausted?_evaluate_eq_some_iff.mpr ⟨_, _, rfl, hl, hm, hn⟩

/-! ### What a turn adds to the messages -/

theorem exhausted?_of_not_limitReached (h : v.loop.any (·.limitReached) = false) :
    exhausted? step v = none := by
  rw [exhausted?, h, if_neg Bool.false_ne_true]

/-- A verdict that neither stops nor repeats adds its notice. -/
theorem settledMessages_evaluate (ms : List String) (step : Step) (output : String)
    (signal : Option Signal) (n : Int) :
    settledMessages ms step (evaluate step.behavior output signal n).1 = ms ++
      (exhausted? step (evaluate step.behavior output signal n).1).toList.map Notice.text := by
  cases hany : (evaluate step.behavior output signal n).1.loop.any (·.limitReached) with
  | false =>
    rw [settledMessages_of_not_limitReached hany, exhausted?_of_not_limitReached hany]
    exact (List.append_nil ms).symm
  | true =>
    obtain ⟨d, hd, hlimit⟩ := (Option.any_eq_true _ _).mp hany
    obtain ⟨l, hl, hrow⟩ := loopRow_of_evaluate hd
    cases hrow with
    | @ended m _ _ hm _ =>
      rw [settledMessages_of_limitReached hd rfl rfl, exhausted?, if_pos hany,
        loopLimit_of_activeLoop? hl hm]
      rfl
    | _ => cases hlimit

/-- A loop that repeats is not left, so there is no notice. -/
theorem exhausted?_of_repeats (hd : (evaluate step.behavior output signal n).1.loop = some d)
    (hrep : d.repeats = true) :
    exhausted? step (evaluate step.behavior output signal n).1 = none := by
  refine exhausted?_of_not_limitReached ?_
  obtain ⟨l, -, hrow⟩ := loopRow_of_evaluate hd
  rw [hd]
  cases hrow with
  | again _ _ _ => rfl
  | _ => cases hrep

/-- Where a step is judged, the notice is that of the verdict on the signal that is read. -/
theorem notice?_of_recorded (hr : (f.signals.readSafely f.shop.dir).exec w = (.ok signal, w'))
    (c : Cursor) (ms : List String) (index : Nat) (step : Step) (output : String) :
    f.notice? (w, ⟨c, ms, .recorded index step output⟩)
      = exhausted? step (verdict c step index output signal) := by
  rw [(SignalWay.unread?_of_readSafely hr).1]
  rfl

/-- A turn adds the notice of its point to the messages, and nothing else. -/
theorem Takes.messages_append (h : Takes f w s (.next s') w') :
    s'.messages = s.messages ++ (f.notice? (w, s)).toList.map Notice.text := by
  cases h with
  | takenUp | passed | started | recorded | handedBack => exact (List.append_nil _).symm
  | executed hx => simp [notice?, excused?, hx]
  | triggeredExecuted hx => simp [notice?, excused?, hx]
  | tolerated ht hx _ => simp [notice?, excused?, hx, ht, Notice.text]
  | triggeredTolerated ht hx => simp [notice?, excused?, hx, ht, Notice.text]
  | loopedBack hr _ hl hd =>
    rw [notice?_of_recorded hr]
    unfold verdict at hl ⊢
    rw [exhausted?_of_repeats hl hd]
    exact (List.append_nil _).symm
  | wentOn hr _ _ =>
    rw [notice?_of_recorded hr]
    exact settledMessages_evaluate ..

/-- The turn that ends a run has no notice. -/
theorem Takes.notice?_eq_none (h : Takes f w s (.done o) w') : f.notice? (w, s) = none := by
  cases h with
  | callCancelled hx => simp [notice?, excused?, hx]
  | triggeredCancelled hx => simp [notice?, excused?, hx]
  | failed ht hx => simp [notice?, excused?, hx, ht]
  | triggeredFailed ht hx => simp [notice?, excused?, hx, ht]
  | stopped hr hv =>
    -- A checkpoint comes before the loop, so no loop is left.
    rw [notice?_of_recorded hr]
    refine exhausted?_of_not_limitReached ?_
    unfold verdict at hv ⊢
    rw [loop_evaluate, hv]
    rfl
  | _ => rfl

/-! ### Along a run -/

theorem notices_cons (f : Workflow) (p : Point) (trail : List Point) :
    f.notices (p :: trail) = f.notices trail ++ (f.notice? p).toList := by
  unfold notices
  rw [filterMap_cons_toList, List.reverse_append]
  cases f.notice? p <;> rfl

theorem mem_notices_iff : notice ∈ f.notices trail ↔ ∃ p ∈ trail, f.Due p notice := by
  simp only [notices, List.mem_reverse, List.mem_filterMap, notice?_eq_some_iff]

/-- The messages at a point of a run are the notices of the points before it. -/
theorem Trail.messages_eq (ht : Trail f w₀ (p :: trail)) :
    p.2.messages = (f.notices trail).map Notice.text := by
  induction trail generalizing p with
  | nil =>
    cases ht with
    | start h =>
      obtain ⟨_, _, -, -, rfl⟩ := start_spec h
      rfl
  | cons q trail ih => rw [ht.takes.messages_append, ih ht.tail, notices_cons, List.map_append]

theorem Ends.messages_eq (h : Ends f w₀ trail o w) :
    o.messages = (f.notices trail).map Notice.text := by
  cases h with
  | intro ht hturn =>
    have hlast := takes_of_turn hturn
    rw [hlast.messages_eq, ht.messages_eq, notices_cons, hlast.notice?_eq_none]
    simp

theorem untroubled_of_not_executes (h : p.2.phase.executes? = none) : f.Untroubled p := by
  intro owner run identity hs
  rw [h] at hs
  cases hs

/-- An execution after which a run goes on returned, or there is a notice. -/
theorem Takes.untroubled_or_due (h : Takes f w s (.next s') w') :
    f.Untroubled (w, s) ∨ ∃ notice, f.Due (w, s) notice := by
  cases h with
  | executed hx =>
    left
    intro owner run identity hs
    cases hs
    exact ⟨_, congrArg Prod.fst hx⟩
  | triggeredExecuted hx =>
    left
    intro owner run identity hs
    cases hs
    exact ⟨_, congrArg Prod.fst hx⟩
  | tolerated ht hx _ =>
    exact .inr ⟨_, .excused rfl ht (fails_of_failed (congrArg Prod.fst hx))⟩
  | triggeredTolerated ht hx =>
    exact .inr ⟨_, .excused rfl ht (fails_of_failed (congrArg Prod.fst hx))⟩
  | _ => exact .inl (untroubled_of_not_executes rfl)

/-- A run is completed at a head, where nothing is executed. -/
theorem Takes.untroubled_of_completed (h : Takes f w s (.done o) w') (ho : o.status = .completed) :
    f.Untroubled (w, s) := by
  cases h with
  | completed => exact untroubled_of_not_executes rfl
  | _ => cases ho

theorem Trail.untroubled_or_due (ht : Trail f w₀ (p :: trail)) :
    ∀ q ∈ trail, f.Untroubled q ∨ ∃ notice, f.Due q notice := by
  induction trail generalizing p with
  | nil => exact List.forall_mem_nil _
  | cons q trail ih => exact List.forall_mem_cons.mpr ⟨ht.takes.untroubled_or_due, ih ht.tail⟩

/-- What is executed in a completed run returned, or there is a notice. -/
theorem Ends.untroubled_or_due (h : Ends f w₀ trail o w) (ho : o.status = .completed) :
    ∀ q ∈ trail, f.Untroubled q ∨ ∃ notice, f.Due q notice := by
  cases h with
  | intro ht hturn =>
    exact List.forall_mem_cons.mpr
      ⟨.inl ((takes_of_turn hturn).untroubled_of_completed ho), ht.untroubled_or_due⟩

/-- The name of the step comes first. -/
theorem Notice.name_prefix (notice : Notice) :
    notice.step.agentName.toList <+: notice.text.toList := by
  have happend : ∀ name between rest : String,
      name.toList <+: (name ++ between ++ rest).toList := by
    intro name between rest
    rw [String.append_assoc, String.toList_append]
    exact List.prefix_append _ _
  cases notice with
  | excused step failure => exact happend step.agentName " failed: " failure.message
  | exhausted step limit => exact happend step.agentName ": " (limitReason limit)

/-- The messages of an outcome are the texts of the notices along its run, in order: one for each
failure that is tolerated, of whichever step, one for each loop that is left at its limit, each with
the name of the step in front, and no other.  So a run tells every failure that it tolerates, and
where a completed run has no messages, all that it executed returned. -/
theorem messages_eq_notices (f : Workflow) (w₀ : World) :
    (∀ p notice, f.notice? p = some notice ↔ f.Due p notice) ∧
    (∀ notice : Notice, notice.step.agentName.toList <+: notice.text.toList) ∧
    (∀ o w, f.run.exec w₀ = (.ok o, w) → ∃ trail, Ends f w₀ trail o w) ∧
    ∀ trail o w, Ends f w₀ trail o w →
      o.messages = (f.notices trail).map Notice.text ∧
      (∀ p ∈ trail, ∀ notice, f.Due p notice → notice.text ∈ o.messages) ∧
      (o.status = .completed → ∀ p ∈ trail, f.Untroubled p ∨ ∃ notice, f.Due p notice) ∧
      (o.status = .completed → o.messages = [] → ∀ p ∈ trail, f.Untroubled p) := by
  refine ⟨fun p notice => notice?_eq_some_iff, Notice.name_prefix, fun o w => ends_of_run,
    fun trail o w h => ?_⟩
  have htold : ∀ p ∈ trail, ∀ notice, f.Due p notice → notice.text ∈ o.messages := by
    intro p hp notice hdue
    rw [h.messages_eq]
    exact List.mem_map_of_mem (mem_notices_iff.mpr ⟨p, hp, hdue⟩)
  refine ⟨h.messages_eq, htold, fun ho => h.untroubled_or_due ho, fun ho hnone p hp => ?_⟩
  rcases h.untroubled_or_due ho p hp with huntroubled | ⟨notice, hdue⟩
  · exact huntroubled
  · have hmem := htold p hp notice hdue
    rw [hnone] at hmem
    cases hmem

/-- A review that asks for its repetition each time, before a step that fails. -/
def forgiving : Workflow :=
  { overlapping with
    steps := [lenientReview, excusedStep]
    shop :=
      { overlapping.shop with
        engine := fun w call =>
          { store := w.store
            result := if call.agentId = "note" then .error (.foreign "boom") else .ok "AGAIN" } } }

/-- The review is left at its limit and the failure is tolerated, and the outcome tells both.  Where
the review is made alone, all that it executes returns. -/
theorem forgiving_messages :
    (∃ o w, Ends forgiving default (forgiving.points default 10) o w ∧ o.status = .completed ∧
      o.messages = ["Review: loop limit reached (1)", "Note failed: Note failed: boom"]) ∧
    ∀ p ∈ building.points default 4, building.Untroubled p := by
  obtain ⟨-, -, -, hforgiving⟩ := messages_eq_notices forgiving default
  obtain ⟨-, -, -, hbuilding⟩ := messages_eq_notices building default
  constructor
  · have hne : forgiving.points default 10 ≠ [] := List.ne_nil_of_length_pos (by decide +kernel)
    obtain ⟨w, h⟩ := ends_points hne (by decide +kernel)
    refine ⟨_, w, h, rfl, ?_⟩
    rw [(hforgiving _ _ _ h).1]
    decide +kernel
  · have hne : building.points default 4 ≠ [] := List.ne_nil_of_length_pos (by decide +kernel)
    obtain ⟨w, h⟩ := ends_points hne (by decide +kernel)
    exact (hbuilding _ _ _ h).2.2.2 rfl (by decide +kernel)

end Conductor.Workflow
