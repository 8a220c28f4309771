import Conductor.Proofs.Action
import Conductor.Proofs.Cursor
import Conductor.Run.Workflow

/-!
# What a turn can do

Every turn of a run that does not end in a fault is one of the transitions listed by `Takes`, each
with its guards, the state it leads to and the world it leaves (`takes_of_turn`).  What holds of
runs is proved from this list, and no turn is opened again.
-/

namespace Conductor.Workflow

/-! ### What the parts of a turn compute -/

/-- The step that an id of the catalog stands for. -/
def resolved (f : Workflow) (id : String) : Except ResolveFault Step :=
  match f.catalog with
  | none => .error (.unknown "agent" id)
  | some c => c.resolveAny id

/-- The step that a trigger of an id runs: one of the list, else one of the catalog. -/
def target (f : Workflow) (id : String) : Except ResolveFault Step :=
  match f.named? id with
  | some step => .ok step
  | none => f.resolved id

/-- What is executed for the step at a position, and under which identity. -/
def chosen (f : Workflow) (c : Cursor) (step : Step) (index : Nat) :
    Except ResolveFault (Step × String) :=
  match step.fallback with
  | none => .ok (step, step.agentId)
  | some reference =>
    if c.needsFallback step index then
      (f.resolved reference).map fun fallback => (fallback, s!"{step.agentId}:fallback")
    else .ok (step, step.agentId)

/-- Records the start of the step at a position, where progress is kept. -/
def recordStarted (f : Workflow) (index : Nat) : Act Unit :=
  match f.tracking with
  | some path => Progress.recordStarted path index
  | none => pure ()

/-- Records the end of the step at a position, where progress is kept. -/
def recordCompleted (f : Workflow) (index : Nat) : Act Unit :=
  match f.tracking with
  | some path => Progress.recordCompleted path index
  | none => pure ()

/-- The verdict on a step after its signal has been read. -/
def verdict (c : Cursor) (step : Step) (index : Nat) (output : String) (signal : Option Signal) :
    Verdict :=
  (evaluate step.behavior output signal (c.iterations (Cursor.loopKey step index))).1

/-- The cursor after the trigger of a verdict is queued. -/
def queued (c : Cursor) (v : Verdict) : Cursor :=
  match v.trigger with
  | some t => (c.enqueue t.target).1
  | none => c

/-- The cursor after a verdict that neither stops nor repeats: the loop is left, the trigger is
queued and the cursor goes on. -/
def settled (c : Cursor) (step : Step) (index : Nat) (v : Verdict) : Cursor :=
  let left := if v.loop.isSome then c.endLoop (Cursor.loopKey step index) else c
  ((queued left v).release step.agentId).advance

/-- Queueing changes nothing but the queue. -/
theorem queued_eq (c : Cursor) (v : Verdict) :
    ∃ pending, queued c v = { c with pending := pending } ∧
      pending.length ≤ c.pending.length + 1 := by
  unfold queued
  split
  · unfold Cursor.enqueue
    split
    · exact ⟨c.pending, rfl, Nat.le_succ _⟩
    · exact ⟨_, rfl, Nat.le_refl _⟩
  · exact ⟨c.pending, rfl, Nat.le_succ _⟩

/-- A verdict that neither stops nor repeats may leave a loop and queue one step; then the cursor
goes on. -/
theorem settled_eq (c : Cursor) (step : Step) (index : Nat) (v : Verdict) :
    ∃ pending, pending.length ≤ c.pending.length + 1 ∧ settled c step index v =
      (({ (if v.loop.isSome then c.endLoop (Cursor.loopKey step index) else c) with
        pending := pending }).release step.agentId).advance := by
  obtain ⟨pending, hq, hl⟩ :=
    queued_eq (if v.loop.isSome then c.endLoop (Cursor.loopKey step index) else c) v
  refine ⟨pending, Nat.le_trans hl ?_, ?_⟩
  · split <;> exact Nat.le_refl _
  · unfold settled
    dsimp only
    rw [hq]

theorem index_settled (c : Cursor) (step : Step) (index : Nat) (v : Verdict) :
    (settled c step index v).index = c.index + 1 := by
  obtain ⟨pending, -, h⟩ := settled_eq c step index v
  rw [h]
  split <;> rfl

theorem iterations_settled_of_ne (c : Cursor) {step : Step} {index : Nat} (v : Verdict)
    {key : String} (h : key ≠ Cursor.loopKey step index) :
    (settled c step index v).iterations key = c.iterations key := by
  obtain ⟨pending, -, hs⟩ := settled_eq c step index v
  rw [hs]
  split
  · exact Cursor.iterations_endLoop_of_ne c h
  · rfl

theorem counted_settled {c : Cursor} (hc : c.Counted) (step : Step) (index : Nat) (v : Verdict) :
    (settled c step index v).Counted := by
  obtain ⟨pending, -, h⟩ := settled_eq c step index v
  rw [h]
  split
  · exact hc.endLoop _
  · exact hc

/-- A loop that is left cools down; without one, the hot loop cools down where it is passed. -/
theorem hot_settled (c : Cursor) (step : Step) (index : Nat) (v : Verdict) :
    (settled c step index v).hot =
      if v.loop.isSome then none else c.hot.filter fun h => !decide (h.anchor < c.index + 1) := by
  obtain ⟨pending, -, h⟩ := settled_eq c step index v
  rw [h]
  split <;> rfl

theorem length_pending_settled_le (c : Cursor) (step : Step) (index : Nat) (v : Verdict) :
    (settled c step index v).pending.length ≤ c.pending.length + 1 := by
  obtain ⟨pending, hl, h⟩ := settled_eq c step index v
  rw [h]
  exact hl

theorem completed_settled (c : Cursor) (step : Step) (index : Nat) (v : Verdict) :
    (settled c step index v).completed = c.completed := by
  obtain ⟨pending, -, h⟩ := settled_eq c step index v
  rw [h]
  split <;> rfl

theorem notCompleted_settled (c : Cursor) (step : Step) (index : Nat) (v : Verdict) :
    (settled c step index v).notCompleted = c.notCompleted := by
  obtain ⟨pending, -, h⟩ := settled_eq c step index v
  rw [h]
  split <;> rfl

/-- The messages after a verdict that neither stops nor repeats. -/
def settledMessages (ms : List String) (step : Step) (v : Verdict) : List String :=
  match v.loop with
  | some d =>
    match orElseText d.reason none with
    | some reason => if d.limitReached then ms ++ [s!"{step.agentName}: {reason}"] else ms
    | none => ms
  | none => ms

/-- How a run ends that is aborted. -/
def aborted (reason : String) (ms : List String) : Outcome :=
  { status := .aborted, reason := some reason, messages := ms }

/-- How a run ends at a checkpoint. -/
def stopped (step : Step) (reason : Option String) (ms : List String) : Outcome :=
  { status := .stopped
    reason := some ((orElseText reason none).getD s!"checkpoint requested by {step.agentName}")
    messages := ms }

/-- What is noted in the messages about a failure that is tolerated. -/
def failureMessage (step : Step) (e : CallFailure) : String :=
  s!"{step.agentName} failed: {e.message}"

/-- The reason for leaving a loop at its limit. -/
def limitReason (m : Nat) : String := s!"loop limit reached ({m})"

/-- The message about a loop that is left at its limit. -/
def limitMessage (step : Step) (m : Nat) : String := s!"{step.agentName}: {limitReason m}"

theorem isEmpty_limitReason (m : Nat) : (limitReason m).isEmpty = false := by
  rw [← Bool.not_eq_true, String.isEmpty_iff]
  intro h
  have hmem : ')' ∈ (limitReason m).toList := by
    unfold limitReason
    rw [String.toList_append]
    exact List.mem_append_right _ (by decide)
  rw [h] at hmem
  cases hmem

theorem settledMessages_of_not_limitReached {v : Verdict} (h : v.loop.any (·.limitReached) = false)
    (ms : List String) (step : Step) : settledMessages ms step v = ms := by
  unfold settledMessages
  split
  · next d hd =>
    have hnot : d.limitReached = false := by simpa [hd] using h
    split
    · rw [hnot, if_neg Bool.false_ne_true]
    · rfl
  · rfl

theorem settledMessages_of_limitReached {v : Verdict} {d : LoopDecision} {m : Nat}
    (hd : v.loop = some d) (hreason : d.reason = some (limitReason m))
    (hlimit : d.limitReached = true) (ms : List String) (step : Step) :
    settledMessages ms step v = ms ++ [limitMessage step m] := by
  unfold settledMessages
  rw [hd]
  dsimp only
  rw [hreason, orElseText, isEmpty_limitReason, if_neg Bool.false_ne_true]
  dsimp only
  rw [if_pos hlimit]
  rfl

/-! ### The transitions -/

/-- The transitions of a run: from a world and a state by a turn to the world after it. -/
inductive Takes (f : Workflow) : World → State → Turn → World → Prop
  /-- A run that was cancelled is aborted. -/
  | cancelled {w c ms log} (hw : w.cancelled = true) :
    Takes f w ⟨c, ms, .head⟩ (.done (aborted cancelledReason ms)) (w.withLog log)
  /-- A step that was triggered is taken up. -/
  | takenUp {w c ms log c' id step} (hw : w.cancelled = false) (hp : c.pop = (c', some id))
    (ht : f.target id = .ok step) :
    Takes f w ⟨c, ms, .head⟩ (.next ⟨c', ms, .triggered id step⟩) (w.withLog log)
  /-- A step that was triggered is not known. -/
  | unknownTarget {w c ms log c' id e} (hw : w.cancelled = false) (hp : c.pop = (c', some id))
    (ht : f.target id = .error e) :
    Takes f w ⟨c, ms, .head⟩ (.done (aborted s!"Cannot trigger {id}: {e.message}" ms))
      (w.withLog log)
  /-- The run is over. -/
  | completed {w c ms log} (hw : w.cancelled = false) (hp : c.pending = [])
    (hs : f.steps[c.index]? = none) :
    Takes f w ⟨c, ms, .head⟩ (.done ⟨.completed, none, ms⟩) (w.withLog log)
  /-- A step is passed over. -/
  | passed {w c ms log step cause} (hw : w.cancelled = false) (hp : c.pending = [])
    (hs : f.steps[c.index]? = some step) (hc : c.skipCause? step c.index = some cause) :
    Takes f w ⟨c, ms, .head⟩ (.next ⟨c.advance, ms, .head⟩) (w.withLog log)
  /-- The fallback of a step is not known. -/
  | unknownFallback {w c ms log step e} (hw : w.cancelled = false) (hp : c.pending = [])
    (hs : f.steps[c.index]? = some step) (hc : c.skipCause? step c.index = none)
    (hr : f.chosen c step c.index = .error e) :
    Takes f w ⟨c, ms, .head⟩ (.done (aborted e.message ms)) (w.withLog log)
  /-- A step starts. -/
  | started {w c ms log step run identity w'} (hw : w.cancelled = false) (hp : c.pending = [])
    (hs : f.steps[c.index]? = some step) (hc : c.skipCause? step c.index = none)
    (hr : f.chosen c step c.index = .ok (run, identity))
    (hx : (f.recordStarted c.index).exec (w.withLog log) = (.ok (), w')) :
    Takes f w ⟨c, ms, .head⟩
      (.next ⟨c.markStarted c.index step.agentId, ms, .attempt c.index step run identity⟩) w'
  /-- A step returns. -/
  | executed {w c ms index step run identity output w'}
    (hx : (f.shop.execute run identity none).exec w = (.ok output, w')) :
    Takes f w ⟨c, ms, .attempt index step run identity⟩ (.next ⟨c, ms, .returned index step output⟩)
      w'
  /-- A step is cancelled. -/
  | callCancelled {w c ms log index step run identity e w'}
    (hx : (f.shop.execute run identity none).exec w = (.error (.cancelled e), w')) :
    Takes f w ⟨c, ms, .attempt index step run identity⟩ (.done (aborted cancelledReason ms))
      (w'.withLog log)
  /-- A step fails. -/
  | failed {w c ms log index step run identity e w'} (ht : step.tolerant = false)
    (hx : (f.shop.execute run identity none).exec w = (.error (.failed e), w')) :
    Takes f w ⟨c, ms, .attempt index step run identity⟩ (.done (aborted e.message ms))
      (w'.withLog log)
  /-- A step fails and the failure is tolerated; its signal is dropped. -/
  | tolerated {w c ms log index step run identity e signal w' w''} (ht : step.tolerant = true)
    (hx : (f.shop.execute run identity none).exec w = (.error (.failed e), w'))
    (hr : (f.signals.readSafely f.shop.dir).exec (w'.withLog log) = (.ok signal, w'')) :
    Takes f w ⟨c, ms, .attempt index step run identity⟩
      (.next ⟨(c.release step.agentId).advance, ms ++ [failureMessage step e], .head⟩) w''
  /-- A step that returned is recorded as done. -/
  | recorded {w c ms index step output w'}
    (hx : (f.recordCompleted index).exec w = (.ok (), w')) :
    Takes f w ⟨c, ms, .returned index step output⟩
      (.next ⟨c.markCompleted index, ms, .recorded index step output⟩) w'
  /-- A checkpoint stops the run. -/
  | stopped {w c ms log index step output signal reason w'}
    (hr : (f.signals.readSafely f.shop.dir).exec w = (.ok signal, w'))
    (hv : (verdict c step index output signal).checkpoint = some reason) :
    Takes f w ⟨c, ms, .recorded index step output⟩ (.done (stopped step reason ms)) (w'.withLog log)
  /-- A loop steps back. -/
  | loopedBack {w c ms log index step output signal d w'}
    (hr : (f.signals.readSafely f.shop.dir).exec w = (.ok signal, w'))
    (hv : (verdict c step index output signal).checkpoint = none)
    (hl : (verdict c step index output signal).loop = some d) (hd : d.repeats = true) :
    Takes f w ⟨c, ms, .recorded index step output⟩
      (.next ⟨(c.loopBack d (Cursor.loopKey step index)).release step.agentId, ms, .head⟩)
      (w'.withLog log)
  /-- The cursor goes on to the next position. -/
  | wentOn {w c ms log index step output signal w'}
    (hr : (f.signals.readSafely f.shop.dir).exec w = (.ok signal, w'))
    (hv : (verdict c step index output signal).checkpoint = none)
    (hl : ∀ d, (verdict c step index output signal).loop = some d → d.repeats = false) :
    Takes f w ⟨c, ms, .recorded index step output⟩
      (.next ⟨settled c step index (verdict c step index output signal),
        settledMessages ms step (verdict c step index output signal), .head⟩) (w'.withLog log)
  /-- A triggered step returns. -/
  | triggeredExecuted {w c ms id step output w'}
    (hx : (f.shop.execute step id none).exec w = (.ok output, w')) :
    Takes f w ⟨c, ms, .triggered id step⟩ (.next ⟨c, ms, .handedBack id step⟩) w'
  /-- A triggered step is cancelled. -/
  | triggeredCancelled {w c ms log id step e w'}
    (hx : (f.shop.execute step id none).exec w = (.error (.cancelled e), w')) :
    Takes f w ⟨c, ms, .triggered id step⟩ (.done (aborted cancelledReason ms)) (w'.withLog log)
  /-- A triggered step fails. -/
  | triggeredFailed {w c ms log id step e w'} (ht : step.tolerant = false)
    (hx : (f.shop.execute step id none).exec w = (.error (.failed e), w')) :
    Takes f w ⟨c, ms, .triggered id step⟩ (.done (aborted e.message ms)) (w'.withLog log)
  /-- A triggered step fails and the failure is tolerated; its signal is not read. -/
  | triggeredTolerated {w c ms log id step e w'} (ht : step.tolerant = true)
    (hx : (f.shop.execute step id none).exec w = (.error (.failed e), w')) :
    Takes f w ⟨c, ms, .triggered id step⟩
      (.next ⟨c.release id, ms ++ [failureMessage step e], .head⟩) (w'.withLog log)
  /-- The signal of a triggered step is a checkpoint. -/
  | triggeredStopped {w c ms log id step signal w'}
    (hr : (f.signals.readSafely f.shop.dir).exec w = (.ok (some signal), w'))
    (ha : signal.action = .checkpoint) :
    Takes f w ⟨c, ms, .handedBack id step⟩ (.done (stopped step signal.reason ms)) (w'.withLog log)
  /-- The signal of a triggered step is none or is dropped. -/
  | handedBack {w c ms log id step signal w'}
    (hr : (f.signals.readSafely f.shop.dir).exec w = (.ok signal, w'))
    (ha : ∀ s, signal = some s → s.action ≠ .checkpoint) :
    Takes f w ⟨c, ms, .handedBack id step⟩ (.next ⟨c.release id, ms, .head⟩) (w'.withLog log)

/-! ### Every turn is a transition -/

section

open Act

variable {f : Workflow} {w w' : World} {c : Cursor} {ms : List String} {t : Turn}

theorem exec_abort (reason : String) (ms : List String) (w : World) :
    ∃ log, (abort reason ms).exec w = (.ok (.done (aborted reason ms)), w.withLog log) :=
  ⟨_, exec_note_bind ..⟩

theorem exec_stopAt (step : Step) (reason : Option String) (ms : List String) (w : World) :
    ∃ log, (stopAt step reason ms).exec w = (.ok (.done (stopped step reason ms)), w.withLog log) :=
  ⟨_, exec_note_bind ..⟩

theorem exec_lookUp (f : Workflow) (id : String) (w : World) :
    ∃ log, (f.lookUp id).exec w = (.ok (f.resolved id), w.withLog log) := by
  unfold lookUp resolved
  cases f.catalog with
  | none => exact ⟨w.log, rfl⟩
  | some c => exact ⟨_, exec_note_bind ..⟩

theorem exec_choose (f : Workflow) (c : Cursor) (step : Step) (index : Nat) (w : World) :
    ∃ log, (f.choose c step index).exec w = (.ok (f.chosen c step index), w.withLog log) := by
  unfold choose chosen
  cases step.fallback with
  | none => exact ⟨w.log, rfl⟩
  | some reference =>
    cases c.needsFallback step index with
    | false => exact ⟨w.log, rfl⟩
    | true =>
      obtain ⟨log, hl⟩ := exec_lookUp f reference w
      simp only [Bool.not_true, Bool.false_eq_true, ↓reduceIte]
      rw [exec_bind_of_ok hl]
      cases f.resolved reference with
      | error e => exact ⟨log, rfl⟩
      | ok fallback => exact ⟨_, exec_note_bind ..⟩

theorem exec_takeUp (f : Workflow) (c : Cursor) (ms : List String) (id : String) (w : World) :
    ∃ log, (f.takeUp ⟨c, ms, .head⟩ id).exec w = (match f.target id with
      | .error e => abort s!"Cannot trigger {id}: {e.message}" ms
      | .ok step => do
        note .info s!"Running triggered step {step.agentName}" [("agent", .str step.agentId)]
        return .next ⟨c, ms, .triggered id step⟩).exec (w.withLog log) := by
  unfold takeUp target
  cases f.named? id with
  | some step => exact ⟨w.log, rfl⟩
  | none =>
    obtain ⟨log, hl⟩ := exec_lookUp f id w
    exact ⟨log, exec_bind_of_ok hl⟩

theorem takes_of_takeUp {c' : Cursor} {id : String} (hw : w.cancelled = false)
    (hp : c.pop = (c', some id)) (h : (f.takeUp ⟨c', ms, .head⟩ id).exec w = (.ok t, w')) :
    Takes f w ⟨c, ms, .head⟩ t w' := by
  obtain ⟨log, hl⟩ := exec_takeUp f c' ms id w
  rw [hl] at h
  cases ht : f.target id with
  | error e =>
    rw [ht] at h
    obtain ⟨log', ha⟩ := exec_abort s!"Cannot trigger {id}: {e.message}" ms (w.withLog log)
    cases ha.symm.trans h
    exact .unknownTarget hw hp ht
  | ok step =>
    rw [ht] at h
    cases h
    exact .takenUp hw hp ht

theorem takes_of_visit {step : Step} (hw : w.cancelled = false) (hp : c.pending = [])
    (hs : f.steps[c.index]? = some step) (h : (f.visit ⟨c, ms, .head⟩ step).exec w = (.ok t, w')) :
    Takes f w ⟨c, ms, .head⟩ t w' := by
  unfold visit at h
  cases hc : c.skipCause? step c.index with
  | some cause =>
    simp only [hc] at h
    cases h
    exact .passed hw hp hs hc
  | none =>
    simp only [hc] at h
    obtain ⟨log, hl⟩ := exec_choose f c step c.index w
    rw [exec_bind_of_ok hl] at h
    cases hr : f.chosen c step c.index with
    | error e =>
      simp only [hr] at h
      obtain ⟨log', ha⟩ := exec_abort e.message ms (w.withLog log)
      cases ha.symm.trans h
      exact .unknownFallback hw hp hs hc hr
    | ok chosen =>
      obtain ⟨run, identity⟩ := chosen
      simp only [hr] at h
      have hrec : ∃ u, (f.recordStarted c.index).exec (w.withLog log) = (.ok u, w') ∧
          Turn.next ⟨c.markStarted c.index step.agentId, ms, .attempt c.index step run identity⟩
            = t := by
        unfold recordStarted
        cases ht : f.tracking with
        | some path =>
          simp only [ht] at h
          obtain ⟨u, w₁, hu, hn⟩ := exec_bind_eq_ok_iff.mp h
          cases hn
          exact ⟨u, hu, rfl⟩
        | none =>
          simp only [ht] at h
          cases h
          exact ⟨(), rfl, rfl⟩
      obtain ⟨_, hx, rfl⟩ := hrec
      exact .started hw hp hs hc hr hx

theorem takes_of_atHead (h : (f.atHead ⟨c, ms, .head⟩).exec w = (.ok t, w')) :
    Takes f w ⟨c, ms, .head⟩ t w' := by
  unfold atHead at h
  rw [exec_bind, exec_get] at h
  dsimp only at h
  cases hw : w.cancelled with
  | true =>
    rw [hw, if_pos rfl] at h
    obtain ⟨log, ha⟩ := exec_abort cancelledReason ms w
    cases ha.symm.trans h
    exact .cancelled hw
  | false =>
    rw [hw, if_neg Bool.false_ne_true] at h
    obtain ⟨index, done, unfinished, counters, hot, pending, inFlight⟩ := c
    cases pending with
    | cons id rest => exact takes_of_takeUp hw rfl h
    | nil =>
      dsimp only [Cursor.pop] at h
      cases hs : f.steps[index]? with
      | some step =>
        rw [hs] at h
        exact takes_of_visit hw rfl hs h
      | none =>
        rw [hs] at h
        cases h
        exact .completed hw rfl hs

theorem takes_of_atAttempt {index : Nat} {step run : Step} {identity : String}
    (h : (f.atAttempt ⟨c, ms, .attempt index step run identity⟩ index step run identity).exec w
      = (.ok t, w')) : Takes f w ⟨c, ms, .attempt index step run identity⟩ t w' := by
  unfold atAttempt at h
  rw [exec_bind_of_ok (exec_attempt _ w)] at h
  rcases hx : (f.shop.execute run identity none).exec w with ⟨(e | output), w₁⟩
  · rw [hx] at h
    dsimp only at h
    split at h
    · next heq => cases heq
    · next heq =>
      cases heq
      obtain ⟨log, ha⟩ := exec_abort cancelledReason ms w₁
      cases ha.symm.trans h
      exact .callCancelled hx
    · next failure heq =>
      cases heq
      cases ht : step.tolerant with
      | false =>
        rw [ht, if_pos (by rfl)] at h
        obtain ⟨log, ha⟩ := exec_abort failure.message ms w₁
        cases ha.symm.trans h
        exact .failed ht hx
      | true =>
        rw [ht, if_neg (by simp)] at h
        obtain ⟨_, _, hn, h⟩ := exec_bind_eq_ok_iff.mp h
        cases hn
        obtain ⟨signal, w₂, hr, h⟩ := exec_bind_eq_ok_iff.mp h
        cases h
        exact .tolerated ht hx hr
    · cases h
  · rw [hx] at h
    cases h
    exact .executed hx

theorem takes_of_atReturned {index : Nat} {step : Step} {output : String}
    (h : (f.atReturned ⟨c, ms, .returned index step output⟩ index step output).exec w
      = (.ok t, w')) : Takes f w ⟨c, ms, .returned index step output⟩ t w' := by
  unfold atReturned at h
  have hrec : (f.recordCompleted index).exec w = (.ok (), w') ∧
      Turn.next ⟨c.markCompleted index, ms, .recorded index step output⟩ = t := by
    unfold recordCompleted
    cases ht : f.tracking with
    | some path =>
      simp only [ht] at h
      obtain ⟨_, _, hu, hn⟩ := exec_bind_eq_ok_iff.mp h
      cases hn
      exact ⟨hu, rfl⟩
    | none =>
      simp only [ht] at h
      cases h
      exact ⟨rfl, rfl⟩
  obtain ⟨hx, rfl⟩ := hrec
  exact .recorded hx

theorem exec_leaveLoop (c : Cursor) (ms : List String) (p : Phase) (step : Step) (index : Nat)
    (d : LoopDecision) (v : Verdict) (hd : v.loop = some d) (w : World) :
    ∃ log, (leaveLoop ⟨c, ms, p⟩ step index (Cursor.loopKey step index) d).exec w
      = (.ok ⟨c.endLoop (Cursor.loopKey step index), settledMessages ms step v, p⟩,
        w.withLog log) := by
  unfold leaveLoop settledMessages
  rw [hd]
  dsimp only
  cases orElseText d.reason none with
  | none => exact ⟨w.log, rfl⟩
  | some reason =>
    cases hl : d.limitReached with
    | true => exact ⟨_, exec_note_bind ..⟩
    | false => exact ⟨_, exec_note_bind ..⟩

theorem exec_queue (c : Cursor) (ms : List String) (p : Phase) (step : Step) (id : String)
    (w : World) :
    ∃ log, (queue ⟨c, ms, p⟩ step id).exec w = (.ok ⟨(c.enqueue id).1, ms, p⟩, w.withLog log) := by
  unfold queue
  dsimp only
  cases (c.enqueue id).2 with
  | true => exact ⟨_, exec_note_bind ..⟩
  | false => exact ⟨_, exec_note_bind ..⟩

theorem exec_goOn (c : Cursor) (ms : List String) (p : Phase) (step : Step) (v : Verdict)
    (w : World) :
    ∃ log, (follow.goOn step v ⟨c, ms, p⟩).exec w = (.ok (.next
      ⟨((match v.trigger with
        | some t => (c.enqueue t.target).1
        | none => c).release step.agentId).advance, ms, .head⟩), w.withLog log) := by
  unfold follow.goOn
  cases v.trigger with
  | none => exact ⟨w.log, rfl⟩
  | some t =>
    obtain ⟨log, hq⟩ := exec_queue c ms p step t.target w
    exact ⟨log, exec_bind_of_ok hq⟩

/-- A verdict that neither stops nor repeats sends the cursor on. -/
theorem exec_follow_of_goesOn {step : Step} {index : Nat} {v : Verdict} {p : Phase}
    (hv : v.checkpoint = none) (hl : ∀ d, v.loop = some d → d.repeats = false) (w : World) :
    ∃ log, (follow ⟨c, ms, p⟩ step index (Cursor.loopKey step index) v).exec w =
      (.ok (.next ⟨settled c step index v, settledMessages ms step v, .head⟩), w.withLog log) := by
  unfold follow
  simp only [hv]
  cases hloop : v.loop with
  | none =>
    obtain ⟨log, hg⟩ := exec_goOn c ms p step v w
    refine ⟨log, ?_⟩
    simp only [settled, settledMessages, hloop, Option.isSome_none, Bool.false_eq_true, ↓reduceIte]
    exact hg
  | some d =>
    obtain ⟨log₁, hleft⟩ := exec_leaveLoop c ms p step index d v hloop w
    obtain ⟨log₂, hg⟩ := exec_goOn (c.endLoop (Cursor.loopKey step index))
      (settledMessages ms step v) p step v (w.withLog log₁)
    refine ⟨log₂, ?_⟩
    simp only [hl d hloop, Bool.false_eq_true, ↓reduceIte, settled, hloop, Option.isSome_some]
    rw [exec_bind_of_ok hleft]
    exact hg

/-- Following the verdict on a step is a transition from the point at which its signal was read. -/
theorem exec_follow (c : Cursor) (ms : List String) (index : Nat) (step : Step) (output : String)
    {signal : Option Signal} {w₁ : World}
    (hr : (f.signals.readSafely f.shop.dir).exec w = (.ok signal, w₁)) (log : Array Record) :
    ∃ t w', (follow ⟨c, ms, .recorded index step output⟩ step index (Cursor.loopKey step index)
        (verdict c step index output signal)).exec (w₁.withLog log) = (.ok t, w') ∧
      Takes f w ⟨c, ms, .recorded index step output⟩ t w' := by
  cases hv : (verdict c step index output signal).checkpoint with
  | some reason =>
    unfold follow
    rw [hv]
    obtain ⟨log', h⟩ := exec_stopAt step reason ms (w₁.withLog log)
    exact ⟨_, w₁.withLog log', h, .stopped hr hv⟩
  | none =>
    by_cases hl : ∃ d, (verdict c step index output signal).loop = some d ∧ d.repeats = true
    · obtain ⟨d, hl, hd⟩ := hl
      unfold follow
      simp only [hv, hl, hd, ↓reduceIte]
      exact ⟨_, w₁.withLog _, exec_note_bind .., .loopedBack hr hv hl hd⟩
    · have hends : ∀ d, (verdict c step index output signal).loop = some d → d.repeats = false :=
        fun d h => Bool.eq_false_iff.mpr fun hd => hl ⟨d, h, hd⟩
      obtain ⟨log', h⟩ := exec_follow_of_goesOn hv hends (w₁.withLog log)
      exact ⟨_, w₁.withLog log', h, .wentOn hr hv hends⟩

/-- A turn that has read the signal follows the verdict; the two notes in front of it change nothing
but the log. -/
theorem exec_atRecorded (s : State) (index : Nat) (step : Step) (output : String)
    {signal : Option Signal} {w₁ : World}
    (hr : (f.signals.readSafely f.shop.dir).exec w = (.ok signal, w₁)) :
    ∃ log, (f.atRecorded s index step output).exec w =
      (follow s step index (Cursor.loopKey step index)
        (verdict s.cursor step index output signal)).exec (w₁.withLog log) := by
  unfold atRecorded verdict
  rw [exec_bind_of_ok hr]
  dsimp only
  split <;> split
  · exact ⟨_, rfl⟩
  · exact ⟨_, rfl⟩
  · exact ⟨_, rfl⟩
  · exact ⟨w₁.log, rfl⟩

theorem takes_of_atRecorded {index : Nat} {step : Step} {output : String}
    (h : (f.atRecorded ⟨c, ms, .recorded index step output⟩ index step output).exec w
      = (.ok t, w')) : Takes f w ⟨c, ms, .recorded index step output⟩ t w' := by
  obtain ⟨signal, w₁, hr, -⟩ := exec_bind_eq_ok_iff.mp h
  obtain ⟨log, hf⟩ := exec_atRecorded ⟨c, ms, .recorded index step output⟩ index step output hr
  obtain ⟨t', w₂, hfollow, htakes⟩ := exec_follow c ms index step output hr log
  cases (hf.trans hfollow).symm.trans h
  exact htakes

theorem takes_of_atTriggered {id : String} {step : Step}
    (h : (f.atTriggered ⟨c, ms, .triggered id step⟩ id step).exec w = (.ok t, w')) :
    Takes f w ⟨c, ms, .triggered id step⟩ t w' := by
  unfold atTriggered at h
  rw [exec_bind_of_ok (exec_attempt _ w)] at h
  rcases hx : (f.shop.execute step id none).exec w with ⟨(e | output), w₁⟩
  · rw [hx] at h
    dsimp only at h
    split at h
    · next heq => cases heq
    · next heq =>
      cases heq
      obtain ⟨log, ha⟩ := exec_abort cancelledReason ms w₁
      cases ha.symm.trans h
      exact .triggeredCancelled hx
    · next failure heq =>
      cases heq
      cases ht : step.tolerant with
      | false =>
        rw [ht, if_pos (by rfl)] at h
        obtain ⟨log, ha⟩ := exec_abort failure.message ms w₁
        cases ha.symm.trans h
        exact .triggeredFailed ht hx
      | true =>
        rw [ht, if_neg (by simp)] at h
        cases h
        exact .triggeredTolerated ht hx
    · cases h
  · rw [hx] at h
    cases h
    exact .triggeredExecuted hx

theorem takes_of_atHandedBack {id : String} {step : Step}
    (h : (f.atHandedBack ⟨c, ms, .handedBack id step⟩ id step).exec w = (.ok t, w')) :
    Takes f w ⟨c, ms, .handedBack id step⟩ t w' := by
  unfold atHandedBack at h
  obtain ⟨signal, w₁, hr, h⟩ := exec_bind_eq_ok_iff.mp h
  cases signal with
  | none =>
    cases h
    exact .handedBack hr (by simp)
  | some signal =>
    by_cases ha : signal.action = .checkpoint
    · simp only [ha, ↓reduceIte] at h
      obtain ⟨log, hs⟩ := exec_stopAt step signal.reason ms w₁
      cases hs.symm.trans h
      exact .triggeredStopped hr ha
    · simp only [ha, ↓reduceIte] at h
      cases h
      exact .handedBack hr (by simpa using ha)

/-- Every turn that does not end in a fault is one of the transitions. -/
theorem takes_of_turn {s : State} (h : (f.turn s).exec w = (.ok t, w')) : Takes f w s t w' := by
  obtain ⟨c, ms, p⟩ := s
  cases p with
  | head => exact takes_of_atHead h
  | attempt index step run identity => exact takes_of_atAttempt h
  | returned index step output => exact takes_of_atReturned h
  | recorded index step output => exact takes_of_atRecorded h
  | triggered id step => exact takes_of_atTriggered h
  | handedBack id step => exact takes_of_atHandedBack h

end

end Conductor.Workflow
