import Conductor.Proofs.Workflow.Hearing
import Conductor.Proofs.Workflow.Ledger
import Conductor.Proofs.Workflow.Walk

/-!
# How turns go on

Where `Takes` lists what a turn has done, the laws here say what a turn is going to do: at a head
that takes up an id or visits a step, after a return, and after a verdict.  Nothing but the record of
a step can end such a turn in a fault (`exec_turn_of_head`, `exec_turn_of_returned`).
-/

namespace Conductor.Workflow

open Act

/-- The next turn executes the step at a position, or its fallback, and that yields an output. -/
def Succeeds (f : Workflow) (i : Nat) (n : Point) : Prop :=
  ∃ step run identity output, n.2.phase = .attempt i step run identity ∧
    ((f.shop.execute run identity none).exec n.1).1 = .ok output

variable {f : Workflow} {w w' w₀ : World} {s s' : State} {n : Point} {trail : List Point} {i : Nat}
  {step run : Step} {identity id output : String}

/-! ### Heads -/

/-- Starts the step at a position, of which is executed what was chosen. -/
def begin (f : Workflow) (s : State) (i : Nat) (step run : Step) (identity : String) : Act Turn := do
  f.recordStarted i
  return .next { s with cursor := s.cursor.markStarted i step.agentId
                        phase := .attempt i step run identity }

theorem exec_turn_of_visit (hv : f.visit? (w, s) = some i) (hs : f.steps[i]? = some step) :
    (f.turn s).exec w = (f.visit s step).exec w := by
  obtain ⟨⟨index, done, unfinished, counters, hot, pending, inFlight⟩, ms, phase⟩ := s
  obtain ⟨hhead, hw, hq, -, hi⟩ := visit?_eq_some_iff.mp hv
  dsimp only at hhead hw hq hi
  subst hhead hq hi
  show (f.atHead _).exec w = _
  unfold atHead
  rw [exec_bind, exec_get]
  dsimp only [Cursor.pop]
  rw [hw, if_neg Bool.false_ne_true, hs]

theorem exec_visit_of_chosen (hskip : s.cursor.skipCause? step s.cursor.index = none)
    (hc : f.chosen s.cursor step s.cursor.index = .ok (run, identity)) :
    ∃ log, (f.visit s step).exec w =
      (f.begin s s.cursor.index step run identity).exec (w.withLog log) := by
  obtain ⟨log, hl⟩ := exec_choose f s.cursor step s.cursor.index w
  refine ⟨log, ?_⟩
  unfold visit begin recordStarted
  simp only [hskip]
  rw [exec_bind_of_ok hl, hc]
  cases f.tracking <;> rfl

theorem exec_visit_of_unresolved {e : ResolveFault}
    (hskip : s.cursor.skipCause? step s.cursor.index = none)
    (hc : f.chosen s.cursor step s.cursor.index = .error e) :
    ∃ log, (f.visit s step).exec w =
      (.ok (.done (aborted e.message s.messages)), w.withLog log) := by
  obtain ⟨log, hl⟩ := exec_choose f s.cursor step s.cursor.index w
  obtain ⟨log', ha⟩ := exec_abort e.message s.messages (w.withLog log)
  refine ⟨log', ?_⟩
  unfold visit
  simp only [hskip]
  rw [exec_bind_of_ok hl, hc]
  exact ha

theorem exec_visit_of_skipped {cause : Cursor.SkipCause}
    (hskip : s.cursor.skipCause? step s.cursor.index = some cause) :
    ∃ log, (f.visit s step).exec w =
      (.ok (.next { s with cursor := s.cursor.advance }), w.withLog log) := by
  unfold visit
  simp only [hskip]
  exact ⟨_, exec_note_bind ..⟩

theorem exec_turn_of_cancelled (hs : s.phase = .head) (hw : w.cancelled = true) :
    ∃ log, (f.turn s).exec w = (.ok (.done (aborted cancelledReason s.messages)), w.withLog log) := by
  obtain ⟨c, ms, phase⟩ := s
  dsimp only at hs
  subst hs
  show ∃ log, (f.atHead _).exec w = _
  unfold atHead
  rw [exec_bind, exec_get]
  dsimp only
  rw [hw, if_pos rfl]
  exact exec_abort cancelledReason ms w

theorem exec_turn_of_pending {rest : List String} (hs : s.phase = .head) (hw : w.cancelled = false)
    (hq : s.cursor.pending = id :: rest) :
    ∃ log, (f.turn s).exec w = (match f.target id with
      | .error e => .ok (.done (aborted s!"Cannot trigger {id}: {e.message}" s.messages))
      | .ok step => .ok (.next { s with
          cursor := { s.cursor with pending := rest, inFlight := insertNew s.cursor.inFlight id }
          phase := .triggered id step }), w.withLog log) := by
  obtain ⟨⟨index, done, unfinished, counters, hot, pending, inFlight⟩, ms, phase⟩ := s
  dsimp only at hs hq
  subst hs hq
  show ∃ log, (f.atHead _).exec w = _
  unfold atHead
  rw [exec_bind, exec_get]
  dsimp only [Cursor.pop]
  rw [hw, if_neg Bool.false_ne_true]
  obtain ⟨log, hl⟩ := exec_takeUp f ⟨index, done, unfinished, counters, hot, rest,
    insertNew inFlight id⟩ ms id w
  rw [hl]
  cases f.target id with
  | error e => exact exec_abort _ ms (w.withLog log)
  | ok step => exact ⟨_, exec_note_bind ..⟩

/-- A turn at a head notes something at most, or it starts a step. -/
theorem exec_turn_of_head (hs : s.phase = .head) (w : World) :
    (∃ t log, (f.turn s).exec w = (.ok t, w.withLog log)) ∨
      ∃ step run identity log,
        (f.turn s).exec w = (f.begin s s.cursor.index step run identity).exec (w.withLog log) := by
  cases hw : w.cancelled with
  | true =>
    obtain ⟨log, h⟩ := exec_turn_of_cancelled (f := f) hs hw
    exact .inl ⟨_, log, h⟩
  | false =>
    cases hq : s.cursor.pending with
    | cons id rest =>
      obtain ⟨log, h⟩ := exec_turn_of_pending (f := f) hs hw hq
      rw [h]
      cases f.target id <;> exact .inl ⟨_, log, rfl⟩
    | nil =>
      cases hi : f.steps[s.cursor.index]? with
      | none =>
        obtain ⟨log, h⟩ := exec_turn_of_exhausted hs hw hq hi
        exact .inl ⟨_, log, h⟩
      | some step =>
        have hlt := (List.getElem?_eq_some_iff.mp hi).1
        have hv : f.visit? (w, s) = some s.cursor.index :=
          visit?_eq_some_iff.mpr ⟨hs, hw, hq, hlt, rfl⟩
        rw [exec_turn_of_visit hv hi]
        cases hskip : s.cursor.skipCause? step s.cursor.index with
        | some cause =>
          obtain ⟨log, h⟩ := exec_visit_of_skipped (f := f) (w := w) hskip
          exact .inl ⟨_, log, h⟩
        | none =>
          cases hc : f.chosen s.cursor step s.cursor.index with
          | error e =>
            obtain ⟨log, h⟩ := exec_visit_of_unresolved (w := w) hskip hc
            exact .inl ⟨_, log, h⟩
          | ok chosen =>
            obtain ⟨log, h⟩ := exec_visit_of_chosen (w := w) hskip hc
            exact .inr ⟨step, _, _, log, h⟩

/-! ### Returns -/

/-- A step returns where its execution, or that of its fallback, yields an output. -/
theorem Takes.returns_iff (h : Takes f w s (.next s') w') :
    Returns i (w', s') ↔ Succeeds f i (w, s) := by
  constructor
  · rintro ⟨index, step, output, hs, hi⟩
    obtain rfl : index = i := Int.ofNat.inj hi
    dsimp only at hs
    cases h with
    | executed hx =>
      cases hs
      exact ⟨step, _, _, output, rfl, congrArg Prod.fst hx⟩
    | _ => cases hs
  · rintro ⟨step, run, identity, output, hs, hx⟩
    dsimp only at hs hx
    cases h with
    | executed _ =>
      cases hs
      exact ⟨i, step, _, rfl, rfl⟩
    | tolerated _ hfails =>
      cases hs
      rw [hfails] at hx
      cases hx
    | _ => cases hs

/-- A turn after a return records the step. -/
theorem exec_turn_of_returned (hs : s.phase = .returned i step output) (w : World) :
    (f.turn s).exec w = (f.recordCompleted i >>= fun _ => pure (Turn.next
      { s with cursor := s.cursor.markCompleted i, phase := .recorded i step output })).exec w := by
  obtain ⟨c, ms, phase⟩ := s
  dsimp only at hs
  subst hs
  show (f.atReturned _ i step output).exec w = _
  unfold atReturned recordCompleted
  cases f.tracking <;> rfl

/-- A step that has returned is recorded, unless its record ends in a fault. -/
theorem Trail.next_of_returned (ht : Trail f w₀ (n :: trail))
    (hn : n.2.phase = .returned i step output) :
    (∃ m, Trail f w₀ (m :: n :: trail) ∧ m.2.phase = .recorded i step output) ∨
      ∃ e, ((f.turn n.2).exec n.1).1 = .error e ∧ ((f.recordCompleted i).exec n.1).1 = .error e := by
  obtain ⟨w, s⟩ := n
  have hturn := exec_turn_of_returned (f := f) hn w
  rw [exec_bind] at hturn
  rcases hx : (f.recordCompleted i).exec w with ⟨(e | u), w'⟩
  · rw [hx] at hturn
    exact .inr ⟨e, congrArg Prod.fst hturn, rfl⟩
  · rw [hx] at hturn
    exact .inl ⟨_, .next ht hturn, rfl⟩

/-! ### What a turn leaves alone -/

/-- A turn that judges a step reads the signal and notes something. -/
theorem snd_exec_turn_of_judged {r : Except Fault Turn} (hs : s.phase.judged? = some step)
    (h : (f.turn s).exec w = (r, w')) :
    ∃ log, w' = ((f.signals.readSafely f.shop.dir).exec w).2.withLog log := by
  cases r with
  | error e =>
    have hfault := (turn_error_iff hs).mp (congrArg Prod.fst h)
    rw [exec_turn_of_unheard hs (Prod.ext hfault rfl)] at h
    cases h
    exact ⟨_, rfl⟩
  | ok t =>
    cases takes_of_turn h with
    | stopped hr => exact ⟨_, by rw [hr]⟩
    | loopedBack hr => exact ⟨_, by rw [hr]⟩
    | wentOn hr => exact ⟨_, by rw [hr]⟩
    | triggeredStopped hr => exact ⟨_, by rw [hr]⟩
    | handedBack hr => exact ⟨_, by rw [hr]⟩
    | _ => cases hs

section

variable {P : World → Prop} (hP : LogFree P) (hbox : ∀ w b, P w → P { w with mailbox := b })
include hP hbox

theorem keeps_readSafely (way : SignalWay) (dir : Path) : Keeps P (way.readSafely dir) := by
  intro w hw
  obtain ⟨log, h⟩ := SignalWay.exec_readSafely way dir w
  rw [h]
  exact hP _ log (hbox w _ hw)

theorem keeps_goOnAfter (s : State) (owner : Step) (result : Except Fault String) :
    Keeps P (f.goOnAfter s owner result) := by
  have haborted : ∀ reason, Keeps P (abort reason s.messages) :=
    fun _ => (Keeps.note hP _).bind fun _ => Keeps.pure _
  unfold goOnAfter
  split
  · exact Keeps.pure _
  · exact haborted _
  · split
    · unfold excuse
      split
      · exact (Keeps.note hP _).bind fun _ =>
          (keeps_readSafely hP hbox _ _).bind fun _ => Keeps.pure _
      · exact (Keeps.note hP _).bind fun _ => Keeps.pure _
      · exact Keeps.pure _
    · exact haborted _
  · exact Keeps.throw _

/-- A turn that executes nothing notes something, reads the signal or records a step. -/
theorem keeps_turn_of_not_executes
    (hdir : ∀ path ∈ f.tracking, ∀ w s, P w →
      w.store.ensureDirectory w.cwd path.parent = .ok s → P { w with store := s })
    (hwrite : ∀ path ∈ f.tracking, ∀ w text s, P w →
      w.store.writeText w.cwd path text = .ok s → P { w with store := s })
    (hs : s.phase.executes? = none) : Keeps P (f.turn s) := by
  intro w hw
  have hjudges : ∀ {step}, s.phase.judged? = some step → P ((f.turn s).exec w).2 := by
    intro step hs
    rcases hx : (f.turn s).exec w with ⟨r, w'⟩
    obtain ⟨log, rfl⟩ := snd_exec_turn_of_judged hs hx
    exact hP _ log (keeps_readSafely hP hbox _ _ w hw)
  cases hphase : s.phase with
  | head =>
    rcases exec_turn_of_head (f := f) hphase w with ⟨t, log, h⟩ | ⟨step, run, identity, log, h⟩
    · rw [h]
      exact hP w log hw
    · rw [h]
      exact ((keeps_recordStarted hdir hwrite hP _).bind fun _ => Keeps.pure _) _ (hP w log hw)
  | returned index step output =>
    rw [exec_turn_of_returned hphase]
    exact ((keeps_recordCompleted hdir hwrite hP _).bind fun _ => Keeps.pure _) w hw
  | recorded index step output => exact hjudges (by rw [hphase]; rfl)
  | handedBack target step => exact hjudges (by rw [hphase]; rfl)
  | _ =>
    rw [hphase] at hs
    cases hs

end

/-! ### Faults -/

theorem quiet_of_excuse {owner : Step} {call : CallFailure} {e : Fault}
    (hs : s.phase.executes? = some (owner, run, identity))
    (h : (f.excuse s owner call).exec w = (.error e, w')) : Quiet f w w' := by
  obtain ⟨c, ms, phase⟩ := s
  cases phase with
  | attempt index _ _ _ =>
    unfold excuse at h
    dsimp only at h
    unfold note at h
    rw [exec_note_bind, exec_bind] at h
    split at h
    · cases h
    · next hr =>
      cases h
      exact (quiet_withLog f w _).trans (quiet_of_readSafely hr)
  | triggered _ _ =>
    unfold excuse at h
    dsimp only at h
    unfold note at h
    rw [exec_note_bind] at h
    cases h
  | _ => cases hs

theorem quiet_of_goOnAfter {owner : Step} {r : Except Fault String} {e : Fault}
    (hs : s.phase.executes? = some (owner, run, identity))
    (h : (f.goOnAfter s owner r).exec w = (.error e, w')) : Quiet f w w' := by
  unfold goOnAfter at h
  split at h
  · cases h
  · cases h
  · split at h
    · exact quiet_of_excuse hs h
    · cases h
  · cases h
    exact quiet_withLog f w w.log

/-- A turn that ends in a fault away from heads and returns records nothing. -/
theorem quiet_of_fault {e : Fault} (hhead : s.phase ≠ .head)
    (hreturned : ∀ index step output, s.phase ≠ .returned index step output)
    (h : (f.turn s).exec w = (.error e, w')) : Quiet f w w' := by
  have hexecutes : ∀ {owner run identity}, s.phase.executes? = some (owner, run, identity) →
      Quiet f w w' := by
    intro owner run identity hs
    rw [exec_turn_of_executes hs] at h
    exact (quiet_of_execute rfl).trans (quiet_of_goOnAfter hs h)
  have hjudges : ∀ {step}, s.phase.judged? = some step → Quiet f w w' := by
    intro step hs
    have hfault := (turn_error_iff hs).mp (congrArg Prod.fst h)
    rw [exec_turn_of_unheard hs (Prod.ext hfault rfl)] at h
    cases h
    exact quiet_of_readSafely rfl
  cases hs : s.phase with
  | head => exact absurd hs hhead
  | attempt index step run identity => exact hexecutes (by rw [hs]; rfl)
  | returned index step output => exact absurd hs (hreturned index step output)
  | recorded index step output => exact hjudges (by rw [hs]; rfl)
  | triggered target step => exact hexecutes (by rw [hs]; rfl)
  | handedBack target step => exact hjudges (by rw [hs]; rfl)

end Conductor.Workflow
