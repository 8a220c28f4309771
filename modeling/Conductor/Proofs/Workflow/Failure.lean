import Conductor.Proofs.Run.Failure
import Conductor.Proofs.State.SignalFile
import Conductor.Proofs.Workflow.Trail
import Mathlib.Data.List.Basic

/-!
# What the failure of a step does to a run

A step is executed in its turn in the main sequence, in place of it as its fallback, or because it
was triggered.  In all three cases a cancelled call ends the run as cancelled, a failed call ends it
with the message of the failure, and a failed call that the step tolerates is noted in the messages,
where it stays, and the run goes on.  A run ends in a fault at an execution in two cases only: the
execution breaks off in a fault that is none of these, or the signal that a tolerated failure of the
main sequence has left is not heard (`failures_taken_in`).
-/

namespace Conductor.Workflow

open Act SignalWay

variable {f : Workflow} {w w₁ w' w₀ : World} {s : State} {owner run : Step} {identity : String}
  {n : Point} {trail : List Point} {e : Fault} {c : CallFailure} {o : Outcome}

/-- What the next turn executes: the step that may tolerate a failure, the step that is run and its
identity. -/
def Phase.executes? : Phase → Option (Step × Step × String)
  | attempt _ step run identity => some (step, run, identity)
  | triggered target step => some (step, step, target)
  | _ => none

/-- The next turn executes a step of the main sequence. -/
def Phase.attempts : Phase → Bool
  | attempt .. => true
  | _ => false

/-- The state after an execution that has returned. -/
def State.afterReturn (s : State) (output : String) : State :=
  match s.phase with
  | .attempt index step _ _ => { s with phase := .returned index step output }
  | .triggered target step => { s with phase := .handedBack target step }
  | _ => s

/-- Goes on after a failure that is tolerated. -/
def excuse (f : Workflow) (s : State) (owner : Step) (c : CallFailure) : Act Turn :=
  match s.phase with
  | .attempt index .. => do
    note .warning s!"{owner.agentName} failed; continuing (tolerant step): {c.message}"
      (placeDetails owner index)
    let _ ← f.signals.readSafely f.shop.dir
    return .next ⟨(s.cursor.release owner.agentId).advance,
      s.messages ++ [failureMessage owner c], .head⟩
  | .triggered target _ => do
    note .warning s!"Triggered step {owner.agentName} failed; continuing: {c.message}"
    return .next ⟨s.cursor.release target, s.messages ++ [failureMessage owner c], .head⟩
  | _ => return .next s

/-- Goes on after an execution. -/
def goOnAfter (f : Workflow) (s : State) (owner : Step) : Except Fault String → Act Turn
  | .ok output => return .next (s.afterReturn output)
  | .error (.cancelled _) => abort cancelledReason s.messages
  | .error (.failed c) =>
    if owner.tolerant then f.excuse s owner c else abort c.message s.messages
  | .error e => throw e

theorem goOnAfter_of_tolerant (h : owner.tolerant = true) :
    f.goOnAfter s owner (.error (.failed c)) = f.excuse s owner c := if_pos h

theorem goOnAfter_of_not_tolerant (h : owner.tolerant = false) :
    f.goOnAfter s owner (.error (.failed c)) = abort c.message s.messages :=
  if_neg (Bool.eq_false_iff.mp h)

/-! ### Turns that execute a step -/

/-- All turns that execute a step go on in one way after it. -/
theorem exec_turn_of_executes (hs : s.phase.executes? = some (owner, run, identity)) (w : World) :
    (f.turn s).exec w = (f.goOnAfter s owner ((f.shop.execute run identity none).exec w).1).exec
      ((f.shop.execute run identity none).exec w).2 := by
  obtain ⟨cursor, ms, phase⟩ := s
  cases phase with
  | attempt index step run' identity' =>
    cases hs
    show (f.atAttempt _ index owner run identity).exec w = _
    unfold atAttempt
    rw [exec_bind_of_ok (exec_attempt _ w)]
    rcases (f.shop.execute run identity none).exec w with ⟨(e | output), w₁⟩
    · cases e with
      | failed c =>
        unfold goOnAfter
        cases owner.tolerant <;> rfl
      | _ => rfl
    · rfl
  | triggered target step =>
    cases hs
    show (f.atTriggered _ identity owner).exec w = _
    unfold atTriggered
    rw [exec_bind_of_ok (exec_attempt _ w)]
    rcases (f.shop.execute owner identity none).exec w with ⟨(e | output), w₁⟩
    · cases e with
      | failed c =>
        unfold goOnAfter
        cases owner.tolerant <;> rfl
      | _ => rfl
    · rfl
  | _ => cases hs

/-- After a failure that is tolerated the failure is noted and the run goes on, unless a signal is
to be dropped that is not heard. -/
theorem exec_excuse_of_hears (hs : s.phase.executes? = some (owner, run, identity))
    (h : s.phase.attempts = true → Hears f.signals f.shop.dir w) (c : CallFailure) :
    ∃ s' w', (f.excuse s owner c).exec w = (.ok (.next s'), w') ∧ s'.phase = .head ∧
      s'.messages = s.messages ++ [failureMessage owner c] := by
  obtain ⟨cursor, ms, phase⟩ := s
  cases phase with
  | attempt index step run' identity' =>
    obtain ⟨signal, hsignal⟩ := h rfl
    unfold excuse
    dsimp only
    unfold note
    rw [exec_note_bind]
    rw [← fst_exec_readSafely_withLog] at hsignal
    exact ⟨_, _, exec_bind_of_ok (Prod.ext hsignal rfl), rfl, rfl⟩
  | triggered target step =>
    exact ⟨_, _, exec_note_bind .., rfl, rfl⟩
  | _ => cases hs

/-- Tolerating a failure ends in a fault iff the signal that it has left is not heard. -/
theorem excuse_eq_error_iff (hs : s.phase.executes? = some (owner, run, identity)) :
    ((f.excuse s owner c).exec w).1 = .error e ↔
      s.phase.attempts = true ∧ ((f.signals.readSafely f.shop.dir).exec w).1 = .error e := by
  obtain ⟨cursor, ms, phase⟩ := s
  cases phase with
  | attempt index step run' identity' =>
    unfold excuse
    dsimp only
    unfold note
    rw [exec_note_bind, exec_bind_eq_error_iff, fst_exec_readSafely_withLog]
    simp only [Phase.attempts, true_and]
    refine or_iff_left ?_
    rintro ⟨_, _, -, h⟩
    cases h
  | triggered target step =>
    refine iff_of_false ?_ fun h => Bool.false_ne_true h.1
    unfold excuse
    dsimp only
    unfold note
    rw [exec_note_bind]
    exact nofun
  | _ => cases hs

/-! ### Messages -/

/-- Messages are added at the end. -/
theorem Takes.messages_prefix {s' : State} (h : Takes f w s (.next s') w') :
    s.messages <+: s'.messages := by
  cases h with
  | tolerated _ _ _ => exact List.prefix_append _ _
  | triggeredTolerated _ _ => exact List.prefix_append _ _
  | @wentOn c ms _ index step output signal _ _ _ _ =>
    unfold settledMessages
    dsimp only
    split
    · split
      · split
        · exact List.prefix_append _ _
        · exact List.prefix_rfl
      · exact List.prefix_rfl
    · exact List.prefix_rfl
  | _ => exact List.prefix_rfl

/-- A run ends with the messages of its last state. -/
theorem Takes.messages_eq (h : Takes f w s (.done o) w') : o.messages = s.messages := by
  cases h <;> rfl

/-- What was noted in the messages stays there. -/
theorem Trail.messages_prefix (newer : List Point) (ht : Trail f w₀ (newer ++ n :: trail)) :
    ∀ p ∈ newer, n.2.messages <+: p.2.messages := by
  induction newer with
  | nil => exact List.forall_mem_nil _
  | cons q newer ih =>
    cases newer with
    | nil => exact List.forall_mem_singleton.mpr ht.takes.messages_prefix
    | cons r newer =>
      have hrest := ih ht.tail
      have hr : n.2.messages <+: r.2.messages := hrest r (List.mem_cons_self ..)
      exact List.forall_mem_cons.mpr ⟨hr.trans ht.takes.messages_prefix, hrest⟩

theorem Ends.messages_prefix (newer : List Point) (h : Ends f w₀ (newer ++ n :: trail) o w') :
    n.2.messages <+: o.messages := by
  cases newer with
  | nil =>
    cases h with
    | intro _ hturn => exact (takes_of_turn hturn).messages_eq ▸ List.prefix_rfl
  | cons p newer =>
    obtain ⟨v, r⟩ := p
    cases h with
    | intro ht hturn =>
      have hlast := ht.messages_prefix (_ :: newer) (v, r) (List.mem_cons_self ..)
      exact (takes_of_turn hturn).messages_eq ▸ hlast

/-! ### Failures -/

/-- A turn that executes a step ends in a fault iff the execution breaks off in it or the signal
that is to be dropped after a tolerated failure is not heard. -/
theorem exec_turn_eq_error_iff (hs : s.phase.executes? = some (owner, run, identity)) :
    ((f.turn s).exec w).1 = .error e ↔ f.shop.Breaks run identity w e ∨
      (owner.tolerant = true ∧ s.phase.attempts = true ∧
        (∃ c, f.shop.Fails run identity w (.failed c)) ∧
        ((f.signals.readSafely f.shop.dir).exec
          ((f.shop.execute run identity none).exec w).2).1 = .error e) := by
  rw [exec_turn_of_executes hs]
  constructor
  · intro h
    rcases hx : ((f.shop.execute run identity none).exec w).1 with e' | output
    · rw [hx] at h
      rcases Workshop.fails_or_breaks hx with hf | hb
      · cases e' with
        | failed c =>
          cases ht : owner.tolerant with
          | true =>
            rw [goOnAfter_of_tolerant ht, excuse_eq_error_iff hs] at h
            exact .inr ⟨rfl, h.1, ⟨c, hf⟩, h.2⟩
          | false =>
            rw [goOnAfter_of_not_tolerant ht] at h
            cases h
        | cancelled c => cases h
        | _ => cases hf.isHeld
      · cases e' with
        | failed c => cases hb.not_isHeld
        | cancelled c => cases hb.not_isHeld
        | _ =>
          cases h
          exact .inl hb
    · rw [hx] at h
      cases h
  · rintro (hb | ⟨ht, ha, ⟨c, hc⟩, hr⟩)
    · rw [hb.execute_eq_error]
      have hh := hb.not_isHeld
      cases e <;> first | rfl | cases hh
    · rw [hc.execute_eq_error, goOnAfter_of_tolerant ht]
      exact (excuse_eq_error_iff hs).mpr ⟨ha, hr⟩

/-- A cancelled call ends the run as cancelled. -/
theorem Trail.ends_of_cancelled (ht : Trail f w₀ ((w, s) :: trail))
    (hs : s.phase.executes? = some (owner, run, identity))
    (hc : f.shop.Fails run identity w (.cancelled c)) :
    ∃ w', Ends f w₀ ((w, s) :: trail) (aborted cancelledReason s.messages) w' := by
  have hturn := exec_turn_of_executes (f := f) hs w
  rw [hc.execute_eq_error] at hturn
  obtain ⟨log, h⟩ := exec_abort cancelledReason s.messages
    ((f.shop.execute run identity none).exec w).2
  exact ⟨_, .intro ht (hturn.trans h)⟩

/-- A failed call that is not tolerated ends the run with the message of the failure. -/
theorem Trail.ends_of_failed (ht : Trail f w₀ ((w, s) :: trail))
    (hs : s.phase.executes? = some (owner, run, identity))
    (hc : f.shop.Fails run identity w (.failed c)) (htol : owner.tolerant = false) :
    ∃ w', Ends f w₀ ((w, s) :: trail) (aborted c.message s.messages) w' := by
  have hturn := exec_turn_of_executes (f := f) hs w
  rw [hc.execute_eq_error, goOnAfter_of_not_tolerant htol] at hturn
  obtain ⟨log, h⟩ := exec_abort c.message s.messages
    ((f.shop.execute run identity none).exec w).2
  exact ⟨_, .intro ht (hturn.trans h)⟩

/-- After a failed call that is tolerated the run goes on with the failure in its messages, unless a
signal is to be dropped that is not heard. -/
theorem Trail.next_of_tolerated (ht : Trail f w₀ ((w, s) :: trail))
    (hs : s.phase.executes? = some (owner, run, identity))
    (hc : f.shop.Fails run identity w (.failed c)) (htol : owner.tolerant = true)
    (hears : s.phase.attempts = true →
      Hears f.signals f.shop.dir ((f.shop.execute run identity none).exec w).2) :
    ∃ n, Trail f w₀ (n :: (w, s) :: trail) ∧ n.2.phase = .head ∧
      n.2.messages = s.messages ++ [failureMessage owner c] := by
  have hturn := exec_turn_of_executes (f := f) hs w
  rw [hc.execute_eq_error, goOnAfter_of_tolerant htol] at hturn
  obtain ⟨s', w', hx, hhead, hms⟩ := exec_excuse_of_hears hs hears c
  exact ⟨(w', s'), .next ht (hturn.trans hx), hhead, hms⟩

/-- No failure of a step escapes a run: where an execution fails, the run comes to an outcome. -/
def TakesFailuresIn (f : Workflow) (w₀ : World) : Prop :=
  ∀ w s trail owner run identity e, Trail f w₀ ((w, s) :: trail) →
    s.phase.executes? = some (owner, run, identity) →
    ((f.shop.execute run identity none).exec w).1 = .error e →
    ∃ o, (f.run.exec w₀).1 = .ok o

/-- A step whose name calls it a builder. -/
def buildStep : Step :=
  { agentId := "site", agentName := "Site Builder", promptPath := "site.md" }

/-- A single step that needs the scaffold directories. -/
def building : Workflow :=
  { steps := [buildStep]
    shop :=
      { engine := fun w _ => { store := w.store, result := .ok "built" }
        dir := ⟨.slash, ["work"]⟩
        stateDir := ⟨.none, ["state"]⟩
        loader := fun _ _ _ => .ok "prompt" }
    signals := .mailbox }

/-- A file stands where a scaffold directory belongs. -/
def cluttered : World :=
  { store :=
      { entries :=
          [(["work"], .directory), (["work", "state"], .directory),
           (["work", "state", "agents"], .file [] 1)]
        clock := 2 }
    cwd := ⟨.slash, []⟩ }

/-- The directory cannot be made, and the run ends in that fault. -/
theorem not_takesFailuresIn_building : ¬ TakesFailuresIn building cluttered := by
  intro h
  have ht : Trail building cluttered (building.points cluttered 1) :=
    trail_points (List.ne_nil_of_length_pos (by decide +kernel))
  have hlen : ((building.points cluttered 1).drop 1).length = 1 := by decide +kernel
  have hphase : ((building.points cluttered 1).getD 0 default).2.phase
      = .attempt 0 buildStep buildStep "site" := by decide +kernel
  have hx : ((building.shop.execute buildStep "site" none).exec
      ((building.points cluttered 1).getD 0 default).1).1
        = .error (.file ⟨.alreadyThere, "/work/state/agents"⟩) := by decide +kernel
  obtain ⟨⟨w, s⟩, trail, hpoints⟩ := List.exists_cons_of_ne_nil ht.ne_nil
  rw [hpoints] at ht hlen hphase hx
  simp only [List.getD_cons_zero, List.drop_succ_cons, List.drop_zero] at hlen hphase hx
  have hs : s.phase.executes? = some (buildStep, buildStep, "site") := by
    rw [hphase]
    rfl
  obtain ⟨o, ho⟩ := h w s trail _ _ _ _ ht hs hx
  have hbreaks : ((building.turn s).exec w).1
      = .error (.file ⟨.alreadyThere, "/work/state/agents"⟩) := by
    rw [exec_turn_of_executes hs, hx]
    rfl
  have hfuel : trail.length < building.maxTurns := by
    rw [hlen]
    exact Nat.lt_of_lt_of_le (by decide) (Nat.le_max_left _ _)
  cases (run_eq_error_of_turn ht hfuel hbreaks).symm.trans ho

/-- A run ends in a fault only where its fuel is used up, it cannot start or a turn ends in the
fault.  At every execution of a step, whatever fails: a cancelled call ends the run as cancelled, a
failed call that is not tolerated ends it with the message of the failure, and one that is tolerated
is noted in the messages for good and the run goes on.  The turn ends in a fault iff the execution
breaks off in it or the signal that is to be dropped after a tolerated failure is not heard. -/
theorem failures_taken_in (f : Workflow) (w₀ : World) :
    (∀ e, (f.run.exec w₀).1 = .error e → e = .endless ∨ (f.start.exec w₀).1 = .error e ∨
      ∃ w s trail, Trail f w₀ ((w, s) :: trail) ∧ ((f.turn s).exec w).1 = .error e) ∧
    ∀ w s trail owner run identity, Trail f w₀ ((w, s) :: trail) →
      s.phase.executes? = some (owner, run, identity) →
      (∀ e, ((f.shop.execute run identity none).exec w).1 = .error e ↔
        f.shop.Fails run identity w e ∨ f.shop.Breaks run identity w e) ∧
      (∀ e, f.shop.Fails run identity w e → ∃ c, e = .failed c ∨ e = .cancelled c) ∧
      (∀ c, f.shop.Fails run identity w (.cancelled c) →
        ∃ w', Ends f w₀ ((w, s) :: trail) (aborted cancelledReason s.messages) w') ∧
      (∀ c, f.shop.Fails run identity w (.failed c) → owner.tolerant = false →
        ∃ w', Ends f w₀ ((w, s) :: trail) (aborted c.message s.messages) w') ∧
      (∀ c, f.shop.Fails run identity w (.failed c) → owner.tolerant = true →
        (s.phase.attempts = true →
          Hears f.signals f.shop.dir ((f.shop.execute run identity none).exec w).2) →
        ∃ n, Trail f w₀ (n :: (w, s) :: trail) ∧ n.2.phase = .head ∧
          n.2.messages = s.messages ++ [failureMessage owner c] ∧
          ∀ newer o w', Ends f w₀ (newer ++ n :: (w, s) :: trail) o w' →
            failureMessage owner c ∈ o.messages) ∧
      ∀ e, ((f.turn s).exec w).1 = .error e ↔ f.shop.Breaks run identity w e ∨
        (owner.tolerant = true ∧ s.phase.attempts = true ∧
          (∃ c, f.shop.Fails run identity w (.failed c)) ∧
          ((f.signals.readSafely f.shop.dir).exec
            ((f.shop.execute run identity none).exec w).2).1 = .error e) := by
  refine ⟨fun e h => exists_turn_of_run h, fun w s trail owner run identity ht hs =>
    ⟨fun e => Workshop.execute_eq_error_iff, fun e he => Fault.isHeld_iff.mp he.isHeld,
      fun c hc => ht.ends_of_cancelled hs hc, fun c hc htol => ht.ends_of_failed hs hc htol,
      fun c hc htol hears => ?_, fun e => exec_turn_eq_error_iff hs⟩⟩
  obtain ⟨n, hn, hhead, hms⟩ := ht.next_of_tolerated hs hc htol hears
  refine ⟨n, hn, hhead, hms, fun newer o w' h => ?_⟩
  have hprefix : n.2.messages <+: o.messages := h.messages_prefix newer
  rw [hms] at hprefix
  exact hprefix.subset (List.mem_append_right _ (List.mem_singleton_self _))

/-- A single step whose failures are tolerated. -/
def excusedStep : Step :=
  { agentId := "note", agentName := "Note", promptPath := "note.md", tolerant := true }

/-- The agent of the step reports something that is none of the program's own. -/
def excusing : Workflow :=
  { steps := [excusedStep]
    shop :=
      { engine := fun w _ => { store := w.store, result := .error (.foreign "boom") }
        dir := ⟨.slash, ["work"]⟩
        stateDir := ⟨.none, ["state"]⟩
        loader := fun _ _ _ => .ok "prompt" }
    signals := .mailbox }

/-- The failure is noted and the run goes on. -/
theorem excusing_goes_on :
    ∃ n, Trail excusing default (n :: excusing.points default 1) ∧ n.2.phase = .head ∧
      n.2.messages = ["Note failed: Note failed: boom"] := by
  have ht : Trail excusing default (excusing.points default 1) :=
    trail_points (List.ne_nil_of_length_pos (by decide +kernel))
  have hphase : ((excusing.points default 1).getD 0 default).2.phase
      = .attempt 0 excusedStep excusedStep "note" := by decide +kernel
  have hnone : ((excusing.points default 1).getD 0 default).2.messages = [] := by decide +kernel
  have hx : ((excusing.shop.execute excusedStep "note" none).exec
      ((excusing.points default 1).getD 0 default).1).1
        = .error (.failed { message := "Note failed: boom", agentId := some "note" }) := by
    decide +kernel
  obtain ⟨⟨w, s⟩, trail, hpoints⟩ := List.exists_cons_of_ne_nil ht.ne_nil
  rw [hpoints] at ht hphase hnone hx ⊢
  simp only [List.getD_cons_zero] at hphase hnone hx
  have hs : s.phase.executes? = some (excusedStep, excusedStep, "note") := by
    rw [hphase]
    rfl
  obtain ⟨hfault, -, -, -, hexcused, -⟩ := (failures_taken_in excusing default).2 _ _ _ _ _ _ ht hs
  rcases (hfault _).mp hx with hfails | hbreaks
  · obtain ⟨n, hn, hhead, hms, -⟩ := hexcused _ hfails rfl fun _ => ⟨_, rfl⟩
    refine ⟨n, hn, hhead, ?_⟩
    rw [hms, hnone]
    rfl
  · cases hbreaks.not_isHeld

end Conductor.Workflow
