import Conductor.Proofs.Json.RoundTrip
import Conductor.Proofs.Verdict
import Conductor.Proofs.Workflow.Failure

/-!
# What the signal file can do to a run

A run reads the signal file in three places: after a step of the main sequence, after a triggered
step and after a failure of the main sequence that is tolerated.  In each of them the turn goes on
unless the file is not heard, which ends the run in a fault, or tells a checkpoint after a step that
has not failed, which stops it (`only_checkpoints_stop`).  What the file cannot be heard for is
listed by `SignalWay.Unheard`; whatever else it holds changes at most how the run goes on.
-/

namespace Conductor.Workflow

open Act SignalWay

variable {f : Workflow} {w w₁ w' : World} {s : State} {step : Step} {signal : Option Signal}
  {e : Fault} {o : Outcome}

/-- The step whose signal the next turn reads to judge it. -/
def Phase.judged? : Phase → Option Step
  | recorded _ step _ => some step
  | handedBack _ step => some step
  | _ => none

/-! ### Turns that read a signal -/

/-- A turn whose signal is not heard ends in the fault of reading it. -/
theorem exec_turn_of_unheard (hs : s.phase.judged? = some step)
    (hr : (f.signals.readSafely f.shop.dir).exec w = (.error e, w₁)) :
    (f.turn s).exec w = (.error e, w₁) := by
  obtain ⟨c, ms, phase⟩ := s
  cases phase with
  | recorded index step output =>
    show (f.atRecorded _ index step output).exec w = _
    unfold atRecorded
    rw [exec_bind, hr]
  | handedBack id step =>
    show (f.atHandedBack _ id step).exec w = _
    unfold atHandedBack
    rw [exec_bind, hr]
  | _ => cases hs

/-- A turn that has read its signal ends in no fault. -/
theorem exec_turn_of_heard (hs : s.phase.judged? = some step)
    (hr : (f.signals.readSafely f.shop.dir).exec w = (.ok signal, w₁)) :
    ∃ t w', (f.turn s).exec w = (.ok t, w') := by
  obtain ⟨c, ms, phase⟩ := s
  cases phase with
  | recorded index step output =>
    obtain ⟨log, hf⟩ := exec_atRecorded ⟨c, ms, .recorded index step output⟩ index step output hr
    obtain ⟨t, w', hfollow, -⟩ := exec_follow c ms index step output hr log
    exact ⟨t, w', hf.trans hfollow⟩
  | handedBack id step =>
    show ∃ t w', (f.atHandedBack _ id step).exec w = (.ok t, w')
    unfold atHandedBack
    rw [exec_bind_of_ok hr]
    cases signal with
    | none => exact ⟨_, _, rfl⟩
    | some signal =>
      dsimp only
      split
      · obtain ⟨log, h⟩ := exec_stopAt step signal.reason ms w₁
        exact ⟨_, _, h⟩
      · exact ⟨_, _, exec_note_bind ..⟩
  | _ => cases hs

/-- A transition that judges a step ends the run iff the signal that was read is a checkpoint. -/
theorem Takes.done_iff {t : Turn} (h : Takes f w s t w') (hs : s.phase.judged? = some step)
    (hr : (f.signals.readSafely f.shop.dir).exec w = (.ok signal, w₁)) :
    t = .done o ↔ ∃ r, signal = some r ∧ r.action = .checkpoint ∧
      o = Workflow.stopped step r.reason s.messages := by
  -- Where the verdict does not stop the run, the signal is no checkpoint.
  have hgoes : ∀ {c : Cursor} {step : Step} {index : Nat} {output : String},
      (verdict c step index output signal).checkpoint = none →
      ∀ r, signal = some r → r.action ≠ .checkpoint := by
    rintro c step index output hv r rfl ha
    have hstops := checkpointDecision_eq_some_iff.mpr ⟨r, rfl, ha, rfl⟩
    cases hstops.symm.trans ((checkpoint_evaluate ..).symm.trans hv)
  cases h with
  | stopped hr' hv =>
    cases hs
    cases hr.symm.trans hr'
    obtain ⟨r, rfl, ha, rfl⟩ :=
      checkpointDecision_eq_some_iff.mp ((checkpoint_evaluate ..).symm.trans hv)
    constructor
    · rintro ⟨⟩
      exact ⟨r, rfl, ha, rfl⟩
    · rintro ⟨_, ⟨⟩, -, rfl⟩
      rfl
  | loopedBack hr' hv =>
    cases hr.symm.trans hr'
    exact iff_of_false nofun fun ⟨r, hsignal, ha, _⟩ => hgoes hv r hsignal ha
  | wentOn hr' hv =>
    cases hr.symm.trans hr'
    exact iff_of_false nofun fun ⟨r, hsignal, ha, _⟩ => hgoes hv r hsignal ha
  | triggeredStopped hr' ha =>
    cases hs
    cases hr.symm.trans hr'
    constructor
    · rintro ⟨⟩
      exact ⟨_, rfl, ha, rfl⟩
    · rintro ⟨_, ⟨⟩, -, rfl⟩
      rfl
  | handedBack hr' hn =>
    cases hr.symm.trans hr'
    exact iff_of_false nofun fun ⟨r, hsignal, ha, _⟩ => hn r hsignal ha
  | _ => cases hs

/-- A turn that judges a step ends the run iff the signal it reads is a checkpoint. -/
theorem turn_done_iff (hs : s.phase.judged? = some step) :
    ((f.turn s).exec w).1 = .ok (.done o) ↔
      ∃ signal, ((f.signals.readSafely f.shop.dir).exec w).1 = .ok (some signal) ∧
        signal.action = .checkpoint ∧ o = stopped step signal.reason s.messages := by
  rcases hr : (f.signals.readSafely f.shop.dir).exec w with ⟨(e | signal), w₁⟩
  · rw [exec_turn_of_unheard hs hr]
    exact iff_of_false nofun fun ⟨_, h, _⟩ => nomatch h
  · obtain ⟨t, w', hturn⟩ := exec_turn_of_heard hs hr
    rw [hturn]
    dsimp only
    rw [Except.ok.injEq, (takes_of_turn hturn).done_iff hs hr]
    simp only [Except.ok.injEq]

/-- A turn that judges a step ends in a fault iff reading the signal does. -/
theorem turn_error_iff (hs : s.phase.judged? = some step) :
    ((f.turn s).exec w).1 = .error e ↔
      ((f.signals.readSafely f.shop.dir).exec w).1 = .error e := by
  rcases hr : (f.signals.readSafely f.shop.dir).exec w with ⟨(e' | signal), w₁⟩
  · rw [exec_turn_of_unheard hs hr]
    dsimp only
    rw [Except.error.injEq, Except.error.injEq]
  · obtain ⟨t, w', hturn⟩ := exec_turn_of_heard hs hr
    rw [hturn]
    exact iff_of_false nofun nofun

/-- The turn goes on to the head of the next round. -/
def GoesOn (f : Workflow) (w : World) (s : State) : Prop :=
  ∃ s', ((f.turn s).exec w).1 = .ok (.next s') ∧ s'.phase = .head

/-- A turn that judges a step and reads no checkpoint goes on to the next round. -/
theorem goesOn_of_judged (hs : s.phase.judged? = some step)
    (hears : Hears f.signals f.shop.dir w)
    (hno : ∀ signal, ((f.signals.readSafely f.shop.dir).exec w).1 = .ok (some signal) →
      signal.action ≠ .checkpoint) : GoesOn f w s := by
  obtain ⟨signal, h⟩ := hears
  obtain ⟨t, w', hturn⟩ := exec_turn_of_heard hs (Prod.ext h rfl)
  cases t with
  | done o =>
    obtain ⟨signal, hsignal, ha, -⟩ := (turn_done_iff hs).mp (congrArg Prod.fst hturn)
    exact absurd ha (hno signal hsignal)
  | next s' =>
    refine ⟨s', congrArg Prod.fst hturn, ?_⟩
    cases takes_of_turn hturn with
    | loopedBack => rfl
    | wentOn => rfl
    | handedBack => rfl
    | _ => cases hs

/-! ### Turns that drop a signal -/

section

variable {run : Step} {identity : String} {failure : CallFailure}

theorem exec_turn_of_tolerated (hs : s.phase.executes? = some (step, run, identity))
    (ht : step.tolerant = true)
    (hx : (f.shop.execute run identity none).exec w = (.error (.failed failure), w₁)) :
    (f.turn s).exec w = (f.excuse s step failure).exec w₁ := by
  rw [exec_turn_of_executes hs, hx, goOnAfter_of_tolerant ht]

/-- A turn that tolerates a failure in the main sequence ends in a fault iff reading the signal
that is dropped does. -/
theorem turn_error_iff_of_tolerated (hs : s.phase.executes? = some (step, run, identity))
    (ha : s.phase.attempts = true) (ht : step.tolerant = true)
    (hx : (f.shop.execute run identity none).exec w = (.error (.failed failure), w₁)) :
    ((f.turn s).exec w).1 = .error e ↔
      ((f.signals.readSafely f.shop.dir).exec w₁).1 = .error e := by
  rw [exec_turn_of_tolerated hs ht hx, excuse_eq_error_iff hs]
  exact and_iff_right ha

/-- A turn that tolerates a failure goes on to the next round, whatever signal is dropped. -/
theorem goesOn_of_tolerated (hs : s.phase.executes? = some (step, run, identity))
    (ht : step.tolerant = true)
    (hx : (f.shop.execute run identity none).exec w = (.error (.failed failure), w₁))
    (hears : Hears f.signals f.shop.dir w₁) : GoesOn f w s := by
  obtain ⟨s', w', hexcuse, hhead, -⟩ := exec_excuse_of_hears hs (fun _ => hears) failure
  exact ⟨s', congrArg Prod.fst ((exec_turn_of_tolerated hs ht hx).trans hexcuse), hhead⟩

end

/-! ### The signal file -/

/-- A step that takes notes. -/
def noteStep : Step := { agentId := "note", agentName := "Note", promptPath := "note.md" }

/-- A single step, whose agent leaves its signal in a file. -/
def noting : Workflow :=
  { steps := [noteStep]
    shop :=
      { engine := fun w _ => { store := w.store, result := .ok "done" }
        dir := ⟨.slash, ["work"]⟩
        stateDir := ⟨.none, ["state"]⟩
        loader := fun _ _ _ => .ok "prompt" }
    signals := .file ⟨.none, ["state"]⟩ }

/-- The signal file of the notes. -/
def noteSignal : Path := signalFile ⟨.none, ["state"]⟩ ⟨.slash, ["work"]⟩

/-- A world in which the signal file of the notes holds some bytes. -/
def holding (content : List UInt8) : World :=
  { store :=
      { entries :=
          [(["work"], .directory), (["work", "state"], .directory),
           (["work", "state", "memory"], .directory),
           (["work", "state", "memory", "behavior.json"], .file content 1)]
        clock := 2 }
    cwd := ⟨.slash, []⟩ }

theorem stat_holding (content : List UInt8) :
    (holding content).store.stat (holding content).cwd noteSignal
      = .ok (["work", "state", "memory", "behavior.json"], .file content 1) := by
  rfl

/-- A byte that begins no character is not heard. -/
theorem unheard_holding : Unheard noteSignal (holding [0xFF])
    (.read (.undecodable ⟨0, [0xFF], .start⟩)) := by
  refine .undecodable (by decide) (stat_holding _) ?_
  simp [Store.textOf, Text.Utf8.decode, Text.Utf8.pieces, Text.Utf8.piece, Text.Utf8.lead?,
    Text.Utf8.strict, Except.map]

theorem not_hears_undecodable :
    ¬ ∀ w, Hears (.file ⟨.none, ["state"]⟩) ⟨.slash, ["work"]⟩ w := by
  intro h
  obtain ⟨signal, hsignal⟩ := h (holding [0xFF])
  have hfault := readSafely_eq_error_iff.mpr unheard_holding
  cases hfault.symm.trans hsignal

/-- Whatever the signal file holds, reading it ends in a fault iff the file is not heard, and yields
a signal iff the file tells it.  A turn that judges a step by the file ends in a fault iff the file
is not heard, ends the run iff the file tells a checkpoint, and goes on to the next round in all
other cases.  A turn that tolerates a failure drops what the file tells and goes on unless the file
is not heard. -/
theorem only_checkpoints_stop {stateDir : Path} (hf : f.signals = .file stateDir) (w : World) :
    (∀ e, ((f.signals.readSafely f.shop.dir).exec w).1 = .error e ↔
      Unheard (signalFile stateDir f.shop.dir) w e) ∧
    (∀ signal, ((f.signals.readSafely f.shop.dir).exec w).1 = .ok (some signal) ↔
      Tells (signalFile stateDir f.shop.dir) w signal) ∧
    (∀ s step, s.phase.judged? = some step →
      (∀ e, ((f.turn s).exec w).1 = .error e ↔ Unheard (signalFile stateDir f.shop.dir) w e) ∧
      (∀ o, ((f.turn s).exec w).1 = .ok (.done o) ↔
        ∃ signal, Tells (signalFile stateDir f.shop.dir) w signal ∧
          signal.action = .checkpoint ∧ o = stopped step signal.reason s.messages) ∧
      ((∀ e, ¬ Unheard (signalFile stateDir f.shop.dir) w e) →
        (∀ signal, Tells (signalFile stateDir f.shop.dir) w signal →
          signal.action ≠ .checkpoint) → GoesOn f w s)) ∧
    ∀ s index step run identity failure w₁, s.phase = .attempt index step run identity →
      step.tolerant = true →
      (f.shop.execute run identity none).exec w = (.error (.failed failure), w₁) →
      (∀ e, ((f.turn s).exec w).1 = .error e ↔ Unheard (signalFile stateDir f.shop.dir) w₁ e) ∧
      ((∀ e, ¬ Unheard (signalFile stateDir f.shop.dir) w₁ e) → GoesOn f w s) := by
  have hfault : ∀ w e, ((f.signals.readSafely f.shop.dir).exec w).1 = .error e ↔
      Unheard (signalFile stateDir f.shop.dir) w e := by
    intro w e
    rw [hf]
    exact readSafely_eq_error_iff
  have htold : ∀ signal, ((f.signals.readSafely f.shop.dir).exec w).1 = .ok (some signal) ↔
      Tells (signalFile stateDir f.shop.dir) w signal := by
    intro signal
    rw [hf]
    exact readSafely_eq_some_iff
  have hears : ∀ w, (∀ e, ¬ Unheard (signalFile stateDir f.shop.dir) w e) →
      Hears f.signals f.shop.dir w :=
    fun w h => hears_of_ne_error fun e he => h e ((hfault w e).mp he)
  refine ⟨hfault w, htold, ?_, ?_⟩
  · intro s step hs
    refine ⟨fun e => (turn_error_iff hs).trans (hfault w e), fun o => ?_, fun hu hno => ?_⟩
    · rw [turn_done_iff hs]
      simp only [htold]
    · exact goesOn_of_judged hs (hears w hu) fun signal h => hno signal ((htold signal).mp h)
  · intro s index step run identity failure w₁ hphase ht hx
    have hs : s.phase.executes? = some (step, run, identity) := by rw [hphase]; rfl
    have ha : s.phase.attempts = true := by rw [hphase]; rfl
    exact ⟨fun e => (turn_error_iff_of_tolerated hs ha ht hx).trans (hfault w₁ e),
      fun hu => goesOn_of_tolerated hs ht hx (hears w₁ hu)⟩

/-- A checkpoint with a reason. -/
def enough : Signal := ⟨.checkpoint, some "enough", none⟩

/-- The signal file of a checkpoint. -/
def enoughText : String := (Json.obj enough.toMembers).document

theorem tells_enough :
    Tells noteSignal (holding (Text.Utf8.encodeText enoughText)) enough := by
  have hreadable : Json.Readable Json.maxDepth (.obj enough.toMembers) := by
    refine .obj (by decide) (by decide) fun m hm => ?_
    simp only [enough, Signal.toMembers, Action.word, Option.map_some, Option.map_none,
      Option.toList_some, Option.toList_none, List.mem_cons, List.append_nil,
      List.not_mem_nil, or_false] at hm
    rcases hm with rfl | rfl <;> exact .str (by decide)
  refine ⟨enoughText, ⟨by decide, _, _, _, stat_holding _, ?_, by decide⟩, ?_, ?_⟩
  · exact Store.textOf_encodeText hreadable.not_mem_document
  · decide +kernel
  · exact ⟨_, Json.read_document hreadable, by rfl⟩

/-- The checkpoint stops the run, and the byte that begins no character ends it in a fault. -/
theorem noting_stops :
    ((noting.turn ⟨{}, [], .recorded 0 noteStep "done"⟩).exec
        (holding (Text.Utf8.encodeText enoughText))).1
      = .ok (.done (stopped noteStep (some "enough") [])) ∧
    ((noting.turn ⟨{}, [], .recorded 0 noteStep "done"⟩).exec (holding [0xFF])).1
      = .error (.read (.undecodable ⟨0, [0xFF], .start⟩)) := by
  obtain ⟨-, -, hstops, -⟩ :=
    only_checkpoints_stop (f := noting) rfl (holding (Text.Utf8.encodeText enoughText))
  obtain ⟨-, -, hfails, -⟩ := only_checkpoints_stop (f := noting) rfl (holding [0xFF])
  exact ⟨((hstops _ _ rfl).2.1 _).mpr ⟨enough, tells_enough, rfl, rfl⟩,
    ((hfails _ _ rfl).1 _).mpr unheard_holding⟩

end Conductor.Workflow
