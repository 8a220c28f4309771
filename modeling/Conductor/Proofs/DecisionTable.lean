import Conductor.Proofs.Verdict
import Mathlib.Logic.Basic

/-!
# The decision table of verdicts

What a verdict asks for, told from the behavior of the step, the last word of its output, its signal
and the number of repetitions.  Main statement: a verdict is the one that the table gives
(`Verdict.Tabled`), so one more repetition never brings a loop to repeat, and outputs that end with
the same word have the same verdict (`evaluate_tabled`).

Each evaluator is taken alone first.  What is decided on a loop is read off its row
(`any_loop_evaluate_iff`), and a trigger runs the step that the signal or else the behavior names
(`triggerDecision_iff`).  A checkpoint comes before both, but it takes nothing from a
trigger, whose signal is another one, and neither does a loop, whose behavior is another one
(`trigger_evaluate`).
-/

namespace Conductor

open Output

/-! ### The table -/

/-- All that brings a step to step back but for the limit: its behavior is an active loop, the
signal neither is a checkpoint nor stops the loop, and the output or the signal asks for it. -/
structure SendsBack (behavior : Option Behavior) (output : String) (signal : Option Signal)
    (l : LoopBehavior) : Prop where
  behavior : behavior = some (.loop l)
  active : l.isActive = true
  notCheckpoint : ¬ Says signal .checkpoint
  notStop : ¬ Says signal .stop
  recalls : Recalls l output signal

/-- The step that a trigger names: the signal's, and where that names none the behavior's own. -/
inductive NamesTarget (own : Option String) (s : Signal) : String → Prop
  | signal {t} (ht : s.target = some t) (hne : t ≠ "") : NamesTarget own s t
  | behavior {t} (hnone : ∀ t, s.target = some t → t = "") (ht : own = some t) (hne : t ≠ "") :
    NamesTarget own s t

/-- A verdict as the table gives it. -/
structure Verdict.Tabled (v : Verdict) (behavior : Option Behavior) (output : String)
    (signal : Option Signal) (n : Int) : Prop where
  stops : ∀ reason, v.checkpoint = some reason ↔
    ∃ s, signal = some s ∧ s.action = .checkpoint ∧ s.reason = reason
  repeats : v.loop.any (·.repeats) = true ↔
    ∃ l, SendsBack behavior output signal l ∧ ∀ m, l.maxIterations = some m → n < m
  limitReached : v.loop.any (·.limitReached) = true ↔
    ∃ l, SendsBack behavior output signal l ∧ ∃ m, l.maxIterations = some m ∧ m ≤ n
  triggers : ∀ t, v.trigger = some t ↔ ∃ own s, behavior = some (.trigger own) ∧ signal = some s ∧
    s.action = .trigger ∧ NamesTarget own s t.target ∧ t.reason = s.reason
  stopsAlone : v.checkpoint.isSome = true → v.loop.any (·.repeats) = false ∧ v.trigger = none
  repeatsAlone : v.loop.any (·.repeats) = true → v.trigger = none

variable {behavior : Option Behavior} {output : String} {signal : Option Signal} {n : Int}
  {d : LoopDecision} {t : TriggerDecision} {own : Option String} {s : Signal}

/-! ### Loops -/

theorem exists_loop_of_loopDecision (h : loopDecision behavior output n signal = some d) :
    ∃ l, behavior = some (.loop l) ∧ l.isActive = true := by
  unfold loopDecision at h
  split at h
  · next l =>
    split at h
    · cases h
    · next ha => exact ⟨l, rfl, by simpa using ha⟩
  · cases h

/-- A verdict decides on a loop what its row says, unless a checkpoint comes first. -/
theorem any_loop_evaluate_iff {P : LoopDecision → Bool} {Q : LoopBehavior → Prop}
    (hrow : ∀ {l d}, LoopRow l output signal n d →
      (P d = true ↔ ¬ Says signal .stop ∧ Recalls l output signal ∧ Q l)) :
    (evaluate behavior output signal n).1.loop.any P = true ↔
      ∃ l, SendsBack behavior output signal l ∧ Q l := by
  rw [loop_evaluate, checkpoint_evaluate]
  cases hc : checkpointDecision signal with
  | some reason =>
    obtain ⟨s, hs, haction, -⟩ := checkpointDecision_eq_some_iff.mp hc
    refine iff_of_false Bool.false_ne_true ?_
    rintro ⟨l, hl, -⟩
    exact hl.notCheckpoint ⟨s, hs, haction⟩
  | none =>
    have hnot : ¬ Says signal .checkpoint := by
      rintro ⟨s, hs, haction⟩
      cases hc.symm.trans (checkpointDecision_eq_some_iff.mpr ⟨s, hs, haction, rfl⟩)
    rw [if_neg (by simp)]
    cases hd : loopDecision behavior output n signal with
    | none =>
      -- An active loop would have a row.
      refine iff_of_false Bool.false_ne_true ?_
      rintro ⟨l, ⟨rfl, ha, -, -, -⟩, -⟩
      obtain ⟨d, hsome, -⟩ := exists_loopRow ha output signal n
      cases hd.symm.trans hsome
    | some d =>
      obtain ⟨l, rfl, ha⟩ := exists_loop_of_loopDecision hd
      obtain ⟨d', hd', h⟩ := exists_loopRow ha output signal n
      cases hd.symm.trans hd'
      rw [Option.any_some, hrow h]
      constructor
      · rintro ⟨hstop, hasked, hQ⟩
        exact ⟨l, ⟨rfl, ha, hnot, hstop, hasked⟩, hQ⟩
      · rintro ⟨l', ⟨hl, -, -, hstop, hasked⟩, hQ⟩
        cases hl
        exact ⟨hstop, hasked, hQ⟩

/-! ### Triggers -/

theorem filledTarget_eq_some_iff {target : Option String} {t : String} :
    filledTarget target = some t ↔ target = some t ∧ t ≠ "" := by
  unfold filledTarget
  cases target with
  | none => simp
  | some u =>
    dsimp only
    split
    · next hu =>
      have hu : u = "" := by simpa using hu
      refine iff_of_false nofun ?_
      rintro ⟨⟨⟩, hne⟩
      exact hne hu
    · next hu =>
      have hu : u ≠ "" := by simpa using hu
      refine ⟨?_, fun h => h.1⟩
      rintro ⟨⟩
      exact ⟨rfl, hu⟩

theorem filledTarget_eq_none_iff {target : Option String} :
    filledTarget target = none ↔ ∀ t, target = some t → t = "" := by
  rw [Option.eq_none_iff_forall_ne_some]
  simp only [ne_eq, filledTarget_eq_some_iff, not_and_not_right]

/-- The step that is named is the filled target of the signal, or else of the behavior. -/
theorem namesTarget_iff {t : String} : NamesTarget own s t ↔
    filledTarget s.target = some t ∨ filledTarget s.target = none ∧ filledTarget own = some t := by
  rw [filledTarget_eq_some_iff, filledTarget_eq_some_iff, filledTarget_eq_none_iff]
  constructor
  · rintro (⟨ht, hne⟩ | ⟨hnone, ht, hne⟩)
    · exact .inl ⟨ht, hne⟩
    · exact .inr ⟨hnone, ht, hne⟩
  · rintro (⟨ht, hne⟩ | ⟨hnone, ht, hne⟩)
    · exact .signal ht hne
    · exact .behavior hnone ht hne

/-- A trigger runs the step that is named, for the reason of the signal. -/
theorem triggerDecision_iff : (triggerDecision behavior signal).1 = some t ↔
    ∃ own s, behavior = some (.trigger own) ∧ signal = some s ∧ s.action = .trigger ∧
      NamesTarget own s t.target ∧ t.reason = s.reason := by
  match behavior, signal with
  | none, _ => exact iff_of_false nofun fun ⟨_, _, h, _⟩ => nomatch h
  | some (.loop l), _ => exact iff_of_false nofun fun ⟨_, _, h, _⟩ => nomatch h
  | some (.trigger own), none => exact iff_of_false nofun fun ⟨_, _, _, h, _⟩ => nomatch h
  | some (.trigger own), some s =>
    have hone : (∃ own' s', some (Behavior.trigger own) = some (.trigger own') ∧ some s = some s' ∧
        s'.action = .trigger ∧ NamesTarget own' s' t.target ∧ t.reason = s'.reason) ↔
        s.action = .trigger ∧ NamesTarget own s t.target ∧ t.reason = s.reason := by
      simp
    rw [hone, namesTarget_iff]
    unfold triggerDecision
    dsimp only
    by_cases haction : s.action = .trigger
    · rw [if_neg (not_not.mpr haction)]
      obtain ⟨target, reason⟩ := t
      cases hsignal : filledTarget s.target with
      | some u => simp [haction, eq_comm]
      | none =>
        cases hown : filledTarget own with
        | some u => simp [haction, eq_comm]
        | none => simp
    · rw [if_pos haction]
      exact iff_of_false nofun fun h => haction h.1

/-- A verdict runs another step iff the trigger's decision does: where a checkpoint or a loop comes
first, there is none to run. -/
theorem trigger_evaluate : (evaluate behavior output signal n).1.trigger =
    (triggerDecision behavior signal).1 := by
  have hnone : (¬ ∃ own s, behavior = some (.trigger own) ∧ signal = some s ∧ s.action = .trigger) →
      (triggerDecision behavior signal).1 = none := by
    intro h
    refine Option.eq_none_iff_forall_ne_some.mpr fun t ht => h ?_
    obtain ⟨own, s, hb, hs, haction, -⟩ := triggerDecision_iff.mp ht
    exact ⟨own, s, hb, hs, haction⟩
  unfold evaluate
  split
  · next reason hc =>
    obtain ⟨s, hs, haction, -⟩ := checkpointDecision_eq_some_iff.mp hc
    refine (hnone ?_).symm
    rintro ⟨own, s', -, hs', haction'⟩
    exact absurd (Says.eq ⟨s, hs, haction⟩ ⟨s', hs', haction'⟩) (by decide)
  · dsimp only
    split
    · next hloop =>
      refine (hnone ?_).symm
      rintro ⟨own, s, rfl, -⟩
      cases hloop
    · rfl

/-! ### Verdicts -/

/-- A verdict is the one of the table. -/
theorem tabled_evaluate (behavior : Option Behavior) (output : String) (signal : Option Signal)
    (n : Int) : (evaluate behavior output signal n).1.Tabled behavior output signal n where
  stops reason := by rw [checkpoint_evaluate, checkpointDecision_eq_some_iff]
  repeats := any_loop_evaluate_iff LoopRow.repeats_iff
  limitReached := any_loop_evaluate_iff LoopRow.limitReached_iff
  triggers t := by rw [trigger_evaluate, triggerDecision_iff]
  stopsAlone h := by
    obtain ⟨hloop, htrigger⟩ := (evaluate_exclusive behavior output signal n).1 h
    exact ⟨by rw [hloop, Option.any_none], htrigger⟩
  repeatsAlone := (evaluate_exclusive behavior output signal n).2

/-- Verdicts are those of the table.  So a loop that repeats would have done so after fewer
repetitions, and outputs that end with the same word have the same verdict. -/
theorem evaluate_tabled (behavior : Option Behavior) (signal : Option Signal) :
    (∀ output n, (evaluate behavior output signal n).1.Tabled behavior output signal n) ∧
    (∀ output n n', n ≤ n' →
      (evaluate behavior output signal n').1.loop.any (·.repeats) = true →
      (evaluate behavior output signal n).1.loop.any (·.repeats) = true) ∧
    ∀ output other n, finalToken? output = finalToken? other →
      evaluate behavior output signal n = evaluate behavior other signal n := by
  have htabled := fun output n => tabled_evaluate behavior output signal n
  refine ⟨htabled, fun output n n' hle h => ?_, fun output other n h =>
    evaluate_congr h behavior signal n⟩
  obtain ⟨l, hsends, hlimit⟩ := (htabled output n').repeats.mp h
  refine (htabled output n).repeats.mpr ⟨l, hsends, fun m hm => ?_⟩
  have hlt := hlimit m hm
  omega

/-- A loop that steps back at most four times. -/
def patientLoop : LoopBehavior :=
  ⟨1, "AGAIN", some 4, [], Nat.one_pos, fun _ h => Option.some.inj h ▸ Nat.succ_pos 3⟩

/-- The loop repeats once more after three repetitions, and so it would have after two; after four
it is at its limit, whatever stands before the trigger word. -/
theorem patientLoop_evaluate :
    finalToken? "tests fail\nAGAIN" = finalToken? "AGAIN" ∧
      (evaluate (some (.loop patientLoop)) "AGAIN" none 2).1.loop.any (·.repeats) = true ∧
      (evaluate (some (.loop patientLoop)) "tests fail\nAGAIN" none 4).1.loop.any (·.limitReached)
        = true ∧
      evaluate (some (.loop patientLoop)) "tests fail\nAGAIN" none 4
        = evaluate (some (.loop patientLoop)) "AGAIN" none 4 := by
  obtain ⟨htabled, hfewer, hcongr⟩ := evaluate_tabled (some (.loop patientLoop)) none
  have htoken : finalToken? "tests fail\nAGAIN" = finalToken? "AGAIN" := by decide +kernel
  have hword : finalToken? "AGAIN" = some patientLoop.trigger := by decide +kernel
  have hsilent : ∀ action, ¬ Says none action := by
    rintro action ⟨s, hs, -⟩
    cases hs
  have hsends : ∀ output, finalToken? output = some patientLoop.trigger →
      SendsBack (some (.loop patientLoop)) output none patientLoop :=
    fun output h => ⟨rfl, by decide, hsilent _, hsilent _, .inl h⟩
  have hthree :
      (evaluate (some (.loop patientLoop)) "AGAIN" none 3).1.loop.any (·.repeats) = true :=
    (htabled "AGAIN" 3).repeats.mpr ⟨_, hsends _ hword, by rintro m ⟨⟩; decide⟩
  exact ⟨htoken, hfewer "AGAIN" 2 3 (by decide) hthree,
    (htabled _ 4).limitReached.mpr ⟨_, hsends _ (htoken.trans hword), 4, rfl, by decide⟩,
    hcongr _ _ _ htoken⟩

end Conductor
