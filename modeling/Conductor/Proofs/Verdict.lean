import Conductor.Step

/-!
# What verdicts say about loops

What is decided on a loop that can repeat is one of four things, by whether the agent stopped it,
whether it is asked to step back and whether its limit is reached (`exists_loopRow`).  A verdict
decides a loop iff the step has one that can repeat and no checkpoint comes first
(`isSome_loop_evaluate`).  A decision carries the numbers of the loop it is about, and only a loop
below its limit repeats (`activeLoop?_of_evaluate`): it does so iff it is asked to and may
(`repeats_evaluate_iff`).
-/

namespace Conductor

open Output

/-- There is a signal of an action. -/
def Says (signal : Option Signal) (action : Action) : Prop :=
  ∃ s, signal = some s ∧ s.action = action

/-- An output or a signal asks a loop to step back. -/
def Recalls (l : LoopBehavior) (output : String) (signal : Option Signal) : Prop :=
  finalToken? output = some l.trigger ∨ Says signal .loop

variable {output : String} {signal : Option Signal} {n : Int} {d : LoopDecision} {step : Step}
  {l : LoopBehavior} {action : Action}

theorem Step.isActive_of_activeLoop? (h : step.activeLoop? = some l) :
    l.isActive = true := by
  unfold Step.activeLoop? at h
  split at h
  · split at h
    · next ha =>
      cases h
      exact ha
    · cases h
  · cases h

theorem Step.behavior_of_activeLoop? (h : step.activeLoop? = some l) :
    step.behavior = some (.loop l) := by
  unfold Step.activeLoop? at h
  split at h
  · next hb =>
    split at h
    · cases h
      exact hb
    · cases h
  · cases h

theorem Step.activeLoop?_of_behavior (hb : step.behavior = some (.loop l))
    (ha : l.isActive = true) : step.activeLoop? = some l := by
  unfold Step.activeLoop?
  rw [hb]
  exact if_pos ha

theorem asksFor_iff : asksFor signal action = true ↔ Says signal action := by
  cases signal <;> simp [asksFor, Says]

theorem asksFor_eq_false_iff : asksFor signal action = false ↔ ¬ Says signal action := by
  rw [← asksFor_iff, Bool.not_eq_true]

/-- A signal is of one action. -/
theorem Says.eq {other : Action} (h : Says signal action) (h' : Says signal other) :
    action = other := by
  obtain ⟨s, rfl, rfl⟩ := h
  obtain ⟨s', hs, rfl⟩ := h'
  cases hs
  rfl

/-! ### Decisions on loops -/

/-- What is decided on a loop that can repeat: the agent stopped it, it is not asked to step back,
its limit is reached, or it repeats. -/
inductive LoopRow (l : LoopBehavior) (output : String) (signal : Option Signal) (n : Int) :
    LoopDecision → Prop
  | stopped (hstop : Says signal .stop) :
    LoopRow l output signal n ⟨false, l.stepsBack, l.skip,
      some ((signal.bind (·.reason)).getD "loop stopped by agent"), false⟩
  | unasked (hstop : ¬ Says signal .stop) (hasked : ¬ Recalls l output signal) :
    LoopRow l output signal n ⟨false, l.stepsBack, l.skip, none, false⟩
  | ended {m : Nat} (hstop : ¬ Says signal .stop) (hasked : Recalls l output signal)
    (hm : l.maxIterations = some m) (hn : m ≤ n) :
    LoopRow l output signal n
      ⟨false, l.stepsBack, l.skip, some s!"loop limit reached ({m})", true⟩
  | again (hstop : ¬ Says signal .stop) (hasked : Recalls l output signal)
    (hn : ∀ m, l.maxIterations = some m → n < m) :
    LoopRow l output signal n ⟨true, l.stepsBack, l.skip,
      if asksFor signal .loop then signal.bind (·.reason) else none, false⟩

theorem recalls_iff : Recalls l output signal ↔
    (!(finalToken? output == some l.trigger || asksFor signal .loop)) = false := by
  rw [Bool.not_eq_false', Bool.or_eq_true, beq_iff_eq, asksFor_iff]
  rfl

/-- The decision on a loop that can repeat is one of the four. -/
theorem exists_loopRow (ha : l.isActive = true) (output : String) (signal : Option Signal)
    (n : Int) : ∃ d, loopDecision (some (.loop l)) output n signal = some d ∧
      LoopRow l output signal n d := by
  unfold loopDecision
  dsimp only
  rw [ha, if_neg (by decide)]
  split
  · next hstop => exact ⟨_, rfl, .stopped (asksFor_iff.mp hstop)⟩
  · next hstop =>
    have hstop : ¬ Says signal .stop := mt asksFor_iff.mpr hstop
    split
    · next hasked => exact ⟨_, rfl, .unasked hstop (mt recalls_iff.mp (by simp [hasked]))⟩
    · next hasked =>
      have hasked : Recalls l output signal := recalls_iff.mpr (Bool.not_eq_true _ ▸ hasked)
      cases hm : l.maxIterations with
      | none =>
        rw [if_neg Bool.false_ne_true]
        refine ⟨_, rfl, .again hstop hasked fun m h => ?_⟩
        cases hm.symm.trans h
      | some m =>
        dsimp only
        split
        · next hlimit =>
          have hn : n + 1 > (m : Int) := of_decide_eq_true hlimit
          exact ⟨_, rfl, @LoopRow.ended _ _ _ _ m hstop hasked hm (by omega)⟩
        · next hlimit =>
          have hn : ¬ n + 1 > (m : Int) := mt decide_eq_true hlimit
          refine ⟨_, rfl, .again hstop hasked fun k h => ?_⟩
          cases hm.symm.trans h
          omega

theorem LoopRow.repeats_iff (h : LoopRow l output signal n d) : d.repeats = true ↔
    ¬ Says signal .stop ∧ Recalls l output signal ∧ ∀ m, l.maxIterations = some m → n < m := by
  cases h with
  | stopped hstop => exact iff_of_false Bool.false_ne_true fun h => h.1 hstop
  | unasked hstop hasked => exact iff_of_false Bool.false_ne_true fun h => hasked h.2.1
  | ended hstop hasked hm hn =>
    exact iff_of_false Bool.false_ne_true fun h => absurd (h.2.2 _ hm) (by omega)
  | again hstop hasked hn => exact iff_of_true rfl ⟨hstop, hasked, hn⟩

theorem LoopRow.limitReached_iff (h : LoopRow l output signal n d) : d.limitReached = true ↔
    ¬ Says signal .stop ∧ Recalls l output signal ∧ ∃ m, l.maxIterations = some m ∧ m ≤ n := by
  cases h with
  | stopped hstop => exact iff_of_false Bool.false_ne_true fun h => h.1 hstop
  | unasked hstop hasked => exact iff_of_false Bool.false_ne_true fun h => hasked h.2.1
  | ended hstop hasked hm hn => exact iff_of_true rfl ⟨hstop, hasked, _, hm, hn⟩
  | again hstop hasked hn =>
    refine iff_of_false Bool.false_ne_true fun ⟨_, _, m, hm, hle⟩ => ?_
    have := hn m hm
    omega

/-- A decision carries the numbers of its loop, and it repeats only below the limit. -/
theorem LoopRow.numbers (h : LoopRow l output signal n d) : d.stepsBack = l.stepsBack ∧
    d.skip = l.skip ∧ (d.repeats = true → ∀ m, l.maxIterations = some m → n + 1 ≤ m) := by
  refine ⟨?_, ?_, fun hrep m hm => ?_⟩
  · cases h <;> rfl
  · cases h <;> rfl
  · have := (h.repeats_iff.mp hrep).2.2 m hm
    omega

/-- The decision on a step's loop, if it has one that can repeat. -/
theorem loopDecision_eq (step : Step) (output : String) (n : Int) (signal : Option Signal) :
    loopDecision step.behavior output n signal =
      step.activeLoop?.bind fun l => loopDecision (some (.loop l)) output n signal := by
  unfold Step.activeLoop?
  cases step.behavior with
  | none => rfl
  | some b =>
    cases b with
    | trigger target => rfl
    | loop l =>
      cases ha : l.isActive with
      | false => simp [loopDecision, ha]
      | true => simp [ha]

/-- A stop is asked for by the signal alone. -/
theorem checkpoint_evaluate (behavior : Option Behavior) (output : String) (signal : Option Signal)
    (n : Int) : (evaluate behavior output signal n).1.checkpoint = checkpointDecision signal := by
  unfold evaluate
  split
  · next h => exact h.symm
  · next h =>
    rw [h]
    dsimp only
    split <;> rfl

theorem checkpointDecision_eq_some_iff {reason : Option String} :
    checkpointDecision signal = some reason ↔
      ∃ s, signal = some s ∧ s.action = .checkpoint ∧ s.reason = reason := by
  unfold checkpointDecision
  cases signal with
  | none => simp
  | some s =>
    dsimp only
    split
    · next h => simp [h]
    · next h => simp [h]

theorem loop_evaluate (behavior : Option Behavior) (output : String) (signal : Option Signal)
    (n : Int) : (evaluate behavior output signal n).1.loop =
      if (evaluate behavior output signal n).1.checkpoint.isSome then none
      else loopDecision behavior output n signal := by
  unfold evaluate
  split
  · rfl
  · dsimp only
    split <;> rfl

/-- The loop of a step is decided iff it can repeat, unless a checkpoint comes first. -/
theorem isSome_loop_evaluate (step : Step) (output : String) (signal : Option Signal) (n : Int)
    (h : (evaluate step.behavior output signal n).1.checkpoint = none) :
    (evaluate step.behavior output signal n).1.loop.isSome = step.activeLoop?.isSome := by
  rw [loop_evaluate, h, if_neg (by simp), loopDecision_eq]
  cases hl : step.activeLoop? with
  | none => rfl
  | some l =>
    obtain ⟨d, hd, -⟩ := exists_loopRow (Step.isActive_of_activeLoop? hl) output signal n
    simp [hd]

/-- What a verdict decides on a loop is one of the four, for the loop of the step. -/
theorem loopRow_of_evaluate (h : (evaluate step.behavior output signal n).1.loop = some d) :
    ∃ l, step.activeLoop? = some l ∧ LoopRow l output signal n d := by
  rw [loop_evaluate] at h
  split at h
  · cases h
  · rw [loopDecision_eq] at h
    obtain ⟨l, hl, hd⟩ := Option.bind_eq_some_iff.mp h
    obtain ⟨d', hd', hrow⟩ := exists_loopRow (Step.isActive_of_activeLoop? hl) output signal n
    cases hd.symm.trans hd'
    exact ⟨l, hl, hrow⟩

/-- A decision is about the step's loop, and that repeats only below its limit. -/
theorem activeLoop?_of_evaluate (h : (evaluate step.behavior output signal n).1.loop = some d) :
    ∃ l, step.activeLoop? = some l ∧ d.stepsBack = l.stepsBack ∧ d.skip = l.skip ∧
      (d.repeats = true → ∀ m, l.maxIterations = some m → n + 1 ≤ m) := by
  obtain ⟨l, hl, hrow⟩ := loopRow_of_evaluate h
  exact ⟨l, hl, hrow.numbers⟩

/-- Outputs that end with the same word have the same verdict. -/
theorem evaluate_congr {other : String}
    (h : Output.finalToken? output = Output.finalToken? other) (behavior : Option Behavior)
    (signal : Option Signal) (n : Int) :
    evaluate behavior output signal n = evaluate behavior other signal n := by
  unfold evaluate loopDecision
  rw [h]

/-- A loop is asked to step back: the signal neither is a checkpoint nor ends the loop, and the
output ends with the trigger word or the signal asks for the repetition. -/
def LoopBehavior.Asked (l : LoopBehavior) (output : String) (signal : Option Signal) : Prop :=
  checkpointDecision signal = none ∧ asksFor signal .stop = false ∧
    (Output.finalToken? output = some l.trigger ∨ asksFor signal .loop = true)

/-- A loop that has stepped back a number of times may do so once more. -/
def LoopBehavior.MayRepeat (l : LoopBehavior) (n : Int) : Prop :=
  ∀ m, l.maxIterations = some m → n + 1 ≤ m

/-- The verdict on a step repeats its loop iff the loop is asked to step back and may do so. -/
theorem repeats_evaluate_iff :
    (evaluate step.behavior output signal n).1.loop.any (·.repeats) = true ↔
      ∃ l, step.activeLoop? = some l ∧ l.Asked output signal ∧ l.MayRepeat n := by
  rw [loop_evaluate, checkpoint_evaluate]
  unfold LoopBehavior.Asked
  cases hc : checkpointDecision signal with
  | some reason => simp
  | none =>
    rw [if_neg (by simp), loopDecision_eq]
    cases hl : step.activeLoop? with
    | none => simp
    | some l =>
      have ha := Step.isActive_of_activeLoop? hl
      obtain ⟨d, hd, hrow⟩ := exists_loopRow ha output signal n
      rw [Option.bind_some, hd, Option.any_some, hrow.repeats_iff]
      constructor
      · rintro ⟨hstop, hasked, hn⟩
        exact ⟨l, rfl, ⟨rfl, asksFor_eq_false_iff.mpr hstop, hasked.imp_right asksFor_iff.mpr⟩, hn⟩
      · rintro ⟨k, hk, ⟨-, hstop, hasked⟩, hn⟩
        cases hk
        exact ⟨asksFor_eq_false_iff.mp hstop, hasked.imp_right asksFor_iff.mp, hn⟩

/-- Without a signal a loop step is told by its loop alone. -/
theorem evaluate_loop (l : LoopBehavior) (output : String) (n : Int) :
    (evaluate (some (.loop l)) output none n).1
      = { loop := loopDecision (some (.loop l)) output n none } := by
  unfold evaluate
  dsimp only [checkpointDecision]
  split <;> rfl

/-- An output that ends with the trigger word repeats a loop below its limit, and else the limit is
the reason for leaving it. -/
theorem loopDecision_of_token {m : Nat} (ha : l.isActive = true)
    (hm : l.maxIterations = some m) (ht : Output.finalToken? output = some l.trigger) (n : Int) :
    loopDecision (some (.loop l)) output n none = some (
      if n + 1 ≤ m then ⟨true, l.stepsBack, l.skip, none, false⟩
      else ⟨false, l.stepsBack, l.skip, some s!"loop limit reached ({m})", true⟩) := by
  obtain ⟨d, hd, hrow⟩ := exists_loopRow ha output none n
  rw [hd]
  cases hrow with
  | stopped hstop =>
    obtain ⟨s, hs, -⟩ := hstop
    cases hs
  | unasked _ hasked => exact absurd (.inl ht) hasked
  | ended _ _ hk hn =>
    cases hm.symm.trans hk
    have hnot : ¬ n + 1 ≤ (m : Int) := by omega
    rw [if_neg hnot]
  | again _ _ hn =>
    have hlt := hn m hm
    have hle : n + 1 ≤ (m : Int) := by omega
    rw [if_pos hle]
    rfl

end Conductor
