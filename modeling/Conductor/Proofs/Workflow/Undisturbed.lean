import Conductor.Proofs.Workflow.Onward

/-!
# Undisturbed runs

Nothing disturbs a run: it begins with an empty record, is not cancelled, nothing fails and no
signal comes (`Undisturbed`).  Such a run is followed from head to head.  Where it stands there is
told by the position, the loop that is hot and how far the steps are done (`Positioned`).  A visit
to a step executes it in its place or passes over it and goes on (`Comes.visited`, `Comes.passed`),
and where the step is a loop that asks for a repetition it steps back or, at the limit, goes on with
a message (`Comes.repeated`, `Comes.left`).  What the visit makes of the cursor is told by the
lemmas of the same names on `Positioned`.  A run that comes to a head behind the last step is
completed (`Comes.ends`).
-/

namespace Conductor.Workflow

open Act Cursor

/-- Nothing disturbs a run: no earlier run has left anything, the run is not cancelled, no turn ends
in a fault, no step fails, no signal comes, and the step at a position ends all its outputs with a
word. -/
structure Undisturbed (f : Workflow) (w₀ : World) (a : Nat) (word : String) : Prop where
  fresh : ∃ p, f.remembered w₀ = .ok p ∧ p.completed = [] ∧ p.notCompleted = []
  uncancelled : ∀ n trail, Trail f w₀ (n :: trail) → n.1.cancelled = false
  faultless : ∀ n trail e, Trail f w₀ (n :: trail) → ((f.turn n.2).exec n.1).1 ≠ .error e
  succeeds : ∀ n trail index step run identity, Trail f w₀ (n :: trail) →
    n.2.phase = .attempt index step run identity →
    ∃ output, ((f.shop.execute run identity none).exec n.1).1 = .ok output ∧
      (index = a → Output.finalToken? output = some word)
  silent : ∀ n trail index step output, Trail f w₀ (n :: trail) →
    n.2.phase = .recorded index step output →
    ((f.signals.readSafely f.shop.dir).exec n.1).1 = .ok none

/-- The position whose step the next turn executes in the main sequence. -/
def attempt? (n : Point) : Option Nat :=
  match n.2.phase with
  | .attempt index .. => some index
  | _ => none

/-- The positions whose steps are executed in the main sequence, in order. -/
def executed (trail : List Point) : List Nat := (trail.filterMap attempt?).reverse

/-- Whatever is executed is a step of the list in its place, and not a fallback or out of order. -/
def InPlace (f : Workflow) (trail : List Point) : Prop :=
  ∀ n ∈ trail, n.2.phase.executes?.isSome →
    ∃ i step, f.steps[i]? = some step ∧ n.2.phase = .attempt i step step step.agentId

/-- The step at a position is passed over under a hot loop, where the steps before `front` are
done. -/
def passes (hot : Option HotLoop) (front j : Nat) (step : Step) : Bool :=
  (step.executeOnce && decide (j < front)) || hot.any (·.skip.contains step.agentId)

/-- What a cursor stands at between two rounds of an undisturbed run: a position, the loop that is
hot, and the steps before `front` done and none unfinished. -/
structure Positioned (c : Cursor) (p : Nat) (hot : Option HotLoop) (front : Nat) : Prop where
  index : c.index = p
  hot : c.hot = hot
  pending : c.pending = []
  notCompleted : c.notCompleted = []
  completed : ∀ j : Nat, (j : Int) ∈ c.completed ↔ j < front
  le_front : p ≤ front

/-- A run comes to a head with a cursor and messages after it has executed positions in order. -/
def Comes (f : Workflow) (w₀ : World) (c : Cursor) (ms : List String) (order : List Nat) : Prop :=
  ∃ w older, Trail f w₀ ((w, ⟨c, ms, .head⟩) :: older) ∧ executed older = order ∧ InPlace f older

/-- The cursor after a step has been recorded as done. -/
def recordedCursor (c : Cursor) (step : Step) : Cursor :=
  (c.markStarted c.index step.agentId).markCompleted c.index

variable {f : Workflow} {w₀ w : World} {a p m front : Nat} {hot : Option HotLoop} {c : Cursor}
  {ms : List String} {order : List Nat} {step : Step} {l : LoopBehavior} {word : String}
  {n : Point} {trail : List Point}

/-! ### What is executed -/

theorem executed_cons (n : Point) (trail : List Point) :
    executed (n :: trail) = executed trail ++ (attempt? n).toList := by
  unfold executed
  rw [filterMap_cons_toList, List.reverse_append]
  cases attempt? n <;> rfl

theorem executed_cons_of_not_attempts (h : n.2.phase.attempts = false) (trail : List Point) :
    executed (n :: trail) = executed trail := by
  have hnone : attempt? n = none := by
    unfold attempt?
    split
    · next hn =>
      rw [hn] at h
      cases h
    · rfl
  rw [executed_cons, hnone, Option.toList_none, List.append_nil]

theorem executed_cons_of_attempt {run : Step} {identity : String}
    (h : n.2.phase = .attempt p step run identity) (trail : List Point) :
    executed (n :: trail) = executed trail ++ [p] := by
  rw [executed_cons]
  unfold attempt?
  rw [h]
  rfl

theorem InPlace.cons (h : InPlace f trail) (hn : n.2.phase.executes? = none) :
    InPlace f (n :: trail) := by
  intro x hx hexec
  rcases List.mem_cons.mp hx with rfl | hx
  · rw [hn] at hexec
    cases hexec
  · exact h x hx hexec

theorem InPlace.cons_attempt (h : InPlace f trail) (hs : f.steps[p]? = some step)
    (hn : n.2.phase = .attempt p step step step.agentId) : InPlace f (n :: trail) := by
  intro x hx hexec
  rcases List.mem_cons.mp hx with rfl | hx
  · exact ⟨p, step, hs, hn⟩
  · exact h x hx hexec

/-! ### One visit -/

theorem Positioned.skipCause?_eq_none_iff (h : Positioned c p hot front) :
    c.skipCause? step p = none ↔ passes hot front p step = false := by
  unfold skipCause? passes
  have hmem : c.completed.contains (p : Int) = decide (p < front) := by
    rw [Bool.eq_iff_iff, List.contains_iff_mem, decide_eq_true_eq]
    exact h.completed p
  rw [hmem, h.hot]
  cases step.executeOnce && decide (p < front) with
  | true => simp
  | false =>
    cases hot.any (·.skip.contains step.agentId) with
    | true => simp
    | false => simp

theorem Positioned.chosen_eq (h : Positioned c p hot front) (step : Step) (f : Workflow) :
    f.chosen c step p = .ok (step, step.agentId) := by
  unfold chosen
  cases step.fallback with
  | none => rfl
  | some reference =>
    dsimp only
    rw [if_neg]
    unfold needsFallback
    simp [h.notCompleted]

section

variable (hu : Undisturbed f w₀ a word)
include hu

/-- A head at a step that is not passed over leads to the judgement of the step. -/
theorem Comes.judged (h : Comes f w₀ c ms order) (hc : Positioned c p hot front)
    (hs : f.steps[p]? = some step) (hpass : passes hot front p step = false) :
    ∃ w older output,
      Trail f w₀ ((w, ⟨recordedCursor c step, ms, .recorded p step output⟩) :: older) ∧
        (p = a → Output.finalToken? output = some word) ∧ executed older = order ++ [p] ∧
        InPlace f older := by
  obtain ⟨w, older, ht, rfl, hplace⟩ := h
  obtain rfl := hc.index
  have hw := hu.uncancelled _ _ ht
  have hlt := (List.getElem?_eq_some_iff.mp hs).1
  have hv : f.visit? (w, ⟨c, ms, .head⟩) = some c.index := visit?_of_step hw hc.pending hs
  have hskip : c.skipCause? step c.index = none := hc.skipCause?_eq_none_iff.mpr hpass
  -- The head starts the step.
  obtain ⟨log, hbegin⟩ := exec_visit_of_chosen (f := f) (s := ⟨c, ms, .head⟩) (w := w) hskip
    (hc.chosen_eq step f)
  have hstart := (exec_turn_of_visit hv hs).trans hbegin
  unfold begin at hstart
  obtain ⟨u, w₁, hrecord⟩ :=
    exists_of_bind_ne_error fun e he => hu.faultless _ _ e ht (hstart ▸ he)
  rw [exec_bind_of_ok hrecord] at hstart
  have ht₁ := Trail.next ht hstart
  -- The step returns and is recorded.
  obtain ⟨output, hx, hword⟩ := hu.succeeds _ _ _ _ _ _ ht₁ rfl
  have hreturn := exec_turn_of_executes (f := f)
    (s := ⟨c.markStarted c.index step.agentId, ms, .attempt c.index step step step.agentId⟩) rfl w₁
  rw [hx] at hreturn
  have ht₂ := Trail.next ht₁ hreturn
  have hfinish := exec_turn_of_returned (f := f)
    (s := ⟨c.markStarted c.index step.agentId, ms, .returned c.index step output⟩) rfl
    ((f.shop.execute step step.agentId none).exec w₁).2
  obtain ⟨u, w₂, hrecord⟩ :=
    exists_of_bind_ne_error fun e he => hu.faultless _ _ e ht₂ (hfinish ▸ he)
  rw [exec_bind_of_ok hrecord] at hfinish
  refine ⟨_, _, output, .next ht₂ hfinish, hword, ?_, ?_⟩
  · rw [executed_cons_of_not_attempts rfl, executed_cons_of_attempt rfl,
      executed_cons_of_not_attempts rfl]
  · exact ((hplace.cons rfl).cons_attempt hs rfl).cons rfl

section

variable {output : String} {older : List Point} {d : LoopDecision}
  (ht : Trail f w₀ ((w, ⟨c, ms, .recorded p step output⟩) :: older))
include ht

/-- The judgement of a step leads back, if a loop is decided to repeat, and on otherwise. -/
theorem Undisturbed.judges : ∃ s' w',
    (f.turn ⟨c, ms, .recorded p step output⟩).exec w = (.ok (.next s'), w') ∧
      ((∃ d, (verdict c step p output none).loop = some d ∧ d.repeats = true ∧
          s' = ⟨(c.loopBack d (loopKey step p)).release step.agentId, ms, .head⟩) ∨
        (∀ d, (verdict c step p output none).loop = some d → d.repeats = false) ∧
          s' = ⟨settled c step p (verdict c step p output none),
            settledMessages ms step (verdict c step p output none), .head⟩) := by
  have hr : (f.signals.readSafely f.shop.dir).exec w = (.ok none, _) :=
    Prod.ext (hu.silent _ _ _ _ _ ht rfl) rfl
  obtain ⟨t, w', hturn⟩ := exec_turn_of_heard (s := ⟨c, ms, .recorded p step output⟩) rfl hr
  cases takes_of_turn hturn with
  | stopped hr' hv =>
    cases hr.symm.trans hr'
    cases ((checkpoint_evaluate ..).symm.trans hv : checkpointDecision none = _)
  | loopedBack hr' _ hl hd =>
    cases hr.symm.trans hr'
    exact ⟨_, _, hturn, .inl ⟨_, hl, hd, rfl⟩⟩
  | wentOn hr' _ hd =>
    cases hr.symm.trans hr'
    exact ⟨_, _, hturn, .inr ⟨hd, rfl⟩⟩

/-- A loop that is decided to repeat steps back. -/
theorem Undisturbed.loopsBack (hl : (verdict c step p output none).loop = some d)
    (hd : d.repeats = true) :
    ∃ w', (f.turn ⟨c, ms, .recorded p step output⟩).exec w = (.ok (.next
      ⟨(c.loopBack d (loopKey step p)).release step.agentId, ms, .head⟩), w') := by
  obtain ⟨s', w', hturn, ⟨d', hl', -, rfl⟩ | ⟨hno, -⟩⟩ := hu.judges ht
  · cases hl.symm.trans hl'
    exact ⟨w', hturn⟩
  · cases hd.symm.trans (hno d hl)

/-- Where no loop is decided to repeat, the run goes on to the next position. -/
theorem Undisturbed.goesOn
    (hl : ∀ d, (verdict c step p output none).loop = some d → d.repeats = false) :
    ∃ w', (f.turn ⟨c, ms, .recorded p step output⟩).exec w = (.ok (.next
      ⟨settled c step p (verdict c step p output none),
        settledMessages ms step (verdict c step p output none), .head⟩), w') := by
  obtain ⟨s', w', hturn, ⟨d, hl', hd, -⟩ | ⟨-, rfl⟩⟩ := hu.judges ht
  · cases hd.symm.trans (hl d hl')
  · exact ⟨w', hturn⟩

end

/-- A step without a behavior is executed and handed on from. -/
theorem Comes.visited (h : Comes f w₀ c ms order) (hc : Positioned c p hot front)
    (hs : f.steps[p]? = some step) (hpass : passes hot front p step = false)
    (hb : step.behavior = none) :
    Comes f w₀ (((recordedCursor c step).release step.agentId).advance) ms (order ++ [p]) := by
  obtain ⟨w, older, output, ht, -, horder, hplace⟩ := h.judged hu hc hs hpass
  have hv : verdict (recordedCursor c step) step p output none = {} := by
    unfold verdict
    rw [hb]
    rfl
  obtain ⟨w', hturn⟩ := hu.goesOn ht (by simp [hv])
  rw [hv] at hturn
  refine ⟨w', _, .next ht hturn, ?_, hplace.cons rfl⟩
  rw [executed_cons_of_not_attempts rfl, horder]

/-- A step that is passed over is handed on from. -/
theorem Comes.passed (h : Comes f w₀ c ms order) (hc : Positioned c p hot front)
    (hs : f.steps[p]? = some step) (hpass : passes hot front p step = true) :
    Comes f w₀ c.advance ms order := by
  obtain ⟨w, older, ht, rfl, hplace⟩ := h
  obtain rfl := hc.index
  have hw := hu.uncancelled _ _ ht
  have hv : f.visit? (w, ⟨c, ms, .head⟩) = some c.index := visit?_of_step hw hc.pending hs
  obtain ⟨cause, hcause⟩ : ∃ cause, c.skipCause? step c.index = some cause := by
    rw [← Option.isSome_iff_exists, Option.isSome_iff_ne_none, ne_eq, hc.skipCause?_eq_none_iff,
      hpass]
    simp
  obtain ⟨log, hskip⟩ := exec_visit_of_skipped (f := f) (s := ⟨c, ms, .head⟩) (w := w) hcause
  have hturn := (exec_turn_of_visit hv hs).trans hskip
  refine ⟨_, _, .next ht hturn, ?_, hplace.cons rfl⟩
  exact executed_cons_of_not_attempts rfl older

section

variable (hl : step.behavior = some (.loop l)) (hactive : l.isActive = true)
  (hlimit : l.maxIterations = some m) (hword : l.trigger = word)
include hl hactive hlimit hword

/-- A loop that is below its limit steps back. -/
theorem Comes.repeated (h : Comes f w₀ c ms order) (hc : Positioned c a hot front)
    (hs : f.steps[a]? = some step) (hpass : passes hot front a step = false)
    (hn : c.iterations (loopKey step a) + 1 ≤ m) :
    Comes f w₀ (((recordedCursor c step).loopBack ⟨true, l.stepsBack, l.skip, none, false⟩
      (loopKey step a)).release step.agentId) ms (order ++ [a]) := by
  obtain ⟨w, older, output, ht, htoken, horder, hplace⟩ := h.judged hu hc hs hpass
  have hd : (verdict (recordedCursor c step) step a output none).loop
      = some ⟨true, l.stepsBack, l.skip, none, false⟩ := by
    unfold verdict
    rw [hl, evaluate_loop, loopDecision_of_token hactive hlimit (hword ▸ htoken rfl)]
    exact congrArg some (if_pos hn)
  obtain ⟨w', hturn⟩ := hu.loopsBack ht hd rfl
  refine ⟨w', _, .next ht hturn, ?_, hplace.cons rfl⟩
  rw [executed_cons_of_not_attempts rfl, horder]

/-- A loop that has reached its limit is left with a message. -/
theorem Comes.left (h : Comes f w₀ c ms order) (hc : Positioned c a hot front)
    (hs : f.steps[a]? = some step) (hpass : passes hot front a step = false)
    (hn : (m : Int) < c.iterations (loopKey step a) + 1) :
    Comes f w₀ ((((recordedCursor c step).endLoop (loopKey step a)).release step.agentId).advance)
      (ms ++ [limitMessage step m]) (order ++ [a]) := by
  obtain ⟨w, older, output, ht, htoken, horder, hplace⟩ := h.judged hu hc hs hpass
  have hv : verdict (recordedCursor c step) step a output none
      = { loop := some ⟨false, l.stepsBack, l.skip, some (limitReason m), true⟩ } := by
    unfold verdict
    rw [hl, evaluate_loop, loopDecision_of_token hactive hlimit (hword ▸ htoken rfl)]
    exact congrArg (fun d => ({ loop := some d } : Verdict)) (if_neg (Int.not_le.mpr hn))
  have hms : settledMessages ms step (verdict (recordedCursor c step) step a output none)
      = ms ++ [limitMessage step m] := by
    rw [hv]
    exact settledMessages_of_limitReached rfl rfl rfl ms step
  obtain ⟨w', hturn⟩ := hu.goesOn ht (by simp [hv])
  rw [hms, hv] at hturn
  refine ⟨w', _, .next ht hturn, ?_, hplace.cons rfl⟩
  rw [executed_cons_of_not_attempts rfl, horder]

end

end

/-! ### What a visit does to the cursor -/

theorem Positioned.mem_recordedCursor (h : Positioned c p hot front) (step : Step) (j : Nat) :
    (j : Int) ∈ (recordedCursor c step).completed ↔ j < max front (p + 1) := by
  have hle := h.le_front
  unfold recordedCursor
  rw [mem_completed_markCompleted, h.index]
  show (j : Int) ∈ c.completed ∨ _ ↔ _
  rw [h.completed]
  omega

theorem Positioned.notCompleted_recordedCursor (h : Positioned c p hot front) (step : Step) :
    (recordedCursor c step).notCompleted = [] := by
  show eraseAll (insertNew c.notCompleted _) _ = []
  rw [h.notCompleted]
  simp [insertNew, eraseAll]

/-- A hot loop that is not passed stays hot. -/
theorem filter_hot (hhot : ∀ h ∈ hot, p + 1 ≤ h.anchor) :
    (hot.filter fun h => !decide (h.anchor < p + 1)) = hot := by
  cases hot with
  | none => rfl
  | some h =>
    have hle := hhot h rfl
    rw [Option.filter_some, if_pos (by simpa using hle)]

theorem Positioned.visited (h : Positioned c p hot front) (step : Step)
    (hhot : ∀ h ∈ hot, p + 1 ≤ h.anchor) :
    Positioned ((recordedCursor c step).release step.agentId).advance (p + 1) hot
      (max front (p + 1)) where
  index := congrArg (· + 1) h.index
  hot := by
    show c.hot.filter (fun h => !decide (h.anchor < c.index + 1)) = hot
    rw [h.hot, h.index, filter_hot hhot]
  pending := h.pending
  notCompleted := h.notCompleted_recordedCursor step
  completed := h.mem_recordedCursor step
  le_front := Nat.le_max_right _ _

theorem Positioned.passed (h : Positioned c p hot front) (hp : p < front)
    (hhot : ∀ h ∈ hot, p + 1 ≤ h.anchor) :
    Positioned c.advance (p + 1) hot (max front (p + 1)) where
  index := congrArg (· + 1) h.index
  hot := by
    show c.hot.filter (fun h => !decide (h.anchor < c.index + 1)) = hot
    rw [h.hot, h.index, filter_hot hhot]
  pending := h.pending
  notCompleted := h.notCompleted
  completed := by
    rw [Nat.max_eq_left hp]
    exact h.completed
  le_front := Nat.le_max_right _ _

theorem Positioned.repeated (h : Positioned c a hot front) (step : Step) (l : LoopBehavior) :
    Positioned (((recordedCursor c step).loopBack ⟨true, l.stepsBack, l.skip, none, false⟩
      (loopKey step a)).release step.agentId) (a - l.stepsBack) (some ⟨a, l.skip⟩)
      (max front (a + 1)) where
  index := by
    show ((c.index : Int) - (l.stepsBack : Int)).toNat = a - l.stepsBack
    rw [h.index]
    omega
  hot := congrArg (fun i => some (HotLoop.mk i l.skip)) h.index
  pending := h.pending
  notCompleted := h.notCompleted_recordedCursor step
  completed := h.mem_recordedCursor step
  le_front := by omega

theorem Positioned.left (h : Positioned c a hot front) (step : Step) :
    Positioned (((recordedCursor c step).endLoop (loopKey step a)).release step.agentId).advance
      (a + 1) none (max front (a + 1)) where
  index := congrArg (· + 1) h.index
  hot := rfl
  pending := h.pending
  notCompleted := h.notCompleted_recordedCursor step
  completed := h.mem_recordedCursor step
  le_front := Nat.le_max_right _ _

/-! ### Beginning and end -/

theorem positioned_initial : Positioned (Cursor.initial [] []) 0 none 0 where
  index := rfl
  hot := rfl
  pending := rfl
  notCompleted := rfl
  completed := fun j => iff_of_false (List.not_mem_nil) (Nat.not_lt_zero j)
  le_front := Nat.le_refl 0

theorem Undisturbed.comes_initial (hu : Undisturbed f w₀ a word) :
    Comes f w₀ (Cursor.initial [] []) [] [] := by
  obtain ⟨p, hp, hdone, hopen⟩ := hu.fresh
  obtain ⟨log, hstart⟩ := exec_start_of_remembered hp
  rw [hdone, hopen] at hstart
  exact ⟨_, [], .start hstart, rfl, fun _ h => absurd h List.not_mem_nil⟩

/-- A run that comes to a head behind the last step is completed. -/
theorem Comes.ends (hu : Undisturbed f w₀ a word) (h : Comes f w₀ c ms order)
    (hc : Positioned c f.steps.length hot front) :
    ∃ trail w, Ends f w₀ trail ⟨.completed, none, ms⟩ w ∧ executed trail = order ∧
      InPlace f trail := by
  obtain ⟨w, older, ht, horder, hplace⟩ := h
  obtain ⟨w', hends⟩ := ht.ends_of_atEnd ⟨rfl, hu.uncancelled _ _ ht, hc.pending, hc.index⟩
  refine ⟨_, w', hends, ?_, hplace.cons rfl⟩
  rw [executed_cons_of_not_attempts rfl, horder]

end Conductor.Workflow
