import Mathlib.Algebra.BigOperators.Intervals
import Mathlib.Algebra.Order.BigOperators.Group.Finset
import Conductor.Proofs.Verdict
import Conductor.Proofs.Workflow.Trail

/-!
# How long a run takes

Loops nest and overlap, and a counter starts again each time its loop is left, so no counter alone
goes down.  What goes down is a sum over the positions ahead of the cursor (`visitsLeft`): each
counts for its own visit and, as often as its loop may still step back, for passing everything
before it once more.  Stepping back takes one repetition away, which is worth more than all the
positions it leads back over.

Every visit may queue one step to be run out of order, so a round that passes a position is worth
two (`roundsLeft`), and a turn within a round is worth one of four (`turnsLeft`).  Every transition
makes the turns that are left fewer, so a run in whose list every loop has a limit takes no more
rounds than `roundBound` of the list, whatever is answered (`halts_within_roundBound`).
-/

namespace Conductor.Workflow

open Act Cursor

/-- Every loop of the list that can repeat has a limit. -/
def LoopsLimited (steps : List Step) : Prop :=
  ∀ step ∈ steps, ∀ l, step.activeLoop? = some l → l.maxIterations.isSome

/-- The visits that the position `k` may still take: its own and, for each repetition left to its
loop, those of passing everything before it and its own. -/
def visitsAt (steps : List Step) (c : Cursor) (k : Nat) : Nat :=
  match steps[k]? with
  | some step =>
    1 + (step.loopLimit - (c.iterations (loopKey step k)).toNat)
      * (passingBound (steps.take k) + 1)
  | none => 0

/-- The visits that the positions from the cursor on may still take. -/
def visitsLeft (steps : List Step) (c : Cursor) : Nat :=
  ∑ k ∈ Finset.Ico c.index steps.length, visitsAt steps c k

/-- The rounds that may still begin with something to do. -/
def roundsLeft (steps : List Step) (c : Cursor) : Nat := 2 * visitsLeft steps c + c.pending.length

/-- How far a round has still to go before the next one. -/
def Phase.rank : Phase → Nat
  | head => 3
  | attempt .. => 2
  | returned .. => 1
  | recorded .. => 0
  | triggered .. => 5
  | handedBack .. => 4

/-- The turns that may still follow. -/
def turnsLeft (steps : List Step) (s : State) : Nat := 4 * roundsLeft steps s.cursor + s.phase.rank

variable {f : Workflow} {steps : List Step} {c c' : Cursor} {step : Step} {w w' w₀ : World}
  {s s' : State}

/-! ### Passing positions -/

theorem passingBound_take_succ {k : Nat} (h : steps[k]? = some step) :
    passingBound (steps.take (k + 1)) =
      (step.loopLimit + 1) * (passingBound (steps.take k) + 1) := by
  unfold passingBound
  rw [List.take_add_one, h, List.foldl_append]
  rfl

/-- The visits of a position take no more than the bound grows by. -/
theorem passingBound_add_visitsAt_le (steps : List Step) (c : Cursor) (k : Nat) :
    passingBound (steps.take k) + visitsAt steps c k ≤ passingBound (steps.take (k + 1)) := by
  unfold visitsAt
  cases h : steps[k]? with
  | none =>
    have hlen : steps.length ≤ k := List.getElem?_eq_none_iff.mp h
    rw [List.take_of_length_le hlen, List.take_of_length_le (by omega)]
    exact Nat.le_refl _
  | some step =>
    rw [passingBound_take_succ h]
    have hsub := Nat.sub_le step.loopLimit (c.iterations (loopKey step k)).toNat
    have hmul := Nat.mul_le_mul_right (passingBound (steps.take k) + 1) hsub
    rw [Nat.add_mul, Nat.one_mul]
    dsimp only
    omega

theorem sum_range_visitsAt_le (steps : List Step) (c : Cursor) (p : Nat) :
    ∑ k ∈ Finset.range p, visitsAt steps c k ≤ passingBound (steps.take p) := by
  induction p with
  | zero => exact Nat.zero_le _
  | succ p ih =>
    rw [Finset.sum_range_succ]
    have := passingBound_add_visitsAt_le steps c p
    omega

theorem sum_visitsAt_le (steps : List Step) (c : Cursor) (p q : Nat) :
    ∑ k ∈ Finset.Ico q p, visitsAt steps c k ≤ passingBound (steps.take p) := by
  refine Nat.le_trans (Finset.sum_le_sum_of_subset ?_) (sum_range_visitsAt_le steps c p)
  intro k hk
  rw [Finset.mem_Ico] at hk
  exact Finset.mem_range.mpr hk.2

theorem visitsLeft_le (steps : List Step) (c : Cursor) :
    visitsLeft steps c ≤ passingBound steps := by
  have := sum_visitsAt_le steps c steps.length c.index
  rwa [List.take_length] at this

/-- Only the counter of its own position matters for the visits of a position. -/
theorem visitsAt_congr {k : Nat}
    (h : ∀ step, steps[k]? = some step →
      c'.iterations (loopKey step k) = c.iterations (loopKey step k)) :
    visitsAt steps c' k = visitsAt steps c k := by
  unfold visitsAt
  cases hk : steps[k]? with
  | none => rfl
  | some step =>
    dsimp only
    rw [h step hk]

theorem visitsLeft_eq_add (hs : steps[c.index]? = some step) :
    visitsLeft steps c = visitsAt steps c c.index
      + ∑ k ∈ Finset.Ico (c.index + 1) steps.length, visitsAt steps c k := by
  obtain ⟨hlt, -⟩ := List.getElem?_eq_some_iff.mp hs
  exact Finset.sum_eq_sum_Ico_succ_bot hlt _

theorem visitsLeft_congr (hi : c'.index = c.index)
    (h : ∀ key, c'.iterations key = c.iterations key) :
    visitsLeft steps c' = visitsLeft steps c := by
  unfold visitsLeft
  rw [hi]
  exact Finset.sum_congr rfl fun k _ => visitsAt_congr fun _ _ => h _

/-- Passing a position takes one of the visits that are left. -/
theorem visitsLeft_lt_of_passed (hs : steps[c.index]? = some step)
    (hi : c'.index = c.index + 1)
    (hk : ∀ key, key ≠ loopKey step c.index → c'.iterations key = c.iterations key) :
    visitsLeft steps c' < visitsLeft steps c := by
  have hrest : visitsLeft steps c'
      = ∑ k ∈ Finset.Ico (c.index + 1) steps.length, visitsAt steps c k := by
    unfold visitsLeft
    rw [hi]
    refine Finset.sum_congr rfl fun k hmem => visitsAt_congr fun other _ => hk _ ?_
    rw [Finset.mem_Ico] at hmem
    exact loopKey_ne (by omega)
  have hown : 1 ≤ visitsAt steps c c.index := by
    unfold visitsAt
    rw [hs]
    exact Nat.le_add_right 1 _
  rw [visitsLeft_eq_add hs, hrest]
  omega

/-- Stepping back takes one of the visits that are left: the repetition it takes away is worth more
than the positions it leads back over. -/
theorem visitsLeft_lt_of_loopBack {d : LoopDecision} (hc : c.Counted)
    (hs : steps[c.index]? = some step) (hb : 0 ≤ d.stepsBack)
    (hle : c.iterations (loopKey step c.index) + 1 ≤ step.loopLimit) :
    visitsLeft steps (c.loopBack d (loopKey step c.index)) < visitsLeft steps c := by
  obtain ⟨hlt, -⟩ := List.getElem?_eq_some_iff.mp hs
  have hback := index_loopBack_le c (loopKey step c.index) hb
  generalize hc' : c.loopBack d (loopKey step c.index) = c' at hback ⊢
  have hother : ∀ k, k ≠ c.index → visitsAt steps c' k = visitsAt steps c k := by
    intro k hk
    refine visitsAt_congr fun other _ => ?_
    rw [← hc']
    exact iterations_loopBack_of_ne c d (loopKey_ne hk)
  -- What is led back over starts anew, counters included, and stays within the bound.
  have hbefore := sum_visitsAt_le steps c' c.index c'.index
  have hafter : ∑ k ∈ Finset.Ico (c.index + 1) steps.length, visitsAt steps c' k
      = ∑ k ∈ Finset.Ico (c.index + 1) steps.length, visitsAt steps c k := by
    refine Finset.sum_congr rfl fun k hk => hother k ?_
    rw [Finset.mem_Ico] at hk
    omega
  -- One repetition less at the position itself.
  have hown : visitsAt steps c' c.index + (passingBound (steps.take c.index) + 1)
      = visitsAt steps c c.index := by
    unfold visitsAt
    rw [hs]
    dsimp only
    have hn := hc (loopKey step c.index)
    obtain ⟨n, hn'⟩ := Int.eq_ofNat_of_zero_le hn
    rw [← hc', iterations_loopBack_self, hn']
    rw [hn'] at hle
    have hsub : step.loopLimit - ((n : Int)).toNat
        = (step.loopLimit - ((n : Int) + 1).toNat) + 1 := by omega
    rw [hsub, Nat.add_mul]
    omega
  have hsplit : visitsLeft steps c'
      = ∑ k ∈ Finset.Ico c'.index c.index, visitsAt steps c' k
        + (visitsAt steps c' c.index
          + ∑ k ∈ Finset.Ico (c.index + 1) steps.length, visitsAt steps c' k) := by
    unfold visitsLeft
    rw [← Finset.sum_Ico_consecutive _ hback hlt.le, Finset.sum_eq_sum_Ico_succ_bot hlt]
  rw [hsplit, hafter, visitsLeft_eq_add hs]
  omega

/-! ### Every transition leaves fewer turns -/

theorem Takes.counted (h : Takes f w s (.next s') w') (hc : s.cursor.Counted) :
    s'.cursor.Counted := by
  cases h with
  | takenUp _ hp _ =>
    obtain ⟨rest, -, rfl⟩ := pop_eq_some hp
    exact hc
  | @loopedBack _ _ _ _ _ _ _ d _ _ _ _ _ => exact hc.loopBack d _
  | wentOn _ _ _ => exact counted_settled hc _ _ _
  | _ => exact hc

theorem Trail.counted {trail : List Point} (ht : Trail f w₀ trail) :
    ∀ p ∈ trail, p.2.cursor.Counted :=
  ht.forall_state counted_initial fun hc h => h.counted hc

theorem limit_of_activeLoop? {l : LoopBehavior} (hl : LoopsLimited steps) {k : Nat}
    (hs : steps[k]? = some step) (ha : step.activeLoop? = some l) :
    l.maxIterations = some step.loopLimit := by
  obtain ⟨m, hm⟩ := Option.isSome_iff_exists.mp (hl step (List.mem_of_getElem? hs) l ha)
  simp [Step.loopLimit, ha, hm]

/-- A turn within a round changes nothing that rounds are counted by. -/
theorem turnsLeft_lt_of_rank {ms ms' : List String} {p p' : Phase} (hi : c'.index = c.index)
    (hn : ∀ key, c'.iterations key = c.iterations key) (hq : c'.pending = c.pending)
    (hr : p'.rank < p.rank) : turnsLeft steps ⟨c', ms', p'⟩ < turnsLeft steps ⟨c, ms, p⟩ := by
  unfold turnsLeft roundsLeft
  dsimp only
  rw [visitsLeft_congr hi hn, hq]
  omega

/-- A visit that is used up outweighs the step that it may have queued. -/
theorem turnsLeft_lt_of_visits {ms ms' : List String} {p : Phase}
    (hv : visitsLeft steps c' < visitsLeft steps c)
    (hq : c'.pending.length ≤ c.pending.length + 1) :
    turnsLeft steps ⟨c', ms', .head⟩ < turnsLeft steps ⟨c, ms, p⟩ := by
  unfold turnsLeft roundsLeft
  dsimp only [Phase.rank]
  omega

/-- Every transition makes the turns that are left fewer. -/
theorem Takes.turnsLeft_lt (hl : LoopsLimited f.steps) (hp : f.Placed s) (hc : s.cursor.Counted)
    (h : Takes f w s (.next s') w') : turnsLeft f.steps s' < turnsLeft f.steps s := by
  have hstay : ∀ n : Nat, n ≤ n + 1 := fun n => Nat.le_succ n
  cases h with
  | @takenUp c _ _ _ id _ _ hpop _ =>
    obtain ⟨rest, hrest, rfl⟩ := pop_eq_some hpop
    have hv : visitsLeft f.steps { c with pending := rest, inFlight := insertNew c.inFlight id }
        = visitsLeft f.steps c := visitsLeft_congr rfl fun _ => rfl
    unfold turnsLeft roundsLeft
    -- The step that is no longer queued pays for the two turns that it takes.
    simp only [hv, hrest, List.length_cons, Phase.rank]
    omega
  | passed _ _ hs _ =>
    exact turnsLeft_lt_of_visits (visitsLeft_lt_of_passed hs rfl fun _ _ => rfl) (hstay _)
  | started _ _ _ _ _ _ => exact turnsLeft_lt_of_rank rfl (fun _ => rfl) rfl (by simp [Phase.rank])
  | executed _ => exact turnsLeft_lt_of_rank rfl (fun _ => rfl) rfl (by simp [Phase.rank])
  | tolerated =>
    obtain ⟨rfl, hs⟩ := hp.of_attempt
    exact turnsLeft_lt_of_visits (visitsLeft_lt_of_passed hs rfl fun _ _ => rfl) (hstay _)
  | recorded _ => exact turnsLeft_lt_of_rank rfl (fun _ => rfl) rfl (by simp [Phase.rank])
  | @loopedBack c _ _ _ _ _ _ d _ _ _ hloop hd =>
    obtain ⟨rfl, hs⟩ := hp.of_recorded
    obtain ⟨l, ha, hb, -, hlimit⟩ := activeLoop?_of_evaluate hloop
    have hv := visitsLeft_lt_of_loopBack (c := c) (d := d) hc hs (by omega)
      (hlimit hd _ (limit_of_activeLoop? hl hs ha))
    exact turnsLeft_lt_of_visits hv (hstay _)
  | @wentOn c _ _ _ step output signal _ _ _ _ =>
    obtain ⟨rfl, hs⟩ := hp.of_recorded
    have hv := visitsLeft_lt_of_passed hs
      (index_settled c step c.index (verdict c step c.index output signal))
      fun _ hk => iterations_settled_of_ne c _ hk
    exact turnsLeft_lt_of_visits hv (length_pending_settled_le ..)
  | triggeredExecuted _ => exact turnsLeft_lt_of_rank rfl (fun _ => rfl) rfl (by simp [Phase.rank])
  | triggeredTolerated _ _ =>
    exact turnsLeft_lt_of_rank rfl (fun _ => rfl) rfl (by simp [Phase.rank])
  | handedBack _ _ => exact turnsLeft_lt_of_rank rfl (fun _ => rfl) rfl (by simp [Phase.rank])

/-! ### Whole runs -/

/-- The rounds that have begun. -/
def rounds (trail : List Point) : Nat := trail.countP fun p => decide (p.2.phase = .head)

theorem turnsLeft_start_le (steps : List Step) (completed notCompleted : List Int) :
    turnsLeft steps ⟨Cursor.initial completed notCompleted, [], .head⟩ + 1
      ≤ 4 * roundBound steps := by
  have hv := visitsLeft_le steps (Cursor.initial completed notCompleted)
  show 4 * (2 * visitsLeft steps (Cursor.initial completed notCompleted) + 0) + 3 + 1
    ≤ 4 * (2 * passingBound steps + 1)
  omega

theorem four_mul_roundBound_le_maxTurns (f : Workflow) : 4 * roundBound f.steps ≤ f.maxTurns := by
  unfold maxTurns
  exact le_max_right _ _

theorem turnsLeft_head_mod (steps : List Step) (h : s.phase = .head) :
    turnsLeft steps s % 4 = 3 := by
  unfold turnsLeft
  rw [h]
  show (4 * roundsLeft steps s.cursor + 3) % 4 = 3
  omega

theorem Trail.turnsLeft_lt {trail : List Point} {p q : Point} (hl : LoopsLimited f.steps)
    (ht : Trail f w₀ (q :: p :: trail)) : turnsLeft f.steps q.2 < turnsLeft f.steps p.2 := by
  cases ht with
  | next ht h =>
    exact (takes_of_turn h).turnsLeft_lt hl (ht.placed _ (List.mem_cons_self ..))
      (ht.counted _ (List.mem_cons_self ..))

/-- The rounds begun before a point and those that may begin from it on are within the bound. -/
theorem Trail.rounds_add_le {trail : List Point} {p : Point} (hl : LoopsLimited f.steps)
    (ht : Trail f w₀ (p :: trail)) :
    rounds trail + (turnsLeft f.steps p.2 + 1) / 4 ≤ roundBound f.steps := by
  induction trail generalizing p with
  | nil =>
    cases ht with
    | start h =>
      obtain ⟨p, log, -, -, rfl⟩ := start_spec h
      have := turnsLeft_start_le f.steps p.completed p.notCompleted
      show 0 + (turnsLeft f.steps ⟨Cursor.initial p.completed p.notCompleted, [], .head⟩ + 1) / 4
        ≤ roundBound f.steps
      omega
  | cons q trail ih =>
    have hlt := ht.turnsLeft_lt hl
    have hprev := ih ht.tail
    unfold rounds at hprev ⊢
    rw [List.countP_cons]
    -- The number of turns left from a head on is three above a multiple of four, so the point after
    -- a head has fallen below that multiple and the round is paid for.
    by_cases hq : q.2.phase = .head
    · have hmod := turnsLeft_head_mod f.steps hq
      simp only [hq, decide_true, if_true]
      omega
    · simp only [hq, decide_false, Bool.false_eq_true, if_false]
      omega

theorem Trail.rounds_le {trail : List Point} (hl : LoopsLimited f.steps)
    (ht : Trail f w₀ trail) : rounds trail ≤ roundBound f.steps := by
  cases trail with
  | nil => exact Nat.zero_le _
  | cons p trail =>
    have hle := ht.rounds_add_le hl
    unfold rounds at hle ⊢
    rw [List.countP_cons]
    by_cases hp : p.2.phase = .head
    · have hmod := turnsLeft_head_mod f.steps hp
      simp only [hp, decide_true, if_true]
      omega
    · simp only [hp, decide_false, Bool.false_eq_true, if_false]
      omega

/-- The turns that have been taken and those that are left are fewer than the fuel of a run. -/
theorem Trail.length_add_turnsLeft_lt {trail : List Point} {p : Point} (hl : LoopsLimited f.steps)
    (ht : Trail f w₀ (p :: trail)) : trail.length + turnsLeft f.steps p.2 < f.maxTurns := by
  induction trail generalizing p with
  | nil =>
    cases ht with
    | start h =>
      obtain ⟨p, log, -, -, rfl⟩ := start_spec h
      have hstart := turnsLeft_start_le f.steps p.completed p.notCompleted
      have hfuel := four_mul_roundBound_le_maxTurns f
      show 0 + turnsLeft f.steps ⟨Cursor.initial p.completed p.notCompleted, [], .head⟩ < f.maxTurns
      omega
  | cons q trail ih =>
    have hlt := ht.turnsLeft_lt hl
    have hprev := ih ht.tail
    rw [List.length_cons]
    omega

/-- Where every loop has a limit, the fuel of a run lasts for every trail. -/
theorem Ends.exec_run_of_loopsLimited {trail : List Point} {o : Outcome}
    (hl : LoopsLimited f.steps) (h : Ends f w₀ trail o w) : f.run.exec w₀ = (.ok o, w) := by
  refine h.exec_run ?_
  cases h with
  | intro ht _ =>
    have := ht.length_add_turnsLeft_lt hl
    rw [List.length_cons]
    omega

/-- A run that has no more turns left than fuel halts. -/
theorem halts_of_runFrom {fuel : Nat} {trail : List Point} (hl : LoopsLimited f.steps)
    (ht : Trail f w₀ ((w, s) :: trail)) (hfuel : turnsLeft f.steps s < fuel) :
    Halts f w₀ ((f.runFrom fuel s).exec w).1 ((f.runFrom fuel s).exec w).2 := by
  induction fuel generalizing w s trail with
  | zero => exact absurd hfuel (Nat.not_lt_zero _)
  | succ fuel ih =>
    unfold runFrom
    rw [exec_bind]
    rcases h : (f.turn s).exec w with ⟨(e | t), w'⟩
    · exact .failed ht h
    · cases t with
      | done o => exact .ended (.intro ht h)
      | next s' =>
        have hnext := Trail.next ht h
        have hlt := hnext.turnsLeft_lt hl
        dsimp only at hlt
        exact ih hnext (by omega)

/-- A run in whose list every loop has a limit halts, and the rounds it takes are bounded by a
number that depends on the list alone. -/
theorem halts_within_roundBound (hl : LoopsLimited f.steps) (w₀ : World) :
    (∀ trail, Trail f w₀ trail → rounds trail ≤ roundBound f.steps) ∧
      Halts f w₀ (f.run.exec w₀).1 (f.run.exec w₀).2 := by
  refine ⟨fun trail ht => ht.rounds_le hl, ?_⟩
  have hfuel := four_mul_roundBound_le_maxTurns f
  unfold run
  generalize f.maxTurns = fuel at hfuel ⊢
  rw [exec_bind]
  rcases h : f.start.exec w₀ with ⟨(e | s), w⟩
  · exact .unstarted h
  · refine halts_of_runFrom hl (.start h) ?_
    obtain ⟨p, log, -, -, rfl⟩ := start_spec h
    have hturns := turnsLeft_start_le f.steps p.completed p.notCompleted
    omega

/-- Two loops, the outer one of which leads back over the inner one, and agents that ask for every
repetition. -/
def nested : Workflow :=
  { steps :=
      [{ agentId := "draft", agentName := "Draft", promptPath := "draft.md" },
       { agentId := "review", agentName := "Review", promptPath := "review.md"
         behavior := some (.loop ⟨1, "AGAIN", some 2, [], Nat.one_pos,
           fun _ h => Option.some.inj h ▸ Nat.two_pos⟩) },
       { agentId := "release", agentName := "Release", promptPath := "release.md"
         behavior := some (.loop ⟨2, "AGAIN", some 3, [], Nat.two_pos,
           fun _ h => Option.some.inj h ▸ Nat.succ_pos 2⟩) }]
    shop :=
      { engine := fun w _ => { store := w.store, result := .ok "AGAIN" }
        dir := ⟨.slash, ["work"]⟩
        stateDir := ⟨.none, ["state"]⟩
        loader := fun _ _ _ => .ok "prompt" }
    signals := .mailbox }

theorem loopsLimited_nested : LoopsLimited nested.steps := by
  intro step hs l hl
  simp only [nested, List.mem_cons, List.not_mem_nil, or_false] at hs
  rcases hs with rfl | rfl | rfl
  · cases hl
  · unfold Step.activeLoop? at hl
    dsimp only at hl
    split at hl
    · cases hl
      rfl
    · cases hl
  · unfold Step.activeLoop? at hl
    dsimp only at hl
    split at hl
    · cases hl
      rfl
    · cases hl

theorem nested_halts_within :
    LoopsLimited nested.steps ∧ roundBound nested.steps = 57 ∧
      (∀ trail, Trail nested { store := .empty, cwd := ⟨.slash, []⟩ } trail → rounds trail ≤ 57) ∧
      Halts nested { store := .empty, cwd := ⟨.slash, []⟩ }
        (nested.run.exec { store := .empty, cwd := ⟨.slash, []⟩ }).1
        (nested.run.exec { store := .empty, cwd := ⟨.slash, []⟩ }).2 := by
  have hb : roundBound nested.steps = 57 := by rfl
  have h := halts_within_roundBound loopsLimited_nested { store := .empty, cwd := ⟨.slash, []⟩ }
  refine ⟨loopsLimited_nested, hb, fun trail ht => ?_, h.2⟩
  rw [← hb]
  exact h.1 trail ht

end Conductor.Workflow
