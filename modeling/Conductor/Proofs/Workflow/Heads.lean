import Conductor.Proofs.Workflow.HotLoop
import Conductor.Proofs.Workflow.Rounds

/-!
# What holds at the head of a round

Between two rounds nothing is left over.  The cursor stands on a step or behind the last one, no id
is at work, at most one id waits to be run out of order, the hot loop is that of a step which is not
passed and has stepped back, and no counter is above its loop's limit (`AtRest`).  Main statement:
every run is at rest at the head of each of its rounds, and nothing waits when a step of the main
sequence starts (`atRest_of_head`).

Each part is kept by every transition.  An id is queued only at the end of a round in which nothing
waited, and whatever waits is taken up first in the next round; so a queue has room for one id at a
head and for none within a round (`Phase.room`).  The id that a round puts to work is that of its
step or of its trigger, and the end of the round releases it (`Phase.atWork`).
-/

namespace Conductor.Workflow

open Cursor

/-- The ids at work in a phase. -/
def Phase.atWork : Phase → List String
  | head => []
  | attempt _ step _ _ => [step.agentId]
  | returned _ step _ => [step.agentId]
  | recorded _ step _ => [step.agentId]
  | triggered id _ => [id]
  | handedBack id _ => [id]

/-- How many ids may wait in a phase. -/
def Phase.room : Phase → Nat
  | head => 1
  | _ => 0

/-- The hot loop is that of a step of the list, whose skip set it has and which has stepped back. -/
def Anchored (steps : List Step) (c : Cursor) : Prop :=
  ∀ h, c.hot = some h → ∃ step l, steps[h.anchor]? = some step ∧ step.activeLoop? = some l ∧
    h.skip = l.skip ∧ 1 ≤ c.iterations (loopKey step h.anchor)

/-- No loop of the list is counted above its limit, whether or not it can ever repeat. -/
def WithinLimits (steps : List Step) (c : Cursor) : Prop :=
  ∀ (k : Nat) step l m, steps[k]? = some step → step.behavior = some (.loop l) →
    l.maxIterations = some m → c.iterations (loopKey step k) ≤ m

/-- What holds between two rounds. -/
structure AtRest (f : Workflow) (s : State) : Prop where
  index_le : s.cursor.index ≤ f.steps.length
  inFlight_eq : s.cursor.inFlight = []
  length_pending_le : s.cursor.pending.length ≤ 1
  hot : ∀ h, s.cursor.hot = some h → s.cursor.index ≤ h.anchor ∧ h.anchor < f.steps.length ∧
    ∃ step l, f.steps[h.anchor]? = some step ∧ step.activeLoop? = some l ∧ h.skip = l.skip ∧
      1 ≤ s.cursor.iterations (loopKey step h.anchor)
  withinLimits : WithinLimits f.steps s.cursor

variable {f : Workflow} {steps : List Step} {c : Cursor} {step : Step} {w w' w₀ : World}
  {s s' : State} {trail : List Point}

/-! ### The parts of a transition -/

theorem inFlight_settled (c : Cursor) (step : Step) (index : Nat) (v : Verdict) :
    (settled c step index v).inFlight = eraseAll c.inFlight step.agentId := by
  obtain ⟨pending, -, h⟩ := settled_eq c step index v
  rw [h]
  split <;> rfl

/-- Where a loop is hot behind a verdict, none was left: it was hot before, and every counter stands
as it was. -/
theorem iterations_settled_of_hot {index : Nat} {v : Verdict} {h : HotLoop}
    (hot : (settled c step index v).hot = some h) :
    c.hot = some h ∧ ∀ key, (settled c step index v).iterations key = c.iterations key := by
  rw [hot_settled] at hot
  obtain ⟨pending, -, hs⟩ := settled_eq c step index v
  split at hot
  · cases hot
  · next hv =>
    rw [if_neg hv] at hs
    rw [hs]
    exact ⟨(Option.filter_eq_some_iff.mp hot).1, fun _ => rfl⟩

/-! ### Every transition keeps the parts -/

theorem Takes.index_le (h : Takes f w s (.next s') w') (hp : f.Placed s)
    (hi : s.cursor.index ≤ f.steps.length) : s'.cursor.index ≤ f.steps.length := by
  have hlt : ∀ {index : Nat} {step : Step}, f.steps[index]? = some step →
      index < f.steps.length := fun hs => (List.getElem?_eq_some_iff.mp hs).1
  cases h with
  | takenUp _ hpop _ =>
    obtain ⟨rest, -, rfl⟩ := pop_eq_some hpop
    exact hi
  | passed _ _ hs _ => exact hlt hs
  | started => exact hi
  | executed => exact hi
  | tolerated =>
    obtain ⟨rfl, hs⟩ := hp.of_attempt
    exact hlt hs
  | recorded => exact hi
  | @loopedBack c _ _ index step _ _ d _ _ _ hl _ =>
    obtain ⟨l, -, hb, -⟩ := activeLoop?_of_evaluate hl
    have hle := index_loopBack_le c (d := d) (loopKey step index) (by omega)
    exact Nat.le_trans hle hi
  | wentOn =>
    obtain ⟨rfl, hs⟩ := hp.of_recorded
    dsimp only
    rw [index_settled]
    exact hlt hs
  | triggeredExecuted => exact hi
  | triggeredTolerated => exact hi
  | handedBack => exact hi

theorem Takes.inFlight_eq (h : Takes f w s (.next s') w')
    (hw : s.cursor.inFlight = s.phase.atWork) : s'.cursor.inFlight = s'.phase.atWork := by
  cases h with
  | takenUp _ hpop _ =>
    obtain ⟨rest, -, rfl⟩ := pop_eq_some hpop
    show insertNew _ _ = _
    rw [hw]
    rfl
  | passed => exact hw
  | started =>
    show insertNew _ _ = _
    rw [hw]
    rfl
  | executed => exact hw
  | tolerated =>
    show eraseAll _ _ = _
    rw [hw]
    exact eraseAll_singleton _
  | recorded => exact hw
  | @loopedBack c _ _ _ step =>
    show eraseAll c.inFlight step.agentId = _
    rw [hw]
    exact eraseAll_singleton _
  | wentOn =>
    rw [inFlight_settled, hw]
    exact eraseAll_singleton _
  | triggeredExecuted => exact hw
  | triggeredTolerated =>
    show eraseAll _ _ = _
    rw [hw]
    exact eraseAll_singleton _
  | handedBack =>
    show eraseAll _ _ = _
    rw [hw]
    exact eraseAll_singleton _

theorem Takes.length_pending_le (h : Takes f w s (.next s') w')
    (hq : s.cursor.pending.length ≤ s.phase.room) :
    s'.cursor.pending.length ≤ s'.phase.room := by
  have hroom : ∀ n, n ≤ 0 → n ≤ Phase.head.room := fun n hn => Nat.le_succ_of_le hn
  cases h with
  | takenUp _ hpop _ =>
    obtain ⟨rest, hrest, rfl⟩ := pop_eq_some hpop
    dsimp only at hq
    rw [hrest, List.length_cons] at hq
    exact Nat.le_of_succ_le_succ hq
  | passed => exact hq
  | @started c _ _ _ _ _ _ _ hnone =>
    show c.pending.length ≤ 0
    rw [hnone]
    exact Nat.le_refl 0
  | executed => exact hq
  | tolerated => exact hroom _ hq
  | recorded => exact hq
  | loopedBack => exact hroom _ hq
  | wentOn => exact Nat.le_trans (length_pending_settled_le ..) (Nat.succ_le_succ hq)
  | triggeredExecuted => exact hq
  | triggeredTolerated => exact hroom _ hq
  | handedBack => exact hroom _ hq

theorem Takes.anchored (h : Takes f w s (.next s') w') (hp : f.Placed s) (hc : s.cursor.Counted)
    (ha : Anchored f.steps s.cursor) : Anchored f.steps s'.cursor := by
  -- A hot loop that cools down where it is passed is the hot loop until then.
  have hadvance : ∀ {c : Cursor}, Anchored f.steps c → Anchored f.steps c.advance :=
    fun hc h hot => hc h (Option.filter_eq_some_iff.mp hot).1
  cases h with
  | takenUp _ hpop _ =>
    obtain ⟨rest, -, rfl⟩ := pop_eq_some hpop
    exact ha
  | passed => exact hadvance ha
  | started => exact ha
  | executed => exact ha
  | @tolerated c _ _ _ step => exact hadvance (c := c.release step.agentId) ha
  | recorded => exact ha
  | @loopedBack c _ _ _ step _ _ d _ _ _ hl _ =>
    obtain ⟨rfl, hs⟩ := hp.of_recorded
    obtain ⟨l, hactive, -, hskip, -⟩ := activeLoop?_of_evaluate hl
    rintro h ⟨⟩
    refine ⟨step, l, hs, hactive, hskip, ?_⟩
    show 1 ≤ (c.loopBack d (loopKey step c.index)).iterations (loopKey step c.index)
    rw [iterations_loopBack_self]
    have := hc (loopKey step c.index)
    dsimp only at this
    omega
  | wentOn =>
    intro h hot
    obtain ⟨hbefore, hn⟩ := iterations_settled_of_hot hot
    obtain ⟨step, l, hs, hactive, hskip, hone⟩ := ha h hbefore
    rw [← hn] at hone
    exact ⟨step, l, hs, hactive, hskip, hone⟩
  | triggeredExecuted => exact ha
  | triggeredTolerated => exact ha
  | handedBack => exact ha

theorem Takes.withinLimits (h : Takes f w s (.next s') w') (hp : f.Placed s)
    (hl : WithinLimits f.steps s.cursor) : WithinLimits f.steps s'.cursor := by
  cases h with
  | takenUp _ hpop _ =>
    obtain ⟨rest, -, rfl⟩ := pop_eq_some hpop
    exact hl
  | @loopedBack c _ _ _ step _ _ d _ _ _ hloop hd =>
    obtain ⟨rfl, hs⟩ := hp.of_recorded
    obtain ⟨l', hactive, -, -, hlimit⟩ := activeLoop?_of_evaluate hloop
    intro k other l m hk hb hm
    show (c.loopBack d (loopKey step c.index)).iterations (loopKey other k) ≤ m
    by_cases hki : k = c.index
    · -- The loop that steps back was below its limit.
      subst hki
      cases hs.symm.trans hk
      cases hb.symm.trans (Step.behavior_of_activeLoop? hactive)
      rw [iterations_loopBack_self]
      exact hlimit hd m hm
    · rw [iterations_loopBack_of_ne c d (loopKey_ne hki)]
      exact hl k other l m hk hb hm
  | @wentOn c _ _ _ step output signal _ _ _ _ =>
    obtain ⟨rfl, hs⟩ := hp.of_recorded
    intro k other l m hk hb hm
    show (settled c step c.index _).iterations (loopKey other k) ≤ m
    by_cases hki : k = c.index
    · subst hki
      cases hs.symm.trans hk
      obtain ⟨pending, -, hsettled⟩ := settled_eq c step c.index
        (verdict c step c.index output signal)
      rw [hsettled]
      split
      · show (c.endLoop (loopKey step c.index)).iterations (loopKey step c.index) ≤ m
        rw [iterations_endLoop_self]
        exact Int.natCast_nonneg m
      · exact hl c.index step l m hk hb hm
    · rw [iterations_settled_of_ne c _ (loopKey_ne hki)]
      exact hl k other l m hk hb hm
  | _ => exact hl

/-! ### Heads -/

theorem anchored_initial (steps : List Step) (completed notCompleted : List Int) :
    Anchored steps (Cursor.initial completed notCompleted) := nofun

theorem withinLimits_initial (steps : List Step) (completed notCompleted : List Int) :
    WithinLimits steps (Cursor.initial completed notCompleted) :=
  fun _ _ _ m _ _ _ => Int.natCast_nonneg m

/-- What holds at the start and is kept by every transition from a state in which a step under way
is the one at the cursor and no counter is below zero holds all along a trail. -/
theorem Trail.forall_state_of_placed {P : State → Prop}
    (hstart : ∀ completed notCompleted, P ⟨Cursor.initial completed notCompleted, [], .head⟩)
    (hstep : ∀ {w s w' s'}, f.Placed s → s.cursor.Counted → P s → Takes f w s (.next s') w' → P s')
    (ht : Trail f w₀ trail) : ∀ p ∈ trail, P p.2 := by
  have h : ∀ p ∈ trail, f.Placed p.2 ∧ p.2.cursor.Counted ∧ P p.2 :=
    Trail.forall_state (P := fun s => f.Placed s ∧ s.cursor.Counted ∧ P s)
      (fun _ _ => ⟨trivial, counted_initial _ _, hstart _ _⟩)
      (fun ⟨hp, hc, hs⟩ h => ⟨h.placed hp, h.counted hc, hstep hp hc hs h⟩) ht
  exact fun p hp => (h p hp).2.2

theorem Trail.index_le (ht : Trail f w₀ trail) :
    ∀ p ∈ trail, p.2.cursor.index ≤ f.steps.length :=
  Trail.forall_state_of_placed (P := fun s => s.cursor.index ≤ f.steps.length)
    (fun _ _ => Nat.zero_le _) (fun hp _ hs h => h.index_le hp hs) ht

theorem Trail.inFlight_eq (ht : Trail f w₀ trail) :
    ∀ p ∈ trail, p.2.cursor.inFlight = p.2.phase.atWork :=
  ht.forall_state (fun _ _ => rfl) fun hs h => h.inFlight_eq hs

theorem Trail.length_pending_le (ht : Trail f w₀ trail) :
    ∀ p ∈ trail, p.2.cursor.pending.length ≤ p.2.phase.room :=
  ht.forall_state (fun _ _ => Nat.zero_le _) fun hs h => h.length_pending_le hs

theorem Trail.anchored (ht : Trail f w₀ trail) : ∀ p ∈ trail, Anchored f.steps p.2.cursor :=
  Trail.forall_state_of_placed (P := fun s => Anchored f.steps s.cursor)
    (fun _ _ => anchored_initial _ _ _) (fun hp hc hs h => h.anchored hp hc hs) ht

theorem Trail.withinLimits (ht : Trail f w₀ trail) :
    ∀ p ∈ trail, WithinLimits f.steps p.2.cursor :=
  Trail.forall_state_of_placed (P := fun s => WithinLimits f.steps s.cursor)
    (fun _ _ => withinLimits_initial _ _ _) (fun hp _ hs h => h.withinLimits hp hs) ht

/-- Every run is at rest at the head of each of its rounds, nothing waits when a step of the main
sequence starts, and the counters of different positions are kept apart. -/
theorem atRest_of_head (ht : Trail f w₀ ((w, s) :: trail)) :
    (s.phase = .head → AtRest f s) ∧
      (∀ index step run identity, s.phase = .attempt index step run identity →
        s.cursor.pending = []) ∧
      ∀ (step other : Step) (i j : Nat), i ≠ j → loopKey step i ≠ loopKey other j := by
  have hmem : (w, s) ∈ (w, s) :: trail := List.mem_cons_self ..
  have hq := ht.length_pending_le _ hmem
  refine ⟨fun hhead => ?_, fun index step run identity hphase => ?_,
    fun step other i j hij => loopKey_ne hij⟩
  · have hw := ht.inFlight_eq _ hmem
    dsimp only at hq hw
    rw [hhead] at hq hw
    refine ⟨ht.index_le _ hmem, hw, hq, fun h hot => ?_, ht.withinLimits _ hmem⟩
    obtain ⟨step, l, hs, hrest⟩ := ht.anchored _ hmem h hot
    exact ⟨ht.warm _ hmem h hot, (List.getElem?_eq_some_iff.mp hs).1, step, l, hs, hrest⟩
  · dsimp only at hq
    rw [hphase] at hq
    exact List.length_eq_zero_iff.mp (Nat.le_zero.mp hq)

/-- A review has stepped back to the first of three steps. -/
theorem overlapping_atRest :
    ∃ w s trail, Trail overlapping default ((w, s) :: trail) ∧ s.phase = .head ∧
      s.cursor.hot = some ⟨2, ["draft"]⟩ ∧ AtRest overlapping s := by
  have ht : Trail overlapping default (overlapping.points default 12) :=
    trail_points (List.ne_nil_of_length_pos (by decide +kernel))
  have hphase : ((overlapping.points default 12).getD 0 default).2.phase = .head := by
    decide +kernel
  have hhot : ((overlapping.points default 12).getD 0 default).2.cursor.hot
      = some ⟨2, ["draft"]⟩ := by decide +kernel
  obtain ⟨⟨w, s⟩, trail, hs⟩ := List.exists_cons_of_ne_nil ht.ne_nil
  rw [hs] at ht hphase hhot
  exact ⟨w, s, trail, ht, hphase, hhot, (atRest_of_head ht).1 hphase⟩

end Conductor.Workflow
