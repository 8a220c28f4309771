import Conductor.Proofs.Workflow.Attribution
import Conductor.Proofs.Workflow.Heads

/-!
# The walk of a run

A run is compared with a walk over positions that knows nothing of cursors, queues and turns.  The
walk begins at the first position, and where it goes from a position depends on how the visit there
ended (`Ending.next`): back by the loop's number of steps, no further than to the first position,
where the step was done and its verdict repeats the loop; else to the next one.  Main statement: the
positions that a run visits are those of the walk, and a run is completed iff it reaches the end of
the list with nothing queued and not cancelled, by when it has visited every position
(`visits_in_order`).

A transition ends the visit under way or leaves the cursor where it is (`Takes.walks`).  Hence
visits and endings alternate, and the cursor stands where the walk stands (`Trail.walks`).
-/

namespace Conductor.Workflow

open Act Cursor

/-- How a visit to a position ends where the run goes on. -/
inductive Ending where
  /-- The step is passed over. -/
  | passed (cause : SkipCause)
  /-- The step fails and the failure is tolerated. -/
  | tolerated
  /-- The step is done and its verdict does not repeat a loop. -/
  | done
  /-- The step is done and its verdict repeats its loop. -/
  | repeated (stepsBack : Nat)
  deriving DecidableEq, Repr

/-- Where a walk stands after a visit to a position. -/
def Ending.next (i : Nat) : Ending → Nat
  -- The subtraction stops at the first position.
  | repeated stepsBack => i - stepsBack
  | _ => i + 1

/-- The position whose visit begins at a point: the run is at a head and not cancelled, nothing is
queued and the cursor is at a step. -/
def visit? (f : Workflow) (p : Point) : Option Nat :=
  if p.2.phase = .head ∧ p.1.cancelled = false ∧ p.2.cursor.pending = [] ∧
      p.2.cursor.index < f.steps.length then some p.2.cursor.index
  else none

/-- The position whose visit ends in the turn from a point, and how it ends. -/
def ending? (f : Workflow) (p : Point) : Option (Nat × Ending) :=
  match p.2.phase with
  | .head => do
    let i ← f.visit? p
    let step ← f.steps[i]?
    let cause ← p.2.cursor.skipCause? step i
    some (i, .passed cause)
  | .attempt index step run identity =>
    match ((f.shop.execute run identity none).exec p.1).1 with
    | .error (.failed _) => if step.tolerant then some (index, .tolerated) else none
    | _ => none
  | .recorded index step output =>
    let v := verdict p.2.cursor step index output (f.unread? p.1)
    if v.checkpoint.isSome then none
    else if v.loop.any (·.repeats) then
      step.activeLoop?.map fun l => (index, .repeated l.stepsBack)
    else some (index, .done)
  | _ => none

/-- The positions whose visits begin in a part of a trail, the newest first. -/
def visits (f : Workflow) (trail : List Point) : List Nat := trail.filterMap f.visit?

/-- The visits that end in a part of a trail, the newest first. -/
def endings (f : Workflow) (trail : List Point) : List (Nat × Ending) := trail.filterMap f.ending?

/-- Where a walk stands after its visits, the newest first. -/
def stand : List (Nat × Ending) → Nat
  | [] => 0
  | (i, e) :: _ => e.next i

/-- Visits of a walk: each is to the position where the walk stands after the visits before it. -/
def Walk : List (Nat × Ending) → Prop
  | [] => True
  | (i, _) :: earlier => i = stand earlier ∧ Walk earlier

/-- The position of the visit that is under way. -/
def Phase.underWay : Phase → List Nat
  | attempt index .. => [index]
  | returned index .. => [index]
  | recorded index .. => [index]
  | _ => []

/-- A triggered step is at work or has just handed back. -/
def Phase.outOfOrder : Phase → Bool
  | triggered .. => true
  | handedBack .. => true
  | _ => false

/-- The run is at a head behind the last step, with nothing queued and not cancelled. -/
def AtEnd (f : Workflow) (p : Point) : Prop :=
  p.2.phase = .head ∧ p.1.cancelled = false ∧ p.2.cursor.pending = [] ∧
    p.2.cursor.index = f.steps.length

instance (f : Workflow) (p : Point) : Decidable (AtEnd f p) :=
  inferInstanceAs (Decidable (_ ∧ _ ∧ _ ∧ _))

variable {f : Workflow} {w w' w₀ : World} {s s' : State} {c : Cursor} {n p q : Point}
  {trail between older : List Point} {i : Nat} {o : Outcome}

/-! ### Walks -/

theorem Ending.next_le (e : Ending) (i : Nat) : e.next i ≤ i + 1 := by
  cases e with
  | repeated stepsBack => exact Nat.le_succ_of_le (Nat.sub_le i stepsBack)
  | _ => exact Nat.le_refl _

/-- A walk goes on by one position at most, so it has visited all positions before the one where it
stands. -/
theorem Walk.visited {es : List (Nat × Ending)} (h : Walk es) {k : Nat} (hk : k < stand es) :
    k ∈ es.map (·.1) := by
  induction es with
  | nil => exact absurd hk (Nat.not_lt_zero k)
  | cons visit earlier ih =>
    obtain ⟨i, e⟩ := visit
    obtain ⟨rfl, hearlier⟩ := h
    have hnext : e.next (stand earlier) ≤ stand earlier + 1 := e.next_le _
    have hle : k < stand earlier + 1 := Nat.lt_of_lt_of_le hk hnext
    rcases Nat.lt_succ_iff_lt_or_eq.mp hle with hlt | rfl
    · exact List.mem_cons_of_mem _ (ih hearlier hlt)
    · exact List.mem_cons_self ..

/-! ### What a transition does to the walk -/

theorem visit?_eq_some_iff : f.visit? p = some i ↔
    p.2.phase = .head ∧ p.1.cancelled = false ∧ p.2.cursor.pending = [] ∧
      p.2.cursor.index < f.steps.length ∧ p.2.cursor.index = i := by
  unfold visit?
  split
  · next h =>
    obtain ⟨hhead, hw, hq, hlt⟩ := h
    simp [hhead, hw, hq, hlt]
  · next h =>
    refine ⟨fun hnone => absurd hnone.symm (Option.some_ne_none i), ?_⟩
    rintro ⟨hhead, hw, hq, hlt, -⟩
    exact absurd ⟨hhead, hw, hq, hlt⟩ h

theorem visit?_of_step {step : Step} {ms : List String} (hw : w.cancelled = false)
    (hq : c.pending = []) (hs : f.steps[c.index]? = some step) :
    f.visit? (w, ⟨c, ms, .head⟩) = some c.index :=
  visit?_eq_some_iff.mpr ⟨rfl, hw, hq, (List.getElem?_eq_some_iff.mp hs).1, rfl⟩

theorem visit?_of_phase (h : p.2.phase ≠ .head) : f.visit? p = none := by
  unfold visit?
  exact if_neg fun hp => h hp.1

section

variable {step : Step} {index : Nat} {output : String} {signal : Option Signal} {ms : List String}
  (hr : (f.signals.readSafely f.shop.dir).exec w = (.ok signal, w'))
  (hv : (verdict c step index output signal).checkpoint = none)
include hr hv

/-- A visit whose verdict repeats the loop ends so. -/
theorem ending?_of_repeats {d : LoopDecision}
    (hl : (verdict c step index output signal).loop = some d) (hd : d.repeats = true) :
    ∃ l, step.activeLoop? = some l ∧ d.stepsBack = l.stepsBack ∧
      f.ending? (w, ⟨c, ms, .recorded index step output⟩) =
        some (index, .repeated l.stepsBack) := by
  obtain ⟨l, hactive, hb, -⟩ := activeLoop?_of_evaluate hl
  rw [(SignalWay.unread?_of_readSafely hr).1] at hv hl
  refine ⟨l, hactive, hb, ?_⟩
  simp only [ending?, unread?, hv, hl, hd, hactive, Option.isSome_none, Bool.false_eq_true,
    if_false, Option.any_some, if_true, Option.map_some]

/-- A visit whose verdict lets the step go on ends so. -/
theorem ending?_of_goesOn
    (hl : ∀ d, (verdict c step index output signal).loop = some d → d.repeats = false) :
    f.ending? (w, ⟨c, ms, .recorded index step output⟩) = some (index, .done) := by
  rw [(SignalWay.unread?_of_readSafely hr).1] at hv hl
  have hrepeats : (verdict c step index output
      (SignalWay.unread? f.signals f.shop.dir w)).loop.any (·.repeats) = false := by
    cases hloop : (verdict c step index output
        (SignalWay.unread? f.signals f.shop.dir w)).loop with
    | none => rfl
    | some d => exact hl d hloop
  simp only [ending?, unread?, hv, hrepeats, Option.isSome_none, Bool.false_eq_true, if_false]

end

/-- A transition ends the visit under way and takes the cursor where the walk goes, or it leaves the
cursor where it is. -/
theorem Takes.walks (h : Takes f w s (.next s') w') (hp : f.Placed s) :
    (∃ e, f.ending? (w, s) = some (s.cursor.index, e) ∧
        s'.cursor.index = e.next s.cursor.index ∧ s'.phase = .head ∧
        (f.visit? (w, s)).toList ++ s.phase.underWay = [s.cursor.index]) ∨
      (f.ending? (w, s) = none ∧ s'.cursor.index = s.cursor.index ∧
        s'.phase.underWay = (f.visit? (w, s)).toList ++ s.phase.underWay) := by
  cases h with
  | @takenUp c ms _ _ _ _ hw hpop _ =>
    obtain ⟨rest, hrest, rfl⟩ := pop_eq_some hpop
    have hvisit : f.visit? (w, ⟨c, ms, .head⟩) = none := by
      refine Option.eq_none_iff_forall_ne_some.mpr fun i hi => ?_
      have hnil := (visit?_eq_some_iff.mp hi).2.2.1
      dsimp only at hnil
      rw [hrest] at hnil
      cases hnil
    refine .inr ⟨?_, rfl, ?_⟩
    · simp [ending?, hvisit]
    · simp [hvisit, Phase.underWay]
  | @passed c ms _ step cause hw hq hs hc =>
    have hvisit : f.visit? (w, ⟨c, ms, .head⟩) = some c.index := visit?_of_step hw hq hs
    refine .inl ⟨.passed cause, ?_, rfl, rfl, ?_⟩
    · simp [ending?, hvisit, hs, hc]
    · simp [hvisit, Phase.underWay]
  | @started c ms _ step _ _ _ hw hq hs hc =>
    have hvisit : f.visit? (w, ⟨c, ms, .head⟩) = some c.index := visit?_of_step hw hq hs
    refine .inr ⟨?_, rfl, ?_⟩
    · simp [ending?, hvisit, hs, hc]
    · simp [hvisit, Phase.underWay]
  | executed hx =>
    refine .inr ⟨?_, rfl, ?_⟩
    · simp [ending?, hx]
    · rw [visit?_of_phase Phase.noConfusion]
      rfl
  | tolerated ht hx _ =>
    obtain ⟨rfl, -⟩ := hp.of_attempt
    refine .inl ⟨.tolerated, ?_, rfl, rfl, ?_⟩
    · simp [ending?, hx, ht]
    · rw [visit?_of_phase Phase.noConfusion]
      rfl
  | recorded _ =>
    refine .inr ⟨rfl, rfl, ?_⟩
    rw [visit?_of_phase Phase.noConfusion]
    rfl
  | @loopedBack c _ _ _ _ _ _ d _ hr hv hl hd =>
    obtain ⟨rfl, -⟩ := hp.of_recorded
    obtain ⟨l, -, hb, hends⟩ := ending?_of_repeats hr hv hl hd
    refine .inl ⟨.repeated l.stepsBack, hends, ?_, rfl, ?_⟩
    · show ((c.index : Int) - d.stepsBack).toNat = c.index - l.stepsBack
      omega
    · rw [visit?_of_phase Phase.noConfusion]
      rfl
  | wentOn hr hv hl =>
    obtain ⟨rfl, -⟩ := hp.of_recorded
    refine .inl ⟨.done, ending?_of_goesOn hr hv hl, index_settled .., rfl, ?_⟩
    rw [visit?_of_phase Phase.noConfusion]
    rfl
  | triggeredExecuted _ =>
    refine .inr ⟨rfl, rfl, ?_⟩
    rw [visit?_of_phase Phase.noConfusion]
    rfl
  | triggeredTolerated _ _ =>
    refine .inr ⟨rfl, rfl, ?_⟩
    rw [visit?_of_phase Phase.noConfusion]
    rfl
  | handedBack _ _ =>
    refine .inr ⟨rfl, rfl, ?_⟩
    rw [visit?_of_phase Phase.noConfusion]
    rfl

/-! ### A run against its walk -/

/-- A run that has gone through a trail has made the visits of a walk that stands where its cursor
stands, and the visit under way. -/
structure Walks (f : Workflow) (s : State) (trail : List Point) : Prop where
  walk : Walk (f.endings trail)
  index_eq : s.cursor.index = stand (f.endings trail)
  visits_eq : f.visits trail = s.phase.underWay ++ (f.endings trail).map (·.1)

theorem visits_cons (f : Workflow) (p : Point) (trail : List Point) :
    f.visits (p :: trail) = (f.visit? p).toList ++ f.visits trail :=
  filterMap_cons_toList f.visit? p trail

theorem endings_cons (f : Workflow) (p : Point) (trail : List Point) :
    f.endings (p :: trail) = (f.ending? p).toList ++ f.endings trail :=
  filterMap_cons_toList f.ending? p trail

theorem Trail.walks (ht : Trail f w₀ (n :: trail)) : Walks f n.2 trail := by
  induction trail generalizing n with
  | nil =>
    cases ht with
    | start h =>
      obtain ⟨p, log, -, -, rfl⟩ := start_spec h
      exact ⟨trivial, rfl, rfl⟩
  | cons p trail ih =>
    have hp := ih ht.tail
    have hplaced := ht.tail.placed p (List.mem_cons_self ..)
    rcases ht.takes.walks hplaced with ⟨e, he, hi, hn, hv⟩ | ⟨he, hi, hn⟩
    · have hends : f.endings (p :: trail) = (p.2.cursor.index, e) :: f.endings trail := by
        rw [endings_cons, he]
        rfl
      refine ⟨?_, ?_, ?_⟩
      · rw [hends]
        exact ⟨hp.index_eq, hp.walk⟩
      · rw [hends, hi]
        rfl
      · rw [visits_cons, hp.visits_eq, ← List.append_assoc, hv, hn, hends]
        rfl
    · have hends : f.endings (p :: trail) = f.endings trail := by
        rw [endings_cons, he]
        rfl
      refine ⟨?_, ?_, ?_⟩
      · rw [hends]
        exact hp.walk
      · rw [hends, hi, hp.index_eq]
      · rw [visits_cons, hp.visits_eq, ← List.append_assoc, hn, hends]

theorem Walks.visits_eq_of_head (h : Walks f s trail) (hs : s.phase = .head) :
    f.visits trail = (f.endings trail).map (·.1) := by
  rw [h.visits_eq, hs]
  rfl

/-- The first visit is to the first position. -/
theorem Trail.first_visit (ht : Trail f w₀ (p :: older)) (hp : f.visit? p = some i)
    (hfirst : f.visits older = []) : i = 0 := by
  obtain ⟨hhead, -, -, -, rfl⟩ := visit?_eq_some_iff.mp hp
  have hwalks := ht.walks
  have hnone := hwalks.visits_eq_of_head hhead
  rw [hfirst, eq_comm, List.map_eq_nil_iff] at hnone
  rw [hwalks.index_eq, hnone]
  rfl

/-- When the next round begins behind a visit, the visit has ended in one way, and the cursor stands
where the walk goes from there. -/
theorem Trail.next_visit (ht : Trail f w₀ (q :: (between ++ p :: older)))
    (hp : f.visit? p = some i) (hnone : f.visits between = []) (hq : q.2.phase = .head) :
    ∃ e, f.endings (between ++ [p]) = [(i, e)] ∧ q.2.cursor.index = e.next i := by
  have hhead := (visit?_eq_some_iff.mp hp).1
  have hafter := ht.walks
  have hvisits := hafter.visits_eq_of_head hq
  have hends : f.endings (between ++ p :: older)
      = f.endings (between ++ [p]) ++ f.endings older := by
    rw [List.append_cons]
    exact List.filterMap_append
  have hbefore : f.visits (between ++ p :: older) = i :: (f.endings older).map (·.1) := by
    have happend : f.visits (between ++ p :: older) = f.visits between ++ f.visits (p :: older) :=
      List.filterMap_append
    have hstart := (Trail.drop (q :: between) ht).walks.visits_eq_of_head hhead
    rw [happend, hnone, visits_cons, hp, hstart]
    rfl
  rw [hbefore, hends, List.map_append] at hvisits
  -- There are as many endings as visits, so exactly one falls to this visit.
  have hone : [i] = (f.endings (between ++ [p])).map (·.1) := List.append_cancel_right hvisits
  obtain ⟨⟨j, e⟩, hj, rfl⟩ := List.map_eq_singleton_iff.mp hone.symm
  refine ⟨e, hj, ?_⟩
  rw [hafter.index_eq, hends, hj]
  rfl

/-- A triggered step leaves the cursor where it is: when it is taken up, executed and done with. -/
theorem Trail.index_eq_of_outOfOrder (ht : Trail f w₀ (q :: p :: older))
    (h : p.2.phase.outOfOrder ∨ q.2.phase.outOfOrder) :
    q.2.cursor.index = p.2.cursor.index := by
  have hplaced := ht.tail.placed p (List.mem_cons_self ..)
  rcases ht.takes.walks hplaced with ⟨e, he, -, hq, -⟩ | ⟨-, hindex, -⟩
  · rcases h with hp | hout
    · cases hphase : p.2.phase with
      | triggered target step => simp [ending?, hphase] at he
      | handedBack target step => simp [ending?, hphase] at he
      | _ =>
        rw [hphase] at hp
        cases hp
    · rw [hq] at hout
      cases hout
  · exact hindex

/-! ### How a run is completed -/

theorem exec_turn_of_exhausted (hs : s.phase = .head) (hw : w.cancelled = false)
    (hq : s.cursor.pending = []) (hi : f.steps[s.cursor.index]? = none) :
    ∃ log, (f.turn s).exec w = (.ok (.done ⟨.completed, none, s.messages⟩), w.withLog log) := by
  obtain ⟨⟨index, done, unfinished, counters, hot, pending, inFlight⟩, ms, phase⟩ := s
  dsimp only at hs hq hi
  subst hs hq
  show ∃ log, (f.atHead _).exec w = _
  unfold atHead
  rw [exec_bind, exec_get]
  dsimp only [Cursor.pop]
  rw [hw, if_neg Bool.false_ne_true, hi]
  exact ⟨_, exec_note_bind ..⟩

theorem exec_turn_of_atEnd (h : AtEnd f (w, s)) :
    ∃ log, (f.turn s).exec w = (.ok (.done ⟨.completed, none, s.messages⟩), w.withLog log) := by
  obtain ⟨hhead, hw, hq, hi⟩ := h
  exact exec_turn_of_exhausted hhead hw hq (List.getElem?_eq_none_iff.mpr (Nat.le_of_eq hi.symm))

/-- A run is completed by a turn from behind its last step. -/
theorem Takes.atEnd (h : Takes f w s (.done o) w') (hi : s.cursor.index ≤ f.steps.length)
    (ho : o.status = .completed) : AtEnd f (w, s) := by
  cases h with
  | completed hw hq hs => exact ⟨rfl, hw, hq, Nat.le_antisymm hi (List.getElem?_eq_none_iff.mp hs)⟩
  | _ => cases ho

/-- Before the last point of a trail every turn leads on. -/
theorem Trail.next_of_mem (ht : Trail f w₀ (n :: trail)) (hp : p ∈ trail) :
    ∃ s' w', (f.turn p.2).exec p.1 = (.ok (.next s'), w') := by
  induction trail generalizing n with
  | nil => cases hp
  | cons m trail ih =>
    rcases List.mem_cons.mp hp with rfl | hp
    · cases ht with
      | next _ h => exact ⟨_, _, h⟩
    · exact ih ht.tail hp

theorem Ends.completed_iff (h : Ends f w₀ trail o w) :
    o.status = .completed ↔ ∃ p ∈ trail, AtEnd f p := by
  cases h with
  | @intro v s older _ _ ht hturn =>
    have hmem : (v, s) ∈ (v, s) :: older := List.mem_cons_self ..
    constructor
    · exact fun ho => ⟨(v, s), hmem, (takes_of_turn hturn).atEnd (ht.index_le _ hmem) ho⟩
    · rintro ⟨p, hp, hend⟩
      obtain ⟨log, hdone⟩ := exec_turn_of_atEnd hend
      rcases List.mem_cons.mp hp with rfl | hp
      · cases hdone.symm.trans hturn
        rfl
      · obtain ⟨s', w', hnext⟩ := ht.next_of_mem hp
        cases hdone.symm.trans hnext

/-- A completed run has visited every position. -/
theorem Ends.visited_of_completed (h : Ends f w₀ trail o w) (ho : o.status = .completed)
    (hi : i < f.steps.length) : ∃ p ∈ trail, f.visit? p = some i := by
  cases h with
  | @intro v s older _ _ ht hturn =>
    have hend := (takes_of_turn hturn).atEnd (ht.index_le _ (List.mem_cons_self ..)) ho
    obtain ⟨hhead, -, -, hindex⟩ := hend
    have hwalks := ht.walks
    have hlt : i < stand (f.endings older) := by
      rw [← hwalks.index_eq, hindex]
      exact hi
    have hvisited := hwalks.walk.visited hlt
    rw [← hwalks.visits_eq_of_head hhead] at hvisited
    obtain ⟨p, hp, hvisit⟩ := List.mem_filterMap.mp hvisited
    exact ⟨p, List.mem_cons_of_mem _ hp, hvisit⟩

/-- Turns from behind the last step end the run as completed. -/
theorem Trail.ends_of_atEnd (ht : Trail f w₀ (p :: older)) (h : AtEnd f p) :
    ∃ w, Ends f w₀ (p :: older) ⟨.completed, none, p.2.messages⟩ w := by
  obtain ⟨w, s⟩ := p
  obtain ⟨log, hturn⟩ := exec_turn_of_atEnd h
  exact ⟨_, .intro ht hturn⟩

/-- A run whose points lead to the end is completed there. -/
theorem ends_points {turns : Nat} (hne : f.points w₀ turns ≠ [])
    (h : AtEnd f ((f.points w₀ turns).getD 0 default)) :
    ∃ w, Ends f w₀ (f.points w₀ turns)
      ⟨.completed, none, ((f.points w₀ turns).getD 0 default).2.messages⟩ w := by
  have ht := trail_points hne
  obtain ⟨p, older, hp⟩ := List.exists_cons_of_ne_nil hne
  rw [hp] at ht h ⊢
  exact ht.ends_of_atEnd h

/-- The positions that a run visits are those of the walk: the first visit is to the first position;
after a visit that has ended the cursor stands where the walk goes from there; triggered steps leave
it where it is.  A run is completed iff it has come to a head behind the last step, uncancelled and
with nothing queued, and then it has visited every position. -/
theorem visits_in_order (f : Workflow) (w₀ : World) :
    (∀ p older i, Trail f w₀ (p :: older) → f.visit? p = some i → f.visits older = [] → i = 0) ∧
      (∀ q between p older i, Trail f w₀ (q :: (between ++ p :: older)) →
        f.visit? p = some i → f.visits between = [] → q.2.phase = .head →
        ∃ e, f.endings (between ++ [p]) = [(i, e)] ∧ q.2.cursor.index = e.next i) ∧
      (∀ q p older, Trail f w₀ (q :: p :: older) → (p.2.phase.outOfOrder ∨ q.2.phase.outOfOrder) →
        q.2.cursor.index = p.2.cursor.index) ∧
      (∀ o w, f.run.exec w₀ = (.ok o, w) → ∃ trail, Ends f w₀ trail o w) ∧
      (∀ p older, Trail f w₀ (p :: older) → AtEnd f p →
        ∃ w, Ends f w₀ (p :: older) ⟨.completed, none, p.2.messages⟩ w) ∧
      ∀ trail o w, Ends f w₀ trail o w →
        (o.status = .completed ↔ ∃ p ∈ trail, AtEnd f p) ∧
          (o.status = .completed → ∀ i < f.steps.length, ∃ p ∈ trail, f.visit? p = some i) := by
  refine ⟨fun p older i ht hp hfirst => ht.first_visit hp hfirst,
    fun q between p older i ht hp hnone hq => ht.next_visit hp hnone hq,
    fun q p older ht hout => ht.index_eq_of_outOfOrder hout, fun o w h => ends_of_run h,
    fun p older ht hend => ht.ends_of_atEnd hend, fun trail o w h => ⟨h.completed_iff, ?_⟩⟩
  exact fun ho i hi => h.visited_of_completed ho hi

/-- A draft and its review, which steps back further than there are steps. -/
def revision : Workflow := { overlapping with steps := [draftStep, reviewStep] }

/-- The review leads back to the first position, where the draft is passed over, and the second
review leads to the end. -/
theorem revision_visits :
    ((revision.points default 8).getD 0 default).2.cursor.index
        = Ending.next 1 (.repeated 2) ∧
      ∃ o w, Ends revision default (revision.points default 13) o w ∧ o.status = .completed ∧
        revision.visits (revision.points default 13) = [1, 0, 1, 0] := by
  obtain ⟨-, hnext, -, -, hcompleted, -⟩ := visits_in_order revision default
  have hback : Trail revision default (revision.points default 8) :=
    trail_points (List.ne_nil_of_length_pos (by decide +kernel))
  have hall : Trail revision default (revision.points default 13) :=
    trail_points (List.ne_nil_of_length_pos (by decide +kernel))
  constructor
  · rw [eq_cons_append_cons (revision.points default 8) 3 default (by decide +kernel)] at hback
    obtain ⟨e, hends, hindex⟩ :=
      hnext _ _ _ _ 1 hback (by decide +kernel) (by decide +kernel) (by decide +kernel)
    have hrepeated : revision.endings ((revision.points default 8).drop 1 |>.take 3 |>.append
        [(revision.points default 8).getD 4 default]) = [(1, .repeated 2)] := by decide +kernel
    cases hrepeated.symm.trans hends
    exact hindex
  · obtain ⟨p, older, hp⟩ := List.exists_cons_of_ne_nil hall.ne_nil
    have hend : AtEnd revision ((revision.points default 13).getD 0 default) := by
      unfold AtEnd
      decide +kernel
    rw [hp] at hall hend ⊢
    obtain ⟨w, h⟩ := hcompleted p older hall hend
    rw [← hp]
    exact ⟨_, w, hp ▸ h, rfl, by decide +kernel⟩

end Conductor.Workflow
