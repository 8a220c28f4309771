import Conductor.Proofs.Workflow.Hearing
import Conductor.Proofs.Workflow.HotLoop
import Conductor.Proofs.Workflow.Walk

/-!
# The budget of a loop

What a loop has spent of its repetitions is told by how the visits to its step have ended: each
repetition is one more, and a visit that ends with the step done gives all of them back (`spent`).
A visit that is passed over, or ends in a failure that is tolerated, leaves what is spent as it is.
Main statement: the counter of a loop is zero iff its step has been done since the loop last stepped
back, and from there on the loop may step back as often as its limit says
(`budget_full_iff_not_heldOver`).

A transition changes counters only where it judges a step, and then that of the step alone
(`Takes.iterations_of_not_recorded`, `Takes.counters_of_recorded`).  Hence the counter is what is
spent, at every point of a run (`Trail.iterations_eq`).
-/

namespace Conductor.Workflow

open Act Cursor

/-- What a visit that ends so leaves spent of a loop's repetitions. -/
def Ending.spend (spent : Nat) : Ending → Nat
  | repeated _ => spent + 1
  | done => 0
  | _ => spent

/-- What the loop at a position has spent of its repetitions after visits, the newest first. -/
def spent (i : Nat) : List (Nat × Ending) → Nat
  | [] => 0
  | (j, e) :: earlier => if j = i then e.spend (spent i earlier) else spent i earlier

/-- The loop at a position has stepped back, and no visit since has ended with its step done. -/
def HeldOver (i : Nat) (es : List (Nat × Ending)) : Prop :=
  ∃ newer b earlier, es = newer ++ (i, .repeated b) :: earlier ∧ (i, .done) ∉ newer

/-- The visit ends with a repetition. -/
def Ending.repeats : Ending → Bool
  | repeated _ => true
  | _ => false

/-- How often the loop at a position steps back in visits. -/
def repetitions (i : Nat) (es : List (Nat × Ending)) : Nat :=
  es.countP fun v => v.1 == i && v.2.repeats

/-- The phase in which a step is judged that has been recorded as done. -/
def Phase.isRecorded : Phase → Bool
  | recorded .. => true
  | _ => false

variable {f : Workflow} {w w' w₀ w₁ : World} {s s' : State} {n p q : Point} {trail : List Point}
  {i j : Nat} {e : Ending} {es newer : List (Nat × Ending)} {step : Step} {l : LoopBehavior}
  {key : String} {output : String} {signal : Option Signal}

/-! ### What is spent -/

theorem spent_cons_self (i : Nat) (e : Ending) (es : List (Nat × Ending)) :
    spent i ((i, e) :: es) = e.spend (spent i es) := if_pos rfl

theorem spent_cons_of_ne (h : j ≠ i) (e : Ending) (es : List (Nat × Ending)) :
    spent i ((j, e) :: es) = spent i es := if_neg h

/-- A visit that leaves what is spent may be to any position. -/
theorem spent_cons_of_spend (h : e.spend (spent i es) = spent i es) :
    spent i ((j, e) :: es) = spent i es := by
  by_cases hj : j = i
  · subst hj
    rw [spent_cons_self, h]
  · exact spent_cons_of_ne hj e es

theorem heldOver_of_repeated (i b : Nat) (es : List (Nat × Ending)) :
    HeldOver i ((i, .repeated b) :: es) := ⟨[], b, es, rfl, List.not_mem_nil⟩

theorem heldOver_cons_iff {v : Nat × Ending} (hdone : v ≠ (i, .done))
    (hrepeated : ∀ b, v ≠ (i, .repeated b)) : HeldOver i (v :: es) ↔ HeldOver i es := by
  constructor
  · rintro ⟨newer, b, earlier, hes, hnot⟩
    cases newer with
    | nil => exact absurd (List.cons.inj hes).1 (hrepeated b)
    | cons _ newer =>
      cases hes
      exact ⟨newer, b, earlier, rfl, fun h => hnot (List.mem_cons_of_mem _ h)⟩
  · rintro ⟨newer, b, earlier, rfl, hnot⟩
    refine ⟨v :: newer, b, earlier, rfl, ?_⟩
    rw [List.mem_cons, not_or]
    exact ⟨hdone.symm, hnot⟩

theorem not_heldOver_done (i : Nat) (es : List (Nat × Ending)) :
    ¬ HeldOver i ((i, .done) :: es) := by
  rintro ⟨newer, b, earlier, hes, hnot⟩
  cases newer with
  | nil => cases (List.cons.inj hes).1
  | cons _ newer =>
    cases hes
    exact hnot (List.mem_cons_self ..)

/-- A loop has spent something iff it has stepped back and its step has not been done since. -/
theorem spent_eq_zero_iff : spent i es = 0 ↔ ¬ HeldOver i es := by
  induction es with
  | nil =>
    refine iff_of_true rfl ?_
    rintro ⟨newer, b, earlier, hes, -⟩
    cases newer <;> cases hes
  | cons v es ih =>
    obtain ⟨j, e⟩ := v
    by_cases hj : j = i
    · subst hj
      rw [spent_cons_self]
      cases e with
      | repeated b =>
        exact iff_of_false (Nat.succ_ne_zero _) fun h => h (heldOver_of_repeated j b es)
      | done => exact iff_of_true rfl (not_heldOver_done j es)
      | tolerated => rw [heldOver_cons_iff (by simp) (by simp)]; exact ih
      | passed cause => rw [heldOver_cons_iff (by simp) (by simp)]; exact ih
    · rw [spent_cons_of_ne hj, heldOver_cons_iff (by simp [hj]) (by simp [hj])]
      exact ih

theorem Ending.spend_le (e : Ending) (spent : Nat) :
    e.spend spent ≤ (if e.repeats then 1 else 0) + spent := by
  cases e with
  | repeated b => exact Nat.le_of_eq (Nat.add_comm spent 1)
  | done => exact Nat.zero_le _
  | _ => exact Nat.le_add_left _ _

/-- What is spent is what was spent before and the repetitions since, or less. -/
theorem spent_append_le (newer es : List (Nat × Ending)) :
    spent i (newer ++ es) ≤ repetitions i newer + spent i es := by
  induction newer with
  | nil => exact Nat.le_add_left _ _
  | cons v newer ih =>
    obtain ⟨j, e⟩ := v
    unfold repetitions at ih ⊢
    rw [List.cons_append, List.countP_cons]
    by_cases hj : j = i
    · subst hj
      have hspend := e.spend_le (spent j (newer ++ es))
      rw [spent_cons_self, beq_self_eq_true, Bool.true_and]
      dsimp only
      omega
    · rw [spent_cons_of_ne hj]
      omega

/-! ### What a transition does to the counters -/

/-- Counters change only where a step is judged. -/
theorem Takes.iterations_of_not_recorded (h : Takes f w s (.next s') w')
    (hs : s.phase.isRecorded = false) (key : String) :
    s'.cursor.iterations key = s.cursor.iterations key := by
  cases h with
  | takenUp _ hpop _ =>
    obtain ⟨rest, -, rfl⟩ := pop_eq_some hpop
    rfl
  | loopedBack => cases hs
  | wentOn => cases hs
  | _ => rfl

/-- A visit that ends elsewhere leaves what is spent. -/
theorem spend_of_not_recorded (h : f.ending? (w, s) = some (j, e))
    (hs : s.phase.isRecorded = false) (n : Nat) : e.spend n = n := by
  obtain ⟨c, ms, phase⟩ := s
  cases phase with
  | head =>
    simp only [ending?, Option.bind_eq_bind, Option.bind_eq_some_iff, Option.some.injEq,
      Prod.mk.injEq] at h
    obtain ⟨_, -, _, -, _, -, -, rfl⟩ := h
    rfl
  | attempt index step run identity =>
    simp only [ending?] at h
    split at h
    · split at h
      · cases h
        rfl
      · cases h
    · cases h
  | recorded => cases hs
  | _ => cases h

theorem iterations_settled_self (c : Cursor) (step : Step) (index : Nat) (v : Verdict) :
    (settled c step index v).iterations (loopKey step index)
      = if v.loop.isSome then 0 else c.iterations (loopKey step index) := by
  obtain ⟨pending, -, hs⟩ := settled_eq c step index v
  rw [hs]
  split
  · exact iterations_endLoop_self c _
  · rfl

/-- The judgement of a step ends its visit and changes no counter but the step's own, which tells
what the visit leaves spent if the step has a loop that can repeat, and stays as it is otherwise. -/
theorem Takes.counters_of_recorded (h : Takes f w s (.next s') w') (hp : f.Placed s)
    (hs : s.phase.isRecorded = true) :
    ∃ step e, f.steps[s.cursor.index]? = some step ∧ f.ending? (w, s) = some (s.cursor.index, e) ∧
      (∀ key, key ≠ loopKey step s.cursor.index →
        s'.cursor.iterations key = s.cursor.iterations key) ∧
      (step.activeLoop?.isSome = true → ∀ n : Nat,
        s.cursor.iterations (loopKey step s.cursor.index) = n →
          s'.cursor.iterations (loopKey step s.cursor.index) = e.spend n) ∧
      (step.activeLoop? = none → e = .done ∧
        s'.cursor.iterations (loopKey step s.cursor.index) =
          s.cursor.iterations (loopKey step s.cursor.index)) := by
  cases h with
  | @loopedBack c _ _ index step _ _ d _ hr hv hl hd =>
    obtain ⟨rfl, hstep⟩ := hp.of_recorded
    obtain ⟨l, hactive, -, hends⟩ := ending?_of_repeats hr hv hl hd
    refine ⟨step, _, hstep, hends, ?_, fun _ n hn => ?_, fun hnone => ?_⟩
    · exact fun key hkey => iterations_loopBack_of_ne c d hkey
    · have hself := iterations_loopBack_self c d (loopKey step c.index)
      rw [show c.iterations (loopKey step c.index) = n from hn] at hself
      exact hself
    · cases hactive.symm.trans hnone
  | @wentOn c _ _ index step output signal _ hr hv hl =>
    obtain ⟨rfl, hstep⟩ := hp.of_recorded
    have hloop := isSome_loop_evaluate step output signal (c.iterations (loopKey step c.index)) hv
    have hself := iterations_settled_self c step c.index (verdict c step c.index output signal)
    refine ⟨step, .done, hstep, ending?_of_goesOn hr hv hl, ?_, fun hsome _ _ => ?_, fun h => ?_⟩
    · exact fun key hkey => iterations_settled_of_ne c _ hkey
    · exact hself.trans (if_pos (hloop.trans hsome))
    · refine ⟨rfl, hself.trans (if_neg ?_)⟩
      rw [show (verdict c step c.index output signal).loop.isSome = _ from hloop, h]
      exact Bool.false_ne_true
  | _ => cases hs

/-- The counter of a loop goes on telling what is spent; a step without a loop that can repeat
spends nothing. -/
theorem Takes.iterations_eq (h : Takes f w s (.next s') w') (hp : f.Placed s)
    (hs : f.steps[i]? = some step) (hn : s.cursor.iterations (loopKey step i) = spent i es)
    (hnone : step.activeLoop? = none → spent i es = 0) :
    s'.cursor.iterations (loopKey step i) = spent i ((f.ending? (w, s)).toList ++ es) ∧
      (step.activeLoop? = none → spent i ((f.ending? (w, s)).toList ++ es) = 0) := by
  by_cases hrec : s.phase.isRecorded = true
  · obtain ⟨judged, e, hjudged, hends, hother, hown, hidle⟩ := h.counters_of_recorded hp hrec
    rw [hends, Option.toList_some, List.singleton_append]
    by_cases hi : s.cursor.index = i
    · subst hi
      obtain rfl : judged = step := Option.some.inj (hjudged.symm.trans hs)
      rw [spent_cons_self]
      cases hactive : judged.activeLoop? with
      | none =>
        obtain ⟨rfl, hkept⟩ := hidle hactive
        rw [hkept, hn, hnone hactive]
        exact ⟨rfl, fun _ => rfl⟩
      | some l =>
        refine ⟨hown (hactive ▸ rfl) _ hn, fun h => ?_⟩
        cases h
    · rw [spent_cons_of_ne hi, hother _ (loopKey_ne (Ne.symm hi)), hn]
      exact ⟨rfl, hnone⟩
  · rw [Bool.not_eq_true] at hrec
    rw [h.iterations_of_not_recorded hrec, hn]
    cases he : f.ending? (w, s) with
    | none => exact ⟨rfl, hnone⟩
    | some v =>
      obtain ⟨j, e⟩ := v
      have hspend := spend_of_not_recorded he hrec (spent i es)
      rw [Option.toList_some, List.singleton_append, spent_cons_of_spend hspend]
      exact ⟨rfl, hnone⟩

/-! ### The counter at every point -/

theorem Trail.iterations_eq_and (ht : Trail f w₀ (n :: trail)) (hs : f.steps[i]? = some step) :
    n.2.cursor.iterations (loopKey step i) = spent i (f.endings trail) ∧
      (step.activeLoop? = none → spent i (f.endings trail) = 0) := by
  induction trail generalizing n with
  | nil =>
    cases ht with
    | start h =>
      obtain ⟨p, log, -, -, rfl⟩ := start_spec h
      exact ⟨rfl, fun _ => rfl⟩
  | cons p trail ih =>
    obtain ⟨hn, hnone⟩ := ih ht.tail
    have hplaced := ht.tail.placed p (List.mem_cons_self ..)
    rw [endings_cons]
    exact ht.takes.iterations_eq hplaced hs hn hnone

/-- The counter of a loop is what the loop has spent. -/
theorem Trail.iterations_eq (ht : Trail f w₀ (n :: trail)) (hs : f.steps[i]? = some step) :
    n.2.cursor.iterations (loopKey step i) = spent i (f.endings trail) :=
  (ht.iterations_eq_and hs).1

/-! ### The budget -/

/-- The turn from a point steps the loop at a position back. -/
def StepsBack (f : Workflow) (p : Point) (i : Nat) (step : Step) (l : LoopBehavior) : Prop :=
  ∃ s' w', (f.turn p.2).exec p.1 = (.ok (.next s'), w') ∧ s'.phase = .head ∧
    s'.cursor.index = i - l.stepsBack ∧
    s'.cursor.iterations (loopKey step i) = p.2.cursor.iterations (loopKey step i) + 1

/-- A turn that judges a loop step steps back iff the loop is asked to and may. -/
theorem stepsBack_iff (hp : f.Placed s) (hphase : s.phase = .recorded i step output)
    (hl : step.activeLoop? = some l)
    (hr : (f.signals.readSafely f.shop.dir).exec w = (.ok signal, w₁)) :
    StepsBack f (w, s) i step l ↔
      l.Asked output signal ∧ l.MayRepeat (s.cursor.iterations (loopKey step i)) := by
  obtain ⟨c, ms, phase⟩ := s
  dsimp only at hphase
  subst hphase
  obtain ⟨rfl, hstep⟩ := hp.of_recorded
  have hrepeats : (verdict c step c.index output signal).loop.any (·.repeats) = true ↔
      l.Asked output signal ∧ l.MayRepeat (c.iterations (loopKey step c.index)) := by
    refine repeats_evaluate_iff.trans ⟨?_, fun h => ⟨l, hl, h⟩⟩
    rintro ⟨k, hk, h⟩
    cases hl.symm.trans hk
    exact h
  obtain ⟨t, w', hturn⟩ := exec_turn_of_heard (s := ⟨c, ms, .recorded c.index step output⟩) rfl hr
  cases takes_of_turn hturn with
  | stopped hr' hv =>
    cases hr.symm.trans hr'
    refine iff_of_false ?_ fun h => ?_
    · rintro ⟨s', w', h, -⟩
      cases hturn.symm.trans h
    · cases h.1.1.symm.trans ((checkpoint_evaluate ..).symm.trans hv)
  | @loopedBack _ _ _ _ _ _ _ d _ hr' hv hd hrep =>
    cases hr.symm.trans hr'
    refine iff_of_true ?_ (hrepeats.mp (by rw [hd]; exact hrep))
    obtain ⟨k, hk, hb, -⟩ := activeLoop?_of_evaluate hd
    cases hl.symm.trans hk
    refine ⟨_, _, hturn, rfl, ?_, iterations_loopBack_self c d _⟩
    show ((c.index : Int) - d.stepsBack).toNat = c.index - l.stepsBack
    omega
  | wentOn hr' hv hd =>
    cases hr.symm.trans hr'
    refine iff_of_false ?_ fun h => ?_
    · rintro ⟨s', w', h, -, hindex, -⟩
      cases hturn.symm.trans h
      rw [index_settled] at hindex
      omega
    · obtain ⟨d, hsome, hrep⟩ := (Option.any_eq_true _ _).mp (hrepeats.mpr h)
      cases (hd d hsome).symm.trans hrep

/-- The counter of a loop is zero iff its step has been done since the loop last stepped back.  So a
visit that is ended by a verdict against the repetition gives all of them back, while one that is
passed over or ends in a failure that is tolerated leaves the counter as it is.  From a point on at
which it is zero, a loop that is asked to step back does so as long as it has done so less often
than its limit says. -/
theorem budget_full_iff_not_heldOver (hs : f.steps[i]? = some step)
    (hl : step.behavior = some (.loop l)) :
    (∀ n trail, Trail f w₀ (n :: trail) →
      (n.2.cursor.iterations (loopKey step i) = 0 ↔ ¬ HeldOver i (f.endings trail))) ∧
    (∀ q p older e, Trail f w₀ (q :: p :: older) → f.ending? p = some (i, e) →
      (e = .done → q.2.cursor.iterations (loopKey step i) = 0) ∧
      (e = .tolerated ∨ (∃ cause, e = .passed cause) →
        q.2.cursor.iterations (loopKey step i) = p.2.cursor.iterations (loopKey step i))) ∧
    ∀ q between n older output signal w, Trail f w₀ (q :: (between ++ n :: older)) →
      n.2.cursor.iterations (loopKey step i) = 0 → q.2.phase = .recorded i step output →
      (f.signals.readSafely f.shop.dir).exec q.1 = (.ok signal, w) → l.isActive = true →
      l.Asked output signal →
      (∀ m, l.maxIterations = some m → repetitions i (f.endings (between ++ [n])) < m) →
      StepsBack f q i step l := by
  refine ⟨fun n trail ht => ?_, fun q p older e ht he => ⟨?_, ?_⟩, ?_⟩
  · rw [ht.iterations_eq hs, ← spent_eq_zero_iff, Int.natCast_eq_zero]
  · rintro rfl
    rw [ht.iterations_eq hs, endings_cons, he]
    exact congrArg Int.ofNat (spent_cons_self i .done _)
  · intro hkeeps
    rw [ht.iterations_eq hs, ht.tail.iterations_eq hs, endings_cons, he]
    refine congrArg Int.ofNat ((spent_cons_self i e _).trans ?_)
    rcases hkeeps with rfl | ⟨cause, rfl⟩ <;> rfl
  · intro q between n older output signal w ht hzero hphase hr hactive hasked hbudget
    have hloop : step.activeLoop? = some l := Step.activeLoop?_of_behavior hl hactive
    have hfirst : spent i (f.endings older) = 0 := by
      rw [(Trail.drop (q :: between) ht).iterations_eq hs, Int.natCast_eq_zero] at hzero
      exact hzero
    have hends : f.endings (between ++ n :: older)
        = f.endings (between ++ [n]) ++ f.endings older := by
      rw [List.append_cons]
      exact List.filterMap_append
    have hle := spent_append_le (i := i) (f.endings (between ++ [n])) (f.endings older)
    refine (stepsBack_iff (ht.placed q (List.mem_cons_self ..)) hphase hloop hr).mpr ⟨hasked, ?_⟩
    intro m hm
    have hlt := hbudget m hm
    rw [ht.iterations_eq hs, hends]
    omega

/-- Whenever the cursor stands beyond a loop step, the counter of its loop is zero. -/
def RefillsBudgets (f : Workflow) (w₀ : World) : Prop :=
  ∀ n trail i step l, Trail f w₀ (n :: trail) → f.steps[i]? = some step →
    step.behavior = some (.loop l) → i < n.2.cursor.index →
    n.2.cursor.iterations (loopKey step i) = 0

/-- A review that may fail. -/
def lenientReview : Step := { reviewStep with tolerant := true }

/-- A review that asks for its repetition and fails when it is made again, before a draft. -/
def flaky : Workflow :=
  { overlapping with
    steps := [lenientReview, draftStep]
    shop :=
      { overlapping.shop with
        engine := fun w _ =>
          { store := w.store
            result := if w.calls.size = 2 then .error (.foreign "boom") else .ok "AGAIN" } } }

/-- The failure takes the cursor beyond the review while its one repetition is still spent. -/
theorem not_refillsBudgets_flaky : ¬ RefillsBudgets flaky default := by
  intro h
  have ht : Trail flaky default (flaky.points default 6) :=
    trail_points (List.ne_nil_of_length_pos (by decide +kernel))
  obtain ⟨n, trail, hp⟩ := List.exists_cons_of_ne_nil ht.ne_nil
  have hn : (flaky.points default 6).getD 0 default = n := by rw [hp]; rfl
  have hindex : ((flaky.points default 6).getD 0 default).2.cursor.index = 1 := by decide +kernel
  have hspent : ((flaky.points default 6).getD 0 default).2.cursor.iterations
      (loopKey lenientReview (0 : Nat)) = 1 := by decide +kernel
  rw [hn] at hindex hspent
  rw [hp] at ht
  have hzero := h n trail 0 lenientReview reviewLoop ht rfl rfl (by omega)
  rw [hspent] at hzero
  cases hzero

/-- The review steps back while nothing is spent, and its budget is full again when it is done. -/
theorem revision_budget :
    StepsBack revision ((revision.points default 7).getD 0 default) 1 reviewStep reviewLoop ∧
      ((revision.points default 13).getD 0 default).2.cursor.iterations
        (loopKey reviewStep (1 : Nat)) = 0 := by
  have hs : revision.steps[1]? = some reviewStep := rfl
  have hl : reviewStep.behavior = some (.loop reviewLoop) := rfl
  obtain ⟨-, hdone, hback⟩ := budget_full_iff_not_heldOver hs hl
  constructor
  · have ht : Trail revision default (revision.points default 7) :=
      trail_points (List.ne_nil_of_length_pos (by decide +kernel))
    rw [eq_cons_append_cons (revision.points default 7) 6 default (by decide +kernel)] at ht
    refine hback _ _ _ _ "AGAIN" none _ ht (by decide +kernel) (by decide +kernel) (Prod.ext ?_ rfl)
      (by decide) ⟨rfl, rfl, .inl (by decide +kernel)⟩ ?_
    · decide +kernel
    · rintro m ⟨⟩
      decide +kernel
  · have ht : Trail revision default (revision.points default 13) :=
      trail_points (List.ne_nil_of_length_pos (by decide +kernel))
    rw [eq_cons_append_cons (revision.points default 13) 0 default (by decide +kernel)] at ht
    exact (hdone _ _ _ .done ht (by decide +kernel)).1 rfl

end Conductor.Workflow
