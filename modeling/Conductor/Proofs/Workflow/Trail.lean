import Conductor.Proofs.State.Progress
import Conductor.Proofs.Workflow.Turn

/-!
# Runs as trails

A run is the sequence of the points it goes through, each a world and a state, from the start on
turn by turn.  `Trail` lists them, the newest first, for runs of any length.  `Ends` is a trail
whose last turn gives an outcome.  The fuelled run is the run of the trail it goes through
(`ends_of_run`), and whatever outcome it has is that of a trail.
-/

namespace Conductor.Workflow

open Act

/-- Where a run stands. -/
abbrev Point := World × State

/-- The points that a run has gone through, the newest first. -/
inductive Trail (f : Workflow) (w₀ : World) : List Point → Prop
  | start {s w} (h : f.start.exec w₀ = (.ok s, w)) : Trail f w₀ [(w, s)]
  | next {w s w' s' trail} (ht : Trail f w₀ ((w, s) :: trail))
    (h : (f.turn s).exec w = (.ok (.next s'), w')) : Trail f w₀ ((w', s') :: (w, s) :: trail)

/-- The run that has gone through a trail ends with an outcome in a world. -/
inductive Ends (f : Workflow) (w₀ : World) : List Point → Outcome → World → Prop
  | intro {w s trail o w'} (ht : Trail f w₀ ((w, s) :: trail))
    (h : (f.turn s).exec w = (.ok (.done o), w')) : Ends f w₀ ((w, s) :: trail) o w'

/-- A run comes to its end: it cannot start, a turn ends it or a turn fails. -/
inductive Halts (f : Workflow) (w₀ : World) : Except Fault Outcome → World → Prop
  | unstarted {e w} (h : f.start.exec w₀ = (.error e, w)) : Halts f w₀ (.error e) w
  | ended {trail o w} (h : Ends f w₀ trail o w) : Halts f w₀ (.ok o) w
  | failed {w s trail e w'} (ht : Trail f w₀ ((w, s) :: trail))
    (h : (f.turn s).exec w = (.error e, w')) : Halts f w₀ (.error e) w'

/-- What earlier runs left done or unfinished. -/
def remembered (f : Workflow) (w : World) : Except Fault Progress :=
  match f.tracking with
  | some path => Progress.stored w.store w.cwd path
  | none => .ok {}

variable {f : Workflow} {w₀ w w' : World} {s : State} {trail : List Point} {o : Outcome}

/-- A run starts at the head of its first round, with what earlier runs left. -/
theorem start_spec (h : f.start.exec w₀ = (.ok s, w)) :
    ∃ p log, f.remembered w₀ = .ok p ∧ w = w₀.withLog log ∧
      s = ⟨Cursor.initial p.completed p.notCompleted, [], .head⟩ := by
  unfold start at h
  unfold remembered
  cases ht : f.tracking with
  | none =>
    simp only [ht] at h
    cases h
    exact ⟨{}, _, rfl, rfl, rfl⟩
  | some path =>
    simp only [ht] at h
    obtain ⟨p₁, w₁, h₁, h⟩ := exec_bind_eq_ok_iff.mp h
    obtain ⟨p₂, w₂, h₂, h⟩ := exec_bind_eq_ok_iff.mp h
    obtain ⟨log₁, hl₁⟩ := Progress.exec_load path w₀
    obtain ⟨hp₁, rfl⟩ := Prod.mk.inj (hl₁.symm.trans h₁)
    obtain ⟨log₂, hl₂⟩ := Progress.exec_load path (w₀.withLog log₁)
    obtain ⟨hp₂, rfl⟩ := Prod.mk.inj (hl₂.symm.trans h₂)
    -- The file has not changed between the two questions.
    obtain rfl : p₁ = p₂ := Except.ok.inj (hp₁.symm.trans hp₂)
    cases h
    exact ⟨p₁, _, hp₁, rfl, rfl⟩

/-- Where the record of earlier runs can be read, a run starts. -/
theorem exec_start_of_remembered {p : Progress} (h : f.remembered w = .ok p) :
    ∃ log, f.start.exec w =
      (.ok ⟨Cursor.initial p.completed p.notCompleted, [], .head⟩, w.withLog log) := by
  unfold remembered at h
  unfold start
  cases ht : f.tracking with
  | none =>
    simp only [ht] at h
    cases h
    exact ⟨_, rfl⟩
  | some path =>
    simp only [ht] at h
    obtain ⟨log, hload⟩ := Progress.exec_load path w
    obtain ⟨log', hload'⟩ := Progress.exec_load path (w.withLog log)
    rw [h] at hload
    have hload' : _ = (Except.ok p, (w.withLog log).withLog log') := h ▸ hload'
    dsimp only
    rw [exec_bind_of_ok hload, exec_bind_of_ok hload']
    exact ⟨_, rfl⟩

/-- Only the log tells that a run starts. -/
theorem keeps_start {P : World → Prop} (hP : LogFree P) (f : Workflow) : Keeps P f.start := by
  have hnoted : ∀ cursor : Cursor, Keeps P (do
      note .info s!"Running workflow with {f.steps.length} step(s) in {f.shop.dir}"
      return { cursor := cursor } : Act State) :=
    fun cursor => (Keeps.note hP _).bind fun _ => Keeps.pure _
  unfold start
  dsimp only
  split
  · exact (Keeps.pure _).bind hnoted
  · exact (Progress.keeps_load hP _).bind fun _ => (Progress.keeps_load hP _).bind fun _ =>
      (Keeps.pure _).bind hnoted

section

variable {P : World → Prop}
  (hdir : ∀ path ∈ f.tracking, ∀ w s, P w →
    w.store.ensureDirectory w.cwd path.parent = .ok s → P { w with store := s })
  (hwrite : ∀ path ∈ f.tracking, ∀ w text s, P w →
    w.store.writeText w.cwd path text = .ok s → P { w with store := s })
include hdir hwrite

theorem keeps_recordStarted (hP : LogFree P) (index : Nat) : Keeps P (f.recordStarted index) := by
  unfold recordStarted
  split
  · next path hpath => exact Progress.keeps_recordStarted (hdir path hpath) (hwrite path hpath) hP _
  · exact Keeps.pure _

theorem keeps_recordCompleted (hP : LogFree P) (index : Nat) :
    Keeps P (f.recordCompleted index) := by
  unfold recordCompleted
  split
  · next path hpath =>
    exact Progress.keeps_recordCompleted (hdir path hpath) (hwrite path hpath) hP _
  · exact Keeps.pure _

end

/-! ### What holds along a trail -/

theorem Trail.ne_nil (h : Trail f w₀ trail) : trail ≠ [] := by
  cases h <;> exact List.cons_ne_nil _ _

theorem Trail.tail {p q : Point} (ht : Trail f w₀ (q :: p :: trail)) : Trail f w₀ (p :: trail) := by
  cases ht with
  | next ht _ => exact ht

theorem Trail.takes {p q : Point} (ht : Trail f w₀ (q :: p :: trail)) :
    Takes f p.1 p.2 (.next q.2) q.1 := by
  cases ht with
  | next _ h => exact takes_of_turn h

/-- A trail from an earlier one of its points on. -/
theorem Trail.drop {p : Point} (newer : List Point) (ht : Trail f w₀ (newer ++ p :: trail)) :
    Trail f w₀ (p :: trail) := by
  induction newer with
  | nil => exact ht
  | cons q newer ih =>
    cases newer with
    | nil => exact ht.tail
    | cons r newer => exact ih ht.tail

theorem Trail.start_suffix (ht : Trail f w₀ trail) (h : f.start.exec w₀ = (.ok s, w)) :
    [(w, s)] <:+ trail := by
  induction ht with
  | start h' =>
    cases h.symm.trans h'
    exact List.suffix_rfl
  | next _ _ ih => exact ih.trans (List.suffix_cons _ _)

/-- A run goes through no other points than those of the trail that it ends. -/
theorem Ends.suffix {other : List Point} (h : Ends f w₀ trail o w) (ht : Trail f w₀ other) :
    other <:+ trail := by
  obtain ⟨hall, hdone⟩ := h
  induction ht with
  | start h => exact hall.start_suffix h
  | @next w s w' s' older ht hturn ih =>
    obtain ⟨newer, hnewer⟩ := ih
    rcases List.eq_nil_or_concat newer with rfl | ⟨newer, q, rfl⟩
    · cases hnewer
      cases hturn.symm.trans hdone
    · -- The point that comes next on the whole trail is the one that the turn leads to.
      rw [List.concat_append] at hnewer
      rw [← hnewer] at hall
      cases hall.drop newer with
      | next _ h =>
        cases hturn.symm.trans h
        exact ⟨newer, hnewer⟩

/-- What holds at the start and is kept by every transition holds all along a trail. -/
theorem Trail.forall_state {P : State → Prop}
    (hstart : ∀ completed notCompleted, P ⟨Cursor.initial completed notCompleted, [], .head⟩)
    (hstep : ∀ {w s w' s'}, P s → Takes f w s (.next s') w' → P s') (ht : Trail f w₀ trail) :
    ∀ p ∈ trail, P p.2 := by
  induction ht with
  | start h =>
    obtain ⟨p, log, -, -, rfl⟩ := start_spec h
    intro p hp
    rw [List.mem_singleton] at hp
    subst hp
    exact hstart _ _
  | next ht h ih =>
    intro p hp
    rcases List.mem_cons.mp hp with rfl | hp
    · exact hstep (ih _ (List.mem_cons_self ..)) (takes_of_turn h)
    · exact ih p hp

/-- A step under way is the one at the cursor. -/
def Placed (f : Workflow) (s : State) : Prop :=
  match s.phase with
  | .attempt index step _ _ => index = s.cursor.index ∧ f.steps[index]? = some step
  | .returned index step _ => index = s.cursor.index ∧ f.steps[index]? = some step
  | .recorded index step _ => index = s.cursor.index ∧ f.steps[index]? = some step
  | _ => True

section

variable {c : Cursor} {ms : List String} {index : Nat} {step run : Step} {identity output : String}

theorem Placed.of_attempt (h : f.Placed ⟨c, ms, .attempt index step run identity⟩) :
    index = c.index ∧ f.steps[index]? = some step := h

theorem Placed.of_recorded (h : f.Placed ⟨c, ms, .recorded index step output⟩) :
    index = c.index ∧ f.steps[index]? = some step := h

end

theorem Takes.placed {w w' : World} {s s' : State} (h : Takes f w s (.next s') w')
    (hs : f.Placed s) : f.Placed s' := by
  cases h with
  | started _ _ hstep => exact ⟨rfl, hstep⟩
  | executed _ => exact hs
  | recorded _ => exact hs
  | _ => trivial

theorem Trail.placed (ht : Trail f w₀ trail) : ∀ p ∈ trail, f.Placed p.2 :=
  ht.forall_state (fun _ _ => trivial) fun hs h => h.placed hs

/-- The points that a run goes through in its first turns, the newest first. -/
def points (f : Workflow) (w₀ : World) : (turns : Nat) → List Point
  | 0 =>
    match f.start.exec w₀ with
    | (.ok s, w) => [(w, s)]
    | (.error _, _) => []
  | turns + 1 =>
    match points f w₀ turns with
    | [] => []
    | (w, s) :: trail =>
      match (f.turn s).exec w with
      | (.ok (.next s'), w') => (w', s') :: (w, s) :: trail
      | _ => (w, s) :: trail

theorem trail_points {turns : Nat} (h : f.points w₀ turns ≠ []) :
    Trail f w₀ (f.points w₀ turns) := by
  induction turns with
  | zero =>
    unfold points at h ⊢
    split
    · next hs => exact .start hs
    · next hs =>
      rw [hs] at h
      exact absurd rfl h
  | succ turns ih =>
    unfold points at h ⊢
    cases hp : f.points w₀ turns with
    | nil =>
      rw [hp] at h
      exact absurd rfl h
    | cons p trail =>
      have ht := ih (by simp [hp])
      rw [hp] at ht
      dsimp only
      split
      · next hturn => exact .next ht hturn
      · exact ht

/-- Where a run starts it has points. -/
theorem points_ne_nil (h : f.start.exec w₀ = (.ok s, w)) (turns : Nat) : f.points w₀ turns ≠ [] := by
  induction turns with
  | zero =>
    unfold points
    rw [h]
    exact List.cons_ne_nil _ _
  | succ turns ih =>
    obtain ⟨p, trail, hp⟩ := List.exists_cons_of_ne_nil ih
    unfold points
    rw [hp]
    dsimp only
    split <;> exact List.cons_ne_nil _ _

/-- What is read off a list, with an entry in front. -/
theorem filterMap_cons_toList {α β : Type} (g : α → Option β) (x : α) (xs : List α) :
    (x :: xs).filterMap g = (g x).toList ++ xs.filterMap g := by
  rw [List.filterMap_cons]
  cases g x <;> rfl

/-- A list split at its first entry and at a later one. -/
theorem eq_cons_append_cons {α : Type} (xs : List α) (i : Nat) (x : α) (h : i + 1 < xs.length) :
    xs = xs.getD 0 x :: ((xs.drop 1).take i ++ xs.getD (i + 1) x :: xs.drop (i + 2)) := by
  cases xs with
  | nil => exact absurd h (Nat.not_lt_zero _)
  | cons y ys =>
    have hi : i < ys.length := by simpa using h
    have hget : ys.getD i x = ys[i] := (List.getElem_eq_getD x).symm
    simp only [List.getD_cons_zero, List.getD_cons_succ, List.drop_succ_cons, List.drop_zero,
      hget, List.getElem_cons_drop, List.take_append_drop]

/-! ### Runs -/

/-- What a fuelled run that goes on from the end of a trail yields, the whole run yields. -/
theorem ends_of_runFrom {fuel : Nat} (ht : Trail f w₀ ((w, s) :: trail))
    (h : (f.runFrom fuel s).exec w = (.ok o, w')) : ∃ trail', Ends f w₀ trail' o w' := by
  induction fuel generalizing w s trail with
  | zero => cases h
  | succ fuel ih =>
    obtain ⟨t, w₁, hturn, h⟩ := exec_bind_eq_ok_iff.mp h
    cases t with
    | done o =>
      cases h
      exact ⟨_, .intro ht hturn⟩
    | next s₁ => exact ih (.next ht hturn) h

/-- The outcome of a run is that of the trail it goes through. -/
theorem ends_of_run (h : f.run.exec w₀ = (.ok o, w')) : ∃ trail, Ends f w₀ trail o w' := by
  obtain ⟨s, w, hs, h⟩ := exec_bind_eq_ok_iff.mp h
  exact ends_of_runFrom (.start hs) h

/-- A run goes on from the end of every trail that is not longer than its fuel. -/
theorem exec_run_of_trail (ht : Trail f w₀ ((w, s) :: trail)) (hlen : trail.length ≤ f.maxTurns) :
    f.run.exec w₀ = (f.runFrom (f.maxTurns - trail.length) s).exec w := by
  induction trail generalizing w s with
  | nil =>
    cases ht with
    | start h => exact exec_bind_of_ok h
  | cons p trail ih =>
    cases ht with
    | @next v r _ _ _ ht h =>
      rw [List.length_cons] at hlen
      obtain ⟨fuel, hfuel⟩ : ∃ fuel, f.maxTurns - trail.length = fuel + 1 :=
        Nat.exists_eq_add_one.mpr (by omega)
      have hrest : f.maxTurns - (trail.length + 1) = fuel := by omega
      rw [ih ht (by omega), hfuel, List.length_cons, hrest, runFrom]
      exact exec_bind_of_ok h

/-- A run whose fuel lasts ends with the outcome of its trail. -/
theorem Ends.exec_run (h : Ends f w₀ trail o w') (hlen : trail.length ≤ f.maxTurns) :
    f.run.exec w₀ = (.ok o, w') := by
  cases h with
  | @intro w s older _ _ ht hturn =>
    have hlen : older.length + 1 ≤ f.maxTurns := hlen
    obtain ⟨fuel, hfuel⟩ : ∃ fuel, f.maxTurns - older.length = fuel + 1 :=
      Nat.exists_eq_add_one.mpr (by omega)
    rw [exec_run_of_trail ht (by omega), hfuel, runFrom]
    exact exec_bind_of_ok hturn

/-- A run whose fuel lasts ends in the fault that a turn ends in. -/
theorem run_eq_error_of_turn {e : Fault} (ht : Trail f w₀ ((w, s) :: trail))
    (hlen : trail.length < f.maxTurns) (h : ((f.turn s).exec w).1 = .error e) :
    (f.run.exec w₀).1 = .error e := by
  obtain ⟨fuel, hfuel⟩ : ∃ fuel, f.maxTurns - trail.length = fuel + 1 :=
    Nat.exists_eq_add_one.mpr (by omega)
  rw [exec_run_of_trail ht (Nat.le_of_lt hlen), hfuel]
  unfold runFrom
  exact exec_bind_eq_error_iff.mpr (.inl h)

/-- A fuelled run that ends in a fault has run out of fuel or come to a turn that ends in it. -/
theorem exists_turn_of_runFrom {fuel : Nat} {e : Fault} (ht : Trail f w₀ ((w, s) :: trail))
    (h : ((f.runFrom fuel s).exec w).1 = .error e) :
    e = .endless ∨
      ∃ v r older, Trail f w₀ ((v, r) :: older) ∧ ((f.turn r).exec v).1 = .error e := by
  induction fuel generalizing w s trail with
  | zero =>
    cases h
    exact .inl rfl
  | succ fuel ih =>
    rcases exec_bind_eq_error_iff.mp h with hturn | ⟨t, w₁, hturn, h⟩
    · exact .inr ⟨w, s, trail, ht, hturn⟩
    · cases t with
      | done o => cases h
      | next s₁ => exact ih (.next ht hturn) h

/-- A run that ends in a fault has run out of fuel, could not start or has come to a turn that ends
in it. -/
theorem exists_turn_of_run {e : Fault} (h : (f.run.exec w₀).1 = .error e) :
    e = .endless ∨ (f.start.exec w₀).1 = .error e ∨
      ∃ w s trail, Trail f w₀ ((w, s) :: trail) ∧ ((f.turn s).exec w).1 = .error e := by
  rcases exec_bind_eq_error_iff.mp h with hstart | ⟨s, w, hs, h⟩
  · exact .inr (.inl hstart)
  · exact (exists_turn_of_runFrom (.start hs) h).imp_right .inr

end Conductor.Workflow
