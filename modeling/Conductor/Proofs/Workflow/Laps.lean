import Conductor.Proofs.Workflow.Rounds
import Conductor.Proofs.Workflow.Undisturbed

/-!
# The laps of a loop that is asked for every repetition

A list has one loop, whose step always asks to step back, and nothing disturbs the run.  Then the
run goes once from the first step to the loop's, as often as the limit says over the steps that the
loop leads back to, and on to the end.  Main statement: the run is completed with the message about
the limit and no other, and it executes the positions in this order (`completed_after_laps`), so the
loop's step once more often than the limit says (`count_lapOrder`).

A stretch without the loop is gone through in order (`Comes.stretch`), and the laps follow by
induction on the repetitions that are left to the loop's counter (`Comes.laps`).
-/

namespace Conductor.Workflow

open Act Cursor

/-- A list in which one step alone has a behavior: a loop with a limit, whose step may be executed
again and is not in the loop's own skip set. -/
structure OneLoop (steps : List Step) (a : Nat) (step : Step) (l : LoopBehavior) (m : Nat) :
    Prop where
  at_loop : steps[a]? = some step
  behavior : step.behavior = some (.loop l)
  active : l.isActive = true
  limit : l.maxIterations = some m
  again : step.executeOnce = false
  heard : step.agentId ∉ l.skip
  others : ∀ j other, j ≠ a → steps[j]? = some other → other.behavior = none

/-- The positions from `p` to before `q` that are not passed over. -/
def stretch (steps : List Step) (hot : Option HotLoop) (front p q : Nat) : List Nat :=
  (List.range' p (q - p)).filter fun j => steps[j]?.any fun step => !passes hot front j step

/-- A lap over the steps that a loop leads back to, and its own. -/
def lap (steps : List Step) (a : Nat) (l : LoopBehavior) : List Nat :=
  stretch steps (some ⟨a, l.skip⟩) (a + 1) (a - l.stepsBack) a ++ [a]

/-- The order in which a list with one loop is executed that is asked for every repetition. -/
def lapOrder (steps : List Step) (a : Nat) (l : LoopBehavior) (m : Nat) : List Nat :=
  List.range a ++ [a] ++ (List.replicate m (lap steps a l)).flatten ++
    List.range' (a + 1) (steps.length - (a + 1))

variable {f : Workflow} {w₀ : World} {a p q m front : Nat} {hot : Option HotLoop} {c : Cursor}
  {ms : List String} {order : List Nat} {step : Step} {l : LoopBehavior} {word : String}

/-! ### Stretches and laps -/

/-- The step of the loop is not passed over. -/
theorem OneLoop.passes_eq_false {steps : List Step} (h : OneLoop steps a step l m)
    (hhot : ∀ h ∈ hot, h.skip = l.skip) (front : Nat) : passes hot front a step = false := by
  unfold passes
  rw [h.again, Bool.false_and, Bool.false_or, Option.any_eq_false]
  intro loop hloop
  simpa [hhot loop hloop] using h.heard

/-- Whether later positions are passed over does not depend on the visit to this one. -/
theorem passes_max {j : Nat} (hj : p + 1 ≤ j) (step : Step) :
    passes hot (max front (p + 1)) j step = passes hot front j step := by
  have hlt : (j < max front (p + 1)) ↔ j < front := by omega
  unfold passes
  simp only [hlt]

theorem stretch_self (steps : List Step) (hot : Option HotLoop) (front p : Nat) :
    stretch steps hot front p p = [] := by
  unfold stretch
  rw [Nat.sub_self]
  rfl

theorem stretch_cons {steps : List Step} (hs : steps[p]? = some step) (hpq : p < q)
    (hot : Option HotLoop) (front : Nat) : stretch steps hot front p q =
      (if passes hot front p step then [] else [p]) ++
        stretch steps hot (max front (p + 1)) (p + 1) q := by
  obtain ⟨k, rfl⟩ : ∃ k, q = p + 1 + k := ⟨q - (p + 1), by omega⟩
  have hlen : p + 1 + k - p = k + 1 := by omega
  have hlen' : p + 1 + k - (p + 1) = k := by omega
  have hrest : (List.range' (p + 1) k).filter
      (fun j => steps[j]?.any fun step => !passes hot front j step)
      = (List.range' (p + 1) k).filter
        fun j => steps[j]?.any fun step => !passes hot (max front (p + 1)) j step := by
    refine List.filter_congr fun j hj => ?_
    have hle := (List.mem_range'_1.mp hj).1
    simp only [passes_max hle]
  unfold stretch
  rw [hlen, hlen', List.range'_succ, List.filter_cons, hs, hrest]
  cases hpass : passes hot front p step with
  | true => simp [hpass]
  | false => simp [hpass]

section

variable (hu : Undisturbed f w₀ a word)
include hu

/-- A stretch without a behavior is gone through in order, under a loop that is not passed in it. -/
theorem Comes.stretch (h : Comes f w₀ c ms order) (hc : Positioned c p hot front) (hpq : p ≤ q)
    (hq : q ≤ f.steps.length)
    (hplain : ∀ j step, p ≤ j → j < q → f.steps[j]? = some step → step.behavior = none)
    (hhot : ∀ h ∈ hot, q ≤ h.anchor ∧ h.anchor < front) :
    ∃ c', Comes f w₀ c' ms (order ++ stretch f.steps hot front p q) ∧
      Positioned c' q hot (max front q) ∧ ∀ key, c'.iterations key = c.iterations key := by
  induction hk : q - p generalizing c p front order with
  | zero =>
    obtain rfl : p = q := by omega
    rw [stretch_self, List.append_nil, Nat.max_eq_left hc.le_front]
    exact ⟨c, h, hc, fun _ => rfl⟩
  | succ k ih =>
    have hlt : p < q := by omega
    obtain ⟨step, hs⟩ : ∃ step, f.steps[p]? = some step :=
      ⟨_, List.getElem?_eq_getElem (by omega)⟩
    have hanchor : ∀ h ∈ hot, p + 1 ≤ h.anchor := fun h hh => by
      have := (hhot h hh).1
      omega
    have hmax : max (max front (p + 1)) q = max front q := by omega
    have hplain' : ∀ j step, p + 1 ≤ j → j < q → f.steps[j]? = some step → step.behavior = none :=
      fun j step hj => hplain j step (by omega)
    have hhot' : ∀ h ∈ hot, q ≤ h.anchor ∧ h.anchor < max front (p + 1) := fun h hh => by
      have := hhot h hh
      omega
    rw [stretch_cons hs hlt, ← hmax]
    cases hpass : passes hot front p step with
    | true =>
      -- What is passed over is done already: before a hot loop's step all steps are.
      have hdone : p < front := by
        unfold passes at hpass
        rcases Bool.or_eq_true_iff.mp hpass with honce | hskip
        · simpa using (Bool.and_eq_true_iff.mp honce).2
        · obtain ⟨h, hh, -⟩ := (Option.any_eq_true _ _).mp hskip
          have := hhot h hh
          omega
      rw [if_pos rfl, List.nil_append]
      obtain ⟨c', hcomes, hstands, hkeys⟩ := ih (h.passed hu hc hs hpass) (hc.passed hdone hanchor)
        hlt hplain' hhot' (by omega)
      exact ⟨c', hcomes, hstands, hkeys⟩
    | false =>
      have hvisited := h.visited hu hc hs hpass (hplain p step (Nat.le_refl p) hlt hs)
      rw [if_neg Bool.false_ne_true, ← List.append_assoc]
      obtain ⟨c', hcomes, hstands, hkeys⟩ := ih hvisited (hc.visited step hanchor) hlt hplain'
        hhot' (by omega)
      exact ⟨c', hcomes, hstands, hkeys⟩

/-- From the loop's step on, the run goes as many laps as the loop may still repeat, and then passes
the loop with the message about its limit. -/
theorem Comes.laps (hone : OneLoop f.steps a step l m) (hword : l.trigger = word)
    (h : Comes f w₀ c ms order) (hc : Positioned c a hot front)
    (hhot : ∀ h ∈ hot, h.skip = l.skip) (hfront : front ≤ a + 1) {k : Nat} (hk : k ≤ m)
    (hn : c.iterations (loopKey step a) = k) :
    ∃ c', Comes f w₀ c' (ms ++ [limitMessage step m])
        (order ++ [a] ++ (List.replicate (m - k) (lap f.steps a l)).flatten) ∧
      Positioned c' (a + 1) none (a + 1) := by
  induction hr : m - k generalizing c hot front order k with
  | zero =>
    have hcomes := h.left hu hone.behavior hone.active hone.limit hword hc hone.at_loop
      (hone.passes_eq_false hhot front) (by omega)
    have hstands := hc.left step
    rw [Nat.max_eq_right hfront] at hstands
    exact ⟨_, by simpa using hcomes, hstands⟩
  | succ r ih =>
    have hcomes := h.repeated hu hone.behavior hone.active hone.limit hword hc hone.at_loop
      (hone.passes_eq_false hhot front) (by omega)
    have hstands := hc.repeated step l
    rw [Nat.max_eq_right hfront] at hstands
    have hlt := (List.getElem?_eq_some_iff.mp hone.at_loop).1
    -- The lap leads from the position that the loop steps back to up to its own step.
    obtain ⟨c₁, hcomes₁, hstands₁, hkeys⟩ := hcomes.stretch hu hstands (q := a) (by omega)
      (by omega) (fun j other _ hj => hone.others j other (by omega)) (by simp)
    have hcount : c₁.iterations (loopKey step a) = (k + 1 : Nat) := by
      have hself := iterations_loopBack_self (recordedCursor c step)
        ⟨true, l.stepsBack, l.skip, none, false⟩ (loopKey step a)
      rw [show (recordedCursor c step).iterations (loopKey step a) = k from hn] at hself
      rw [hkeys]
      exact hself
    obtain ⟨c', hcomes', hstands'⟩ := ih hcomes₁ hstands₁ (by simp) (by omega) (k := k + 1)
      (by omega) hcount (by omega)
    refine ⟨c', ?_, hstands'⟩
    have horder : order ++ [a] ++ (List.replicate (r + 1) (lap f.steps a l)).flatten =
        order ++ [a] ++ Workflow.stretch f.steps (some ⟨a, l.skip⟩) (a + 1) (a - l.stepsBack) a ++
          [a] ++ (List.replicate r (lap f.steps a l)).flatten := by
      rw [List.replicate_succ, List.flatten_cons, lap]
      simp only [List.append_assoc]
    rw [horder]
    exact hcomes'

end

/-! ### The whole run -/

/-- Away from a loop nothing is passed over that has not been done. -/
theorem stretch_none {steps : List Step} (hfront : front ≤ p) (hq : q ≤ steps.length) :
    stretch steps none front p q = List.range' p (q - p) := by
  unfold stretch
  refine List.filter_eq_self.mpr fun j hj => ?_
  obtain ⟨hle, hlt⟩ := List.mem_range'_1.mp hj
  have hj : j < steps.length := by omega
  have hfront : ¬ j < front := by omega
  rw [List.getElem?_eq_getElem hj, Option.any_some]
  unfold passes
  simp [hfront]

theorem OneLoop.loopsLimited {steps : List Step} (h : OneLoop steps a step l m) :
    LoopsLimited steps := by
  intro other hmem l' hl
  obtain ⟨j, hj⟩ := List.getElem?_of_mem hmem
  by_cases ha : j = a
  · subst ha
    obtain rfl : step = other := Option.some.inj (h.at_loop.symm.trans hj)
    unfold Step.activeLoop? at hl
    rw [h.behavior] at hl
    simp only [h.active, if_true, Option.some.injEq] at hl
    rw [← hl, h.limit]
    rfl
  · unfold Step.activeLoop? at hl
    rw [h.others j other ha hj] at hl
    cases hl

/-- An undisturbed run executes the list in the order of the laps. -/
theorem ends_after_laps (h : OneLoop f.steps a step l m) (hu : Undisturbed f w₀ a l.trigger) :
    ∃ trail w, Ends f w₀ trail ⟨.completed, none, [limitMessage step m]⟩ w ∧
      executed trail = lapOrder f.steps a l m ∧ InPlace f trail := by
  have hlt := (List.getElem?_eq_some_iff.mp h.at_loop).1
  -- Up to the loop nothing is passed over.
  obtain ⟨c₁, hcomes₁, hstands₁, hkeys⟩ := hu.comes_initial.stretch hu positioned_initial (q := a)
    (Nat.zero_le a) (Nat.le_of_lt hlt) (fun j other _ hj => h.others j other (Nat.ne_of_lt hj))
    (by simp)
  rw [stretch_none (Nat.le_refl 0) (Nat.le_of_lt hlt)] at hcomes₁
  rw [Nat.zero_max] at hstands₁
  obtain ⟨c₂, hcomes₂, hstands₂⟩ := hcomes₁.laps hu h rfl hstands₁ (by simp) (Nat.le_succ a)
    (Nat.zero_le m) (hkeys _)
  -- Behind the loop nothing is passed over either.
  obtain ⟨c₃, hcomes₃, hstands₃, -⟩ := hcomes₂.stretch hu hstands₂ (q := f.steps.length) hlt
    (Nat.le_refl _) (fun j other hj _ => h.others j other (by omega)) (by simp)
  rw [stretch_none (Nat.le_refl _) (Nat.le_refl _)] at hcomes₃
  obtain ⟨trail, w, hends, horder, hplace⟩ := hcomes₃.ends hu hstands₃
  refine ⟨trail, w, hends, ?_, hplace⟩
  rw [horder, lapOrder, List.range_eq_range']
  rfl

/-! ### How often a position is executed -/

theorem mem_range'_sub (p q j : Nat) : j ∈ List.range' p (q - p) ↔ p ≤ j ∧ j < q := by
  rw [List.mem_range'_1]
  omega

theorem count_range' (p q j : Nat) :
    (List.range' p (q - p)).count j = if p ≤ j ∧ j < q then 1 else 0 := by
  have hnodup : (List.range' p (q - p)).Nodup := List.nodup_range'
  rw [hnodup.count]
  simp only [mem_range'_sub]

theorem count_stretch {steps : List Step} {j : Nat} (hs : steps[j]? = some step)
    (hot : Option HotLoop) (front p q : Nat) : (stretch steps hot front p q).count j =
      if p ≤ j ∧ j < q ∧ passes hot front j step = false then 1 else 0 := by
  have hmem : j ∈ stretch steps hot front p q ↔
      p ≤ j ∧ j < q ∧ passes hot front j step = false := by
    unfold stretch
    rw [List.mem_filter, mem_range'_sub, hs, Option.any_some, Bool.not_eq_true', and_assoc]
  have hnodup : (stretch steps hot front p q).Nodup := List.Nodup.filter _ List.nodup_range'
  rw [hnodup.count]
  simp only [hmem]

/-- In a lap a step is not passed over iff it may be executed again and the loop does not skip
it. -/
theorem passes_eq_false_iff {j : Nat} (hj : j ≤ a) (skip : List String) (step : Step) :
    passes (some ⟨a, skip⟩) (a + 1) j step = false ↔
      step.executeOnce = false ∧ step.agentId ∉ skip := by
  have hlt : j < a + 1 := Nat.lt_succ_of_le hj
  unfold passes
  simp [hlt]

theorem count_lap {steps : List Step} {j : Nat} {other : Step} (hs : steps[j]? = some other)
    (a : Nat) (l : LoopBehavior) : (lap steps a l).count j =
      if j = a ∨ a - l.stepsBack ≤ j ∧ j < a ∧ other.executeOnce = false ∧ other.agentId ∉ l.skip
      then 1 else 0 := by
  unfold lap
  rw [List.count_append, List.count_singleton, count_stretch hs]
  rcases Nat.lt_trichotomy j a with hlt | rfl | hgt
  · simp [passes_eq_false_iff (Nat.le_of_lt hlt), Nat.ne_of_lt hlt, (Nat.ne_of_lt hlt).symm]
  · simp
  · simp [Nat.not_lt_of_gt hgt, Nat.ne_of_gt hgt, (Nat.ne_of_gt hgt).symm]

/-- In the order of the laps the loop's step comes once more often than the limit says, and so does
each step that the loop leads back to and does not pass over; every other step comes once. -/
theorem count_lapOrder {steps : List Step} (h : OneLoop steps a step l m) {j : Nat} {other : Step}
    (hs : steps[j]? = some other) : (lapOrder steps a l m).count j =
      if j = a ∨ a - l.stepsBack ≤ j ∧ j < a ∧ other.executeOnce = false ∧ other.agentId ∉ l.skip
      then m + 1 else 1 := by
  have hj := (List.getElem?_eq_some_iff.mp hs).1
  -- Apart from the laps every position comes once.
  have honce : (List.range a).count j + [a].count j +
      (List.range' (a + 1) (steps.length - (a + 1))).count j = 1 := by
    have hbefore := count_range' 0 a j
    rw [Nat.sub_zero, ← List.range_eq_range'] at hbefore
    rw [hbefore, count_range', List.count_singleton]
    rcases Nat.lt_trichotomy j a with hlt | rfl | hgt
    · simp [hlt, (Nat.ne_of_lt hlt).symm, Nat.not_le_of_gt (Nat.lt_succ_of_lt hlt)]
    · simp
    · simp [Nat.not_lt_of_gt hgt, (Nat.ne_of_gt hgt).symm, Nat.succ_le_of_lt hgt, hj]
  unfold lapOrder
  rw [List.count_append, List.count_append, List.count_append, List.count_flatten,
    List.map_replicate, List.sum_replicate_nat, count_lap hs]
  split
  · omega
  · omega

/-- An undisturbed run over a list with one loop is completed with the message about the loop's
limit and no other.  It executes steps in their places only: the loop's once more often than the
limit says, those that the loop leads back to and does not pass over as often, and every other step
once. -/
theorem completed_after_laps (h : OneLoop f.steps a step l m) (hu : Undisturbed f w₀ a l.trigger) :
    ∃ trail w, Ends f w₀ trail ⟨.completed, none, [limitMessage step m]⟩ w ∧
      f.run.exec w₀ = (.ok ⟨.completed, none, [limitMessage step m]⟩, w) ∧
      InPlace f trail ∧ executed trail = lapOrder f.steps a l m ∧
      (executed trail).count a = m + 1 ∧
      ∀ j other, j ≠ a → f.steps[j]? = some other → (executed trail).count j =
        if a - l.stepsBack ≤ j ∧ j < a ∧ other.executeOnce = false ∧ other.agentId ∉ l.skip
        then m + 1 else 1 := by
  obtain ⟨trail, w, hends, horder, hplace⟩ := ends_after_laps h hu
  refine ⟨trail, w, hends, hends.exec_run_of_loopsLimited h.loopsLimited, hplace, horder, ?_,
    fun j other hj hs => ?_⟩
  · rw [horder, count_lapOrder h h.at_loop, if_pos (.inl rfl)]
  · rw [horder, count_lapOrder h hs]
    simp only [hj, false_or]

/-- The step of an outline. -/
def outlineStep : Step :=
  { agentId := "outline", agentName := "Outline", promptPath := "outline.md" }

/-- The step of a release. -/
def releaseStep : Step :=
  { agentId := "release", agentName := "Release", promptPath := "release.md" }

/-- A review leads back over an outline and a draft, which it skips, and a release follows. -/
def publishing : Workflow :=
  { overlapping with steps := [outlineStep, draftStep, reviewStep, releaseStep] }

theorem oneLoop_publishing : OneLoop publishing.steps 2 reviewStep reviewLoop 1 where
  at_loop := rfl
  behavior := rfl
  active := by decide
  limit := rfl
  again := rfl
  heard := by decide
  others := by
    intro j other hj hs
    have hplain : ∀ j < publishing.steps.length, j ≠ 2 →
        ∀ other ∈ publishing.steps[j]?, other.behavior.isNone := by decide
    exact Option.isNone_iff_eq_none.mp (hplain j (List.getElem?_eq_some_iff.mp hs).1 hj other hs)

theorem ends_publishing : ∃ o w, Ends publishing default (publishing.points default 25) o w := by
  have hne : publishing.points default 25 ≠ [] := List.ne_nil_of_length_pos (by decide +kernel)
  obtain ⟨w, h⟩ := ends_points hne (by decide +kernel)
  exact ⟨_, w, h⟩

theorem undisturbed_publishing : Undisturbed publishing default 2 "AGAIN" := by
  obtain ⟨o, w, hends⟩ := ends_publishing
  have hmem : ∀ n trail, Trail publishing default (n :: trail) →
      n ∈ publishing.points default 25 := fun n trail ht =>
    (hends.suffix ht).subset (List.mem_cons_self ..)
  have huncancelled : ∀ n ∈ publishing.points default 25, n.1.cancelled = false := by
    decide +kernel
  have hfaultless : ∀ n ∈ publishing.points default 25,
      ((publishing.turn n.2).exec n.1).1.toOption.isSome = true := by
    decide +kernel
  have hsilent : ∀ n ∈ publishing.points default 25,
      ((publishing.signals.readSafely publishing.shop.dir).exec n.1).1.toOption = some none := by
    decide +kernel
  have hsucceeds : ∀ n ∈ publishing.points default 25, ∀ e ∈ n.2.phase.executes?,
      ((publishing.shop.execute e.2.1 e.2.2 none).exec n.1).1.toOption = some "AGAIN" := by
    decide +kernel
  exact {
    fresh := ⟨{}, rfl, rfl, rfl⟩
    uncancelled := fun n trail ht => huncancelled n (hmem n trail ht)
    faultless := fun n trail e ht he => by
      have hx := hfaultless n (hmem n trail ht)
      rw [he] at hx
      cases hx
    succeeds := fun n trail _ step run identity ht hn => by
      have hexecutes : n.2.phase.executes? = some (step, run, identity) := by rw [hn]; rfl
      have hx := hsucceeds n (hmem n trail ht) _ hexecutes
      exact ⟨"AGAIN", eq_ok_of_toOption hx, fun _ => by decide +kernel⟩
    silent := fun n trail _ _ _ ht _ => eq_ok_of_toOption (hsilent n (hmem n trail ht)) }

theorem publishing_after_laps :
    OneLoop publishing.steps 2 reviewStep reviewLoop 1 ∧ Undisturbed publishing default 2 "AGAIN" ∧
      ∃ trail w, publishing.run.exec default =
          (.ok ⟨.completed, none, ["Review: loop limit reached (1)"]⟩, w) ∧
        executed trail = [0, 1, 2, 0, 2, 3] := by
  refine ⟨oneLoop_publishing, undisturbed_publishing, ?_⟩
  obtain ⟨trail, w, -, hrun, -, horder, -⟩ :=
    completed_after_laps oneLoop_publishing undisturbed_publishing
  exact ⟨trail, w, hrun, horder⟩

end Conductor.Workflow
