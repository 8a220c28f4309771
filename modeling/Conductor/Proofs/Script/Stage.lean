import Conductor.Proofs.Script.Task

/-!
# A calm stage comes to its end

The tasks of a stage move in any order that the free workers allow.  Each move brings one task on
and leaves the others where they are, so what holds of the tasks one by one holds after any schedule
(`exec_moves`), and in the end all tasks are done (`MovedBy.all_done`).

Main statement: a stage ends with the results its tasks have to have, in script order, and with each
of their calls made once (`exec_runStage`), whatever the schedule and the number of workers.
-/

namespace Conductor.Script

open Act

/-- The tasks of a stage at work in a calm run, in which some calls were made before. -/
structure AtWork (shop : Workshop) (answer : Answers) (ts : List Task) (w₀ : World)
    (parentId : Option String) (before : List Invocation) (stage : Stage) (ids : List String)
    (runs : List TaskRun) (w : World) : Prop where
  steady : Steady shop ts w₀ ids w
  parent : ∀ id ∈ parentId, id ∈ ids
  tasks : runs.map (·.task) = stage
  reaches : ∀ r ∈ runs, Reaches shop answer w₀ parentId ids r.task r.phase
  calls : ∃ made, w.calls.toList = before ++ made ∧ made.Perm (runs.filterMap (made? shop w₀))

variable {shop : Workshop} {answer : Answers} {ts : List Task} {w₀ w : World}
  {parentId : Option String} {before : List Invocation} {stage : Stage} {ids : List String}
  {runs : List TaskRun} {workers : Nat}

/-! ### The results -/

theorem Reaches.eq_done {t : Task} {phase : TaskPhase}
    (h : Reaches shop answer w₀ parentId ids t phase) (hzero : phase.movesLeft = 0) :
    phase = .done (.ok (resultOf shop answer w₀ t)) := by
  cases h with
  | done => rfl
  | _ => cases hzero

theorem results_eq_ok {f : Task → TaskResult}
    (h : ∀ r ∈ runs, r.phase = .done (.ok (f r.task))) :
    results runs = .ok ((runs.map (·.task)).map f) := by
  unfold results
  induction runs with
  | nil => rfl
  | cons r runs ih =>
    have hr : r.phase.result? = some (.ok (f r.task)) := by
      rw [h r (List.mem_cons_self ..)]
      rfl
    rw [List.filterMap_cons_some (f := fun r : TaskRun => r.phase.result?) hr, List.mapM_cons,
      ih fun a ha => h a (List.mem_cons_of_mem _ ha)]
    rfl

/-- Tasks that are done have made their calls. -/
theorem filterMap_made? (h : ∀ r ∈ runs, r.phase.movesLeft = 0) :
    runs.filterMap (made? shop w₀) = (runs.map (·.task)).filterMap (invocationOf? shop w₀) := by
  induction runs with
  | nil => rfl
  | cons r runs ih =>
    have hcalled : r.phase.hasCalled = true := by
      have hzero := h r (List.mem_cons_self ..)
      cases hp : r.phase <;> rw [hp] at hzero <;> first | rfl | cases hzero
    rw [List.map_cons, List.filterMap_cons, List.filterMap_cons, made?, if_pos hcalled,
      ih fun a ha => h a (List.mem_cons_of_mem _ ha)]

/-! ### Moving -/

/-- The calls made grow by those of the task that moves. -/
theorem perm_filterMap_moved {α β : Type} {f : α → Option β} {as bs : List α} {a b : α}
    {made new : List β} (hmade : made.Perm ((as ++ a :: bs).filterMap f))
    (hnew : (f b).toList = (f a).toList ++ new) :
    (made ++ new).Perm ((as ++ b :: bs).filterMap f) := by
  have hcons : ∀ c, (as ++ c :: bs).filterMap f =
      as.filterMap f ++ ((f c).toList ++ bs.filterMap f) := by
    intro c
    rw [List.filterMap_append, List.filterMap_cons]
    cases f c <;> rfl
  rw [hcons] at hmade ⊢
  rw [hnew]
  refine (hmade.append_right new).trans ?_
  simp only [List.append_assoc]
  exact ((List.perm_append_comm).append_left _).append_left _

section

variable (hcalm : Calm shop answer ts w₀)
  (hrecordable : ∀ path ∈ shop.registry, Recordable shop answer ts w₀ path)
  (hstage : ∀ t ∈ stage, t ∈ ts) (hnamed : ∀ t ∈ stage, (readsOf shop w₀ t).Named)
include hcalm hrecordable hstage hnamed

/-- A move at a position changes nothing, or it brings the task there on and no other. -/
theorem exec_moveAt (h : AtWork shop answer ts w₀ parentId before stage ids runs w)
    (workers i : Nat) :
    ∃ ids' runs' w', (moveAt shop parentId workers runs i).exec w = (.ok runs', w') ∧
      MovedBy workers [i] runs runs' ∧ ids ⊆ ids' ∧
      AtWork shop answer ts w₀ parentId before stage ids' runs' w' := by
  rcases exec_moveAt_cases shop parentId workers i runs w with
    ⟨hmay, hx⟩ | ⟨earlier, r, later, _, _, rfl, rfl, hmay, hm, -⟩
  · exact ⟨ids, runs, w, hx, .stayed hmay (.nil runs), fun _ hid => hid, h⟩
  · have hmem : r ∈ earlier ++ r :: later := List.mem_append_right _ (List.mem_cons_self ..)
    have htask : r.task ∈ stage := by
      rw [← h.tasks]
      exact List.mem_map_of_mem hmem
    obtain ⟨ids', phase, w', hadv⟩ := exec_move hcalm hrecordable h.parent h.steady
      (hstage _ htask) (hnamed _ htask) (h.reaches r hmem) (Nat.zero_lt_of_lt hm.movesLeft_lt)
    refine ⟨ids', earlier ++ { r with phase := phase } :: later, w', ?_,
      .moved hmay hadv.movesLeft (.nil _), hadv.grows, hadv.steady,
      fun id hid => hadv.grows (h.parent id hid), ?_, ?_, ?_⟩
    · rw [exec_moveAt_append shop parentId hmay, exec_bind_of_ok hadv.exec_eq]
      rfl
    · rw [← h.tasks, List.map_append, List.map_append, List.map_cons, List.map_cons]
    · intro a ha
      rcases List.mem_append.mp ha with ha | ha
      · exact (h.reaches a (List.mem_append_left _ ha)).mono hadv.grows
      · rcases List.mem_cons.mp ha with rfl | ha
        · exact hadv.reaches
        · exact (h.reaches a (List.mem_append_right _ (List.mem_cons_of_mem _ ha))).mono hadv.grows
    · obtain ⟨made, hcalls, hmade⟩ := h.calls
      obtain ⟨new, hcalls', hnew⟩ := hadv.calls
      refine ⟨made ++ new, ?_, perm_filterMap_moved hmade hnew⟩
      rw [hcalls', hcalls, List.append_assoc]

/-- Any schedule can be followed. -/
theorem exec_moves (h : AtWork shop answer ts w₀ parentId before stage ids runs w) (workers : Nat)
    (moves : List Nat) :
    ∃ ids' runs' w', (moves.foldlM (moveAt shop parentId workers) runs).exec w =
        (.ok runs', w') ∧ MovedBy workers moves runs runs' ∧ ids ⊆ ids' ∧
      AtWork shop answer ts w₀ parentId before stage ids' runs' w' := by
  induction moves generalizing ids runs w with
  | nil => exact ⟨ids, runs, w, rfl, .nil runs, fun _ hid => hid, h⟩
  | cons i moves ih =>
    obtain ⟨ids₁, runs₁, w₁, hmove, hmoved, hgrows, h₁⟩ :=
      exec_moveAt hcalm hrecordable hstage hnamed h workers i
    obtain ⟨ids', runs', w', hmoves, hmoved', hgrows', h'⟩ := ih h₁
    rw [List.foldlM_cons, exec_bind_of_ok hmove]
    exact ⟨ids', runs', w', hmoves, hmoved.append hmoved', fun id hid => hgrows' (hgrows hid), h'⟩

/-- A stage ends with the results that its tasks have to have, each of their calls made once. -/
theorem exec_runStage (hworkers : 0 < workers) (hw : Steady shop ts w₀ ids w)
    (hparent : ∀ id ∈ parentId, id ∈ ids) (schedule : List Nat) :
    ∃ ids' runs w' made, (runStage shop parentId workers schedule stage).exec w = (.ok runs, w') ∧
      results runs = .ok (stage.map (resultOf shop answer w₀)) ∧ ids ⊆ ids' ∧
      Steady shop ts w₀ ids' w' ∧ w'.calls.toList = w.calls.toList ++ made ∧
      made.Perm (stage.filterMap (invocationOf? shop w₀)) := by
  have hbegin : AtWork shop answer ts w₀ parentId w.calls.toList stage ids (untouched stage) w := by
    refine ⟨hw, hparent, ?_, ?_, [], (List.append_nil _).symm, ?_⟩
    · unfold untouched
      rw [List.map_map]
      exact List.map_id _
    · intro r hr
      obtain ⟨t, -, rfl⟩ := List.mem_map.mp hr
      exact .waiting
    · have hnone : (untouched stage).filterMap (made? shop w₀) = [] := by
        unfold untouched
        rw [List.filterMap_map]
        exact List.filterMap_eq_nil_iff.mpr fun t _ => rfl
      rw [hnone]
  obtain ⟨ids', runs, w', hmoves, hmoved, hgrows, h'⟩ := exec_moves hcalm hrecordable hstage hnamed
    hbegin workers (schedule ++ inOrder stage.length)
  have hall := hmoved.all_done hworkers
  have hdone : ∀ r ∈ runs, r.phase = .done (.ok (resultOf shop answer w₀ r.task)) :=
    fun r hr => (h'.reaches r hr).eq_done (hall r hr)
  obtain ⟨made, hcalls, hmade⟩ := h'.calls
  refine ⟨ids', runs, w', made, hmoves, ?_, hgrows, h'.steady, hcalls, ?_⟩
  · rw [← h'.tasks]
    exact results_eq_ok hdone
  · rwa [filterMap_made? hall, h'.tasks] at hmade

end

end Conductor.Script
