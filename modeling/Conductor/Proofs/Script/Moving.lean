import Conductor.Proofs.Action
import Conductor.Run.Stage

/-!
# Moves of a stage

Whoever may move brings its task on and leaves the others where they are, whatever the world and the
agents are like (`exec_moveAt_cases`).  So a schedule leads from the tasks of a stage to later ones
of the same tasks (`MovedBy`).  Tasks are taken up in order, hence those that wait stand behind all
others (`InOrder`).  In the moves that every schedule ends with, the first task that is not done
therefore never waits for a worker, and it is done after at most four of them.

Main statement: whatever the schedule, all tasks of a stage are done in the end
(`MovedBy.all_done`).
-/

namespace Conductor.Script

open Act

/-- How many moves a task has left at most. -/
def TaskPhase.movesLeft : TaskPhase → Nat
  | waiting => 4
  | prepared _ => 3
  | running .. => 2
  | answered .. => 1
  | done _ => 0

/-- The tasks that wait stand behind all others. -/
def InOrder (runs : List TaskRun) : Prop :=
  runs.Pairwise fun a b => a.phase.isWaiting = true → b.phase.isWaiting = true

/-- The tasks of a stage before any of them has moved. -/
def untouched (stage : Stage) : List TaskRun := stage.map fun t => { task := t }

/-- Moves lead from the tasks of a stage to later ones: each brings one task on, or it changes
nothing because the task may not move. -/
inductive MovedBy (workers : Nat) : List Nat → List TaskRun → List TaskRun → Prop
  | nil (runs : List TaskRun) : MovedBy workers [] runs runs
  | stayed {i : Nat} {moves : List Nat} {runs runs' : List TaskRun}
    (h : mayMove workers runs i = false) (hs : MovedBy workers moves runs runs') :
    MovedBy workers (i :: moves) runs runs'
  | moved {moves : List Nat} {earlier later runs' : List TaskRun} {r : TaskRun} {phase : TaskPhase}
    (h : mayMove workers (earlier ++ r :: later) earlier.length = true)
    (hless : phase.movesLeft < r.phase.movesLeft)
    (hs : MovedBy workers moves (earlier ++ { r with phase := phase } :: later) runs') :
    MovedBy workers (earlier.length :: moves) (earlier ++ r :: later) runs'

/-- What a move of a task does. -/
inductive Moves (shop : Workshop) (parentId : Option String) (t : Task) (w : World) :
    TaskPhase → TaskPhase → World → Prop
  | prepared {call : Call} {w' : World}
    (h : (shop.prepareTask t.name t.argument t.inputFiles t.name parentId).exec w =
      (.ok call, w')) :
    Moves shop parentId t w .waiting (.prepared call) w'
  | unprepared {f : Fault} {w' : World} {result : Except Fault TaskResult} {log : Array Record}
    (h : (shop.prepareTask t.name t.argument t.inputFiles t.name parentId).exec w =
      (.error f, w')) :
    Moves shop parentId t w .waiting (.done result) (w'.withLog log)
  | entered {call : Call} {runId : Option String} {w' : World}
    (h : (shop.enter call).exec w = (.ok runId, w')) :
    Moves shop parentId t w (.prepared call) (.running call runId) w'
  | refused {call : Call} {f : Fault} {w' : World} {result : Except Fault TaskResult}
    {log : Array Record} (h : (shop.enter call).exec w = (.error f, w')) :
    Moves shop parentId t w (.prepared call) (.done result) (w'.withLog log)
  | answered {call : Call} {runId : Option String} :
    Moves shop parentId t w (.running call runId)
      (.answered call runId (shop.engine w call.invocation).result)
      (w.receive call.identity (shop.engine w call.invocation))
  | finished {call : Call} {runId : Option String} {answer : Except Fault String} {w' : World}
    {result : Except Fault TaskResult} {log : Array Record}
    (h : ((shop.finish call runId answer).exec w).2 = w') :
    Moves shop parentId t w (.answered call runId answer) (.done result) (w'.withLog log)

variable {shop : Workshop} {parentId : Option String} {stage : Stage} {w w' : World}
  {runs runs' runs'' earlier later : List TaskRun} {r : TaskRun} {phase : TaskPhase}
  {moves moves' : List Nat} {workers i k : Nat}

/-! ### Who may move -/

theorem isWaiting_iff {phase : TaskPhase} : phase.isWaiting = true ↔ phase.movesLeft = 4 := by
  cases phase <;> simp [TaskPhase.isWaiting, TaskPhase.movesLeft]

theorem isBusy_iff {phase : TaskPhase} :
    phase.isBusy = true ↔ 0 < phase.movesLeft ∧ phase.movesLeft < 4 := by
  cases phase <;> simp [TaskPhase.isBusy, TaskPhase.movesLeft]

theorem movesLeft_le (phase : TaskPhase) : phase.movesLeft ≤ 4 := by
  cases phase <;> simp [TaskPhase.movesLeft]

theorem not_isWaiting_of_done {phase : TaskPhase} (h : phase.movesLeft = 0) :
    phase.isWaiting = false := by
  cases hw : phase.isWaiting with
  | false => rfl
  | true =>
    rw [isWaiting_iff.mp hw] at h
    cases h

theorem mayMove_append (workers : Nat) (earlier later : List TaskRun) (r : TaskRun) :
    mayMove workers (earlier ++ r :: later) earlier.length =
      if r.phase.isWaiting then
        earlier.all (!·.phase.isWaiting) &&
          decide ((earlier ++ r :: later).countP (·.phase.isBusy) < workers)
      else r.phase.isBusy := by
  unfold mayMove
  rw [List.getElem?_append_right (Nat.le_refl _), Nat.sub_self, List.getElem?_cons_zero,
    List.take_left']
  rfl

/-- Whoever may move is not done, and whoever may start has none before it that waits. -/
theorem exists_of_mayMove (h : mayMove workers runs i = true) :
    ∃ earlier r later, runs = earlier ++ r :: later ∧ earlier.length = i ∧
      0 < r.phase.movesLeft ∧
      (r.phase.isWaiting = true → ∀ a ∈ earlier, a.phase.isWaiting = false) := by
  have hi : i < runs.length := by
    refine Nat.lt_of_not_le fun hlong => ?_
    unfold mayMove at h
    rw [List.getElem?_eq_none hlong] at h
    cases h
  refine ⟨runs.take i, runs[i], runs.drop (i + 1), ?_, ?_, ?_⟩
  · rw [← List.drop_eq_getElem_cons hi, List.take_append_drop]
  · exact List.length_take_of_le (Nat.le_of_lt hi)
  · unfold mayMove at h
    rw [List.getElem?_eq_getElem hi] at h
    dsimp only at h
    split at h
    · next hwaiting =>
      rw [Bool.and_eq_true, List.all_eq_true] at h
      refine ⟨?_, fun _ a ha => by simpa using h.1 a ha⟩
      rw [isWaiting_iff.mp hwaiting]
      decide
    · next hnot => exact ⟨(isBusy_iff.mp h).1, fun hwaiting => absurd hwaiting hnot⟩

/-- A task may move unless it is done, when all before it are done and those that wait stand behind
all others. -/
theorem mayMove_of_done_before (hworkers : 0 < workers)
    (hdone : ∀ a ∈ earlier, a.phase.movesLeft = 0)
    (hinOrder : InOrder (earlier ++ r :: later))
    (hleft : 0 < r.phase.movesLeft) :
    mayMove workers (earlier ++ r :: later) earlier.length = true := by
  rw [mayMove_append]
  split
  · next hwaiting =>
    have hidle : ∀ a ∈ earlier ++ r :: later, ¬a.phase.isBusy = true := by
      intro a ha hbusy
      have hmid := isBusy_iff.mp hbusy
      rcases List.mem_append.mp ha with ha | ha
      · rw [hdone a ha] at hmid
        exact absurd hmid.1 (Nat.lt_irrefl 0)
      · -- Behind a task that waits all others wait too.
        have hlater : a.phase.isWaiting = true := by
          rcases List.mem_cons.mp ha with rfl | ha
          · exact hwaiting
          · exact (List.pairwise_cons.mp (List.pairwise_append.mp hinOrder).2.1).1 a ha hwaiting
        rw [isWaiting_iff.mp hlater] at hmid
        exact absurd hmid.2 (Nat.lt_irrefl 4)
    rw [Bool.and_eq_true, List.all_eq_true]
    refine ⟨fun a ha => ?_, ?_⟩
    · rw [not_isWaiting_of_done (hdone a ha)]
      rfl
    · rw [List.countP_eq_zero.mpr hidle]
      exact decide_eq_true hworkers
  · next hnot =>
    have hne := fun h => hnot (isWaiting_iff.mpr h)
    exact isBusy_iff.mpr ⟨hleft, Nat.lt_of_le_of_ne (movesLeft_le _) hne⟩

theorem exec_moveAt_append (shop : Workshop) (parentId : Option String)
    (h : mayMove workers (earlier ++ r :: later) earlier.length = true) :
    moveAt shop parentId workers (earlier ++ r :: later) earlier.length = (do
      let phase ← r.move shop parentId
      return earlier ++ { r with phase := phase } :: later) := by
  unfold moveAt
  rw [if_pos h, List.getElem?_append_right (Nat.le_refl _), Nat.sub_self, List.getElem?_cons_zero]
  dsimp only
  simp only [List.set_append_right _ _ (Nat.le_refl earlier.length), Nat.sub_self,
    List.set_cons_zero]

/-! ### One move -/

theorem exists_exec_settled (t : Task) (ended : Except Fault String) (w : World) :
    ∃ result log, (settled t ended).exec w = (.ok (.done result), w.withLog log) := by
  unfold settled settle
  cases ended with
  | ok text =>
    dsimp only
    rcases Output.keepTail text (t.tail.map fun n => (n : Int)) with ⟨output, applied⟩
    cases applied with
    | none => exact ⟨_, w.log, rfl⟩
    | some count => exact ⟨_, _, rfl⟩
  | error e =>
    cases e with
    | cancelled f => exact ⟨_, w.log, rfl⟩
    | _ =>
      dsimp only
      split <;> exact ⟨_, w.log, rfl⟩

/-- Every move of a task that is not done is one of those listed. -/
theorem exists_moves (shop : Workshop) (parentId : Option String) (r : TaskRun) (w : World)
    (hleft : 0 < r.phase.movesLeft) :
    ∃ phase w', (r.move shop parentId).exec w = (.ok phase, w') ∧
      Moves shop parentId r.task w r.phase phase w' := by
  obtain ⟨t, phase⟩ := r
  cases phase with
  | waiting =>
    rcases hx : (shop.prepareTask t.name t.argument t.inputFiles t.name parentId).exec w with
      ⟨(f | call), w'⟩
    · obtain ⟨result, log, hs⟩ := exists_exec_settled t (.error f) w'
      exact ⟨_, _, (exec_bind_of_ok (exec_attempt_of_eq hx)).trans hs, .unprepared hx⟩
    · exact ⟨_, _, exec_bind_of_ok (exec_attempt_of_eq hx), .prepared hx⟩
  | prepared call =>
    rcases hx : (shop.enter call).exec w with ⟨(f | runId), w'⟩
    · obtain ⟨result, log, hs⟩ := exists_exec_settled t (.error f) w'
      exact ⟨_, _, (exec_bind_of_ok (exec_attempt_of_eq hx)).trans hs, .refused hx⟩
    · exact ⟨_, _, exec_bind_of_ok (exec_attempt_of_eq hx), .entered hx⟩
  | running call runId => exact ⟨_, _, rfl, .answered⟩
  | answered call runId result =>
    rcases hx : (shop.finish call runId result).exec w with ⟨ended, w'⟩
    obtain ⟨result, log, hs⟩ := exists_exec_settled t ended w'
    exact ⟨_, _, (exec_bind_of_ok (exec_attempt_of_eq hx)).trans hs,
      .finished (congrArg Prod.snd hx)⟩
  | done result => exact absurd hleft (Nat.lt_irrefl 0)

theorem Moves.movesLeft_lt {t : Task} {phase' : TaskPhase}
    (h : Moves shop parentId t w phase phase' w') : phase'.movesLeft < phase.movesLeft := by
  cases h <;> simp [TaskPhase.movesLeft]

/-- A move at a position changes nothing, or it brings the task there on and no other. -/
theorem exec_moveAt_cases (shop : Workshop) (parentId : Option String) (workers i : Nat)
    (runs : List TaskRun) (w : World) :
    (mayMove workers runs i = false ∧
      (moveAt shop parentId workers runs i).exec w = (.ok runs, w)) ∨
    ∃ earlier r later phase w', runs = earlier ++ r :: later ∧ earlier.length = i ∧
      mayMove workers (earlier ++ r :: later) earlier.length = true ∧
      Moves shop parentId r.task w r.phase phase w' ∧
      (moveAt shop parentId workers runs i).exec w =
        (.ok (earlier ++ { r with phase := phase } :: later), w') := by
  cases hmay : mayMove workers runs i with
  | false =>
    refine .inl ⟨rfl, ?_⟩
    unfold moveAt
    rw [hmay, if_neg Bool.false_ne_true]
    rfl
  | true =>
    obtain ⟨earlier, r, later, rfl, rfl, hleft, -⟩ := exists_of_mayMove hmay
    obtain ⟨phase, w', hx, hm⟩ := exists_moves shop parentId r w hleft
    refine .inr ⟨earlier, r, later, phase, w', rfl, rfl, hmay, hm, ?_⟩
    rw [exec_moveAt_append shop parentId hmay, exec_bind_of_ok hx]
    rfl

theorem exists_exec_moveAt (shop : Workshop) (parentId : Option String) (workers i : Nat)
    (runs : List TaskRun) (w : World) :
    ∃ runs' w', (moveAt shop parentId workers runs i).exec w = (.ok runs', w') := by
  rcases exec_moveAt_cases shop parentId workers i runs w with
    ⟨-, hx⟩ | ⟨earlier, r, later, phase, w', -, -, -, -, hx⟩
  · exact ⟨runs, w, hx⟩
  · exact ⟨_, w', hx⟩

/-! ### Many moves -/

/-- A task that moves leaves those that wait behind all others. -/
theorem InOrder.moved (hinOrder : InOrder (earlier ++ r :: later))
    (hleft : phase.movesLeft < r.phase.movesLeft)
    (hfirst : r.phase.isWaiting = true → ∀ a ∈ earlier, a.phase.isWaiting = false) :
    InOrder (earlier ++ { r with phase := phase } :: later) := by
  obtain ⟨hearlier, hcons, hacross⟩ := List.pairwise_append.mp hinOrder
  refine List.pairwise_append.mpr ⟨hearlier, List.pairwise_cons.mpr ⟨?_, ?_⟩, ?_⟩
  · intro b _ hwaiting
    -- A task that has moved does not wait, since waiting ones have all moves left.
    have hfour : phase.movesLeft = 4 := isWaiting_iff.mp hwaiting
    have hle := movesLeft_le r.phase
    omega
  · exact (List.pairwise_cons.mp hcons).2
  · intro a ha b hb hwaiting
    rcases List.mem_cons.mp hb with rfl | hb
    · have hr := hacross a ha r (List.mem_cons_self ..) hwaiting
      rw [hfirst hr a ha] at hwaiting
      cases hwaiting
    · exact hacross a ha b (List.mem_cons_of_mem _ hb) hwaiting

namespace MovedBy

theorem append (h : MovedBy workers moves runs runs') (h' : MovedBy workers moves' runs' runs'') :
    MovedBy workers (moves ++ moves') runs runs'' := by
  induction h with
  | nil => exact h'
  | stayed hmay _ ih => exact .stayed hmay (ih h')
  | moved hmay hless _ ih => exact .moved hmay hless (ih h')

/-- Moves can be cut anywhere. -/
theorem exists_of_append (h : MovedBy workers (moves ++ moves') runs runs'') :
    ∃ runs', MovedBy workers moves runs runs' ∧ MovedBy workers moves' runs' runs'' := by
  induction moves generalizing runs with
  | nil => exact ⟨runs, .nil runs, h⟩
  | cons i moves ih =>
    cases h with
    | stayed hmay hs =>
      obtain ⟨runs', h₁, h₂⟩ := ih hs
      exact ⟨runs', .stayed hmay h₁, h₂⟩
    | moved hmay hless hs =>
      obtain ⟨runs', h₁, h₂⟩ := ih hs
      exact ⟨runs', .moved hmay hless h₁, h₂⟩

theorem length_eq (h : MovedBy workers moves runs runs') : runs'.length = runs.length := by
  induction h with
  | nil => rfl
  | stayed _ _ ih => exact ih
  | moved _ _ _ ih => rw [ih, List.length_append, List.length_append, List.length_cons,
      List.length_cons]

theorem keeps_inOrder (h : MovedBy workers moves runs runs') (hruns : InOrder runs) :
    InOrder runs' := by
  induction h with
  | nil => exact hruns
  | stayed _ _ ih => exact ih hruns
  | moved hmay hless _ ih =>
    obtain ⟨earlier', r', later', hsplit, hlength, -, hfirst⟩ := exists_of_mayMove hmay
    obtain ⟨rfl, hrest⟩ := List.append_inj hsplit hlength.symm
    obtain ⟨rfl, rfl⟩ := List.cons.inj hrest
    exact ih (hruns.moved hless hfirst)

/-- The first task that is not done is done after as many moves as it has left. -/
theorem of_replicate (hworkers : 0 < workers)
    (h : MovedBy workers (List.replicate k earlier.length) (earlier ++ r :: later) runs')
    (hruns : InOrder (earlier ++ r :: later)) (hdone : ∀ a ∈ earlier, a.phase.movesLeft = 0)
    (hleft : r.phase.movesLeft ≤ k) :
    ∃ phase, runs' = earlier ++ { r with phase := phase } :: later ∧ phase.movesLeft = 0 := by
  -- The induction is on the moves to be made; each lowers what the task has left.
  induction k generalizing r with
  | zero =>
    cases h
    exact ⟨r.phase, rfl, Nat.le_zero.mp hleft⟩
  | succ k ih =>
    rw [List.replicate_succ] at h
    generalize hsplit : earlier ++ r :: later = runs at h
    generalize hlength : earlier.length = i at h
    cases h with
    | stayed hmay hs =>
      subst hsplit hlength
      -- It may not move, so it is done already.
      have hzero : r.phase.movesLeft = 0 := by
        refine Nat.eq_zero_of_not_pos fun hpos => ?_
        rw [mayMove_of_done_before hworkers hdone hruns hpos] at hmay
        cases hmay
      exact ih hs hruns (hzero ▸ Nat.zero_le k)
    | @moved _ earlier' later' _ r' phase hmay hless hs =>
      obtain ⟨rfl, hrest⟩ := List.append_inj hsplit hlength
      obtain ⟨rfl, rfl⟩ := List.cons.inj hrest
      have hfirst : r.phase.isWaiting = true → ∀ a ∈ earlier, a.phase.isWaiting = false :=
        fun _ a ha => not_isWaiting_of_done (hdone a ha)
      obtain ⟨phase', hruns', hzero⟩ := ih hs (hruns.moved hless hfirst)
        (Nat.le_of_lt_succ (Nat.lt_of_lt_of_le hless hleft))
      exact ⟨phase', hruns', hzero⟩

/-- The moves that every schedule ends with leave all tasks done. -/
theorem of_finishing (hworkers : 0 < workers)
    (h : MovedBy workers ((List.range' earlier.length later.length).flatMap (List.replicate 4))
      (earlier ++ later) runs')
    (hruns : InOrder (earlier ++ later)) (hdone : ∀ a ∈ earlier, a.phase.movesLeft = 0) :
    ∀ a ∈ runs', a.phase.movesLeft = 0 := by
  induction later generalizing earlier with
  | nil =>
    rw [List.append_nil] at h
    cases h
    exact hdone
  | cons r later ih =>
    rw [List.length_cons, List.range'_succ, List.flatMap_cons] at h
    obtain ⟨runs₁, h₁, h₂⟩ := h.exists_of_append
    have hruns₁ := h₁.keeps_inOrder hruns
    obtain ⟨phase, rfl, hzero⟩ := h₁.of_replicate hworkers hruns hdone (movesLeft_le _)
    -- The first of the rest is done now and joins those before it.
    rw [List.append_cons] at h₂ hruns₁
    refine ih ?_ hruns₁ fun a ha => ?_
    · rw [List.length_append, List.length_singleton]
      exact h₂
    · rcases List.mem_append.mp ha with ha | ha
      · exact hdone a ha
      · rw [List.mem_singleton.mp ha]
        exact hzero

/-- Whatever the schedule, all tasks of a stage are done in the end. -/
theorem all_done (hworkers : 0 < workers)
    (h : MovedBy workers (moves ++ inOrder stage.length) (untouched stage) runs') :
    ∀ a ∈ runs', a.phase.movesLeft = 0 := by
  have huntouched : InOrder (untouched stage) :=
    List.pairwise_of_forall_mem_list fun a _ b hb _ => by
      obtain ⟨t, -, rfl⟩ := List.mem_map.mp hb
      rfl
  obtain ⟨runs₁, h₁, h₂⟩ := h.exists_of_append
  have hlength : runs₁.length = stage.length := h₁.length_eq.trans (List.length_map _)
  rw [inOrder, List.range_eq_range', ← hlength] at h₂
  have hfinishing : MovedBy workers ((List.range' ([] : List TaskRun).length
      runs₁.length).flatMap (List.replicate 4)) ([] ++ runs₁) runs' := h₂
  exact of_finishing hworkers hfinishing (h₁.keeps_inOrder huntouched) (List.forall_mem_nil _)

end MovedBy

end Conductor.Script
