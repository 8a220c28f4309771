import Conductor.Proofs.Run.Books
import Conductor.Proofs.Run.Cancellation
import Conductor.Proofs.Workflow.Onward

/-!
# The calls of a workflow and their records

The turns of a run tell the events of its calls: where a turn executes a step, a call begins and is
answered, unless it is refused or cannot be made (`Workflow.eventsAt`).  The execution of a step
keeps the journal up to its events, however it ends (`Kept.of_execute`), and every other turn leaves
it alone, so it is kept along every course (`Course.kept`).
-/

namespace Conductor

open Act

/-- What happens to the call of a step that is executed in a world. -/
def Workshop.eventsOf (shop : Workshop) (step : Step) (identity : String) (w : World) :
    List CallEvent :=
  match (shop.prepareStep step identity none).exec w with
  | (.ok call, w₁) =>
    match (shop.enter call).exec w₁ with
    | (.ok runId, w₂) =>
      [.begun runId call, .answered runId (shop.engine w₂ call.invocation).result]
    | (.error _, _) => []
  | (.error _, _) => []

/-- What happens to the calls of a run in the turn at a point. -/
def Workflow.eventsAt (f : Workflow) (n : Workflow.Point) : List CallEvent :=
  match n.2.phase.executes? with
  | some (_, run, identity) => f.shop.eventsOf run identity n.1
  | none => []

/-- What happens to the calls of a run, from the first turn to the last. -/
def Workflow.events (f : Workflow) (trail : List Workflow.Point) : List CallEvent :=
  trail.reverse.flatMap f.eventsAt

variable {shop : Workshop} {j : Journal shop} {events : List CallEvent} {pending : List String}
  {w w' : World} {step : Step} {identity : String}

/-! ### Executions -/

namespace Journal

theorem keeps_scaffolding (shop : Workshop) (step : Step) :
    Keeps (j.Kept events pending) (shop.scaffolding step) := by
  have hdir : ∀ path, Keeps (j.Kept events pending) (ensureDirectory path) :=
    fun path => Keeps.ensureDirectory fun w s hw hs => hw.ensureDirectory hs
  unfold Workshop.scaffolding
  split
  · exact (hdir _).bind fun _ => (hdir _).bind fun _ => Keeps.pure _
  · exact Keeps.pure _

theorem keeps_prepareStep (shop : Workshop) (step : Step) (identity : String) :
    Keeps (j.Kept events pending) (shop.prepareStep step identity none) := by
  rw [Workshop.prepareStep_eq]
  exact (keeps_scaffolding shop step).bind fun _ =>
    (Workshop.keeps_loadTemplate shop _ _).bind fun _ => Keeps.pure _

/-- A call that begins is made to its end. -/
theorem Kept.of_perform {call : Call} {runId : Option String} (h : j.Kept events [] w)
    (hparent : call.parentId = j.parent.map (·.runId))
    (henter : (shop.enter call).exec w = (.ok runId, w'))
    (hp : ∀ e ∈ [CallEvent.begun runId call,
      .answered runId (shop.engine w' call.invocation).result], e.Proper) :
    j.Kept (events ++ [.begun runId call,
      .answered runId (shop.engine w' call.invocation).result]) []
      ((shop.perform call).exec w).2 := by
  obtain ⟨hbegun, hanswered⟩ := List.forall_mem_cons.mp hp
  obtain ⟨id, rfl, hawaits, hopen⟩ := h.of_enter hbegun hparent henter
  have hanswer := hopen.of_answer hawaits
  obtain ⟨w₁, hx, hkept⟩ := hanswer.of_finish call (mem_answeredIn_concat _ _ _)
    (hanswered _ (List.mem_singleton_self _))
  rw [List.append_assoc] at hkept
  unfold Workshop.perform
  rw [exec_bind_of_ok henter, exec_bind_of_ok (Workshop.exec_answer shop call w'), hx]
  exact hkept

/-- The execution of a step keeps the journal, however it ends. -/
theorem Kept.of_execute (hparent : j.parent = none) (h : j.Kept events [] w)
    (hp : ∀ e ∈ shop.eventsOf step identity w, e.Proper) :
    j.Kept (events ++ shop.eventsOf step identity w) []
      ((shop.execute step identity none).exec w).2 := by
  have hprepared := keeps_prepareStep shop step identity w h
  rw [Workshop.execute_eq, exec_bind]
  unfold Workshop.eventsOf at hp ⊢
  rcases hready : (shop.prepareStep step identity none).exec w with ⟨(e | call), w₁⟩
  · rw [hready] at hprepared
    rwa [List.append_nil]
  · rw [hready] at hprepared hp
    dsimp only at hp ⊢
    -- Neither the run of a workflow nor its calls have a parent.
    have hcall : call.parentId = j.parent.map (·.runId) := by
      obtain ⟨prompt, -, -, rfl⟩ := Workshop.exec_prepareStep_eq_ok_iff.mp hready
      rw [hparent]
      rfl
    rcases henter : (shop.enter call).exec w₁ with ⟨(e | runId), w₂⟩
    · rw [List.append_nil, exec_bind]
      have hperform : (shop.perform call).exec w₁ = (.error e, w₂) := by
        unfold Workshop.perform
        rw [exec_bind, henter]
      rw [hperform]
      exact hprepared.of_enter_fault henter
    · rw [henter] at hp
      have hkept := hprepared.of_perform hcall henter hp
      rw [exec_bind]
      rcases hperform : (shop.perform call).exec w₁ with ⟨(e | text), w₃⟩
      · rw [hperform] at hkept
        exact hkept
      · -- Behind the call only the scaffold directories are made sure of.
        rw [hperform] at hkept
        exact ((keeps_scaffolding shop step).bind fun _ => Keeps.pure text) w₃ hkept

end Journal

/-! ### Runs -/

namespace Workflow

variable {f : Workflow} {j : Journal f.shop} {w₀ : World} {s : State} {n : Point}
  {trail : List Point}

theorem events_cons (n : Point) (trail : List Point) :
    f.events (n :: trail) = f.events trail ++ f.eventsAt n := by
  unfold events
  rw [List.reverse_cons, List.flatMap_append, List.flatMap_singleton]

section

variable
  (htracking : ∀ path ∈ f.tracking, Path.resolve j.cwd path ≠ Path.resolve j.cwd j.path)
  (hparent : j.parent = none)
include htracking hparent

/-- A turn keeps the journal. -/
theorem kept_of_turn (h : j.Kept events [] w) (hp : ∀ e ∈ f.eventsAt (w, s), e.Proper) :
    j.Kept (events ++ f.eventsAt (w, s)) [] ((f.turn s).exec w).2 := by
  unfold eventsAt at hp ⊢
  dsimp only at hp ⊢
  cases hs : s.phase.executes? with
  | none =>
    -- Only the record of progress is written, which is another file.
    rw [List.append_nil]
    exact keeps_turn_of_not_executes Journal.logFree_kept
      (fun _ _ hw => hw.of_files rfl rfl rfl rfl) (fun _ _ _ _ hw hs => hw.ensureDirectory hs)
      (fun path hpath _ _ _ hw hs => hw.writeText hs (htracking path hpath)) hs w h
  | some e =>
    obtain ⟨owner, run, identity⟩ := e
    rw [hs] at hp
    rw [exec_turn_of_executes hs]
    exact keeps_goOnAfter Journal.logFree_kept (fun _ _ hw => hw.of_files rfl rfl rfl rfl) s owner
      _ _ (h.of_execute hparent hp)

/-- Along a run the journal is kept. -/
theorem Trail.kept (ht : Trail f w₀ (n :: trail)) (h₀ : j.Kept [] [] w₀)
    (hp : ∀ e ∈ f.events trail, e.Proper) : j.Kept (f.events trail) [] n.1 := by
  induction trail generalizing n with
  | nil =>
    cases ht with
    | start h =>
      have hkept := keeps_start Journal.logFree_kept f w₀ h₀
      rwa [h] at hkept
  | cons m trail ih =>
    rw [events_cons] at hp ⊢
    obtain ⟨hpast, hlast⟩ := List.forall_mem_append.mp hp
    cases ht with
    | next ht h =>
      have hkept := kept_of_turn htracking hparent (ih ht hpast) hlast
      rwa [h] at hkept

/-- A run that has come to its end has kept the journal. -/
theorem Course.kept {r : Except Fault Outcome} (h : Course f w₀ trail r w)
    (hended : r ≠ .error .endless) (h₀ : j.Kept [] [] w₀)
    (hp : ∀ e ∈ f.events trail, e.Proper) : j.Kept (f.events trail) [] w := by
  cases trail with
  | nil =>
    have hkept := keeps_start Journal.logFree_kept f w₀ h₀
    cases h with
    | unstarted h => rwa [h] at hkept
    | ended h => cases h
  | cons n trail =>
    obtain ⟨ht, t, hx⟩ := h.turn_last hended
    rw [events_cons] at hp ⊢
    obtain ⟨hpast, hlast⟩ := List.forall_mem_append.mp hp
    have hkept := kept_of_turn htracking hparent (ht.kept htracking hparent
      h₀ hpast) hlast
    rwa [hx] at hkept

end

end Workflow

end Conductor
