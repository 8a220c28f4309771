import Conductor.Proofs.Action
import Conductor.Proofs.Store
import Conductor.Run.Call

/-!
# What agent calls keep

A call changes the files in three ways: it makes the scaffold directories, it writes the registry,
and the engine does what it likes.  What none of the three touches is kept by the whole call
(`keeps_execute`), such as a file that the engine leaves alone and that is not the registry
(`LeavesAlone.keptByCalls`).
-/

namespace Conductor

open Act

/-- The property of worlds outlasts everything that a call does to a world. -/
structure Workshop.KeptByCalls (shop : Workshop) (P : World → Prop) : Prop where
  log : LogFree P
  calls : ∀ w calls, P w → P { w with calls := calls }
  nextRun : ∀ w n, P w → P { w with nextRun := n }
  directory : ∀ w dir s, P w → w.store.ensureDirectory w.cwd dir = .ok s → P { w with store := s }
  registry : ∀ path ∈ shop.registry, ∀ w text s, P w → w.store.writeText w.cwd path text = .ok s →
    P { w with store := s }
  reply : ∀ w call identity, P w → P (w.receive identity (shop.engine w call))

namespace Registry

variable {P : World → Prop} {path : Path}

theorem keeps_load (path : Path) : Keeps P (load path) := by
  unfold load
  refine (Keeps.holds path).bind fun there => ?_
  split
  · exact Keeps.pure _
  · refine (Keeps.readText path).bind fun read => ?_
    split
    · exact Keeps.lift _
    · exact Keeps.throw _
    · exact Keeps.throw _

theorem keeps_freshId (hn : ∀ w n, P w → P { w with nextRun := n }) : Keeps P freshId :=
  Keeps.get_bind fun w hw => hn w _ hw

variable {shop : Workshop}

theorem keeps_save (h : shop.KeptByCalls P) (hp : path ∈ shop.registry) (rs : List RunRecord) :
    Keeps P (save path rs) :=
  Keeps.saveText (fun w s hw hs => h.directory w _ s hw hs)
    fun w s hw hs => h.registry path hp w _ s hw hs

theorem keeps_start (h : shop.KeptByCalls P) (hp : path ∈ shop.registry) (agentId name : String)
    (parentId : Option String) : Keeps P (start path agentId name parentId) := by
  unfold start
  refine (keeps_load path).bind fun rs => (keeps_freshId h.nextRun).bind fun id => ?_
  refine Keeps.get_bind fun w hw => ?_
  exact ((keeps_save h hp _).bind fun _ => Keeps.pure _) w hw

theorem keeps_finish (h : shop.KeptByCalls P) (hp : path ∈ shop.registry) (id : String)
    (state : RunState) (error : Option String) : Keeps P (finish path id state error) := by
  unfold finish
  refine Keeps.get_bind fun w hw => ?_
  refine ((keeps_load path).bind fun rs => ?_) w hw
  split
  · exact (keeps_save h hp _).bind fun _ => Keeps.pure _
  · exact Keeps.throw _

end Registry

namespace Prompt

variable {P : World → Prop} (hP : LogFree P)
include hP

theorem keeps_inputSection (dir : Path) (name : String) : Keeps P (inputSection dir name) := by
  unfold inputSection
  refine Keeps.bind (Keeps.readText _) fun read => ?_
  split
  · exact Keeps.pure _
  · exact Keeps.throw _
  · exact (Keeps.note hP _).bind fun _ => Keeps.pure _

theorem keeps_inputSections (dir : Path) (names : List String) :
    Keeps P (inputSections dir names) := by
  have hall : Keeps P (names.mapM (inputSection dir)) := by
    induction names with
    | nil => exact Keeps.pure _
    | cons name names ih =>
      rw [List.mapM_cons]
      exact (keeps_inputSection hP dir name).bind fun _ => ih.bind fun _ => Keeps.pure _
  exact hall.bind fun _ => Keeps.pure _

end Prompt

namespace Workshop

variable {P : World → Prop} {shop : Workshop}

theorem keeps_ensureScaffold (h : shop.KeptByCalls P) : Keeps P shop.ensureScaffold := by
  have hdir : ∀ path, Keeps P (ensureDirectory path) :=
    fun path => Keeps.ensureDirectory fun w s hw hs => h.directory w path s hw hs
  exact (hdir _).bind fun _ => (hdir _).bind fun _ => Keeps.pure _

theorem keeps_loadTemplate (shop : Workshop) (name : String) (failure : String → CallFailure) :
    Keeps P (shop.loadTemplate name failure) := by
  refine Keeps.get_bind fun w hw => ?_
  split
  · exact hw
  · exact hw
  · exact hw

/-- Only the log tells that a task is prepared. -/
theorem keeps_prepareTask (shop : Workshop) (hP : LogFree P) (name request : String)
    (inputFiles : List String) (identity : String) (parentId : Option String) :
    Keeps P (shop.prepareTask name request inputFiles identity parentId) := by
  have htemplate : ∀ entry, Keeps P (shop.taskTemplate name entry) := by
    intro entry
    unfold taskTemplate
    split
    · exact Keeps.pure _
    · exact keeps_loadTemplate shop _ _
  exact (htemplate _).bind fun _ =>
    (Prompt.keeps_inputSections hP _ _).bind fun _ => Keeps.pure _

theorem keeps_prepareStep (h : shop.KeptByCalls P) (step : Step) (identity : String)
    (parentId : Option String) : Keeps P (shop.prepareStep step identity parentId) := by
  unfold prepareStep
  split
  · exact (keeps_ensureScaffold h).bind fun _ =>
      (keeps_loadTemplate shop _ _).bind fun _ => Keeps.pure _
  · exact (keeps_loadTemplate shop _ _).bind fun _ => Keeps.pure _

theorem keeps_begin (h : shop.KeptByCalls P) (call : Call) (runId : Option String) :
    Keeps P (do
      Act.note [{ level := .info, source := .execution,
                  message := s!"{call.displayName} started to work.",
                  details := [("agent", .str call.identity)] }]
      modify fun w => { w with calls := w.calls.push call.invocation }
      return runId) :=
  (Keeps.note h.log _).bind fun _ =>
    (Keeps.modify fun w hw => h.calls w _ hw).bind fun _ => Keeps.pure _

theorem keeps_enter (h : shop.KeptByCalls P) (call : Call) : Keeps P (shop.enter call) := by
  unfold enter
  refine Keeps.get_bind fun w hw => ?_
  cases hw' : w.cancelled with
  | true => exact hw
  | false =>
    cases hr : shop.registry with
    | none => exact keeps_begin h call none w hw
    | some path =>
      exact ((Registry.keeps_start h hr _ _ _).bind fun r => keeps_begin h call (some r.runId)) w hw

theorem keeps_answer (h : shop.KeptByCalls P) (call : Call) : Keeps P (shop.answer call) :=
  Keeps.get_bind fun w hw => h.reply w call.invocation call.identity hw

theorem keeps_finish (h : shop.KeptByCalls P) (call : Call) (runId : Option String)
    (result : Except Fault String) : Keeps P (shop.finish call runId result) := by
  have hend : Keeps P (do
      let text ← Act.lift (handOn call result)
      Act.note [{ level := .info, source := .execution,
                  message := s!"{call.displayName} has completed their work.",
                  details := [("agent", .str call.identity)] }]
      return text) :=
    (Keeps.lift _).bind fun _ => (Keeps.note h.log _).bind fun _ => Keeps.pure _
  unfold finish
  split
  · next path id hr => exact (Registry.keeps_finish h hr _ _ _).bind fun _ => hend
  · exact hend

/-- A call of a step keeps what outlasts all it does. -/
theorem keeps_execute (h : shop.KeptByCalls P) (step : Step) (identity : String)
    (parentId : Option String) : Keeps P (shop.execute step identity parentId) := by
  have hperform : ∀ call, Keeps P (shop.perform call) := fun call =>
    (keeps_enter h call).bind fun runId =>
      (keeps_answer h call).bind fun result => keeps_finish h call runId result
  unfold execute
  refine (keeps_prepareStep h step identity parentId).bind fun call =>
    (hperform call).bind fun _ => ?_
  split
  · exact (keeps_ensureScaffold h).bind fun _ => Keeps.pure _
  · exact Keeps.pure _

/-! ### A file that calls leave alone -/

/-- The engine leaves the file at a path as it is, and the registry is another file. -/
structure LeavesAlone (shop : Workshop) (cwd path : Path) : Prop where
  engine : ∀ w call bytes, w.cwd = cwd → w.store.readBytes cwd path = .ok bytes →
    (shop.engine w call).store.readBytes cwd path = .ok bytes
  registry : ∀ r ∈ shop.registry, Path.resolve cwd r ≠ Path.resolve cwd path

theorem LeavesAlone.keptByCalls {cwd path : Path} (h : shop.LeavesAlone cwd path) (now : Moment)
    (bytes : List UInt8) :
    shop.KeptByCalls fun w =>
      w.cwd = cwd ∧ w.now = now ∧ w.store.readBytes cwd path = .ok bytes where
  log _ _ hw := hw
  calls _ _ hw := hw
  nextRun _ _ hw := hw
  directory w dir s hw hs := by
    obtain ⟨rfl, hnow, hb⟩ := hw
    exact ⟨rfl, hnow, Store.readBytes_ensureDirectory hs hb⟩
  registry r hr w text s hw hs := by
    obtain ⟨rfl, hnow, hb⟩ := hw
    exact ⟨rfl, hnow, Store.readBytes_writeBytes_of_ne (Store.writeBytes_of_writeText hs)
      (h.registry r hr) hb⟩
  reply w call _ hw := ⟨hw.1, hw.2.1, h.engine w call bytes hw.1 hw.2.2⟩

end Workshop

end Conductor
