import Conductor.Proofs.Action
import Conductor.Proofs.Entries
import Conductor.Run.Call

/-!
# How the execution of a step fails

A run takes in two kinds of faults: a call that failed and a call that was cancelled
(`Fault.isHeld`).  The execution of a step ends in one of them where the run has been cancelled, the
prompt template cannot be read, or the engine reports one of the two or something that is none of
the program's own (`Fails`).  It breaks off in another fault where the scaffold directories cannot
be made, before the call or after it, the path of the template can name no file, the call cannot be
put on record, or the engine reports another of the program's own faults (`Breaks`).  Main
statement: there is no third way (`execute_eq_error_iff`).
-/

namespace Conductor

open Act

/-- A fault that a run takes in: a call that failed or was cancelled. -/
def Fault.isHeld : Fault → Bool
  | failed _ => true
  | cancelled _ => true
  | _ => false

theorem Fault.not_isHeld_of_isOfFiles {e : Fault} (h : e.isOfFiles = true) : e.isHeld = false := by
  cases e <;> first | rfl | cases h

theorem Fault.not_isUsage_of_isHeld {e : Fault} (h : e.isHeld = true) : e.isUsage = false := by
  cases e <;> first | rfl | cases h

theorem Fault.isHeld_iff {e : Fault} :
    e.isHeld = true ↔ ∃ c, e = .failed c ∨ e = .cancelled c := by
  cases e <;> simp [isHeld]

/-! ### Faults of the registry -/

namespace Registry

theorem isOfFiles_of_ofText {text : String} {e : Fault} (h : ofText text = .error e) :
    e.isOfFiles = true := by
  unfold ofText at h
  split at h
  · cases h
  · cases h
    rfl
  · obtain ⟨item, -, hitem⟩ := exists_of_mapM_eq_error h
    split at hitem
    · cases hitem
    · cases hitem
      rfl
  · cases h

theorem faultsIn_load (path : Path) : FaultsIn (·.isOfFiles = true) (load path) := by
  unfold load
  refine (FaultsIn.holds fun _ => rfl).bind fun there => ?_
  split
  · exact FaultsIn.pure _
  · refine (FaultsIn.readText path).bind fun read => ?_
    split
    · exact FaultsIn.lift fun e he => isOfFiles_of_ofText he
    · exact FaultsIn.throw rfl
    · exact FaultsIn.throw rfl

theorem faultsIn_save (path : Path) (rs : List RunRecord) :
    FaultsIn (·.isOfFiles = true) (save path rs) :=
  FaultsIn.saveText (Q := (·.isOfFiles = true)) (fun _ => rfl) rfl _

theorem faultsIn_start (path : Path) (agentId name : String) (parentId : Option String) :
    FaultsIn (·.isOfFiles = true) (start path agentId name parentId) := by
  unfold start
  refine (faultsIn_load path).bind fun rs => ?_
  refine (FaultsIn.get.bind fun w => (FaultsIn.modify _).bind fun _ => FaultsIn.pure _).bind
    fun id => ?_
  exact FaultsIn.get.bind fun w => (faultsIn_save path _).bind fun _ => FaultsIn.pure _

theorem faultsIn_finish (path : Path) (id : String) (state : RunState) (error : Option String) :
    FaultsIn (·.isOfFiles = true) (finish path id state error) := by
  unfold finish
  refine FaultsIn.get.bind fun w => (faultsIn_load path).bind fun rs => ?_
  split
  · exact (faultsIn_save path _).bind fun _ => FaultsIn.pure _
  · exact FaultsIn.throw rfl

end Registry

namespace Workshop

/-- Makes sure of the scaffold directories that a step needs. -/
def scaffolding (shop : Workshop) (step : Step) : Act Unit :=
  if step.isScaffold then shop.ensureScaffold else pure ()

/-- Puts the start of a call on record. -/
def recordStart (shop : Workshop) (call : Call) : Act (Option String) :=
  match shop.registry with
  | none => pure none
  | some path => do
    let r ← Registry.start path call.identity call.displayName call.parentId
    pure (some r.runId)

/-- Puts the end of a call on record. -/
def recordEnd (shop : Workshop) (runId : Option String) (result : Except Fault String) : Act Unit :=
  match shop.registry, runId with
  | some path, some id => do
    let _ ← Registry.finish path id (verdictOf result).1 (verdictOf result).2
  | _, _ => pure ()

/-- The call of a step, once its prompt has been read. -/
def callOf (shop : Workshop) (step : Step) (identity prompt : String) : Call :=
  { invocation := { agentId := step.agentId, prompt := prompt, workingDir := shop.dir,
                    model := step.model, effort := step.reasoningEffort, engine := step.engine,
                    timeout := shop.timeout }
    displayName := step.agentName
    identity := textOr identity step.agentId }

/-- The fault of a step whose prompt template cannot be read. -/
def templateFault (step : Step) (r : ReadFault) : Fault :=
  if r = .nul then .read .nul
  else .failed { message := s!"Failed to load prompt for {step.agentName}: {r.message}",
                 agentId := some step.agentId }

/-- The fault of a call that is not started because the run has been cancelled. -/
def refusal (call : Call) : Fault :=
  .cancelled { message := s!"{call.displayName} not started: run cancelled",
               agentId := some call.invocation.agentId }

/-- The call of a step is ready. -/
def Ready (shop : Workshop) (step : Step) (identity : String) (w : World) (call : Call)
    (w' : World) : Prop :=
  ∃ prompt, (shop.scaffolding step).exec w = (.ok (), w') ∧
    shop.loader w' shop.dir step.promptPath = .ok prompt ∧ call = shop.callOf step identity prompt

/-- The call of a step has begun. -/
def Begun (shop : Workshop) (step : Step) (identity : String) (w : World) (call : Call)
    (runId : Option String) (w' : World) : Prop :=
  ∃ w₁, shop.Ready step identity w call w₁ ∧ (shop.enter call).exec w₁ = (.ok runId, w')

/-- The execution of a step ends in a fault that a run takes in. -/
inductive Fails (shop : Workshop) (step : Step) (identity : String) (w : World) : Fault → Prop
  /-- The prompt template cannot be read. -/
  | prompt {w₁ r} (hs : (shop.scaffolding step).exec w = (.ok (), w₁))
    (hl : shop.loader w₁ shop.dir step.promptPath = .error r) (hr : r ≠ .nul) :
    Fails shop step identity w (.failed
      { message := s!"Failed to load prompt for {step.agentName}: {r.message}",
        agentId := some step.agentId })
  /-- The run has been cancelled. -/
  | cancelled {call w₁} (hc : shop.Ready step identity w call w₁) (hw : w₁.cancelled = true) :
    Fails shop step identity w (.cancelled
      { message := s!"{step.agentName} not started: run cancelled", agentId := some step.agentId })
  /-- The engine reports a call that failed or was cancelled. -/
  | held {call runId w₁ e w₂} (hb : shop.Begun step identity w call runId w₁)
    (he : (shop.engine w₁ call.invocation).result = .error e) (hh : e.isHeld = true)
    (hr : (shop.recordEnd runId (.error e)).exec
      (w₁.receive call.identity (shop.engine w₁ call.invocation)) = (.ok (), w₂)) :
    Fails shop step identity w e
  /-- The engine reports something that is none of the program's own. -/
  | foreign {call runId w₁ e w₂} (hb : shop.Begun step identity w call runId w₁)
    (he : (shop.engine w₁ call.invocation).result = .error e) (ho : e.isOwn = false)
    (hr : (shop.recordEnd runId (.error e)).exec
      (w₁.receive call.identity (shop.engine w₁ call.invocation)) = (.ok (), w₂)) :
    Fails shop step identity w (.failed
      { message := s!"{step.agentName} failed: {e.message}", agentId := some step.agentId })

/-- The execution of a step breaks off in a fault that no run takes in. -/
inductive Breaks (shop : Workshop) (step : Step) (identity : String) (w : World) : Fault → Prop
  /-- The scaffold directories cannot be made. -/
  | scaffold {e} (hs : ((shop.scaffolding step).exec w).1 = .error e) :
    Breaks shop step identity w e
  /-- The path of the prompt template can name no file. -/
  | promptPath {w₁} (hs : (shop.scaffolding step).exec w = (.ok (), w₁))
    (hl : shop.loader w₁ shop.dir step.promptPath = .error .nul) :
    Breaks shop step identity w (.read .nul)
  /-- The start of the call cannot be put on record. -/
  | start {call w₁ e} (hc : shop.Ready step identity w call w₁) (hw : w₁.cancelled = false)
    (hr : ((shop.recordStart call).exec w₁).1 = .error e) : Breaks shop step identity w e
  /-- The engine reports a fault of the program's own that is no failed or cancelled call. -/
  | engine {call runId w₁ e w₂} (hb : shop.Begun step identity w call runId w₁)
    (he : (shop.engine w₁ call.invocation).result = .error e) (ho : e.isOwn = true)
    (hh : e.isHeld = false)
    (hr : (shop.recordEnd runId (.error e)).exec
      (w₁.receive call.identity (shop.engine w₁ call.invocation)) = (.ok (), w₂)) :
    Breaks shop step identity w e
  /-- The end of the call cannot be put on record. -/
  | finish {call runId w₁ e} (hb : shop.Begun step identity w call runId w₁)
    (hr : ((shop.recordEnd runId (shop.engine w₁ call.invocation).result).exec
      (w₁.receive call.identity (shop.engine w₁ call.invocation))).1 = .error e) :
    Breaks shop step identity w e
  /-- The scaffold directories cannot be made once more. -/
  | scaffoldAgain {call w₁ text w₂ e} (hc : shop.Ready step identity w call w₁)
    (hp : (shop.perform call).exec w₁ = (.ok text, w₂))
    (hs : ((shop.scaffolding step).exec w₂).1 = .error e) : Breaks shop step identity w e

variable {shop : Workshop} {step : Step} {identity : String} {call : Call} {runId : Option String}
  {w w' w₁ : World} {e : Fault} {result : Except Fault String}

/-! ### What the parts of an execution compute -/

theorem prepareStep_eq (shop : Workshop) (step : Step) (identity : String) :
    shop.prepareStep step identity none = (do
      shop.scaffolding step
      let prompt ← shop.loadTemplate step.promptPath fun reason =>
        { message := s!"Failed to load prompt for {step.agentName}: {reason}",
          agentId := some step.agentId }
      return shop.callOf step identity prompt) := by
  unfold prepareStep scaffolding
  cases step.isScaffold <;> rfl

theorem exec_enter (shop : Workshop) (call : Call) (w : World) :
    (shop.enter call).exec w =
      if w.cancelled then
        (.error (refusal call), w)
      else (do
        let runId ← shop.recordStart call
        Act.note [{ level := .info, source := .execution,
                    message := s!"{call.displayName} started to work.",
                    details := [("agent", .str call.identity)] }]
        modify fun w => { w with calls := w.calls.push call.invocation }
        return runId : Act (Option String)).exec w := by
  unfold enter recordStart
  rw [exec_bind, exec_get]
  dsimp only
  cases w.cancelled with
  | true => rfl
  | false =>
    cases shop.registry with
    | none => rfl
    | some path =>
      dsimp only
      rw [bind_assoc]
      rfl

/-- A call whose start has been put on record begins. -/
theorem exec_enter_of_recordStart (hw : w.cancelled = false)
    (h : (shop.recordStart call).exec w = (.ok runId, w₁)) :
    ∃ w₂, (shop.enter call).exec w = (.ok runId, w₂) ∧ w₂.store = w₁.store ∧ w₂.cwd = w₁.cwd := by
  rw [exec_enter, hw, if_neg Bool.false_ne_true, exec_bind_of_ok h]
  exact ⟨_, rfl, rfl, rfl⟩

theorem finish_eq (shop : Workshop) (call : Call) (runId : Option String)
    (result : Except Fault String) :
    shop.finish call runId result = (do
      shop.recordEnd runId result
      let text ← Act.lift (handOn call result)
      Act.note [{ level := .info, source := .execution,
                  message := s!"{call.displayName} has completed their work.",
                  details := [("agent", .str call.identity)] }]
      return text) := by
  unfold finish recordEnd
  cases shop.registry with
  | none => rfl
  | some path =>
    cases runId with
    | none => rfl
    | some id =>
      dsimp only
      rw [bind_assoc]
      rfl

theorem execute_eq (shop : Workshop) (step : Step) (identity : String) :
    shop.execute step identity none = (do
      let call ← shop.prepareStep step identity none
      let text ← shop.perform call
      shop.scaffolding step
      return text) := by
  unfold execute scaffolding
  cases step.isScaffold <;> rfl

theorem exec_answer (shop : Workshop) (call : Call) (w : World) :
    (shop.answer call).exec w = (.ok (shop.engine w call.invocation).result,
      w.receive call.identity (shop.engine w call.invocation)) := rfl

theorem exec_loadTemplate (shop : Workshop) (step : Step) (w : World) :
    (shop.loadTemplate step.promptPath fun reason =>
      { message := s!"Failed to load prompt for {step.agentName}: {reason}",
        agentId := some step.agentId }).exec w =
      ((shop.loader w shop.dir step.promptPath).mapError (templateFault step), w) := by
  unfold loadTemplate
  rw [exec_bind, exec_get]
  dsimp only
  rcases shop.loader w shop.dir step.promptPath with r | text
  · cases r <;> rfl
  · rfl

/-! ### Where an execution ends in a fault -/

theorem exec_prepareStep_eq_ok_iff :
    (shop.prepareStep step identity none).exec w = (.ok call, w') ↔
      shop.Ready step identity w call w' := by
  rw [prepareStep_eq, exec_bind_eq_ok_iff]
  constructor
  · rintro ⟨_, w₁, hs, h⟩
    obtain ⟨prompt, w₂, hl, h⟩ := exec_bind_eq_ok_iff.mp h
    rw [exec_loadTemplate] at hl
    cases h
    obtain ⟨hl, rfl⟩ := Prod.mk.inj hl
    refine ⟨prompt, hs, ?_, rfl⟩
    rcases hloader : shop.loader w₁ shop.dir step.promptPath with r | text
    · rw [hloader] at hl
      cases hl
    · rw [hloader] at hl
      cases hl
      rfl
  · rintro ⟨prompt, hs, hl, rfl⟩
    refine ⟨(), w', hs, exec_bind_eq_ok_iff.mpr ⟨prompt, w', ?_, rfl⟩⟩
    rw [exec_loadTemplate, hl]
    rfl

theorem prepareStep_eq_error_iff :
    ((shop.prepareStep step identity none).exec w).1 = .error e ↔
      ((shop.scaffolding step).exec w).1 = .error e ∨
        ∃ w₁ r, (shop.scaffolding step).exec w = (.ok (), w₁) ∧
          shop.loader w₁ shop.dir step.promptPath = .error r ∧ e = templateFault step r := by
  rw [prepareStep_eq, exec_bind_eq_error_iff]
  refine or_congr Iff.rfl ⟨?_, ?_⟩
  · rintro ⟨_, w₁, hs, h⟩
    rcases exec_bind_eq_error_iff.mp h with hl | ⟨_, _, -, h⟩
    · rw [exec_loadTemplate] at hl
      rcases hloader : shop.loader w₁ shop.dir step.promptPath with r | text
      · rw [hloader] at hl
        cases hl
        exact ⟨w₁, r, hs, hloader, rfl⟩
      · rw [hloader] at hl
        cases hl
    · cases h
  · rintro ⟨w₁, r, hs, hl, rfl⟩
    refine ⟨(), w₁, hs, exec_bind_eq_error_iff.mpr (.inl ?_)⟩
    rw [exec_loadTemplate, hl]
    rfl

theorem enter_eq_error_iff :
    ((shop.enter call).exec w).1 = .error e ↔
      (w.cancelled = true ∧ e = refusal call) ∨
        (w.cancelled = false ∧ ((shop.recordStart call).exec w).1 = .error e) := by
  rw [exec_enter]
  cases w.cancelled with
  | true => simp [eq_comm]
  | false =>
    rw [if_neg Bool.false_ne_true, exec_bind_eq_error_iff]
    simp only [Bool.false_eq_true, false_and, true_and, false_or, or_iff_left_iff_imp]
    rintro ⟨_, _, -, h⟩
    cases h

theorem finish_eq_error_iff :
    ((shop.finish call runId result).exec w).1 = .error e ↔
      ((shop.recordEnd runId result).exec w).1 = .error e ∨
        ∃ w', (shop.recordEnd runId result).exec w = (.ok (), w') ∧
          handOn call result = .error e := by
  rw [finish_eq, exec_bind_eq_error_iff]
  refine or_congr Iff.rfl ⟨?_, ?_⟩
  · rintro ⟨_, w', hr, h⟩
    rcases exec_bind_eq_error_iff.mp h with hl | ⟨_, _, -, h⟩
    · rw [exec_lift] at hl
      exact ⟨w', hr, hl⟩
    · cases h
  · rintro ⟨w', hr, h⟩
    refine ⟨(), w', hr, exec_bind_eq_error_iff.mpr (.inl ?_)⟩
    rw [exec_lift]
    exact h

theorem handOn_eq_error_iff : handOn call result = .error e ↔
    ∃ f, result = .error f ∧ ((f.isOwn = true ∧ e = f) ∨ (f.isOwn = false ∧
      e = .failed { message := s!"{call.displayName} failed: {f.message}",
                    agentId := some call.invocation.agentId })) := by
  cases result with
  | ok text => simp [handOn]
  | error f =>
    simp only [handOn, Except.error.injEq, exists_eq_left']
    cases f.isOwn with
    | true => simp [eq_comm]
    | false => simp [eq_comm]

theorem exec_execute_eq_error_iff :
    ((shop.execute step identity none).exec w).1 = .error e ↔
      ((shop.prepareStep step identity none).exec w).1 = .error e ∨
        ∃ call w₁, shop.Ready step identity w call w₁ ∧
          (((shop.perform call).exec w₁).1 = .error e ∨
            ∃ text w₂, (shop.perform call).exec w₁ = (.ok text, w₂) ∧
              ((shop.scaffolding step).exec w₂).1 = .error e) := by
  rw [execute_eq, exec_bind_eq_error_iff]
  simp only [exec_prepareStep_eq_ok_iff, exec_bind_eq_error_iff]
  refine or_congr Iff.rfl (exists_congr fun call => exists_congr fun w₁ => ?_)
  refine and_congr Iff.rfl (or_congr Iff.rfl (exists_congr fun text => exists_congr fun w₂ => ?_))
  refine and_congr Iff.rfl (or_iff_left ?_)
  rintro ⟨_, _, -, h⟩
  cases h

theorem perform_eq_error_iff :
    ((shop.perform call).exec w).1 = .error e ↔
      ((shop.enter call).exec w).1 = .error e ∨
        ∃ runId w₁, (shop.enter call).exec w = (.ok runId, w₁) ∧
          ((shop.finish call runId (shop.engine w₁ call.invocation).result).exec
            (w₁.receive call.identity (shop.engine w₁ call.invocation))).1 = .error e := by
  unfold perform
  rw [exec_bind_eq_error_iff]
  refine or_congr Iff.rfl (exists_congr fun runId => exists_congr fun w₁ => ?_)
  rw [exec_bind_of_ok (exec_answer shop call w₁)]

theorem Ready.displayName_eq (h : shop.Ready step identity w call w') :
    call.displayName = step.agentName ∧ call.invocation.agentId = step.agentId := by
  obtain ⟨prompt, -, -, rfl⟩ := h
  exact ⟨rfl, rfl⟩

/-- An execution that ends in a fault has failed or broken off. -/
theorem fails_or_breaks (h : ((shop.execute step identity none).exec w).1 = .error e) :
    shop.Fails step identity w e ∨ shop.Breaks step identity w e := by
  rcases exec_execute_eq_error_iff.mp h with h | ⟨call, w₁, hc, h | ⟨text, w₂, hp, hs⟩⟩
  · rcases prepareStep_eq_error_iff.mp h with hs | ⟨w₁, r, hs, hl, rfl⟩
    · exact .inr (.scaffold hs)
    · unfold templateFault
      split
      · next hr => exact .inr (.promptPath hs (hr ▸ hl))
      · next hr => exact .inl (.prompt hs hl hr)
  · obtain ⟨hname, hid⟩ := hc.displayName_eq
    rcases perform_eq_error_iff.mp h with he | ⟨runId, w₂, he, hf⟩
    · rcases enter_eq_error_iff.mp he with ⟨hw, rfl⟩ | ⟨hw, hr⟩
      · unfold refusal
        rw [hname, hid]
        exact .inl (.cancelled hc hw)
      · exact .inr (.start hc hw hr)
    · have hb : shop.Begun step identity w call runId w₂ := ⟨w₁, hc, he⟩
      rcases finish_eq_error_iff.mp hf with hr | ⟨w₃, hr, ho⟩
      · exact .inr (.finish hb hr)
      · obtain ⟨f, hresult, ⟨hown, rfl⟩ | ⟨hown, rfl⟩⟩ := handOn_eq_error_iff.mp ho
        · rw [hresult] at hr
          cases hh : e.isHeld with
          | true => exact .inl (.held hb hresult hh hr)
          | false => exact .inr (.engine hb hresult hown hh hr)
        · rw [hresult] at hr
          rw [hname, hid]
          exact .inl (.foreign hb hresult hown hr)
  · exact .inr (.scaffoldAgain hc hp hs)

theorem Begun.execute_eq_error (hb : shop.Begun step identity w call runId w₁)
    (h : ((shop.finish call runId (shop.engine w₁ call.invocation).result).exec
      (w₁.receive call.identity (shop.engine w₁ call.invocation))).1 = .error e) :
    ((shop.execute step identity none).exec w).1 = .error e := by
  obtain ⟨w₀, hc, he⟩ := hb
  exact exec_execute_eq_error_iff.mpr
    (.inr ⟨call, w₀, hc, .inl (perform_eq_error_iff.mpr (.inr ⟨runId, w₁, he, h⟩))⟩)

/-- An execution whose end is on record ends as the engine's fault is handed on. -/
theorem Begun.execute_of_handOn {f : Fault} {w₂ : World}
    (hb : shop.Begun step identity w call runId w₁)
    (he : (shop.engine w₁ call.invocation).result = .error f)
    (hr : (shop.recordEnd runId (.error f)).exec
      (w₁.receive call.identity (shop.engine w₁ call.invocation)) = (.ok (), w₂))
    (ho : handOn call (.error f) = .error e) :
    ((shop.execute step identity none).exec w).1 = .error e := by
  refine hb.execute_eq_error (finish_eq_error_iff.mpr (.inr ⟨w₂, ?_, ?_⟩))
  · rw [he]
    exact hr
  · rw [he]
    exact ho

theorem isOwn_of_isHeld (h : e.isHeld = true) : e.isOwn = true := by
  cases e <;> first | rfl | cases h

theorem Fails.execute_eq_error (h : shop.Fails step identity w e) :
    ((shop.execute step identity none).exec w).1 = .error e := by
  cases h with
  | prompt hs hl hr =>
    refine exec_execute_eq_error_iff.mpr
      (.inl (prepareStep_eq_error_iff.mpr (.inr ⟨_, _, hs, hl, ?_⟩)))
    rw [templateFault, if_neg hr]
  | @cancelled call w₁ hc hw =>
    obtain ⟨hname, hid⟩ := hc.displayName_eq
    refine exec_execute_eq_error_iff.mpr (.inr ⟨call, w₁, hc, .inl (perform_eq_error_iff.mpr
      (.inl (enter_eq_error_iff.mpr (.inl ⟨hw, ?_⟩))))⟩)
    rw [refusal, hname, hid]
  | held hb he hh hr =>
    exact hb.execute_of_handOn he hr
      (handOn_eq_error_iff.mpr ⟨e, rfl, .inl ⟨isOwn_of_isHeld hh, rfl⟩⟩)
  | foreign hb he ho hr =>
    obtain ⟨w₀, hc, -⟩ := id hb
    obtain ⟨hname, hid⟩ := hc.displayName_eq
    refine hb.execute_of_handOn he hr (handOn_eq_error_iff.mpr ⟨_, rfl, .inr ⟨ho, ?_⟩⟩)
    rw [hname, hid]

theorem Breaks.execute_eq_error (h : shop.Breaks step identity w e) :
    ((shop.execute step identity none).exec w).1 = .error e := by
  cases h with
  | scaffold hs =>
    exact exec_execute_eq_error_iff.mpr (.inl (prepareStep_eq_error_iff.mpr (.inl hs)))
  | promptPath hs hl =>
    exact exec_execute_eq_error_iff.mpr
      (.inl (prepareStep_eq_error_iff.mpr (.inr ⟨_, _, hs, hl, rfl⟩)))
  | start hc hw hr =>
    exact exec_execute_eq_error_iff.mpr (.inr ⟨_, _, hc, .inl (perform_eq_error_iff.mpr
      (.inl (enter_eq_error_iff.mpr (.inr ⟨hw, hr⟩))))⟩)
  | engine hb he ho hh hr =>
    exact hb.execute_of_handOn he hr (handOn_eq_error_iff.mpr ⟨e, rfl, .inl ⟨ho, rfl⟩⟩)
  | finish hb hr => exact hb.execute_eq_error (finish_eq_error_iff.mpr (.inl hr))
  | scaffoldAgain hc hp hs =>
    exact exec_execute_eq_error_iff.mpr (.inr ⟨_, _, hc, .inr ⟨_, _, hp, hs⟩⟩)

/-- The execution of a step ends in a fault iff it fails or breaks off. -/
theorem execute_eq_error_iff :
    ((shop.execute step identity none).exec w).1 = .error e ↔
      shop.Fails step identity w e ∨ shop.Breaks step identity w e :=
  ⟨fails_or_breaks, fun h => h.elim Fails.execute_eq_error Breaks.execute_eq_error⟩

/-! ### What is held and what is not -/

theorem faultsIn_scaffolding (shop : Workshop) (step : Step) :
    FaultsIn (·.isOfFiles = true) (shop.scaffolding step) := by
  have hdir : ∀ path, FaultsIn (·.isOfFiles = true) (ensureDirectory path) :=
    fun path => FaultsIn.ensureDirectory (fun _ => rfl) rfl
  unfold scaffolding
  split
  · exact (hdir _).bind fun _ => (hdir _).bind fun _ => FaultsIn.pure _
  · exact FaultsIn.pure _

theorem faultsIn_recordStart (shop : Workshop) (call : Call) :
    FaultsIn (·.isOfFiles = true) (shop.recordStart call) := by
  unfold recordStart
  split
  · exact FaultsIn.pure _
  · exact (Registry.faultsIn_start _ _ _ _).bind fun _ => FaultsIn.pure _

theorem faultsIn_recordEnd (shop : Workshop) (runId : Option String)
    (result : Except Fault String) :
    FaultsIn (·.isOfFiles = true) (shop.recordEnd runId result) := by
  unfold recordEnd
  split
  · exact (Registry.faultsIn_finish _ _ _ _).bind fun _ => FaultsIn.pure _
  · exact FaultsIn.pure _

/-- An execution breaks off in a fault of the files, or in one of the program's own that the engine
reports and that is no failed or cancelled call. -/
theorem Breaks.isOfFiles_or_reported (h : shop.Breaks step identity w e) :
    e.isOfFiles = true ∨ (e.isOwn = true ∧ e.isHeld = false ∧
      ∃ w call, (shop.engine w call).result = .error e) := by
  cases h with
  | scaffold hs => exact .inl (faultsIn_scaffolding shop step _ _ hs)
  | promptPath _ _ => exact .inl rfl
  | start _ _ hr => exact .inl (faultsIn_recordStart shop _ _ _ hr)
  | engine _ he ho hh _ => exact .inr ⟨ho, hh, _, _, he⟩
  | finish _ hr => exact .inl (faultsIn_recordEnd shop _ _ _ _ hr)
  | scaffoldAgain _ _ hs => exact .inl (faultsIn_scaffolding shop step _ _ hs)

theorem Breaks.not_isHeld (h : shop.Breaks step identity w e) : e.isHeld = false := by
  rcases h.isOfFiles_or_reported with h | ⟨-, hh, -⟩
  · exact Fault.not_isHeld_of_isOfFiles h
  · exact hh

theorem Fails.isHeld (h : shop.Fails step identity w e) : e.isHeld = true := by
  cases h with
  | held _ _ hh _ => exact hh
  | _ => rfl

end Workshop

end Conductor
