import Conductor.Proofs.State.Veil
import Conductor.Proofs.Workflow.Failure

/-!
# Runs in worlds that look the same

A workflow runs behind a veil if its engine does the same in worlds that look the same, if its
registry, its signals and the prompts of the steps that it may run are not kept in the hidden file,
and if that is where it keeps its progress (`Workflow.Behind`).  Each part of a call is blind then,
and so is each turn that executes no other step (`Workflow.blind_turn`); a turn leads to states that
execute none but those of the list and the catalog (`Workflow.yields_turn`).

Main statement: a run is blind (`Workflow.blind_run`).
-/

namespace Conductor

open Act

namespace Veil

/-- Two replies that do the same to what can be looked at. -/
structure Replies (v : Veil) (r r' : Reply String) : Prop where
  stores : v.Stores r.store r'.store
  cancels : r'.cancels = r.cancels
  published : r'.published = r.published
  result : r'.result = r.result

/-- The engine does the same in worlds that look the same. -/
def Overlooks (v : Veil) (engine : Engine) : Prop :=
  ∀ w w' call, v.Worlds w w' → v.Replies (engine w call) (engine w' call)

/-- The prompt of a name reads the same in worlds that look the same. -/
def ReadsAlike (v : Veil) (shop : Workshop) (name : String) : Prop :=
  ∀ w w', v.Worlds w w' → shop.loader w' shop.dir name = shop.loader w shop.dir name

/-- Calls are answered and put on record without a look at what is hidden. -/
structure Shields (v : Veil) (shop : Workshop) : Prop where
  engine : v.Overlooks shop.engine
  registry : ∀ path ∈ shop.registry, v.Open path

variable {v : Veil} {shop : Workshop} {step : Step} {identity : String} {call : Call} {path : Path}

/-! ### The registry -/

theorem blind_loadRegistry (h : v.Open path) : v.Blind (Registry.load path) := by
  refine (Blind.holds _).bind fun there => ?_
  split
  · exact Blind.pure _
  · refine (Blind.readText h).bind fun read => ?_
    split
    · exact Blind.lift _
    · exact Agree.throw _
    · exact Agree.throw _

theorem blind_freshId (v : Veil) : v.Blind Registry.freshId := by
  refine Agree.get_bind fun w w' hw => ?_
  obtain ⟨hcwd, hs, hcalendar⟩ := hw
  exact ⟨.ok rfl, .mk hcwd hs hcalendar⟩

theorem blind_start (h : v.Open path) (agentId name : String) (parentId : Option String) :
    v.Blind (Registry.start path agentId name parentId) := by
  refine (blind_loadRegistry h).bind fun rs => (blind_freshId v).bind fun id => ?_
  have hsave : ∀ r, v.Blind (do Registry.save path (rs ++ [r]); return r : Act RunRecord) :=
    fun r => (Blind.saveText _ _).bind fun _ => Blind.pure _
  refine Agree.get_bind fun w w' hw => ?_
  rw [hw.now_eq]
  exact hsave _ _ _ hw

theorem blind_finish (h : v.Open path) (id : String) (state : RunState) (error : Option String) :
    v.Blind (Registry.finish path id state error) := by
  refine Agree.get_bind fun w w' hw => ?_
  rw [hw.now_eq]
  refine (blind_loadRegistry h).bind (fun rs => ?_) _ _ hw
  split
  · exact (Blind.saveText _ _).bind fun _ => Blind.pure _
  · exact Agree.throw _

/-! ### Calls -/

theorem blind_scaffolding (v : Veil) (shop : Workshop) (step : Step) :
    v.Blind (shop.scaffolding step) := by
  unfold Workshop.scaffolding
  split
  · exact (Blind.ensureDirectory _).bind fun _ =>
      (Blind.ensureDirectory _).bind fun _ => Blind.pure _
  · exact Blind.pure _

theorem blind_prepareStep (h : v.ReadsAlike shop step.promptPath) :
    v.Blind (shop.prepareStep step identity none) := by
  rw [Workshop.prepareStep_eq]
  refine (blind_scaffolding v shop step).bind fun _ => Blind.bind ?_ fun _ => Blind.pure _
  intro w w' hw
  unfold Match
  rw [Workshop.exec_loadTemplate, Workshop.exec_loadTemplate, h w w' hw]
  exact ⟨alike_of_eq rfl, hw⟩

theorem blind_recordStart (h : v.Shields shop) (call : Call) : v.Blind (shop.recordStart call) := by
  unfold Workshop.recordStart
  split
  · exact Blind.pure _
  · next path hpath => exact (blind_start (h.registry path hpath) _ _ _).bind fun _ => Blind.pure _

theorem blind_enter (h : v.Shields shop) (call : Call) : v.Blind (shop.enter call) := by
  have hbegin : v.Blind (do
      let runId ← shop.recordStart call
      Act.note [{ level := .info, source := .execution,
                  message := s!"{call.displayName} started to work.",
                  details := [("agent", .str call.identity)] }]
      modify fun w => { w with calls := w.calls.push call.invocation }
      return runId : Act (Option String)) := by
    refine (blind_recordStart h call).bind fun runId => (Blind.note _).bind fun _ => ?_
    refine (Blind.modify fun w w' hw => ?_).bind fun _ => Blind.pure _
    obtain ⟨hcwd, hs, hcalendar⟩ := hw
    exact .mk hcwd hs hcalendar
  intro w w' hw
  unfold Match
  rw [Workshop.exec_enter, Workshop.exec_enter, hw.cancelled_eq]
  split
  · exact ⟨.error _, hw⟩
  · exact hbegin w w' hw

theorem blind_answer (h : v.Overlooks shop.engine) (call : Call) : v.Blind (shop.answer call) := by
  intro w w' hw
  obtain ⟨hstores, hcancels, hpublished, hresult⟩ := h w w' call.invocation hw
  unfold Match
  rw [Workshop.exec_answer, Workshop.exec_answer, hresult]
  refine ⟨.ok rfl, ?_⟩
  dsimp only
  unfold World.receive
  rw [hcancels, hpublished]
  obtain ⟨hcwd, -, hcalendar⟩ := hw
  exact .mk hcwd hstores hcalendar

theorem blind_finishCall (h : v.Shields shop) (call : Call) (runId : Option String)
    (result : Except Fault String) : v.Blind (shop.finish call runId result) := by
  rw [Workshop.finish_eq]
  have hend : v.Blind (shop.recordEnd runId result) := by
    unfold Workshop.recordEnd
    split
    · next path id hpath =>
      exact (blind_finish (h.registry path hpath) _ _ _).bind fun _ => Blind.pure _
    · exact Blind.pure _
  exact hend.bind fun _ => (Blind.lift _).bind fun _ => (Blind.note _).bind fun _ => Blind.pure _

/-- The execution of a step is blind where its prompt reads the same. -/
theorem blind_execute (h : v.Shields shop) (hprompt : v.ReadsAlike shop step.promptPath)
    (identity : String) : v.Blind (shop.execute step identity none) := by
  rw [Workshop.execute_eq]
  refine (blind_prepareStep hprompt).bind fun call => Blind.bind ?_ fun _ =>
    (blind_scaffolding v shop step).bind fun _ => Blind.pure _
  exact (blind_enter h call).bind fun runId => (blind_answer h.engine call).bind fun result =>
    blind_finishCall h call runId result

end Veil

namespace Workflow

/-- A step that a run may execute: one of the list, or one that stands for an id of the catalog. -/
def MayRun (f : Workflow) (step : Step) : Prop := step ∈ f.steps ∨ ∃ id, f.resolved id = .ok step

/-- The workflow runs without a look at what is hidden. -/
structure Behind (v : Veil) (f : Workflow) : Prop where
  shop : v.Shields f.shop
  prompts : ∀ step, f.MayRun step → v.ReadsAlike f.shop step.promptPath
  signals : ∀ stateDir, f.signals = .file stateDir → v.Open (signalFile stateDir f.shop.dir)
  tracking : ∀ path ∈ f.tracking, path = v.file

/-- What the next turn executes is a step that a run may execute. -/
def State.Within (f : Workflow) (s : State) : Prop :=
  ∀ owner run identity, s.phase.executes? = some (owner, run, identity) → f.MayRun run

/-- A turn leads to a state of which that holds. -/
def Turn.Within (f : Workflow) : Turn → Prop
  | .next s => s.Within f
  | .done _ => True

variable {v : Veil} {f : Workflow} {s : State}

/-! ### The steps that are executed -/

theorem mayRun_of_target {id : String} {step : Step} (h : f.target id = .ok step) :
    f.MayRun step := by
  unfold target at h
  split at h
  · next hnamed =>
    cases h
    exact .inl (List.mem_of_find?_eq_some hnamed)
  · exact .inr ⟨id, h⟩

theorem mayRun_of_chosen {c : Cursor} {step run : Step} {index : Nat} {identity : String}
    (hstep : step ∈ f.steps) (h : f.chosen c step index = .ok (run, identity)) : f.MayRun run := by
  unfold chosen at h
  split at h
  · cases h
    exact .inl hstep
  · next reference _ =>
    split at h
    · cases hr : f.resolved reference with
      | error e =>
        rw [hr] at h
        cases h
      | ok fallback =>
        rw [hr] at h
        cases h
        exact .inr ⟨reference, hr⟩
    · cases h
      exact .inl hstep

/-- A turn leads to states that execute only what a run may execute. -/
theorem yields_turn (f : Workflow) (s : State) : Yields (Turn.Within f) (f.turn s) := by
  intro w t h
  have hnone : ∀ {c ms phase}, phase.executes? = none → State.Within f ⟨c, ms, phase⟩ := by
    intro c ms phase hphase owner run identity he
    cases hphase.symm.trans he
  rcases hx : (f.turn s).exec w with ⟨r, w'⟩
  rw [hx] at h
  cases h
  cases takes_of_turn hx with
  | takenUp _ _ ht =>
    intro owner run identity he
    cases he
    exact mayRun_of_target ht
  | started _ _ hs _ hr =>
    intro owner run identity he
    cases he
    exact mayRun_of_chosen (List.mem_of_getElem? hs) hr
  | cancelled | unknownTarget | completed | unknownFallback | callCancelled | failed | stopped
  | triggeredCancelled | triggeredFailed | triggeredStopped => trivial
  | _ => exact hnone rfl

/-! ### Turns -/

open Veil

theorem blind_abort (reason : String) (ms : List String) : v.Blind (abort reason ms) :=
  (Blind.note _).bind fun _ => Blind.pure _

theorem blind_stopAt (step : Step) (reason : Option String) (ms : List String) :
    v.Blind (stopAt step reason ms) := (Blind.note _).bind fun _ => Blind.pure _

theorem blind_lookUp (f : Workflow) (id : String) : v.Blind (f.lookUp id) := by
  unfold lookUp
  split
  · exact Blind.pure _
  · exact (Blind.note _).bind fun _ => Blind.pure _

theorem blind_takeUp (f : Workflow) (s : State) (id : String) : v.Blind (f.takeUp s id) := by
  unfold takeUp
  dsimp only
  split
  · exact (Blind.note _).bind fun _ => Blind.pure _
  · refine (blind_lookUp f id).bind fun step => ?_
    split
    · exact blind_abort _ _
    · exact (Blind.note _).bind fun _ => Blind.pure _

theorem blind_choose (f : Workflow) (c : Cursor) (step : Step) (index : Nat) :
    v.Blind (f.choose c step index) := by
  unfold choose
  split
  · exact Blind.pure _
  · split
    · exact Blind.pure _
    · refine (blind_lookUp f _).bind fun found => ?_
      split
      · exact Blind.pure _
      · exact (Blind.note _).bind fun _ => Blind.pure _

theorem blind_visit (h : Behind v f) (s : State) (step : Step) : v.Blind (f.visit s step) := by
  unfold visit
  dsimp only
  split
  · exact (Blind.note _).bind fun _ => Blind.pure _
  · refine (blind_choose f _ _ _).bind fun chosen => ?_
    split
    · exact blind_abort _ _
    · split
      · next path hpath =>
        rw [h.tracking path hpath]
        exact (v.blind_recordStarted _).bind fun _ => Blind.pure _
      · exact Blind.pure _

theorem blind_atHead (h : Behind v f) (s : State) : v.Blind (f.atHead s) := by
  refine Agree.get_bind fun w w' hw => ?_
  rw [hw.cancelled_eq]
  split
  · exact blind_abort _ _ _ _ hw
  · split
    · exact blind_takeUp f _ _ _ _ hw
    · split
      · exact blind_visit h _ _ _ _ hw
      · exact (Blind.note _).bind (fun _ => Blind.pure _) _ _ hw

theorem blind_excuse (h : Behind v f) (s : State) (owner : Step) (c : CallFailure) :
    v.Blind (f.excuse s owner c) := by
  unfold excuse
  split
  · exact (Blind.note _).bind fun _ => (Blind.readSafely h.signals).bind fun _ => Blind.pure _
  · exact (Blind.note _).bind fun _ => Blind.pure _
  · exact Blind.pure _

theorem blind_goOnAfter (h : Behind v f) (s : State) (owner : Step)
    (result : Except Fault String) : v.Blind (f.goOnAfter s owner result) := by
  unfold goOnAfter
  split
  · exact Blind.pure _
  · exact blind_abort _ _
  · split
    · exact blind_excuse h _ _ _
    · exact blind_abort _ _
  · exact Agree.throw _

/-- A turn that executes a step is blind where the run may execute it. -/
theorem blind_turn_of_executes {owner run : Step} {identity : String} (h : Behind v f)
    (hs : s.phase.executes? = some (owner, run, identity)) (hrun : f.MayRun run) :
    v.Blind (f.turn s) := by
  have hboth : v.Blind (do
      let result ← attempt (f.shop.execute run identity none)
      f.goOnAfter s owner result) :=
    (blind_execute h.shop (h.prompts run hrun) identity).attempt.bind fun result =>
      blind_goOnAfter h s owner result
  intro w w' hw
  have hmatch := hboth w w' hw
  unfold Match at hmatch ⊢
  rw [exec_turn_of_executes hs, exec_turn_of_executes hs]
  rwa [exec_bind_of_ok (exec_attempt _ w), exec_bind_of_ok (exec_attempt _ w')] at hmatch

theorem blind_atReturned (h : Behind v f) (s : State) (index : Nat) (step : Step)
    (output : String) : v.Blind (f.atReturned s index step output) := by
  unfold atReturned
  split
  · next path hpath =>
    rw [h.tracking path hpath]
    exact (v.blind_recordCompleted _).bind fun _ => Blind.pure _
  · exact Blind.pure _

theorem blind_leaveLoop (s : State) (step : Step) (index : Nat) (key : String)
    (d : LoopDecision) : v.Blind (leaveLoop s step index key d) := by
  unfold leaveLoop
  dsimp only
  split
  · exact Blind.pure _
  · split
    · exact (Blind.note _).bind fun _ => Blind.pure _
    · exact (Blind.note _).bind fun _ => Blind.pure _

theorem blind_queue (s : State) (step : Step) (id : String) : v.Blind (queue s step id) := by
  unfold queue
  dsimp only
  split
  · exact (Blind.note _).bind fun _ => Blind.pure _
  · exact (Blind.note _).bind fun _ => Blind.pure _

theorem blind_follow (s : State) (step : Step) (index : Nat) (key : String) (verdict : Verdict) :
    v.Blind (follow s step index key verdict) := by
  have hgo : ∀ s, v.Blind (follow.goOn step verdict s) := by
    intro s
    unfold follow.goOn
    split
    · exact (blind_queue _ _ _).bind fun _ => Blind.pure _
    · exact Blind.pure _
  unfold follow
  split
  · exact blind_stopAt _ _ _
  · split
    · split
      · exact (Blind.note _).bind fun _ => Blind.pure _
      · exact (blind_leaveLoop _ _ _ _ _).bind hgo
    · exact hgo s

theorem blind_atRecorded (h : Behind v f) (s : State) (index : Nat) (step : Step)
    (output : String) : v.Blind (f.atRecorded s index step output) := by
  unfold atRecorded
  have hnoted : ∀ {rest : Act Turn} (noted : Bool) (rs : List Record), v.Blind rest →
      v.Blind (if noted then do Act.note rs; rest else rest) := by
    intro rest noted rs hrest
    split
    · exact (Blind.note rs).bind fun _ => hrest
    · exact hrest
  refine (Blind.readSafely h.signals).bind fun signal => ?_
  exact hnoted _ _ (hnoted _ _ (blind_follow _ _ _ _ _))

theorem blind_atHandedBack (h : Behind v f) (s : State) (id : String) (step : Step) :
    v.Blind (f.atHandedBack s id step) := by
  refine (Blind.readSafely h.signals).bind fun signal => ?_
  split
  · exact Blind.pure _
  · split
    · exact blind_stopAt _ _ _
    · exact (Blind.note _).bind fun _ => Blind.pure _

/-- A turn is blind from a state that executes only what a run may execute. -/
theorem blind_turn (h : Behind v f) (hs : s.Within f) : v.Blind (f.turn s) := by
  cases hphase : s.phase with
  | head =>
    unfold turn
    rw [hphase]
    exact blind_atHead h s
  | returned index step output =>
    unfold turn
    rw [hphase]
    exact blind_atReturned h s index step output
  | recorded index step output =>
    unfold turn
    rw [hphase]
    exact blind_atRecorded h s index step output
  | handedBack id step =>
    unfold turn
    rw [hphase]
    exact blind_atHandedBack h s id step
  | attempt index step run identity =>
    have he : s.phase.executes? = some (step, run, identity) := by rw [hphase]; rfl
    exact blind_turn_of_executes h he (hs _ _ _ he)
  | triggered id step =>
    have he : s.phase.executes? = some (step, step, id) := by rw [hphase]; rfl
    exact blind_turn_of_executes h he (hs _ _ _ he)

/-! ### Runs -/

theorem blind_start (h : Behind v f) : v.Blind f.start := by
  have hnoted : ∀ cursor : Cursor, v.Blind (do
      note .info s!"Running workflow with {f.steps.length} step(s) in {f.shop.dir}"
      return { cursor := cursor } : Act State) :=
    fun cursor => (Blind.note _).bind fun _ => Blind.pure _
  unfold start
  dsimp only
  split
  · exact (Blind.pure _).bind hnoted
  · next path hpath =>
    rw [h.tracking path hpath]
    refine v.agree_load.bind fun p p' hp => v.agree_load.bind fun q q' hq => ?_
    rw [hp.completed_eq, hq.notCompleted_eq]
    exact (Blind.pure _).bind hnoted

theorem blind_runFrom (h : Behind v f) (fuel : Nat) (hs : s.Within f) :
    v.Blind (f.runFrom fuel s) := by
  induction fuel generalizing s with
  | zero => exact Agree.throw _
  | succ fuel ih =>
    refine (blind_turn h hs).bind_of_yields (yields_turn f s) fun t ht => ?_
    cases t with
    | done o => exact Blind.pure o
    | next s => exact ih ht

/-- A run does not tell worlds apart that look the same. -/
theorem blind_run (h : Behind v f) : v.Blind f.run := by
  refine (blind_start h).bind_of_yields (P := State.Within f) ?_ fun s hs => blind_runFrom h _ hs
  intro w s hx
  obtain ⟨p, log, -, -, rfl⟩ := start_spec (Prod.ext hx rfl : f.start.exec w = (.ok s, _))
  exact fun _ _ _ he => nomatch he

end Workflow

end Conductor
