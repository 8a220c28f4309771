import Conductor.Proofs.Run.Call
import Conductor.Proofs.Run.Failure
import Conductor.Proofs.State.Progress
import Conductor.Proofs.State.Signals
import Conductor.Run.Stage

/-!
# What starts agent calls

One place in the program starts an agent call, and it asks first whether the run has been cancelled.
So an action starts no call (`StartsNone`), or at most one and only where nothing has been cancelled
(`StartsOne`); neither takes a cancellation back.  What changes only files, the log, the mailbox or
the supply of run ids keeps every property that looks at none of them (`Aside`), and so starts
nothing.
-/

namespace Conductor

/-- A property of worlds that looks at no file, record, signal or run id. -/
structure Aside (P : World → Prop) : Prop where
  log : Act.LogFree P
  store : ∀ w s, P w → P { w with store := s }
  mailbox : ∀ w b, P w → P { w with mailbox := b }
  nextRun : ∀ w n, P w → P { w with nextRun := n }

/-- From one world to the next at most one call starts, and only where nothing has been cancelled;
a cancellation stays. -/
structure World.Heeds (w w' : World) : Prop where
  cancelled : w.cancelled = true → w'.cancelled = true
  calls : w'.calls = w.calls ∨ w.cancelled = false ∧ ∃ call, w'.calls = w.calls.push call

theorem aside_calls (calls : Array Invocation) : Aside fun w => w.calls = calls :=
  ⟨fun _ _ h => h, fun _ _ h => h, fun _ _ h => h, fun _ _ h => h⟩

theorem aside_cancelled (cancelled : Bool) : Aside fun w => w.cancelled = cancelled :=
  ⟨fun _ _ h => h, fun _ _ h => h, fun _ _ h => h, fun _ _ h => h⟩

theorem World.Heeds.calls_eq {w w' : World} (h : w.Heeds w') (hw : w.cancelled = true) :
    w'.calls = w.calls := by
  rcases h.calls with h | ⟨h, -⟩
  · exact h
  · rw [hw] at h
    cases h

namespace Act

variable {α β : Type} {a : Act α} {g : α → Act β}

/-- The action looks aside: it keeps whatever concerns no file, record, signal or run id. -/
def StaysAside (a : Act α) : Prop := ∀ P, Aside P → Keeps P a

/-- The action starts no call and takes no cancellation back. -/
def StartsNone (a : Act α) : Prop :=
  ∀ w, (a.exec w).2.calls = w.calls ∧ (w.cancelled = true → (a.exec w).2.cancelled = true)

/-- The action starts at most one call, and none in a run that has been cancelled. -/
def StartsOne (a : Act α) : Prop := ∀ w : World, w.Heeds (a.exec w).2

theorem StaysAside.startsNone (h : StaysAside a) : StartsNone a :=
  fun w => ⟨h _ (aside_calls w.calls) w rfl, h _ (aside_cancelled true) w⟩

theorem StaysAside.cancelled_eq (h : StaysAside a) (w : World) :
    (a.exec w).2.cancelled = w.cancelled := h _ (aside_cancelled w.cancelled) w rfl

theorem StartsNone.startsOne (h : StartsNone a) : StartsOne a :=
  fun w => ⟨(h w).2, .inl (h w).1⟩

/-! ### Sequences -/

theorem StaysAside.bind (ha : StaysAside a) (hg : ∀ x, StaysAside (g x)) : StaysAside (a >>= g) :=
  fun P hP => (ha P hP).bind fun x => hg x P hP

theorem StartsNone.bind (ha : StartsNone a) (hg : ∀ x, StartsNone (g x)) :
    StartsNone (a >>= g) := by
  intro w
  obtain ⟨hcalls, hcancelled⟩ := ha w
  rw [exec_bind]
  rcases h : a.exec w with ⟨(e | x), w'⟩
  · rw [h] at hcalls hcancelled
    exact ⟨hcalls, hcancelled⟩
  · rw [h] at hcalls hcancelled
    obtain ⟨hcalls', hcancelled'⟩ := hg x w'
    exact ⟨hcalls'.trans hcalls, fun hw => hcancelled' (hcancelled hw)⟩

/-- What starts no call may stand in front of what starts one. -/
theorem StartsNone.bind_startsOne (ha : StartsNone a) (hg : ∀ x, StartsOne (g x)) :
    StartsOne (a >>= g) := by
  intro w
  obtain ⟨hcalls, hcancelled⟩ := ha w
  rw [exec_bind]
  rcases h : a.exec w with ⟨(e | x), w'⟩
  · rw [h] at hcalls hcancelled
    exact ⟨hcancelled, .inl hcalls⟩
  · rw [h] at hcalls hcancelled
    have hnext := hg x w'
    refine ⟨fun hw => hnext.cancelled (hcancelled hw), ?_⟩
    rcases hnext.calls with hsame | ⟨hw', call, hpush⟩
    · exact .inl (hsame.trans hcalls)
    · refine .inr ⟨?_, call, by rw [hpush, hcalls]⟩
      cases hw : w.cancelled with
      | false => rfl
      | true =>
        rw [hcancelled hw] at hw'
        cases hw'

/-- What starts no call may stand behind what starts one. -/
theorem StartsOne.bind (ha : StartsOne a) (hg : ∀ x, StartsNone (g x)) : StartsOne (a >>= g) := by
  intro w
  have hfirst := ha w
  rw [exec_bind]
  rcases h : a.exec w with ⟨(e | x), w'⟩
  · rw [h] at hfirst
    exact hfirst
  · rw [h] at hfirst
    obtain ⟨hcalls, hcancelled⟩ := hg x w'
    refine ⟨fun hw => hcancelled (hfirst.cancelled hw), ?_⟩
    rcases hfirst.calls with hsame | ⟨hw, call, hpush⟩
    · exact .inl (hcalls.trans hsame)
    · exact .inr ⟨hw, call, hcalls.trans hpush⟩

theorem StaysAside.get_bind {k : World → Act β} (hk : ∀ w, StaysAside (k w)) :
    StaysAside ((MonadState.get : Act World) >>= k) :=
  fun P hP => Keeps.get_bind fun w hw => hk w P hP w hw

/-! ### Building blocks -/

theorem staysAside_pure (x : α) : StaysAside (pure x : Act α) := fun _ _ => Keeps.pure x

theorem staysAside_throw (e : Fault) : StaysAside (throw e : Act α) := fun _ _ => Keeps.throw e

theorem staysAside_note (rs : List Record) : StaysAside (note rs) :=
  fun _ hP => Keeps.note hP.log rs

theorem staysAside_lift (r : Except Fault α) : StaysAside (lift r) := fun _ _ => Keeps.lift r

theorem StaysAside.attempt (ha : StaysAside a) : StaysAside (attempt a) := fun P hP => ha P hP

theorem StartsNone.attempt (ha : StartsNone a) : StartsNone (Act.attempt a) := ha

theorem StartsOne.attempt (ha : StartsOne a) : StartsOne (Act.attempt a) := ha

theorem staysAside_ensureDirectory (path : Path) : StaysAside (ensureDirectory path) :=
  fun _ hP => Keeps.ensureDirectory fun w s hw _ => hP.store w s hw

theorem staysAside_saveText (path : Path) (text : String) : StaysAside (saveText path text) :=
  fun _ hP => Keeps.saveText (fun w s hw _ => hP.store w s hw) fun w s hw _ => hP.store w s hw

end Act

open Act

/-! ### Files -/

namespace Registry

theorem staysAside_load (path : Path) : StaysAside (load path) := fun _ _ => keeps_load path

theorem staysAside_start (path : Path) (agentId name : String) (parentId : Option String) :
    StaysAside (start path agentId name parentId) := by
  unfold start
  refine (staysAside_load path).bind fun rs => ?_
  refine StaysAside.bind (fun P hP => keeps_freshId hP.nextRun) fun id => ?_
  exact .get_bind fun w => (staysAside_saveText path _).bind fun _ => staysAside_pure _

theorem staysAside_finish (path : Path) (id : String) (state : RunState) (error : Option String) :
    StaysAside (finish path id state error) := by
  unfold finish
  refine .get_bind fun w => (staysAside_load path).bind fun rs => ?_
  split
  · exact (staysAside_saveText path _).bind fun _ => staysAside_pure _
  · exact staysAside_throw _

end Registry

namespace Progress

theorem staysAside_load (path : Path) : StaysAside (load path) := fun _ hP => keeps_load hP.log path

theorem staysAside_recordStarted (path : Path) (index : Int) :
    StaysAside (recordStarted path index) :=
  fun _ hP => keeps_recordStarted (fun w s hw _ => hP.store w s hw)
    (fun w _ s hw _ => hP.store w s hw) hP.log index

theorem staysAside_recordCompleted (path : Path) (index : Int) :
    StaysAside (recordCompleted path index) :=
  fun _ hP => keeps_recordCompleted (fun w s hw _ => hP.store w s hw)
    (fun w _ s hw _ => hP.store w s hw) hP.log index

end Progress

theorem SignalWay.staysAside_readSafely (way : SignalWay) (dir : Path) :
    StaysAside (readSafely way dir) := by
  intro P hP w hw
  obtain ⟨log, h⟩ := exec_readSafely way dir w
  rw [h]
  exact hP.log _ log (hP.mailbox w _ hw)

/-! ### Agent calls -/

namespace Workshop

variable (shop : Workshop)

theorem staysAside_scaffolding (step : Step) : StaysAside (shop.scaffolding step) := by
  unfold scaffolding
  split
  · exact (staysAside_ensureDirectory _).bind fun _ =>
      (staysAside_ensureDirectory _).bind fun _ => staysAside_pure _
  · exact staysAside_pure _

theorem staysAside_loadTemplate (name : String) (failure : String → CallFailure) :
    StaysAside (shop.loadTemplate name failure) := fun _ _ => keeps_loadTemplate shop name failure

theorem staysAside_prepareStep (step : Step) (identity : String) :
    StaysAside (shop.prepareStep step identity none) := by
  rw [prepareStep_eq]
  exact (shop.staysAside_scaffolding step).bind fun _ =>
    (shop.staysAside_loadTemplate _ _).bind fun _ => staysAside_pure _

theorem staysAside_prepareTask (name request : String) (inputFiles : List String)
    (identity : String) (parentId : Option String) :
    StaysAside (shop.prepareTask name request inputFiles identity parentId) :=
  fun _ hP => shop.keeps_prepareTask hP.log name request inputFiles identity parentId

theorem staysAside_recordStart (call : Call) : StaysAside (shop.recordStart call) := by
  unfold recordStart
  split
  · exact staysAside_pure _
  · exact (Registry.staysAside_start _ _ _ _).bind fun _ => staysAside_pure _

theorem staysAside_recordEnd (runId : Option String) (result : Except Fault String) :
    StaysAside (shop.recordEnd runId result) := by
  unfold recordEnd
  split
  · exact (Registry.staysAside_finish _ _ _ _).bind fun _ => staysAside_pure _
  · exact staysAside_pure _

/-- Entering a call starts that one, or none. -/
theorem calls_enter (call : Call) (w : World) :
    ((shop.enter call).exec w).2.calls = w.calls ∨
      w.cancelled = false ∧
        ((shop.enter call).exec w).2.calls = w.calls.push call.invocation := by
  rw [exec_enter]
  cases hw : w.cancelled with
  | true => exact .inl rfl
  | false =>
    rw [if_neg Bool.false_ne_true, exec_bind]
    have hcalls := ((shop.staysAside_recordStart call).startsNone w).1
    rcases h : (shop.recordStart call).exec w with ⟨(e | runId), w₁⟩
    · rw [h] at hcalls
      exact .inl hcalls
    · rw [h] at hcalls
      refine .inr ⟨rfl, ?_⟩
      show w₁.calls.push call.invocation = _
      rw [show w₁.calls = w.calls from hcalls]

/-- Here, and only here, a call starts. -/
theorem startsOne_enter (call : Call) : StartsOne (shop.enter call) := by
  intro w
  refine ⟨fun hw => ?_, (shop.calls_enter call w).imp_right fun h => ⟨h.1, _, h.2⟩⟩
  rw [exec_enter, if_pos hw]
  exact hw

theorem startsNone_answer (call : Call) : StartsNone (shop.answer call) := by
  intro w
  rw [exec_answer]
  refine ⟨rfl, fun hw => ?_⟩
  show (w.cancelled || (shop.engine w call.invocation).cancels) = true
  rw [hw, Bool.true_or]

theorem staysAside_finish (call : Call) (runId : Option String) (result : Except Fault String) :
    StaysAside (shop.finish call runId result) := by
  rw [finish_eq]
  exact (shop.staysAside_recordEnd _ _).bind fun _ => (staysAside_lift _).bind fun _ =>
    (staysAside_note _).bind fun _ => staysAside_pure _

theorem startsOne_execute (step : Step) (identity : String) :
    StartsOne (shop.execute step identity none) := by
  have hperform : ∀ call, StartsOne (shop.perform call) := by
    intro call
    refine (shop.startsOne_enter call).bind fun runId => ?_
    refine (shop.startsNone_answer call).bind fun result => ?_
    exact (shop.staysAside_finish call runId result).startsNone
  rw [execute_eq]
  refine (shop.staysAside_prepareStep step identity).startsNone.bind_startsOne fun call => ?_
  refine (hperform call).bind fun text => ?_
  exact ((shop.staysAside_scaffolding step).bind fun _ => staysAside_pure _).startsNone

end Workshop

end Conductor
