import Conductor.Proofs.Run.Books
import Conductor.Proofs.Run.Cancellation
import Conductor.Proofs.Script.Moving

/-!
# The calls of a script and their records

The tasks of a stage move in any order, so the calls of a script overlap: a call begins in one turn
and is answered in a later one (`Script.eventsAt`), and between the two its record is among those
that are open (`openIds`).  A move keeps the journal (`kept_of_moves`), and when all tasks of a
stage are done no record is open but that of the script itself.

Main statement: a script stops with the record of each call finished and its own one open, however
it stops (`Stops.kept`).
-/

namespace Conductor.Script

open Act Text

/-- The id of a call's record that has not been finished. -/
def TaskPhase.openId? : TaskPhase → Option String
  | running _ runId => runId
  | answered _ runId _ => runId
  | _ => none

/-- The ids of the records that have not been finished. -/
def openIds (runs : List TaskRun) : List String := runs.filterMap (·.phase.openId?)

/-- What happens to the call of a task in its next move. -/
def TaskPhase.events (shop : Workshop) (w : World) : TaskPhase → List CallEvent
  | prepared call =>
    match (shop.enter call).exec w with
    | (.ok runId, _) => [.begun runId call]
    | (.error _, _) => []
  | running call runId => [.answered runId (shop.engine w call.invocation).result]
  | _ => []

/-- What happens to the calls of a stage when the task at a position moves, if it may. -/
def eventsOfMove (setup : Setup) (runs : List TaskRun) (i : Nat) (w : World) : List CallEvent :=
  if mayMove setup.workers runs i then (runs[i]?.map (·.phase.events setup.shop w)).getD [] else []

/-- What happens to the calls of a script in the turn at a point. -/
def eventsAt (setup : Setup) (n : Point) : List CallEvent :=
  match n.2.station with
  | .atWork runs (i :: _) => eventsOfMove setup runs i n.1
  | _ => []

/-- What happens to the calls of a script, from the first turn to the last. -/
def events (setup : Setup) (trail : List Point) : List CallEvent :=
  trail.reverse.flatMap (eventsAt setup)

/-- The phase of a task fits what has happened to its call. -/
inductive TaskPhase.Fits (parentId : Option String) (events : List CallEvent) : TaskPhase → Prop
  | waiting : Fits parentId events .waiting
  | prepared {call : Call} (h : call.parentId = parentId) : Fits parentId events (.prepared call)
  | running {call : Call} {id : String} (h : Awaits events id call) :
    Fits parentId events (.running call (some id))
  | answered {call : Call} {id : String} {result : Except Fault String}
    (h : (some id, result) ∈ answeredIn events) :
    Fits parentId events (.answered call (some id) result)
  | done {result : Except Fault TaskResult} : Fits parentId events (.done result)

/-- The journal is kept at a station of a script whose own record has an id. -/
inductive Accounted (setup : Setup) (j : Journal setup.shop) (id : String) (events : List CallEvent)
    (w : World) : Station → Prop
  | before (h : j.Kept events [id] w) : Accounted setup j id events w .before
  | atWork {runs : List TaskRun} {made moves schedule : List Nat} {stage : Stage}
    (h : j.Kept events (id :: openIds runs) w)
    (hfits : ∀ r ∈ runs, r.phase.Fits (some id) events)
    (hmoved : MovedBy setup.workers made (untouched stage) runs)
    (hmoves : made ++ moves = schedule ++ inOrder stage.length) :
    Accounted setup j id events w (.atWork runs moves)

/-- The journal is kept behind a turn of a script: at the station that it leads to, or with only the
script's own record open. -/
def KeptBehind (setup : Setup) (j : Journal setup.shop) (id : String) (events : List CallEvent)
    (w : World) : Except Fault Turn → Prop
  | .ok (.next s) => s.parentId = some id ∧ Accounted setup j id events w s.station
  | .ok (.done _) => j.Kept events [id] w
  | .error _ => j.Kept events [id] w

variable {shop : Workshop} {j : Journal shop} {id : String} {evs : List CallEvent} {setup : Setup}
  {plan : Plan} {w w' w₀ : World} {s : State} {n : Point} {trail : List Point} {t : Task}
  {earlier later : List TaskRun} {r : TaskRun} {phase phase' : TaskPhase}
  {parentId : Option String}

/-! ### Open records -/

theorem openIds_append_cons (earlier later : List TaskRun) (r : TaskRun) :
    openIds (earlier ++ r :: later) =
      openIds earlier ++ (r.phase.openId?.toList ++ openIds later) := by
  unfold openIds
  rw [List.filterMap_append, List.filterMap_cons]
  cases r.phase.openId? <;> rfl

/-- The open record of a task may be put first. -/
theorem perm_openIds (earlier later : List TaskRun) (r : TaskRun) (id : String) :
    (id :: openIds (earlier ++ r :: later)).Perm
      (r.phase.openId?.toList ++ id :: (openIds earlier ++ openIds later)) := by
  rw [openIds_append_cons]
  refine (List.Perm.cons id ?_).trans List.perm_middle.symm
  rw [← List.append_assoc, ← List.append_assoc]
  exact List.perm_append_comm.append_right _

theorem openIds_of_done {runs : List TaskRun} (h : ∀ r ∈ runs, r.phase.movesLeft = 0) :
    openIds runs = [] := by
  refine List.filterMap_eq_nil_iff.mpr fun r hr => ?_
  have hzero := h r hr
  cases hp : r.phase <;> rw [hp] at hzero <;> first | rfl | cases hzero

theorem openIds_untouched (stage : Stage) : openIds (untouched stage) = [] := by
  refine List.filterMap_eq_nil_iff.mpr fun r hr => ?_
  obtain ⟨t, -, rfl⟩ := List.mem_map.mp hr
  rfl

/-! ### Phases that fit -/

theorem TaskPhase.Fits.of_begun (h : phase.Fits parentId evs) (runId : Option String)
    (call : Call) : phase.Fits parentId (evs ++ [.begun runId call]) := by
  cases h with
  | waiting => exact .waiting
  | prepared h => exact .prepared h
  | running h =>
    refine .running ⟨?_, ?_⟩
    · rw [begunIn_concat_begun]
      exact List.mem_append_left _ h.begun
    · rw [answeredIn_concat_begun]
      exact h.notAnswered
  | answered h =>
    refine .answered ?_
    rw [answeredIn_concat_begun]
    exact h
  | done => exact .done

/-- The answer to another call changes nothing. -/
theorem TaskPhase.Fits.of_answered {answered : String} (h : phase.Fits parentId evs)
    (hne : phase.openId? ≠ some answered) (result : Except Fault String) :
    phase.Fits parentId (evs ++ [.answered (some answered) result]) := by
  cases h with
  | waiting => exact .waiting
  | prepared h => exact .prepared h
  | running h =>
    refine .running ⟨?_, ?_⟩
    · rw [begunIn_concat_answered]
      exact h.begun
    · rw [answeredIn_concat_answered, List.map_append]
      intro hmem
      rcases List.mem_append.mp hmem with hmem | hmem
      · exact h.notAnswered hmem
      · exact hne (List.mem_singleton.mp hmem)
  | answered h =>
    refine .answered ?_
    rw [answeredIn_concat_answered]
    exact List.mem_append_left _ h
  | done => exact .done

/-! ### Moves -/

theorem parentId_of_prepareTask {name request identity : String} {inputFiles : List String}
    {call : Call}
    (h : (shop.prepareTask name request inputFiles identity parentId).exec w = (.ok call, w')) :
    call.parentId = parentId := by
  unfold Workshop.prepareTask at h
  obtain ⟨_, _, -, h⟩ := exec_bind_eq_ok_iff.mp h
  obtain ⟨_, _, -, h⟩ := exec_bind_eq_ok_iff.mp h
  cases h
  rfl

theorem events_waiting (shop : Workshop) (w : World) : TaskPhase.waiting.events shop w = [] := rfl

theorem events_answered (shop : Workshop) (call : Call) (runId : Option String)
    (result : Except Fault String) (w : World) :
    (TaskPhase.answered call runId result).events shop w = [] := rfl

theorem events_of_enter {call : Call} {runId : Option String}
    (h : (shop.enter call).exec w = (.ok runId, w')) :
    (TaskPhase.prepared call).events shop w = [.begun runId call] := by
  rw [TaskPhase.events, h]

theorem events_of_enter_fault {call : Call} {e : Fault}
    (h : (shop.enter call).exec w = (.error e, w')) :
    (TaskPhase.prepared call).events shop w = [] := by
  rw [TaskPhase.events, h]

theorem events_cons (setup : Setup) (n : Point) (trail : List Point) :
    events setup (n :: trail) = events setup trail ++ eventsAt setup n := by
  unfold events
  rw [List.reverse_cons, List.flatMap_append, List.flatMap_singleton]

theorem eventsAt_before (setup : Setup) (w : World) (number : Nat) (results : List TaskResult)
    (ahead : List Stage) : eventsAt setup (w, ⟨parentId, number, results, .before, ahead⟩) = [] :=
  rfl

theorem eventsAt_leaving (setup : Setup) (w : World) (number : Nat) (results : List TaskResult)
    (runs : List TaskRun) (ahead : List Stage) :
    eventsAt setup (w, ⟨parentId, number, results, .atWork runs [], ahead⟩) = [] := rfl

theorem eventsOfMove_append
    (h : mayMove setup.workers (earlier ++ r :: later) earlier.length = true) (w : World) :
    eventsOfMove setup (earlier ++ r :: later) earlier.length w = r.phase.events setup.shop w := by
  unfold eventsOfMove
  rw [if_pos h, List.getElem?_append_right (Nat.le_refl _), Nat.sub_self, List.getElem?_cons_zero]
  rfl

section

variable {others : List String}

/-- A move of a task leaves the phases of the others fitting. -/
theorem fits_of_moves {a : TaskRun} (h : j.Kept evs (phase.openId?.toList ++ id :: others) w)
    (hfits : phase.Fits (some id) evs) (hm : Moves shop (some id) t w phase phase' w')
    (ha : a.phase.Fits (some id) evs) (hothers : ∀ open' ∈ a.phase.openId?, open' ∈ others) :
    a.phase.Fits (some id) (evs ++ phase.events shop w) := by
  cases hm with
  | entered hx =>
    rw [events_of_enter hx]
    exact ha.of_begun _ _
  | refused hx => rwa [events_of_enter_fault hx, List.append_nil]
  | answered =>
    cases hfits with
    | @running call id' hawaits =>
      -- The open records are different ones, so the answer is to no other call.
      refine ha.of_answered (fun hopen => ?_) _
      have hnew := (List.nodup_cons.mp h.nodup).1
      exact hnew (List.mem_cons_of_mem _ (hothers id' hopen))
  | prepared | unprepared => rwa [events_waiting, List.append_nil]
  | finished => rwa [events_answered, List.append_nil]

variable (hparent : j.parent.map (·.runId) = some id)
include hparent

/-- A move of a task keeps the journal, with the record of the task before the others that are
open, and leaves a phase that fits. -/
theorem kept_of_moves (h : j.Kept evs (phase.openId?.toList ++ id :: others) w)
    (hfits : phase.Fits (some id) evs) (hproper : ∀ e ∈ evs ++ phase.events shop w, e.Proper)
    (hm : Moves shop (some id) t w phase phase' w') :
    j.Kept (evs ++ phase.events shop w) (phase'.openId?.toList ++ id :: others) w' ∧
      phase'.Fits (some id) (evs ++ phase.events shop w) := by
  cases hm with
  | prepared hx =>
    have hkept := shop.keeps_prepareTask Journal.logFree_kept t.name t.argument t.inputFiles t.name
      (some id) w h
    rw [hx] at hkept
    rw [events_waiting, List.append_nil]
    exact ⟨hkept, .prepared (parentId_of_prepareTask hx)⟩
  | unprepared hx =>
    have hkept := shop.keeps_prepareTask Journal.logFree_kept t.name t.argument t.inputFiles t.name
      (some id) w h
    rw [hx] at hkept
    rw [events_waiting, List.append_nil]
    exact ⟨Journal.logFree_kept _ _ hkept, .done⟩
  | @entered call runId _ hx =>
    rw [events_of_enter hx] at hproper ⊢
    obtain ⟨-, hbegun⟩ := List.forall_mem_append.mp hproper
    have hcall : call.parentId = j.parent.map (·.runId) := by
      cases hfits with
      | prepared h => rw [h, hparent]
    obtain ⟨id', rfl, hawaits, hkept⟩ :=
      h.of_enter (hbegun _ (List.mem_singleton_self _)) hcall hx
    exact ⟨hkept, .running hawaits⟩
  | refused hx =>
    rw [events_of_enter_fault hx, List.append_nil]
    exact ⟨Journal.logFree_kept _ _ (h.of_enter_fault hx), .done⟩
  | answered =>
    cases hfits with
    | running hawaits =>
      exact ⟨h.of_answer hawaits, .answered (mem_answeredIn_concat _ _ _)⟩
  | finished hx =>
    rw [events_answered, List.append_nil] at hproper ⊢
    cases hfits with
    | answered hmem =>
      obtain ⟨w₁, hx', hkept⟩ := h.of_finish _ hmem (hproper _ (mem_of_answeredIn hmem))
      rw [hx'] at hx
      subst hx
      exact ⟨Journal.logFree_kept _ _ hkept, .done⟩

end

/-! ### Turns -/

section

variable {j : Journal setup.shop}

/-- A stage that has begun has all its moves ahead. -/
theorem Accounted.of_stage (h : j.Kept evs [id] w) (schedule : List Nat) (stage : Stage) :
    Accounted setup j id evs w
      (.atWork (untouched stage) (schedule ++ inOrder stage.length)) := by
  refine .atWork ?_ ?_ (.nil _) (List.nil_append _)
  · rwa [openIds_untouched]
  · intro r hr
    obtain ⟨t, -, rfl⟩ := List.mem_map.mp hr
    exact .waiting

variable (hparent : j.parent.map (·.runId) = some id)
include hparent

/-- A move at a position keeps the journal. -/
theorem Accounted.of_moveAt {runs runs' : List TaskRun} {i : Nat} {moves : List Nat}
    (h : Accounted setup j id evs w (.atWork runs (i :: moves)))
    (hproper : ∀ e ∈ evs ++ eventsOfMove setup runs i w, e.Proper)
    (hx : (moveAt setup.shop (some id) setup.workers runs i).exec w = (.ok runs', w')) :
    Accounted setup j id (evs ++ eventsOfMove setup runs i w) w' (.atWork runs' moves) := by
  cases h with
  | @atWork _ made _ schedule stage h hfits hmoved hmoves =>
    rw [List.append_cons] at hmoves
    rcases exec_moveAt_cases setup.shop (some id) setup.workers i runs w with
      ⟨hmay, hsame⟩ | ⟨earlier, r, later, phase, w₁, rfl, rfl, hmay, hm, hmove⟩
    · cases hsame.symm.trans hx
      have hnone : eventsOfMove setup runs i w = [] := by
        unfold eventsOfMove
        rw [hmay, if_neg Bool.false_ne_true]
      rw [hnone, List.append_nil]
      exact .atWork h hfits (hmoved.append (.stayed hmay (.nil _))) hmoves
    · cases hmove.symm.trans hx
      rw [eventsOfMove_append hmay] at hproper ⊢
      have hmem : r ∈ earlier ++ r :: later := List.mem_append_right _ (List.mem_cons_self ..)
      have hfirst := h.perm (perm_openIds earlier later r id).symm
      obtain ⟨hkept, hfitting⟩ :=
        kept_of_moves hparent hfirst (hfits r hmem) hproper hm
      -- The others stay where they are, and their phases fit one more event.
      have hothers : ∀ a : TaskRun, a ∈ earlier ∨ a ∈ later →
          a.phase.Fits (some id) (evs ++ r.phase.events setup.shop w) := by
        intro a ha
        refine fits_of_moves hfirst (hfits r hmem) hm (hfits a ?_) fun open' hopen => ?_
        · exact List.mem_append.mpr (ha.imp_right (List.mem_cons_of_mem _))
        · exact List.mem_append.mpr (ha.imp (fun ha => List.mem_filterMap.mpr ⟨a, ha, hopen⟩)
            fun ha => List.mem_filterMap.mpr ⟨a, ha, hopen⟩)
      refine .atWork (hkept.perm (perm_openIds earlier later _ id)) (fun a ha => ?_)
        (hmoved.append (.moved hmay hm.movesLeft_lt (.nil _))) hmoves
      rcases List.mem_append.mp ha with ha | ha
      · exact hothers a (.inl ha)
      · rcases List.mem_cons.mp ha with rfl | ha
        · exact hfitting
        · exact hothers a (.inr ha)

omit hparent in
/-- When no moves are left, only the script's own record is open. -/
theorem Accounted.kept (hworkers : 0 < setup.workers) {runs : List TaskRun}
    (h : Accounted setup j id evs w (.atWork runs [])) : j.Kept evs [id] w := by
  cases h with
  | atWork h _ hmoved hmoves =>
    rw [List.append_nil] at hmoves
    subst hmoves
    rwa [openIds_of_done (hmoved.all_done hworkers)] at h

/-- A turn keeps the journal. -/
theorem Takes.keptBehind {x : Except Fault Turn} (ht : Takes setup w s x w')
    (hworkers : 0 < setup.workers) (hid : s.parentId = some id)
    (h : Accounted setup j id evs w s.station)
    (hproper : ∀ e ∈ evs ++ eventsAt setup (w, s), e.Proper) :
    KeptBehind setup j id (evs ++ eventsAt setup (w, s)) w' x := by
  cases ht with
  | completed =>
    rw [eventsAt_before, List.append_nil]
    cases h with
    | before h => exact h
  | cancelled =>
    rw [eventsAt_before, List.append_nil]
    cases h with
    | before h => exact Journal.logFree_kept _ _ h
  | begun =>
    rw [eventsAt_before, List.append_nil]
    cases h with
    | before h => exact ⟨hid, .of_stage (Journal.logFree_kept _ _ h) _ _⟩
  | moved hx =>
    obtain rfl : _ = some id := hid
    exact ⟨rfl, h.of_moveAt hparent hproper hx⟩
  | broken =>
    rw [eventsAt_leaving, List.append_nil]
    exact h.kept hworkers
  | left =>
    rw [eventsAt_leaving, List.append_nil]
    exact ⟨hid, .before (h.kept hworkers)⟩
  | ended =>
    rw [eventsAt_leaving, List.append_nil]
    exact Journal.logFree_kept _ _ (h.kept hworkers)

section

variable (hworkers : 0 < setup.workers)
  (hopening : ∀ parentId w, (opening setup).exec w₀ = (.ok parentId, w) →
    parentId = some id ∧ j.Kept [] [id] w)
include hworkers hopening

/-- Along a run the journal is kept. -/
theorem Trail.accounted (ht : Trail setup plan w₀ (n :: trail))
    (hproper : ∀ e ∈ events setup trail, e.Proper) :
    n.2.parentId = some id ∧ Accounted setup j id (events setup trail) n.1 n.2.station := by
  induction trail generalizing n with
  | nil =>
    cases ht with
    | start h =>
      obtain ⟨hid, hkept⟩ := hopening _ _ h
      exact ⟨hid, .before hkept⟩
  | cons m trail ih =>
    rw [events_cons] at hproper ⊢
    cases ht with
    | next ht h =>
      obtain ⟨hid, haccounted⟩ := ih ht (List.forall_mem_append.mp hproper).1
      exact (takes_of_turn h).keptBehind hparent hworkers hid haccounted hproper

theorem Trail.keptBehind {x : Except Fault Turn} (ht : Trail setup plan w₀ ((w, s) :: trail))
    (hproper : ∀ e ∈ events setup ((w, s) :: trail), e.Proper)
    (h : (turn setup plan.length s).exec w = (x, w')) :
    s.parentId = some id ∧ KeptBehind setup j id (events setup ((w, s) :: trail)) w' x := by
  rw [events_cons] at hproper ⊢
  obtain ⟨hid, haccounted⟩ := ht.accounted hparent hworkers hopening
    (List.forall_mem_append.mp hproper).1
  exact ⟨hid, (takes_of_turn h).keptBehind hparent hworkers hid haccounted hproper⟩

/-- However a script stops, the record of each call is finished and its own one is open. -/
theorem Stops.kept {ended : Except Fault Result} (h : Stops setup plan w₀ trail parentId ended w)
    (hproper : ∀ e ∈ events setup trail, e.Proper) :
    parentId = some id ∧ j.Kept (events setup trail) [id] w := by
  cases h with
  | done ht h => exact ht.keptBehind hparent hworkers hopening hproper h
  | failed ht h => exact ht.keptBehind hparent hworkers hopening hproper h

end

end

/-! ### The record of the script -/

/-- The record of a script that is opened in a world. -/
def openedRecord (w : World) : RunRecord :=
  Registry.started "orchestrate" "orchestration script" none w

section

variable {path : Path} {former : List RunRecord} (hown : setup.shop.OwnsRegistry path former w₀)
include hown

theorem opening_eq : opening setup = (do
    let parent ← Registry.start path "orchestrate" "orchestration script" none
    return some parent.runId) := by
  unfold opening
  rw [hown.registry_eq]

/-- A script that is opened has its own record open and no other one. -/
theorem kept_of_opening (h : (opening setup).exec w₀ = (.ok parentId, w)) :
    parentId = some (openedRecord w₀).runId ∧
      (hown.journal (some (openedRecord w₀))).Kept [] [(openedRecord w₀).runId] w := by
  rw [opening_eq hown] at h
  obtain ⟨r, w₁, hstart, h⟩ := exec_bind_eq_ok_iff.mp h
  cases h
  have hproper : (openedRecord w₀).Proper :=
    Registry.proper_started (by decide) (by decide) (fun s hs => by cases hs) w₀
  obtain ⟨rfl, hb, s, rfl⟩ := (Registry.booked_nil hown.holds hown.fresh).opened hproper hstart
  exact ⟨rfl, [], rfl, hb, ⟨(List.append_nil _).symm, rfl, List.forall_mem_nil _, .nil⟩,
    List.forall_mem_nil _⟩

/-- A script that cannot be opened leaves the registry as it is and calls no agent. -/
theorem holds_of_opening_fault {e : Fault} (h : (opening setup).exec w₀ = (.error e, w)) :
    Registry.Holds path w former ∧ w.calls = w₀.calls := by
  rw [opening_eq hown, exec_bind] at h
  split at h
  · cases h
  · next hstart =>
    cases h
    obtain ⟨hholds, s, n, -, rfl⟩ := hown.holds.of_start_fault hstart
    exact ⟨hholds, rfl⟩

end

/-- A script is closed with the record of each call finished, and its own one tells how it ended. -/
theorem exec_closing_of_kept {j : Journal setup.shop} {parent : RunRecord}
    (hparent : j.parent = some parent) (h : j.Kept evs [parent.runId] w)
    (ended : Except Fault Result) :
    ∃ w', (closing setup (some parent.runId) ended).exec w = (ended, w') ∧
      ((∀ s ∈ (closingState ended).2, LoneHalf.occursIn s = false) →
        ∃ time recs, OnRecord setup.shop j.path j.former
          (some (parent.ended (closingState ended).1 (closingState ended).2 time)) j.calls evs recs
          w') := by
  obtain ⟨recs, h⟩ := h
  have hknown : ∃ r ∈ j.former ++ (j.parent.toList ++ recs), r.runId = parent.runId := by
    obtain ⟨r, hr, hid⟩ := h.booked.listed _ (List.mem_singleton_self _)
    exact ⟨r, List.mem_append_right _ hr, hid⟩
  obtain ⟨_, r, store, -, hfinish, -⟩ := Registry.exec_finish_of_holds h.booked.holds hknown
    (closingState ended).1 (closingState ended).2
  have hclose : (recordClosing setup (some parent.runId) ended).exec w =
      (.ok (), { w with store := store }) := by
    unfold recordClosing
    rw [j.registry_eq]
    exact exec_bind_of_ok hfinish
  refine ⟨{ w with store := store }, ?_, fun hproper => ⟨w.now.offsetText, recs, ?_⟩⟩
  · unfold closing
    rw [exec_bind_of_ok hclose, exec_lift]
  obtain ⟨_, store', hfinish', hb⟩ := h.booked.closed (closingState ended).1 hproper
  obtain rfl : store' = store := congrArg (·.2.store) (hfinish'.symm.trans hfinish)
  exact h.onRecord_of_ended hparent rfl hb

/-! ### How a script ends -/

/-- How a script ends: it is completed, cancelled, or aborted by a failed task. -/
inductive Concludes : Outcome → Prop
  | completed : Concludes { status := .completed }
  | cancelled : Concludes cancelledOutcome
  | failed {reason : String} (h : reason ≠ cancelledReason) :
    Concludes { status := .aborted, reason := some reason }

theorem concludes_of_endedBy? {cancelled : Bool} {rs : List TaskResult} {o : Outcome}
    {failed : Option TaskResult} (h : endedBy? cancelled rs = (some o, failed)) : Concludes o := by
  unfold endedBy? at h
  split at h
  · cases h
    exact .cancelled
  · split at h
    · cases h
      refine .failed fun he => ?_
      -- The reason of a failure has a blank in it.
      have hblank := congrArg (' ' ∈ ·.toList) he
      simp [String.toList_append, cancelledReason, ToString.toString] at hblank
    · cases h

theorem concludes_of_turn {total : Nat} {r : Result}
    (h : (turn setup total s).exec w = (.ok (.done r), w')) : Concludes r.outcome := by
  cases takes_of_turn h with
  | completed => exact .completed
  | cancelled => exact .cancelled
  | ended _ he => exact concludes_of_endedBy? he

/-- The record of a script tells how the script ended. -/
structure Tells (r : RunRecord) (ended : Except Fault Result) : Prop where
  closed : r.endedAt.isSome = true
  notRunning : r.state ≠ .running
  completed_iff : r.state = .completed ↔
    ∃ result, ended = .ok result ∧ result.outcome.status = .completed
  cancelled_iff : r.state = .cancelled ↔
    ∃ result, ended = .ok result ∧ result.outcome = cancelledOutcome
  failed_iff : r.state = .failed ↔ (∃ e, ended = .error e) ∨
    ∃ result, ended = .ok result ∧ result.outcome.status = .aborted ∧
      result.outcome ≠ cancelledOutcome

theorem tells_ended {ended : Except Fault Result} (r : RunRecord)
    (h : ∀ result, ended = .ok result → Concludes result.outcome) (time : String) :
    Tells (r.ended (closingState ended).1 (closingState ended).2 time) ended := by
  have hclosed : ∀ state error, (r.ended state error time).endedAt.isSome = true := fun _ _ => rfl
  cases ended with
  | error e => refine ⟨hclosed _ _, ?_, ?_, ?_, ?_⟩ <;> simp [closingState, RunRecord.ended]
  | ok result =>
    obtain ⟨outcome, results⟩ := result
    have hconcludes : Concludes outcome := h _ rfl
    cases hconcludes with
    | completed =>
      refine ⟨hclosed _ _, ?_, ?_, ?_, ?_⟩ <;>
        simp [closingState, recordedState, RunRecord.ended, cancelledOutcome]
    | cancelled =>
      refine ⟨hclosed _ _, ?_, ?_, ?_, ?_⟩ <;>
        simp [closingState, recordedState, RunRecord.ended, cancelledOutcome]
    | failed hne =>
      refine ⟨hclosed _ _, ?_, ?_, ?_, ?_⟩ <;>
        simp [closingState, recordedState, RunRecord.ended, cancelledOutcome, hne]

theorem Stops.concludes {ended : Except Fault Result} {result : Result}
    (h : Stops setup plan w₀ trail parentId ended w) (he : ended = .ok result) :
    Concludes result.outcome := by
  cases h with
  | done _ h =>
    cases he
    exact concludes_of_turn h
  | failed => cases he

end Conductor.Script
