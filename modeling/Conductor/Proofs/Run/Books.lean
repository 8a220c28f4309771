import Conductor.Proofs.Run.Failure
import Conductor.Proofs.State.Holding

/-!
# Calls and their records

What happens to the calls of a run is a list of events: a call begins, or its agent answers
(`CallEvent`).  A journal is what was there before the run made its calls; it is kept up to some
events (`Journal.Kept`) while the registry has one record for each call that has begun, in their
order, and each record that is no longer pending tells the answer to its call (`RunRecord.Tells`).

Main statements: a call that begins, is answered and is finished keeps the journal
(`Kept.of_enter`, `Kept.of_answer`, `Kept.of_finish`), and one that is refused leaves it as it is
(`Kept.of_enter_fault`).
-/

namespace Conductor

open Act Text

/-- What happens to a call: it begins, or its agent answers. -/
inductive CallEvent where
  | begun (runId : Option String) (call : Call)
  | answered (runId : Option String) (result : Except Fault String)

namespace CallEvent

/-- The call that begins, and the id of its record. -/
def begun? : CallEvent → Option (Option String × Call)
  | begun runId call => some (runId, call)
  | answered .. => none

/-- The answer, and the id of its call's record. -/
def answered? : CallEvent → Option (Option String × Except Fault String)
  | begun .. => none
  | answered runId result => some (runId, result)

/-- The texts that are put on record are proper ones. -/
def Proper : CallEvent → Prop
  | begun _ call =>
    LoneHalf.occursIn call.identity = false ∧ LoneHalf.occursIn call.displayName = false
  | answered _ result => ∀ s ∈ (Workshop.verdictOf result).2, LoneHalf.occursIn s = false

end CallEvent

/-- The calls that have begun. -/
def begunIn (events : List CallEvent) : List (Option String × Call) :=
  events.filterMap CallEvent.begun?

/-- The answers that were given. -/
def answeredIn (events : List CallEvent) : List (Option String × Except Fault String) :=
  events.filterMap CallEvent.answered?

/-- The call of a record has begun and has not been answered. -/
structure Awaits (events : List CallEvent) (id : String) (call : Call) : Prop where
  begun : (some id, call) ∈ begunIn events
  notAnswered : some id ∉ (answeredIn events).map (·.1)

/-- The record of a call tells how its agent answered. -/
structure RunRecord.Tells (r : RunRecord) (result : Except Fault String) : Prop where
  ended : r.endedAt.isSome = true
  notRunning : r.state ≠ .running
  completed_iff : r.state = .completed ↔ ∃ text, result = .ok text
  cancelled_iff : r.state = .cancelled ↔ ∃ c, result = .error (.cancelled c)
  failed_iff : r.state = .failed ↔ ∃ e, result = .error e ∧ ∀ c, e ≠ .cancelled c

/-- The engine leaves the file at a path as it is. -/
def Workshop.Spares (shop : Workshop) (cwd path : Path) : Prop :=
  ∀ w call bytes, w.cwd = cwd → w.store.readBytes w.cwd path = .ok bytes →
    (shop.engine w call).store.readBytes w.cwd path = .ok bytes

/-- The registry at a path is that of one run alone: it holds the former records, whose ids no run
to come will get, and the engine leaves its file as it is. -/
structure Workshop.OwnsRegistry (shop : Workshop) (path : Path) (former : List RunRecord)
    (w : World) : Prop where
  registry_eq : shop.registry = some path
  holds : Registry.Holds path w former
  fresh : Registry.Fresh former w
  spares : shop.Spares w.cwd path

/-- What was there before a run made its calls: the records of its registry, which the engine leaves
alone, the record of the run itself, if it has one, and the calls made before. -/
structure Journal (shop : Workshop) where
  cwd : Path
  path : Path
  former : List RunRecord
  parent : Option RunRecord
  calls : List Invocation
  registry_eq : shop.registry = some path
  spares : shop.Spares cwd path

/-- The journal of a run that has its registry for itself, with the run's own record. -/
def Workshop.OwnsRegistry.journal {shop : Workshop} {path : Path} {former : List RunRecord}
    {w : World} (h : shop.OwnsRegistry path former w) (parent : Option RunRecord) : Journal shop :=
  { h with cwd := w.cwd, path := path, former := former, parent := parent, calls := w.calls.toList }

/-- There is one record for each call that has begun, in their order, all with the same parent, and
the answers were given to such calls. -/
structure ListsCalls (shop : Workshop) (parentId : Option String) (before : List Invocation)
    (events : List CallEvent) (recs : List RunRecord) (w : World) : Prop where
  calls : w.calls.toList = before ++ (begunIn events).map (·.2.invocation)
  keys : recs.map (fun r => (some r.runId, r.agentId, r.name, r.parentId)) =
    (begunIn events).map fun b => (b.1, b.2.identity, b.2.displayName, parentId)
  given : ∀ a ∈ answeredIn events, ∃ call w, (a.1, call) ∈ begunIn events ∧
    a.2 = (shop.engine w call.invocation).result
  /-- No call is answered twice. -/
  once : ((answeredIn events).map (·.1)).Nodup

/-- The registry has a record of each call that has begun, and those that are not pending tell the
answers. -/
structure Journal.Tallies {shop : Workshop} (j : Journal shop) (events : List CallEvent)
    (recs : List RunRecord) (pending : List String) (w : World) : Prop where
  cwd_eq : w.cwd = j.cwd
  booked : Registry.Booked j.path j.former (j.parent.toList ++ recs) pending w
  lists : ListsCalls shop (j.parent.map (·.runId)) j.calls events recs w
  tells : ∀ r ∈ recs, r.runId ∈ pending ∨
    ∃ result, (some r.runId, result) ∈ answeredIn events ∧ r.Tells result

/-- The journal is kept up to some events, with some runs still pending. -/
def Journal.Kept {shop : Workshop} (j : Journal shop) (events : List CallEvent)
    (pending : List String) (w : World) : Prop :=
  ∃ recs, j.Tallies events recs pending w

/-- What a run has left on record: behind the former records its own one, if it has one, and a
record of each of its calls, which tells how the call was answered. -/
structure OnRecord (shop : Workshop) (path : Path) (former : List RunRecord)
    (parent : Option RunRecord) (before : List Invocation) (events : List CallEvent)
    (recs : List RunRecord) (w : World) : Prop where
  holds : Registry.Holds path w (former ++ (parent.toList ++ recs))
  apart : ∀ r ∈ former, ∀ a ∈ parent.toList ++ recs, r.runId ≠ a.runId
  nodup : ((parent.toList ++ recs).map (·.runId)).Nodup
  lists : ListsCalls shop (parent.map (·.runId)) before events recs w
  tells : ∀ r ∈ recs, ∃ result, (some r.runId, result) ∈ answeredIn events ∧ r.Tells result

variable {shop : Workshop} {j : Journal shop} {events : List CallEvent} {recs : List RunRecord}
  {pending : List String} {w w' : World} {call : Call} {runId : Option String} {id : String}
  {result : Except Fault String}

theorem begunIn_concat_begun (events : List CallEvent) (runId : Option String) (call : Call) :
    begunIn (events ++ [.begun runId call]) = begunIn events ++ [(runId, call)] :=
  List.filterMap_append

theorem begunIn_concat_answered (events : List CallEvent) (runId : Option String)
    (result : Except Fault String) :
    begunIn (events ++ [.answered runId result]) = begunIn events :=
  List.filterMap_append.trans (List.append_nil _)

theorem answeredIn_concat_begun (events : List CallEvent) (runId : Option String) (call : Call) :
    answeredIn (events ++ [.begun runId call]) = answeredIn events :=
  List.filterMap_append.trans (List.append_nil _)

theorem answeredIn_concat_answered (events : List CallEvent) (runId : Option String)
    (result : Except Fault String) :
    answeredIn (events ++ [.answered runId result]) = answeredIn events ++ [(runId, result)] :=
  List.filterMap_append

theorem mem_answeredIn_concat (events : List CallEvent) (runId : Option String)
    (result : Except Fault String) :
    (runId, result) ∈ answeredIn (events ++ [.answered runId result]) := by
  rw [answeredIn_concat_answered]
  exact List.mem_append_right _ (List.mem_singleton_self _)

theorem mem_of_answeredIn (h : (runId, result) ∈ answeredIn events) :
    CallEvent.answered runId result ∈ events := by
  obtain ⟨e, he, hanswered⟩ := List.mem_filterMap.mp h
  cases e with
  | begun => cases hanswered
  | answered =>
    cases hanswered
    exact he

/-- A run ends in the record of its call as its agent has answered. -/
theorem RunRecord.tells_ended (r : RunRecord) (result : Except Fault String) (time : String) :
    (r.ended (Workshop.verdictOf result).1 (Workshop.verdictOf result).2 time).Tells result := by
  have hended : ∀ state error, (r.ended state error time).endedAt.isSome = true := fun _ _ => rfl
  unfold Workshop.verdictOf
  split <;> refine ⟨hended _ _, ?_, ?_, ?_, ?_⟩ <;> simp_all [RunRecord.ended]

namespace ListsCalls

variable {parentId : Option String} {before : List Invocation}

/-- The records go by the ids under which the calls have begun. -/
theorem map_fst (h : ListsCalls shop parentId before events recs w) :
    (begunIn events).map (·.1) = recs.map fun r => some r.runId := by
  have hkeys := congrArg (List.map Prod.fst) h.keys
  rw [List.map_map, List.map_map] at hkeys
  exact hkeys.symm

/-- A call that has been answered had begun. -/
theorem begun {a : Option String × Except Fault String}
    (h : ListsCalls shop parentId before events recs w) (ha : a ∈ answeredIn events) :
    a.1 ∈ (begunIn events).map (·.1) := by
  obtain ⟨call, _, hmem, -⟩ := h.given a ha
  exact List.mem_map_of_mem (f := Prod.fst) hmem

theorem congr (h : ListsCalls shop parentId before events recs w) (hcalls : w'.calls = w.calls) :
    ListsCalls shop parentId before events recs w' where
  calls := by rw [hcalls, h.calls]
  keys := h.keys
  given := h.given
  once := h.once

/-- A call that begins is listed under a new id. -/
theorem of_begun {r : RunRecord} (h : ListsCalls shop parentId before events recs w)
    (hr : r.agentId = call.identity ∧ r.name = call.displayName ∧ r.parentId = parentId)
    (hcalls : w'.calls = w.calls.push call.invocation) :
    ListsCalls shop parentId before (events ++ [.begun (some r.runId) call]) (recs ++ [r]) w' where
  calls := by
    rw [begunIn_concat_begun, List.map_append, ← List.append_assoc, ← h.calls, hcalls]
    exact Array.toList_push
  keys := by
    obtain ⟨hagent, hname, hparent⟩ := hr
    rw [begunIn_concat_begun, List.map_append, List.map_append, h.keys, List.map_singleton,
      List.map_singleton, hagent, hname, hparent]
  given a ha := by
    rw [answeredIn_concat_begun] at ha
    obtain ⟨call', w', hmem, hresult⟩ := h.given a ha
    rw [begunIn_concat_begun]
    exact ⟨call', w', List.mem_append_left _ hmem, hresult⟩
  once := by
    rw [answeredIn_concat_begun]
    exact h.once

/-- A call that begins under a new id awaits its answer. -/
theorem awaits (h : ListsCalls shop parentId before events recs w)
    (hnew : ∀ r ∈ recs, r.runId ≠ id) (call : Call) :
    Awaits (events ++ [.begun (some id) call]) id call := by
  refine ⟨?_, fun hmem => ?_⟩
  · rw [begunIn_concat_begun]
    exact List.mem_append_right _ (List.mem_singleton_self _)
  · rw [answeredIn_concat_begun] at hmem
    obtain ⟨a, ha, he⟩ := List.mem_map.mp hmem
    have hbegun := h.begun ha
    rw [h.map_fst, he] at hbegun
    obtain ⟨r, hr, hid⟩ := List.mem_map.mp hbegun
    exact hnew r hr (Option.some.inj hid)

/-- The answer to a call that awaits it is one more. -/
theorem of_answered (h : ListsCalls shop parentId before events recs w)
    (hawaits : Awaits events id call) (hcalls : w'.calls = w.calls) :
    ListsCalls shop parentId before
      (events ++ [.answered (some id) (shop.engine w call.invocation).result]) recs w' where
  calls := by rw [begunIn_concat_answered, hcalls, h.calls]
  keys := by rw [begunIn_concat_answered, h.keys]
  given a ha := by
    rw [answeredIn_concat_answered] at ha
    rw [begunIn_concat_answered]
    rcases List.mem_append.mp ha with ha | ha
    · exact h.given a ha
    · rw [List.mem_singleton.mp ha]
      exact ⟨call, w, hawaits.begun, rfl⟩
  once := by
    rw [answeredIn_concat_answered, List.map_append]
    refine List.nodup_append.mpr ⟨h.once, List.nodup_singleton _, ?_⟩
    rintro a ha b hb rfl
    rw [List.map_singleton, List.mem_singleton] at hb
    obtain rfl : a = some id := hb
    exact hawaits.notAnswered ha

/-- Nothing is listed of a record but its id, its agent, its name and its parent. -/
theorem of_map {f : RunRecord → RunRecord} (h : ListsCalls shop parentId before events recs w)
    (hf : ∀ r, (some (f r).runId, (f r).agentId, (f r).name, (f r).parentId) =
      (some r.runId, r.agentId, r.name, r.parentId)) :
    ListsCalls shop parentId before events (recs.map f) w where
  calls := h.calls
  keys := by
    rw [List.map_map, ← h.keys]
    exact List.map_congr_left fun r _ => hf r
  given := h.given
  once := h.once

end ListsCalls

namespace Journal

/-! ### What leaves the journal alone -/

theorem Kept.perm {pending' : List String} (h : j.Kept events pending w)
    (hp : pending'.Perm pending) : j.Kept events pending' w := by
  obtain ⟨recs, h⟩ := h
  exact ⟨recs, h.cwd_eq, h.booked.perm hp, h.lists,
    fun r hr => (h.tells r hr).imp_left hp.mem_iff.mpr⟩

/-- What keeps the books and the calls keeps the journal. -/
theorem Kept.congr (h : j.Kept events pending w) (hcwd : w'.cwd = w.cwd)
    (hcalls : w'.calls = w.calls)
    (hbooked : ∀ added, Registry.Booked j.path j.former added pending w →
      Registry.Booked j.path j.former added pending w') : j.Kept events pending w' := by
  obtain ⟨recs, h⟩ := h
  exact ⟨recs, hcwd.trans h.cwd_eq, hbooked _ h.booked, h.lists.congr hcalls, h.tells⟩

theorem Kept.of_files (h : j.Kept events pending w) (hstore : w'.store = w.store)
    (hcwd : w'.cwd = w.cwd) (hcalls : w'.calls = w.calls) (hnext : w'.nextRun = w.nextRun) :
    j.Kept events pending w' :=
  h.congr hcwd hcalls fun _ hb => hb.of_files hstore hcwd hnext

/-- Before the first call of a run that has no record of its own there is nothing to tell. -/
theorem kept_nil {path : Path} {former : List RunRecord} (h : shop.OwnsRegistry path former w) :
    (h.journal none).Kept [] [] w :=
  ⟨[], rfl, Registry.booked_nil h.holds h.fresh,
    ⟨(List.append_nil _).symm, rfl, List.forall_mem_nil _, .nil⟩, List.forall_mem_nil _⟩

/-- Where no record is pending each tells an answer. -/
theorem Tallies.onRecord (h : j.Tallies events recs [] w) :
    OnRecord shop j.path j.former j.parent j.calls events recs w where
  holds := h.booked.holds
  apart := h.booked.apart
  nodup := h.booked.nodup
  lists := h.lists
  tells r hr := (h.tells r hr).resolve_left (List.not_mem_nil)

theorem Kept.nodup (h : j.Kept events pending w) : pending.Nodup := by
  obtain ⟨recs, h⟩ := h
  exact h.booked.once

theorem logFree_kept : LogFree (j.Kept events pending) :=
  fun _ _ hw => hw.of_files rfl rfl rfl rfl

theorem Kept.ensureDirectory {dir : Path} {s : Store} (h : j.Kept events pending w)
    (hs : w.store.ensureDirectory w.cwd dir = .ok s) :
    j.Kept events pending { w with store := s } :=
  h.congr rfl rfl fun _ hb => hb.ensureDirectory hs

theorem Kept.writeText {other : Path} {text : String} {s : Store} (h : j.Kept events pending w)
    (hs : w.store.writeText w.cwd other text = .ok s)
    (hne : Path.resolve j.cwd other ≠ Path.resolve j.cwd j.path) :
    j.Kept events pending { w with store := s } := by
  have hcwd : w.cwd = j.cwd := by
    obtain ⟨recs, h⟩ := h
    exact h.cwd_eq
  rw [← hcwd] at hne
  exact h.congr rfl rfl fun _ hb => hb.writeText hs hne

/-! ### A call begins -/

theorem recordStart_eq (j : Journal shop) (call : Call) :
    shop.recordStart call = (do
      let r ← Registry.start j.path call.identity call.displayName call.parentId
      pure (some r.runId)) := by
  unfold Workshop.recordStart
  rw [j.registry_eq]

/-- The record of the run itself goes by a proper id. -/
theorem Tallies.occursIn_parent (h : j.Tallies events recs pending w) :
    ∀ s ∈ j.parent.map (·.runId), LoneHalf.occursIn s = false := by
  intro s hs
  obtain ⟨parent, hmem, rfl⟩ := Option.map_eq_some_iff.mp hs
  refine (h.booked.holds.proper parent ?_).runId
  exact List.mem_append_right _ (List.mem_append_left _ (Option.mem_toList.mpr hmem))

/-- A call that begins is put on record and is pending. -/
theorem Kept.of_enter (h : j.Kept events pending w)
    (hp : (CallEvent.begun runId call).Proper) (hparent : call.parentId = j.parent.map (·.runId))
    (hx : (shop.enter call).exec w = (.ok runId, w')) :
    ∃ id, runId = some id ∧ Awaits (events ++ [.begun runId call]) id call ∧
      j.Kept (events ++ [.begun runId call]) (id :: pending) w' := by
  obtain ⟨recs, h⟩ := h
  rw [Workshop.exec_enter] at hx
  split at hx
  · cases hx
  · rw [j.recordStart_eq] at hx
    obtain ⟨_, w₁, hstart, hx⟩ := exec_bind_eq_ok_iff.mp hx
    obtain ⟨r, w₂, hstart, hid⟩ := exec_bind_eq_ok_iff.mp hstart
    cases hid
    cases hx
    have hid : ∀ s ∈ call.parentId, LoneHalf.occursIn s = false := hparent ▸ h.occursIn_parent
    obtain ⟨hr, hb, s, rfl⟩ :=
      h.booked.opened (Registry.proper_started hp.1 hp.2 hid w) hstart
    -- Had the id been in use before, it would stand twice among those of the records.
    have hnew : ∀ a ∈ recs, a.runId ≠ r.runId := by
      have hnodup := hb.nodup
      rw [List.map_append, List.nodup_append] at hnodup
      exact fun a ha => hnodup.2.2 a.runId (List.mem_map_of_mem (List.mem_append_right _ ha))
        r.runId (List.mem_singleton_self _)
    rw [List.append_assoc] at hb
    refine ⟨r.runId, rfl, h.lists.awaits hnew call, recs ++ [r], h.cwd_eq,
      hb.of_files rfl rfl rfl, h.lists.of_begun ?_ rfl, ?_⟩
    · rw [hr]
      exact ⟨rfl, rfl, hparent⟩
    · rw [answeredIn_concat_begun]
      intro a ha
      rcases List.mem_append.mp ha with ha | ha
      · exact (h.tells a ha).imp_left (List.mem_cons_of_mem _)
      · rw [List.mem_singleton.mp ha]
        exact .inl (List.mem_cons_self ..)

/-- A call that is refused, or cannot be put on record, leaves the journal as it is. -/
theorem Kept.of_enter_fault {e : Fault} (h : j.Kept events pending w)
    (hx : (shop.enter call).exec w = (.error e, w')) : j.Kept events pending w' := by
  rw [Workshop.exec_enter] at hx
  split at hx
  · cases hx
    exact h
  · rw [j.recordStart_eq, exec_bind] at hx
    split at hx
    · cases hx
    · next hstart =>
      cases hx
      rw [exec_bind] at hstart
      split at hstart
      · cases hstart
      · next hstart' =>
        cases hstart
        have hframe : w'.cwd = w.cwd ∧ w'.calls = w.calls := by
          obtain ⟨recs, h⟩ := h
          obtain ⟨-, s, n, rfl⟩ := h.booked.of_start_fault hstart'
          exact ⟨rfl, rfl⟩
        exact h.congr hframe.1 hframe.2 fun _ hb => (hb.of_start_fault hstart').1

/-! ### A call is answered and finished -/

/-- An answer that leaves the file of the registry alone keeps the journal. -/
theorem Kept.of_answer (h : j.Kept events (id :: pending) w) (hawaits : Awaits events id call) :
    j.Kept (events ++ [.answered (some id) (shop.engine w call.invocation).result]) (id :: pending)
      (w.receive call.identity (shop.engine w call.invocation)) := by
  obtain ⟨recs, h⟩ := h
  -- A record is pending, so the file is there, and the engine leaves it as it is.
  have hfile := h.booked.inFile (List.cons_ne_nil _ _)
  have hkept := j.spares w call.invocation _ h.cwd_eq hfile.bytes
  refine ⟨recs, h.cwd_eq, ?_, h.lists.of_answered hawaits rfl, ?_⟩
  · have hfile' : Registry.InFile j.path (j.former ++ (j.parent.toList ++ recs))
        (w.receive call.identity (shop.engine w call.invocation)) :=
      hfile.congr rfl (hkept.trans hfile.bytes.symm)
    exact h.booked.congr (Registry.holds_of_inFile hfile') (fun _ => hfile') (Nat.le_refl _)
  · intro r hr
    rw [answeredIn_concat_answered]
    exact (h.tells r hr).imp_right fun ⟨result, hmem, ht⟩ =>
      ⟨result, List.mem_append_left _ hmem, ht⟩

/-- The record of the run itself is not that of a call. -/
theorem Tallies.map_parent {state : RunState} {error : Option String} {time : String}
    (h : j.Tallies events recs pending w) (hanswered : (some id, result) ∈ answeredIn events) :
    j.parent.toList.map (Registry.endedIf id state error time) = j.parent.toList := by
  have hlisted := h.lists.begun hanswered
  rw [h.lists.map_fst] at hlisted
  obtain ⟨a, ha, hid⟩ := List.mem_map.mp hlisted
  have hnodup := h.booked.nodup
  rw [List.map_append, List.nodup_append] at hnodup
  refine Registry.map_endedIf_of_not_mem fun hmem => ?_
  refine hnodup.2.2 id hmem a.runId (List.mem_map_of_mem ha) ?_
  exact (Option.some.inj hid).symm

/-- The tally of an answered call whose record is ended as the agent has answered. -/
theorem Tallies.of_ended {time : String} (h : j.Tallies events recs (id :: pending) w)
    (hanswered : (some id, result) ∈ answeredIn events) (hcwd : w'.cwd = w.cwd)
    (hcalls : w'.calls = w.calls)
    (hb : Registry.Booked j.path j.former ((j.parent.toList ++ recs).map (Registry.endedIf id
      (Workshop.verdictOf result).1 (Workshop.verdictOf result).2 time)) pending w') :
    j.Tallies events (recs.map (Registry.endedIf id (Workshop.verdictOf result).1
      (Workshop.verdictOf result).2 time)) pending w' where
  cwd_eq := hcwd.trans h.cwd_eq
  booked := by
    rw [List.map_append, h.map_parent hanswered] at hb
    exact hb
  lists := by
    refine (h.lists.of_map fun r => ?_).congr hcalls
    unfold Registry.endedIf
    split <;> rfl
  tells r hr := by
    obtain ⟨a, ha, rfl⟩ := List.mem_map.mp hr
    unfold Registry.endedIf
    split
    · next hid =>
      -- The record that is ended is that of the answered call.
      refine .inr ⟨result, ?_, a.tells_ended result time⟩
      show (some a.runId, result) ∈ _
      rw [hid]
      exact hanswered
    · next hne =>
      rcases h.tells a ha with hmem | ht
      · exact .inl ((List.mem_cons.mp hmem).resolve_left hne)
      · exact .inr ht

/-- When only the record of the run itself is pending, its end leaves each call on record. -/
theorem Tallies.onRecord_of_ended {parent : RunRecord} {state : RunState} {error : Option String}
    {time : String} (h : j.Tallies events recs [parent.runId] w) (hparent : j.parent = some parent)
    (hcalls : w'.calls = w.calls)
    (hb : Registry.Booked j.path j.former ((j.parent.toList ++ recs).map
      (Registry.endedIf parent.runId state error time)) [] w') :
    OnRecord shop j.path j.former (some (parent.ended state error time)) j.calls events recs w' := by
  have hnodup := h.booked.nodup
  have hlists := h.lists.congr hcalls
  rw [hparent] at hnodup hb hlists
  have hothers : parent.runId ∉ recs.map (·.runId) := (List.nodup_cons.mp hnodup).1
  rw [List.map_append, Registry.map_endedIf_of_not_mem hothers, Option.toList_some,
    List.map_singleton, Registry.endedIf, if_pos rfl] at hb
  refine ⟨hb.holds, hb.apart, hb.nodup, hlists, fun a ha => (h.tells a ha).resolve_left ?_⟩
  intro hmem
  exact hothers (List.mem_singleton.mp hmem ▸ List.mem_map_of_mem ha)

/-- A call that is finished tells its answer in its record. -/
theorem Kept.of_finish (call : Call) (h : j.Kept events (id :: pending) w)
    (hanswered : (some id, result) ∈ answeredIn events)
    (hp : (CallEvent.answered (some id) result).Proper) :
    ∃ w', (shop.finish call (some id) result).exec w = (Workshop.handOn call result, w') ∧
      j.Kept events pending w' := by
  obtain ⟨recs, h⟩ := h
  obtain ⟨r, s, hx, hb⟩ := h.booked.closed (Workshop.verdictOf result).1 hp
  have hend : (shop.recordEnd (some id) result).exec w = (.ok (), { w with store := s }) := by
    unfold Workshop.recordEnd
    rw [j.registry_eq]
    exact exec_bind_of_ok hx
  have hkept : j.Kept events pending { w with store := s } :=
    ⟨_, h.of_ended hanswered rfl rfl hb⟩
  rw [Workshop.finish_eq, exec_bind_of_ok hend, exec_bind, exec_lift]
  cases Workshop.handOn call result with
  | error e => exact ⟨_, rfl, hkept⟩
  | ok text => exact ⟨_, rfl, hkept.of_files rfl rfl rfl rfl⟩

end Journal

end Conductor
