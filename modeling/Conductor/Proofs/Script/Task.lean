import Conductor.Proofs.Run.Failure
import Conductor.Proofs.Script.Moving
import Conductor.Proofs.State.Registry
import Conductor.Run.Script

/-!
# What becomes of a task

A task reads a template and its input files, calls its agent with the prompt they make, and turns
the answer into a result.  Where the answer is decided by the name and the prompt, so is the result
by what was read (`resultOf`).

Main statement: while the files that tasks read stay as they are and nothing cancels (`Calm`), each
move of a task leads to the phase it has to (`Reaches`), at whatever time it is made and whatever
other tasks did before (`exec_move`).  The world may only change in what no task looks at
(`Steady`): the log, the calls, other files, and the registry, which holds on to the runs it lists.
-/

namespace Conductor.Script

open Act Text

/-! ### What a task reads and asks -/

/-- What a task reads: the template of its catalog entry, if it has one, and its input files. -/
structure Reads where
  template : Option (Except ReadFault String)
  inputs : List (String × Except ReadFault String)

/-- The catalog entry of a task's agent. -/
def entryOf (shop : Workshop) (t : Task) : Option Entry := shop.catalog.bind (·.findAny? t.name)

/-- The name under which a task's agent is shown. -/
def displayNameOf (shop : Workshop) (t : Task) : String :=
  (orElseText ((entryOf shop t).bind (·.name)) none).getD t.name

/-- What a task reads in a world. -/
def readsOf (shop : Workshop) (w : World) (t : Task) : Reads where
  template := (orElseText ((entryOf shop t).bind (·.promptPath)) none).map
    (shop.loader w shop.dir)
  inputs := t.inputFiles.map fun name =>
    (name, w.store.readText w.cwd (shop.dir / Path.ofString name))

/-- Every path that was read can name a file. -/
def Reads.Named (r : Reads) : Prop :=
  r.template ≠ some (.error .nul) ∧ ∀ p ∈ r.inputs, p.2 ≠ .error .nul

/-- The section of an input file; one that could not be read leaves a marker. -/
def sectionOf (name : String) : Except ReadFault String → String
  | .ok content => Prompt.loadedSection name content
  | .error e => Prompt.failedSection name e.message

/-- The sections of a task's input files in a world. -/
def sectionsOf (shop : Workshop) (w : World) (t : Task) : List String :=
  t.inputFiles.map fun name =>
    sectionOf name (w.store.readText w.cwd (shop.dir / Path.ofString name))

/-- The template, empty where there is none; one that could not be read fails the task. -/
def Reads.templateText (r : Reads) (name : String) : Except Fault String :=
  match r.template with
  | none => .ok ""
  | some (.ok text) => .ok text
  | some (.error e) => .error (.failed
      { message := s!"Failed to load prompt template for {name}: {e.message}",
        agentId := some name })

/-- The template that a task's catalog entry has in a world, empty where there is none, or how it
fails the task. -/
def templateOf (shop : Workshop) (w : World) (t : Task) : Except Fault String :=
  match orElseText ((entryOf shop t).bind (·.promptPath)) none with
  | none => .ok ""
  | some path =>
    match shop.loader w shop.dir path with
    | .ok text => .ok text
    | .error .nul => .error (.read .nul)
    | .error e => .error (.failed
        { message := s!"Failed to load prompt template for {t.name}: {e.message}",
          agentId := some t.name })

/-- The prompt of a task. -/
def promptOf (t : Task) (r : Reads) : Except Fault String :=
  (r.templateText t.name).map fun template =>
    Prompt.compose ("\n\n".intercalate (r.inputs.map fun p => sectionOf p.1 p.2)) template
      t.argument

/-- The call that asks a prompt of a task's agent. -/
def callOf (shop : Workshop) (parentId : Option String) (t : Task) (prompt : String) : Call where
  invocation := { agentId := t.name, prompt := prompt, workingDir := shop.dir,
                  model := (entryOf shop t).bind (·.model),
                  effort := ((entryOf shop t).bind (·.effort)).map Effort.word,
                  engine := (entryOf shop t).bind (·.engine), timeout := shop.timeout }
  displayName := displayNameOf shop t
  identity := textOr t.name t.name
  parentId := parentId

/-- What the agent of a name answers to a prompt. -/
abbrev Answers := String → String → Except Fault String

/-- How a task ends: its prompt cannot be made, or its agent answers. -/
def endOf (shop : Workshop) (answer : Answers) (t : Task) (r : Reads) : Except Fault String :=
  (promptOf t r).bind fun prompt =>
    Workshop.handOn (callOf shop none t prompt) (answer t.name prompt)

/-- The result of a task by how it ended. -/
def resultBy (t : Task) : Except Fault String → TaskResult
  | .ok text =>
    { name := t.name, success := true,
      output := (Output.keepTail text (t.tail.map fun n => (n : Int))).1,
      tailApplied := (Output.keepTail text (t.tail.map fun n => (n : Int))).2 }
  | .error (.cancelled f) =>
    { name := t.name, success := false, error := some f.message, cancelled := true }
  | .error f => { name := t.name, success := false, error := some f.message }

/-- The result that a task has to have in a world. -/
def resultOf (shop : Workshop) (answer : Answers) (w : World) (t : Task) : TaskResult :=
  resultBy t (endOf shop answer t (readsOf shop w t))

/-- The call that a task has to make in a world, if it makes one. -/
def invocationOf? (shop : Workshop) (w : World) (t : Task) : Option Invocation :=
  (promptOf t (readsOf shop w t)).toOption.map fun prompt => (callOf shop none t prompt).invocation

/-! ### A calm run -/

/-- The tasks read in one world what they read in another. -/
def Alike (shop : Workshop) (ts : List Task) (w₀ w : World) : Prop :=
  w.cwd = w₀.cwd ∧ ∀ t ∈ ts, readsOf shop w t = readsOf shop w₀ t

/-- Agents answer by their name and prompt alone, change no file that the tasks read, and nothing
cancels. -/
structure Calm (shop : Workshop) (answer : Answers) (ts : List Task) (w₀ : World) : Prop where
  cancelled : w₀.cancelled = false
  answers : ∀ w call, (shop.engine w call).result = answer call.agentId call.prompt
  quiet : ∀ w call, (shop.engine w call).cancels = false
  uncancelled : ∀ name prompt f, answer name prompt ≠ .error (.cancelled f)
  /-- Templates are read from files. -/
  loader : ∀ w w', w'.store = w.store → w'.cwd = w.cwd → shop.loader w' = shop.loader w
  files : ∀ w call, Alike shop ts w₀ w →
    Alike shop ts w₀ { w with store := (shop.engine w call).store }

/-- A registry can be kept at a path: it can be opened, is none of the files that the tasks read,
agents leave it alone, and what is put on record are proper texts. -/
structure Recordable (shop : Workshop) (answer : Answers) (ts : List Task) (w₀ : World)
    (path : Path) : Prop where
  opens : ∃ r, ((Registry.start path "orchestrate" "orchestration script" none).exec w₀).1 = .ok r
  directory : ∀ w s, Alike shop ts w₀ w → w.store.ensureDirectory w.cwd path.parent = .ok s →
    Alike shop ts w₀ { w with store := s }
  file : ∀ w text s, Alike shop ts w₀ w → w.store.writeText w.cwd path text = .ok s →
    Alike shop ts w₀ { w with store := s }
  engine : ∀ w call bytes, w.cwd = w₀.cwd → w.store.readBytes w.cwd path = .ok bytes →
    (shop.engine w call).store.readBytes w.cwd path = .ok bytes
  names : ∀ t ∈ ts, LoneHalf.occursIn t.name = false ∧
    LoneHalf.occursIn (displayNameOf shop t) = false
  errors : ∀ name prompt, ∀ e ∈ (Workshop.verdictOf (answer name prompt)).2,
    LoneHalf.occursIn e = false

/-- The world of a calm run, whose registry has records of some runs. -/
structure Steady (shop : Workshop) (ts : List Task) (w₀ : World) (ids : List String) (w : World) :
    Prop where
  alike : Alike shop ts w₀ w
  cancelled : w.cancelled = false
  registry : ∀ path ∈ shop.registry, Registry.Lists path ids w

variable {shop : Workshop} {answer : Answers} {ts : List Task} {w₀ w w' : World}
  {ids ids' : List String} {t : Task} {parentId runId : Option String} {prompt : String}

theorem fromFile_of_files (hstore : w'.store = w.store) (hcwd : w'.cwd = w.cwd) :
    Prompt.fromFile w' = Prompt.fromFile w := by
  unfold Prompt.fromFile
  rw [hstore, hcwd]

theorem Alike.of_files (h : Alike shop ts w₀ w) (hcalm : Calm shop answer ts w₀)
    (hstore : w'.store = w.store) (hcwd : w'.cwd = w.cwd) : Alike shop ts w₀ w' := by
  refine ⟨hcwd.trans h.1, fun t ht => ?_⟩
  rw [← h.2 t ht]
  unfold readsOf
  rw [hcalm.loader w w' hstore hcwd, hstore, hcwd]

/-- What is neither a file nor a cancellation does not matter. -/
theorem Steady.of_files (h : Steady shop ts w₀ ids w) (hcalm : Calm shop answer ts w₀)
    (hstore : w'.store = w.store) (hcwd : w'.cwd = w.cwd)
    (hcancelled : w'.cancelled = w.cancelled) :
    Steady shop ts w₀ ids w' where
  alike := h.alike.of_files hcalm hstore hcwd
  cancelled := hcancelled.trans h.cancelled
  registry path hp := (h.registry path hp).congr hcwd fun bytes hb => by rwa [hstore]

/-! ### Preparing -/

theorem exec_inputSection (dir : Path) (name : String) (w : World)
    (h : w.store.readText w.cwd (dir / Path.ofString name) ≠ .error .nul) :
    ∃ log, (Prompt.inputSection dir name).exec w =
      (.ok (sectionOf name (w.store.readText w.cwd (dir / Path.ofString name))),
        w.withLog log) := by
  unfold Prompt.inputSection Prompt.read
  rw [exec_bind_of_ok (exec_readText _ w)]
  rcases hr : w.store.readText w.cwd (dir / Path.ofString name) with e | content
  · cases e with
    | nul => exact absurd hr h
    | file e => exact ⟨_, rfl⟩
    | undecodable e => exact ⟨_, rfl⟩
  · exact ⟨w.log, rfl⟩

theorem exec_mapM_inputSection (dir : Path) (names : List String) (w : World)
    (h : ∀ name ∈ names, w.store.readText w.cwd (dir / Path.ofString name) ≠ .error .nul) :
    ∃ log, (names.mapM (Prompt.inputSection dir)).exec w =
      (.ok (names.map fun name =>
        sectionOf name (w.store.readText w.cwd (dir / Path.ofString name))), w.withLog log) := by
  induction names generalizing w with
  | nil => exact ⟨w.log, rfl⟩
  | cons name names ih =>
    obtain ⟨log, hfirst⟩ := exec_inputSection dir name w (h name (List.mem_cons_self ..))
    obtain ⟨log', hrest⟩ := ih (w.withLog log) fun n hn => h n (List.mem_cons_of_mem _ hn)
    refine ⟨log', ?_⟩
    rw [List.mapM_cons, exec_bind_of_ok hfirst, exec_bind_of_ok hrest]
    rfl

/-- Reading the template of a task touches nothing. -/
theorem exec_taskTemplate (shop : Workshop) (t : Task) (w : World) :
    (shop.taskTemplate t.name (entryOf shop t)).exec w = (templateOf shop w t, w) := by
  unfold Workshop.taskTemplate templateOf
  cases orElseText ((entryOf shop t).bind (·.promptPath)) none with
  | none => rfl
  | some path =>
    dsimp only
    unfold Workshop.loadTemplate
    rw [exec_bind, exec_get]
    dsimp only
    rcases shop.loader w shop.dir path with (e | text)
    · cases e <;> rfl
    · rfl

theorem templateOf_eq (h : (readsOf shop w t).template ≠ some (.error .nul)) :
    templateOf shop w t = (readsOf shop w t).templateText t.name := by
  unfold readsOf at h ⊢
  unfold templateOf Reads.templateText
  dsimp only at h ⊢
  cases hpath : orElseText ((entryOf shop t).bind (·.promptPath)) none with
  | none => rfl
  | some path =>
    rw [hpath, Option.map_some] at h
    rw [Option.map_some]
    dsimp only
    rcases hr : shop.loader w shop.dir path with (e | text)
    · cases e with
      | nul =>
        rw [hr] at h
        exact absurd rfl h
      | file e => rfl
      | undecodable e => rfl
    · rfl

/-- Where all its input files have paths that can name one, a task is prepared with what it reads,
and only its template can fail it. -/
theorem exec_prepareTask_of_inputs (shop : Workshop) (parentId : Option String) (w : World)
    (h : ∀ name ∈ t.inputFiles,
      w.store.readText w.cwd (shop.dir / Path.ofString name) ≠ .error .nul) :
    ∃ log, (shop.prepareTask t.name t.argument t.inputFiles t.name parentId).exec w =
      ((templateOf shop w t).map fun template => callOf shop parentId t
        (Prompt.compose ("\n\n".intercalate (sectionsOf shop w t)) template t.argument),
        w.withLog log) := by
  obtain ⟨log, hinputs⟩ := exec_mapM_inputSection shop.dir t.inputFiles w h
  unfold Workshop.prepareTask
  change ∃ log, ((shop.taskTemplate t.name (entryOf shop t)) >>= _).exec w = _
  rw [exec_bind, exec_taskTemplate]
  cases templateOf shop w t with
  | error e => exact ⟨w.log, rfl⟩
  | ok template =>
    refine ⟨log, ?_⟩
    dsimp only
    unfold Prompt.inputSections
    rw [bind_assoc, exec_bind_of_ok hinputs]
    rfl

theorem promptOf_eq (h : (readsOf shop w t).template ≠ some (.error .nul)) :
    promptOf t (readsOf shop w t) = (templateOf shop w t).map fun template =>
      Prompt.compose ("\n\n".intercalate (sectionsOf shop w t)) template t.argument := by
  have hsections : ((readsOf shop w t).inputs.map fun p => sectionOf p.1 p.2) =
      sectionsOf shop w t := List.map_map
  unfold promptOf
  rw [hsections, templateOf_eq h]

/-- A task is prepared with what it reads. -/
theorem exec_prepareTask (parentId : Option String) (w : World) (h : (readsOf shop w t).Named) :
    ∃ log, (shop.prepareTask t.name t.argument t.inputFiles t.name parentId).exec w =
      ((promptOf t (readsOf shop w t)).map (callOf shop parentId t), w.withLog log) := by
  have hinputs : ∀ name ∈ t.inputFiles,
      w.store.readText w.cwd (shop.dir / Path.ofString name) ≠ .error .nul :=
    fun name hname => h.2 (name, _) (List.mem_map.mpr ⟨name, hname, rfl⟩)
  obtain ⟨log, hx⟩ := exec_prepareTask_of_inputs shop parentId w hinputs
  refine ⟨log, ?_⟩
  rw [hx, promptOf_eq h.1]
  cases templateOf shop w t <;> simp only [Except.map]

/-! ### Calling -/

section

variable (hcalm : Calm shop answer ts w₀)
  (hrecordable : ∀ path ∈ shop.registry, Recordable shop answer ts w₀ path)
include hcalm hrecordable

/-- A call is put on record where a registry is kept. -/
theorem exec_recordStart (hw : Steady shop ts w₀ ids w) (ht : t ∈ ts)
    (hparent : ∀ id ∈ parentId, id ∈ ids) (prompt : String) :
    ∃ runId w', (shop.recordStart (callOf shop parentId t prompt)).exec w = (.ok runId, w') ∧
      Steady shop ts w₀ (runId.toList ++ ids) w' ∧ w'.calls = w.calls := by
  unfold Workshop.recordStart
  cases hr : shop.registry with
  | none =>
    refine ⟨none, w, rfl, ⟨hw.alike, hw.cancelled, fun path hp => ?_⟩, rfl⟩
    rw [hr] at hp
    cases hp
  | some path =>
    have hkept := hrecordable path hr
    have hlists := hw.registry path hr
    have hname : textOr t.name t.name = t.name := ite_self _
    have hproper : (Registry.started (callOf shop parentId t prompt).identity
        (callOf shop parentId t prompt).displayName parentId w).Proper := by
      refine Registry.proper_started ?_ (hkept.names t ht).2
        (fun id hid => hlists.occursIn_of_mem (hparent id hid)) w
      show LoneHalf.occursIn (textOr t.name t.name) = false
      rw [hname]
      exact (hkept.names t ht).1
    obtain ⟨text, s, hs, hstart, hlists'⟩ := Registry.exec_start_of_lists hlists hproper
    refine ⟨some (Registry.runId w.nextRun), _, exec_bind_of_ok hstart, ⟨?_, hw.cancelled, ?_⟩, rfl⟩
    · exact (hkept.file w text s hw.alike hs).of_files hcalm rfl rfl
    · intro path' hp'
      cases hr.symm.trans hp'
      exact hlists'

theorem exec_enter_task (hw : Steady shop ts w₀ ids w) (ht : t ∈ ts)
    (hparent : ∀ id ∈ parentId, id ∈ ids) (prompt : String) :
    ∃ runId w', (shop.enter (callOf shop parentId t prompt)).exec w = (.ok runId, w') ∧
      Steady shop ts w₀ (runId.toList ++ ids) w' ∧
      w'.calls = w.calls.push (callOf shop none t prompt).invocation := by
  obtain ⟨runId, w', hstart, hw', hcalls⟩ :=
    exec_recordStart hcalm hrecordable hw ht hparent prompt
  have henter := Workshop.exec_enter shop (callOf shop parentId t prompt) w
  rw [hw.cancelled, if_neg Bool.false_ne_true, exec_bind_of_ok hstart, exec_note_bind] at henter
  refine ⟨runId, _, henter, hw'.of_files hcalm rfl rfl rfl, ?_⟩
  show w'.calls.push _ = _
  rw [hcalls]
  rfl

/-- Agents answer by the prompt and change nothing that matters. -/
theorem exec_answer_task (parentId : Option String) (hw : Steady shop ts w₀ ids w) (t : Task)
    (prompt : String) :
    ∃ w', (shop.answer (callOf shop parentId t prompt)).exec w = (.ok (answer t.name prompt), w') ∧
      Steady shop ts w₀ ids w' ∧ w'.calls = w.calls := by
  have hfiles := hcalm.files w (callOf shop parentId t prompt).invocation hw.alike
  refine ⟨w.receive (callOf shop parentId t prompt).identity
    (shop.engine w (callOf shop parentId t prompt).invocation), ?_, ?_, rfl⟩
  · rw [Workshop.exec_answer, hcalm.answers]
    rfl
  · refine ⟨hfiles.of_files hcalm rfl rfl, ?_, fun path hp => ?_⟩
    · show (w.cancelled || _) = false
      rw [hw.cancelled, hcalm.quiet]
      rfl
    · exact (hw.registry path hp).congr rfl fun bytes hb =>
        (hrecordable path hp).engine w _ bytes hw.alike.1 hb

omit hcalm in
theorem exec_recordEnd (hw : Steady shop ts w₀ ids w) (hid : ∀ id ∈ runId, id ∈ ids)
    (name prompt : String) :
    ∃ w', (shop.recordEnd runId (answer name prompt)).exec w = (.ok (), w') ∧
      Steady shop ts w₀ ids w' ∧ w'.calls = w.calls := by
  unfold Workshop.recordEnd
  cases hr : shop.registry with
  | none => exact ⟨w, rfl, hw, rfl⟩
  | some path =>
    cases runId with
    | none => exact ⟨w, rfl, hw, rfl⟩
    | some id =>
      have hkept := hrecordable path hr
      obtain ⟨r, text, s, hs, hfinish, hlists⟩ := Registry.exec_finish_of_lists
        (hw.registry path hr) (hid id rfl) (Workshop.verdictOf (answer name prompt)).1
        (Workshop.verdictOf (answer name prompt)).2
      refine ⟨_, exec_bind_of_ok hfinish, ⟨hkept.file w text s hw.alike hs, hw.cancelled, ?_⟩, rfl⟩
      intro path' hp'
      cases hr.symm.trans hp'
      exact hlists (hkept.errors name prompt)

theorem exec_finish_task (parentId : Option String) (hw : Steady shop ts w₀ ids w)
    (hid : ∀ id ∈ runId, id ∈ ids) (t : Task) (prompt : String) :
    ∃ w', (shop.finish (callOf shop parentId t prompt) runId (answer t.name prompt)).exec w =
        (Workshop.handOn (callOf shop none t prompt) (answer t.name prompt), w') ∧
      Steady shop ts w₀ ids w' ∧ w'.calls = w.calls := by
  obtain ⟨w', hend, hw', hcalls⟩ := exec_recordEnd hrecordable hw hid t.name prompt
  have hsame : Workshop.handOn (callOf shop parentId t prompt) (answer t.name prompt) =
      Workshop.handOn (callOf shop none t prompt) (answer t.name prompt) := by
    cases answer t.name prompt <;> rfl
  rw [Workshop.finish_eq, exec_bind_of_ok hend, hsame, exec_bind, exec_lift]
  cases Workshop.handOn (callOf shop none t prompt) (answer t.name prompt) with
  | error e => exact ⟨w', rfl, hw', hcalls⟩
  | ok text => exact ⟨_, rfl, hw'.of_files hcalm rfl rfl rfl, hcalls⟩

end

/-! ### Settling -/

theorem isOwn_of_handOn {call : Call} {result : Except Fault String} {e : Fault}
    (h : Workshop.handOn call result = .error e) : e.isOwn = true := by
  cases result with
  | ok text => cases h
  | error f =>
    by_cases hown : f.isOwn = true
    · rw [Workshop.handOn, if_pos hown] at h
      cases h
      exact hown
    · rw [Workshop.handOn, if_neg hown] at h
      cases h
      rfl

theorem isOwn_of_promptOf {r : Reads} {e : Fault} (h : promptOf t r = .error e) :
    e.isOwn = true := by
  unfold promptOf Reads.templateText at h
  split at h
  · cases h
  · cases h
  · cases h
    rfl

/-- A task that ends in a text or in a fault of the program's own has a result. -/
theorem exec_settled (t : Task) (ended : Except Fault String) (w : World)
    (h : ∀ e, ended = .error e → e.isOwn = true) :
    ∃ log, (settled t ended).exec w = (.ok (.done (.ok (resultBy t ended))), w.withLog log) := by
  unfold settled settle
  cases ended with
  | ok text =>
    dsimp only [resultBy]
    rcases Output.keepTail text (t.tail.map fun n => (n : Int)) with ⟨output, applied⟩
    cases applied with
    | none => exact ⟨w.log, rfl⟩
    | some count => exact ⟨_, rfl⟩
  | error e =>
    refine ⟨w.log, ?_⟩
    have hown := h e rfl
    cases e <;> first | rfl | cases hown

/-! ### The moves of a task -/

/-- Whether the call of a task has begun, if it makes one. -/
def TaskPhase.hasCalled : TaskPhase → Bool
  | waiting => false
  | prepared _ => false
  | _ => true

/-- The call that a task has made. -/
def made? (shop : Workshop) (w₀ : World) (r : TaskRun) : Option Invocation :=
  if r.phase.hasCalled then invocationOf? shop w₀ r.task else none

/-- The phases that a task has to go through, its run being among some that have records. -/
inductive Reaches (shop : Workshop) (answer : Answers) (w₀ : World) (parentId : Option String)
    (ids : List String) (t : Task) : TaskPhase → Prop
  | waiting : Reaches shop answer w₀ parentId ids t .waiting
  | prepared {prompt : String} (h : promptOf t (readsOf shop w₀ t) = .ok prompt) :
    Reaches shop answer w₀ parentId ids t (.prepared (callOf shop parentId t prompt))
  | running {prompt : String} {runId : Option String}
    (h : promptOf t (readsOf shop w₀ t) = .ok prompt)
    (hid : ∀ id ∈ runId, id ∈ ids) :
    Reaches shop answer w₀ parentId ids t (.running (callOf shop parentId t prompt) runId)
  | answered {prompt : String} {runId : Option String}
    (h : promptOf t (readsOf shop w₀ t) = .ok prompt)
    (hid : ∀ id ∈ runId, id ∈ ids) :
    Reaches shop answer w₀ parentId ids t
      (.answered (callOf shop parentId t prompt) runId (answer t.name prompt))
  | done : Reaches shop answer w₀ parentId ids t (.done (.ok (resultOf shop answer w₀ t)))

theorem Reaches.mono {phase : TaskPhase} (h : Reaches shop answer w₀ parentId ids t phase)
    (hids : ids ⊆ ids') : Reaches shop answer w₀ parentId ids' t phase := by
  cases h with
  | waiting => exact .waiting
  | prepared h => exact .prepared h
  | running h hid => exact .running h fun id hi => hids (hid id hi)
  | answered h hid => exact .answered h fun id hi => hids (hid id hi)
  | done => exact .done

/-- A move that brings a task on, with the calls that it makes. -/
structure Advances (shop : Workshop) (answer : Answers) (ts : List Task) (w₀ : World)
    (parentId : Option String) (ids : List String) (r : TaskRun) (w : World) (ids' : List String)
    (phase : TaskPhase) (w' : World) : Prop where
  exec_eq : (r.move shop parentId).exec w = (.ok phase, w')
  grows : ids ⊆ ids'
  steady : Steady shop ts w₀ ids' w'
  reaches : Reaches shop answer w₀ parentId ids' r.task phase
  movesLeft : phase.movesLeft < r.phase.movesLeft
  calls : ∃ new, w'.calls.toList = w.calls.toList ++ new ∧
    (made? shop w₀ { r with phase := phase }).toList = (made? shop w₀ r).toList ++ new

theorem calls_of_same {phase : TaskPhase} {r : TaskRun} (hcalls : w'.calls = w.calls)
    (hmade : made? shop w₀ { r with phase := phase } = made? shop w₀ r) :
    ∃ new, w'.calls.toList = w.calls.toList ++ new ∧
      (made? shop w₀ { r with phase := phase }).toList = (made? shop w₀ r).toList ++ new :=
  ⟨[], by rw [hcalls, List.append_nil], by rw [hmade, List.append_nil]⟩

section

variable (hcalm : Calm shop answer ts w₀)
  (hrecordable : ∀ path ∈ shop.registry, Recordable shop answer ts w₀ path)
include hcalm

/-- A task that waits is prepared, or it is done where its template cannot be read. -/
theorem advances_waiting (hw : Steady shop ts w₀ ids w) (ht : t ∈ ts)
    (hnamed : (readsOf shop w₀ t).Named) :
    ∃ ids' phase w', Advances shop answer ts w₀ parentId ids ⟨t, .waiting⟩ w ids' phase w' := by
  have hreads := hw.alike.2 t ht
  rw [← hreads] at hnamed
  obtain ⟨log, hprepare⟩ := exec_prepareTask parentId w hnamed
  rw [hreads] at hprepare
  have hattempt := exec_attempt_of_eq hprepare
  cases hprompt : promptOf t (readsOf shop w₀ t) with
  | error e =>
    rw [hprompt] at hattempt
    obtain ⟨log', hsettled⟩ := exec_settled t (.error e) (w.withLog log) fun e' he => by
      cases he
      exact isOwn_of_promptOf hprompt
    -- The template cannot be read: the task is done without a call.
    have hresult : resultBy t (.error e) = resultOf shop answer w₀ t := by
      rw [resultOf, endOf, hprompt]
      rfl
    have hnone : invocationOf? shop w₀ t = none := by
      rw [invocationOf?, hprompt]
      rfl
    rw [hresult] at hsettled
    exact ⟨ids, _, _, (exec_bind_of_ok hattempt).trans hsettled, fun _ h => h,
      hw.of_files hcalm rfl rfl rfl, .done, (by decide : 0 < 4), calls_of_same rfl hnone⟩
  | ok prompt =>
    rw [hprompt] at hattempt
    exact ⟨ids, _, _, exec_bind_of_ok hattempt, fun _ h => h, hw.of_files hcalm rfl rfl rfl,
      .prepared hprompt, (by decide : 3 < 4), calls_of_same rfl rfl⟩

include hrecordable

/-- A task that is prepared begins its call. -/
theorem advances_prepared (hw : Steady shop ts w₀ ids w) (ht : t ∈ ts)
    (hparent : ∀ id ∈ parentId, id ∈ ids)
    (hprompt : promptOf t (readsOf shop w₀ t) = .ok prompt) :
    ∃ ids' phase w', Advances shop answer ts w₀ parentId ids
      ⟨t, .prepared (callOf shop parentId t prompt)⟩ w ids' phase w' := by
  obtain ⟨runId, w', henter, hw', hcalls⟩ :=
    exec_enter_task hcalm hrecordable hw ht hparent prompt
  have hid : ∀ id ∈ runId, id ∈ runId.toList ++ ids :=
    fun id hid => List.mem_append_left _ (Option.mem_toList.mpr hid)
  have hmade : invocationOf? shop w₀ t = some (callOf shop none t prompt).invocation := by
    rw [invocationOf?, hprompt]
    rfl
  refine ⟨runId.toList ++ ids, .running (callOf shop parentId t prompt) runId, w', ?_,
    List.subset_append_right _ _, hw', .running hprompt hid, (by decide : 2 < 3),
    [(callOf shop none t prompt).invocation], ?_, congrArg Option.toList hmade⟩
  · exact exec_bind_of_ok (exec_attempt_of_eq henter)
  · rw [hcalls, Array.toList_push]

/-- A task whose call has begun is answered. -/
theorem advances_running (hw : Steady shop ts w₀ ids w)
    (hprompt : promptOf t (readsOf shop w₀ t) = .ok prompt) (hid : ∀ id ∈ runId, id ∈ ids) :
    ∃ ids' phase w', Advances shop answer ts w₀ parentId ids
      ⟨t, .running (callOf shop parentId t prompt) runId⟩ w ids' phase w' := by
  obtain ⟨w', hanswer, hw', hcalls⟩ :=
    exec_answer_task hcalm hrecordable parentId hw t prompt
  refine ⟨ids, _, w', ?_, fun _ h => h, hw', .answered hprompt hid, (by decide : 1 < 2),
    calls_of_same hcalls rfl⟩
  exact exec_bind_of_ok hanswer

/-- A task that was answered is done. -/
theorem advances_answered (hw : Steady shop ts w₀ ids w)
    (hprompt : promptOf t (readsOf shop w₀ t) = .ok prompt) (hid : ∀ id ∈ runId, id ∈ ids) :
    ∃ ids' phase w', Advances shop answer ts w₀ parentId ids
      ⟨t, .answered (callOf shop parentId t prompt) runId (answer t.name prompt)⟩ w
      ids' phase w' := by
  obtain ⟨w', hfinish, hw', hcalls⟩ :=
    exec_finish_task hcalm hrecordable parentId hw hid t prompt
  obtain ⟨log, hsettled⟩ := exec_settled t _ w' fun e he => isOwn_of_handOn he
  have hresult : resultBy t (Workshop.handOn (callOf shop none t prompt) (answer t.name prompt)) =
      resultOf shop answer w₀ t := by
    rw [resultOf, endOf, hprompt]
    rfl
  rw [hresult] at hsettled
  refine ⟨ids, _, w'.withLog log, ?_, fun _ h => h, hw'.of_files hcalm rfl rfl rfl, .done,
    (by decide : 0 < 1), calls_of_same hcalls rfl⟩
  exact (exec_bind_of_ok (exec_attempt_of_eq hfinish)).trans hsettled

/-- Each move of a task that is not done brings it on. -/
theorem exec_move {r : TaskRun} (hparent : ∀ id ∈ parentId, id ∈ ids)
    (hw : Steady shop ts w₀ ids w) (ht : r.task ∈ ts) (hnamed : (readsOf shop w₀ r.task).Named)
    (hr : Reaches shop answer w₀ parentId ids r.task r.phase) (hleft : 0 < r.phase.movesLeft) :
    ∃ ids' phase w', Advances shop answer ts w₀ parentId ids r w ids' phase w' := by
  obtain ⟨t, phase⟩ := r
  dsimp only at ht hnamed hr hleft
  cases hr with
  | waiting => exact advances_waiting hcalm hw ht hnamed
  | prepared hprompt => exact advances_prepared hcalm hrecordable hw ht hparent hprompt
  | running hprompt hid => exact advances_running hcalm hrecordable hw hprompt hid
  | answered hprompt hid => exact advances_answered hcalm hrecordable hw hprompt hid
  | done => exact absurd hleft (Nat.lt_irrefl 0)

end

end Conductor.Script
