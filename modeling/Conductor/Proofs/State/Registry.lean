import Conductor.Proofs.Entries
import Conductor.Proofs.Json.RoundTrip
import Conductor.Proofs.State.Record
import Conductor.Proofs.State.Room
import Conductor.Proofs.Run.Call

/-!
# The registry keeps its records

Main statements: while the file of a registry holds the document of its records (`InFile`), the
records are found again (`exec_load`), and runs are put on record and ended without a fault
(`exec_start_of_inFile`, `exec_finish_of_foundIn`), which keeps it so.  A registry that was opened by
a first run is such a one (`inFile_of_start`), whatever the file held before.

The texts of the records must be proper ones; those of every record that is loaded are
(`RunRecord.proper_of_check`).
-/

namespace Conductor

open Act Schema Text

/-! ### The text of a record -/

/-- All texts of a record are proper ones. -/
structure RunRecord.Proper (r : RunRecord) : Prop where
  runId : LoneHalf.occursIn r.runId = false
  agentId : LoneHalf.occursIn r.agentId = false
  name : LoneHalf.occursIn r.name = false
  startedAt : LoneHalf.occursIn r.startedAt = false
  endedAt : ∀ s ∈ r.endedAt, LoneHalf.occursIn s = false
  parentId : ∀ s ∈ r.parentId, LoneHalf.occursIn s = false
  error : ∀ s ∈ r.error, LoneHalf.occursIn s = false

namespace RunRecord

variable {r : RunRecord} {d : Nat}

/-- The names of the members of a record. -/
def names : List String :=
  ["run_id", "agent_id", "name", "status", "started_at", "ended_at", "parent_id", "error"]

theorem readable_ofOption {o : Option String} (h : ∀ s ∈ o, LoneHalf.occursIn s = false) :
    Json.Readable d (.ofOption o) := by
  cases o with
  | none => exact .null
  | some s => exact .str (h s rfl)

theorem readable_toJson (h : r.Proper) : Json.Readable (d + 1) r.toJson := by
  have hnames : names.Nodup ∧ ∀ n ∈ names, LoneHalf.occursIn n = false := by decide
  have hword : LoneHalf.occursIn r.state.word = false := by
    cases r.state <;> decide
  refine .obj hnames.1 (fun m hm => hnames.2 m.1 (List.mem_map_of_mem hm)) ?_
  intro m hm
  simp only [List.mem_cons, List.not_mem_nil, or_false] at hm
  rcases hm with rfl | rfl | rfl | rfl | rfl | rfl | rfl | rfl
  · exact .str h.runId
  · exact .str h.agentId
  · exact .str h.name
  · exact .str hword
  · exact .str h.startedAt
  · exact readable_ofOption h.endedAt
  · exact readable_ofOption h.parentId
  · exact readable_ofOption h.error

theorem text_of_proper {s : String} (h : LoneHalf.occursIn s = false) : text (.str s) = .ok s := by
  rw [text, whole, h]
  rfl

theorem optional_ofOption {o : Option String} (h : ∀ s ∈ o, LoneHalf.occursIn s = false) :
    optional text (.ofOption o) = .ok o := by
  cases o with
  | none => rfl
  | some s =>
    show (text (.str s)).map some = _
    rw [text_of_proper (h s rfl)]
    rfl

theorem oneOf_word (s : RunState) :
    oneOf .enumeration RunState.byWord (.str s.word) = .ok s := by
  cases s <;> rfl

/-- The value of a record passes the check and gives the record. -/
theorem check_toJson (h : r.Proper) : check r.toJson = .ok r := by
  unfold check toJson record
  simp only [field, fieldOr, FieldName.single, FieldName.find?, Json.member?, List.find?,
    String.reduceBEq, Option.map_some, text_of_proper h.runId, text_of_proper h.agentId,
    text_of_proper h.name, oneOf_word, text_of_proper h.startedAt, optional_ofOption h.endedAt,
    optional_ofOption h.parentId, optional_ofOption h.error, Checked.below]
  rfl

theorem occursIn_of_field {members : List (String × Json)} {f : FieldName} {s : String}
    (h : field members f text = .ok s) : LoneHalf.occursIn s = false := by
  unfold field at h
  split at h
  · next name v _ =>
    cases hv : text v with
    | ok t =>
      rw [hv] at h
      cases h
      exact Progress.occursIn_of_text hv
    | bad issues =>
      rw [hv] at h
      cases h
  · cases h

theorem occursIn_of_optional {v : Json} {o : Option String} (h : optional text v = .ok o) :
    ∀ s ∈ o, LoneHalf.occursIn s = false := by
  unfold Schema.optional at h
  split at h
  · cases h
    intro s hs
    cases hs
  · cases hv : text v with
    | ok t =>
      rw [hv] at h
      cases h
      rintro s ⟨⟩
      exact Progress.occursIn_of_text hv
    | bad issues =>
      rw [hv] at h
      cases h

theorem occursIn_of_optionalField {members : List (String × Json)} {f : FieldName}
    {o : Option String} (h : fieldOr members f none (optional text) = .ok o) :
    ∀ s ∈ o, LoneHalf.occursIn s = false := by
  unfold fieldOr at h
  split at h
  · next name v _ =>
    cases hv : optional text v with
    | ok t =>
      rw [hv] at h
      cases h
      exact occursIn_of_optional hv
    | bad issues =>
      rw [hv] at h
      cases h
  · cases h
    intro s hs
    cases hs

/-- A record that passes the check is a proper one. -/
theorem proper_of_check {v : Json} (h : check v = .ok r) : r.Proper := by
  unfold check record at h
  split at h
  · obtain ⟨_, _, h₇, herror, rfl⟩ := Checked.ap_eq_ok_iff.mp h
    obtain ⟨_, _, h₆, hparentId, rfl⟩ := Checked.ap_eq_ok_iff.mp h₇
    obtain ⟨_, _, h₅, hendedAt, rfl⟩ := Checked.ap_eq_ok_iff.mp h₆
    obtain ⟨_, _, h₄, hstartedAt, rfl⟩ := Checked.ap_eq_ok_iff.mp h₅
    obtain ⟨_, _, h₃, -, rfl⟩ := Checked.ap_eq_ok_iff.mp h₄
    obtain ⟨_, _, h₂, hname, rfl⟩ := Checked.ap_eq_ok_iff.mp h₃
    obtain ⟨_, _, h₁, hagentId, rfl⟩ := Checked.ap_eq_ok_iff.mp h₂
    cases hrunId : field _ (FieldName.single "run_id") text with
    | ok id =>
      rw [hrunId] at h₁
      cases h₁
      exact ⟨occursIn_of_field hrunId, occursIn_of_field hagentId, occursIn_of_field hname,
        occursIn_of_field hstartedAt, occursIn_of_optionalField hendedAt,
        occursIn_of_optionalField hparentId, occursIn_of_optionalField herror⟩
    | bad issues =>
      rw [hrunId] at h₁
      cases h₁
  · cases h

end RunRecord

namespace Registry

variable {path : Path} {rs rs' : List RunRecord} {r : RunRecord} {w w' : World} {id : String}
  {state : RunState} {error : Option String} {time : String}

/-! ### The text of the registry -/

/-- What the file of a registry holds. -/
def document (rs : List RunRecord) : String := Json.document (.arr (rs.map RunRecord.toJson))

theorem readable_records {d : Nat} (h : ∀ r ∈ rs, r.Proper) :
    Json.Readable (d + 2) (.arr (rs.map RunRecord.toJson)) := by
  refine .arr fun v hv => ?_
  obtain ⟨r, hr, rfl⟩ := List.mem_map.mp hv
  exact RunRecord.readable_toJson (h r hr)

/-- Reading the document of records yields the records. -/
theorem ofText_document (h : ∀ r ∈ rs, r.Proper) : ofText (document rs) = .ok rs := by
  have hread : Json.read (document rs) = .ok (.arr (rs.map RunRecord.toJson)) :=
    Json.read_document (readable_records h)
  unfold ofText
  rw [hread]
  dsimp only
  clear hread
  induction rs with
  | nil => rfl
  | cons r rs ih =>
    rw [List.map_cons, List.mapM_cons, RunRecord.check_toJson (h r (List.mem_cons_self ..)),
      ih fun r hr => h r (List.mem_cons_of_mem _ hr)]
    rfl

theorem not_mem_document (h : ∀ r ∈ rs, r.Proper) : '\r' ∉ (document rs).toList :=
  (readable_records (d := 0) h).not_mem_document

/-- The records that a text holds are proper ones. -/
theorem proper_of_ofText {t : String} (h : ofText t = .ok rs) : ∀ r ∈ rs, r.Proper := by
  unfold ofText at h
  split at h
  · cases h
    intro r hr
    cases hr
  · cases h
  · intro r hr
    obtain ⟨item, -, hitem⟩ := exists_of_mapM_eq_ok h r hr
    split at hitem
    · next hcheck =>
      cases hitem
      exact RunRecord.proper_of_check hcheck
    · cases hitem
  · cases h
    intro r hr
    cases hr

/-! ### The file of the registry -/

/-- The records are those of the file, which is there. -/
structure InFile (path : Path) (rs : List RunRecord) (w : World) : Prop where
  hasNul_eq : path.hasNul = false
  names_ne_nil : path.names ≠ []
  proper : ∀ r ∈ rs, r.Proper
  bytes : w.store.readBytes w.cwd path = .ok (Utf8.encodeText (document rs))

/-- Only the file decides which records there are. -/
theorem InFile.congr (h : InFile path rs w) (hcwd : w'.cwd = w.cwd)
    (hstore : w'.store.readBytes w.cwd path = w.store.readBytes w.cwd path) :
    InFile path rs w' := by
  refine ⟨h.hasNul_eq, h.names_ne_nil, h.proper, ?_⟩
  rw [hcwd, hstore, h.bytes]

/-- The records are found in the file, however they are written there. -/
structure FoundIn (path : Path) (rs : List RunRecord) (w : World) : Prop where
  names_ne_nil : path.names ≠ []
  text : ∃ t, w.store.readText w.cwd path = .ok t ∧ ofText t = .ok rs

theorem InFile.foundIn (h : InFile path rs w) : FoundIn path rs w := by
  refine ⟨h.names_ne_nil, document rs, ?_, ofText_document h.proper⟩
  unfold Store.readText
  rw [h.hasNul_eq, if_neg Bool.false_ne_true, h.bytes]
  dsimp only
  rw [Store.textOf_encodeText (not_mem_document h.proper)]

theorem FoundIn.proper (h : FoundIn path rs w) : ∀ r ∈ rs, r.Proper := by
  obtain ⟨t, -, hrs⟩ := h.text
  exact proper_of_ofText hrs

/-- The records of the file are found. -/
theorem exec_load (h : FoundIn path rs w) : (load path).exec w = (.ok rs, w) := by
  obtain ⟨t, hread, hrs⟩ := h.text
  obtain ⟨hnul, bytes, hb⟩ := Store.exists_readBytes_of_readText hread
  -- The file is there, so the list does not start empty.
  have hheld : w.store.held w.cwd path = .ok true := by
    rw [Progress.held_of_readBytes hb, hnul]
    rfl
  unfold load
  rw [exec_bind, exec_holds, hheld]
  dsimp only
  rw [Bool.not_true, if_neg Bool.false_ne_true, exec_bind, exec_readText, hread]
  dsimp only
  rw [exec_lift, hrs]

/-- Records are written over those of the file, and nothing else is changed. -/
theorem exec_save (h : FoundIn path rs w) (rs' : List RunRecord) :
    ∃ s, w.store.writeText w.cwd path (document rs') = .ok s ∧
      (save path rs').exec w = (.ok (), { w with store := s }) := by
  obtain ⟨t, hread, -⟩ := h.text
  obtain ⟨hnul, bytes, hb⟩ := Store.exists_readBytes_of_readText hread
  obtain ⟨-, hdir, hwrite⟩ := exec_ensureDirectory_of_readBytes h.names_ne_nil hnul hb
  obtain ⟨s, hs⟩ := hwrite (document rs')
  refine ⟨s, hs, ?_⟩
  unfold save Act.saveText
  rw [exec_bind_of_ok hdir]
  exact exec_writeText hnul hs

theorem FoundIn.written {s : Store} (h : FoundIn path rs w) (hrs : ∀ r ∈ rs', r.Proper)
    (hs : w.store.writeText w.cwd path (document rs') = .ok s) :
    InFile path rs' { w with store := s } := by
  obtain ⟨t, hread, -⟩ := h.text
  exact ⟨(Store.exists_readBytes_of_readText hread).1, h.names_ne_nil, hrs,
    Store.readBytes_writeBytes (Store.writeBytes_of_writeText hs)⟩

/-- Records that have been saved are those of the file. -/
theorem inFile_of_save {u : Unit} (hrs : ∀ r ∈ rs, r.Proper)
    (h : (save path rs).exec w = (.ok u, w')) :
    InFile path rs w' ∧ ∃ s₁ s₂, w.store.ensureDirectory w.cwd path.parent = .ok s₁ ∧
      s₁.writeText w.cwd path (document rs) = .ok s₂ ∧ w' = { w with store := s₂ } := by
  unfold save Act.saveText at h
  obtain ⟨_, w₁, hdir, hwrite⟩ := exec_bind_eq_ok_iff.mp h
  obtain ⟨s₁, hs₁, rfl⟩ := eq_ok_of_ensureDirectory hdir
  obtain ⟨hnul, s₂, hs₂, rfl⟩ := eq_ok_of_writeText hwrite
  have hbytes := Store.writeBytes_of_writeText hs₂
  exact ⟨⟨hnul, Store.names_ne_nil_of_writeBytes hs₁ hbytes, hrs,
    Store.readBytes_writeBytes hbytes⟩, s₁, s₂, hs₁, hs₂, rfl⟩

/-! ### A run starts -/

theorem occursIn_ofList_of_hex {cs : List Char} (h : ∀ c ∈ cs, ∃ d < 16, c = Nat.digitChar d) :
    LoneHalf.occursIn (String.ofList cs) = false := by
  have hdigits : ∀ d < 16, LoneHalf.unit? (Nat.digitChar d) = none := by decide
  unfold LoneHalf.occursIn
  rw [String.toList_ofList, List.any_eq_false]
  intro c hc
  obtain ⟨d, hd, rfl⟩ := h c hc
  rw [hdigits d hd]
  exact Bool.false_ne_true

theorem exists_digitChar_of_mem_toDigits {n : Nat} {c : Char} (h : c ∈ Nat.toDigits 16 n) :
    ∃ d < 16, c = Nat.digitChar d := by
  induction n using Nat.strongRecOn with
  | ind n ih =>
    rw [Nat.toDigits_eq_if (by decide)] at h
    split at h
    · next hlt => exact ⟨n, hlt, List.mem_singleton.mp h⟩
    · rcases List.mem_append.mp h with h | h
      · exact ih (n / 16) (by omega) h
      · exact ⟨n % 16, Nat.mod_lt _ (by decide), List.mem_singleton.mp h⟩

theorem occursIn_runId (n : Nat) : LoneHalf.occursIn (runId n) = false := by
  refine occursIn_ofList_of_hex fun c hc => ?_
  rcases List.mem_append.mp hc with hc | hc
  · exact ⟨0, by decide, List.eq_of_mem_replicate hc⟩
  · exact exists_digitChar_of_mem_toDigits hc

/-- The record of a run that starts in a world. -/
def started (agentId name : String) (parentId : Option String) (w : World) : RunRecord :=
  { runId := runId w.nextRun, agentId := agentId, name := name, state := .running,
    startedAt := w.now.offsetText, parentId := parentId }

theorem proper_started {agentId name : String} {parentId : Option String}
    (ha : LoneHalf.occursIn agentId = false) (hn : LoneHalf.occursIn name = false)
    (hp : ∀ s ∈ parentId, LoneHalf.occursIn s = false) (w : World) :
    (started agentId name parentId w).Proper where
  runId := occursIn_runId w.nextRun
  agentId := ha
  name := hn
  startedAt := w.now.occursIn_offsetText
  endedAt _ hs := by cases hs
  parentId := hp
  error _ hs := by cases hs

theorem proper_concat (hrs : ∀ r ∈ rs, r.Proper) (hr : r.Proper) : ∀ a ∈ rs ++ [r], a.Proper := by
  intro a ha
  rcases List.mem_append.mp ha with ha | ha
  · exact hrs a ha
  · rwa [List.mem_singleton.mp ha]

section

variable {agentId name : String} {parentId : Option String} {w₁ : World}

/-- A run that starts is put behind the records that there are. -/
theorem exec_start_of_load (h : (load path).exec w = (.ok rs, w₁)) :
    (start path agentId name parentId).exec w = (do
      save path (rs ++ [started agentId name parentId w₁])
      return started agentId name parentId w₁ : Act RunRecord).exec
        { w₁ with nextRun := w₁.nextRun + 1 } := by
  unfold start
  rw [exec_bind_of_ok h]
  rfl

/-- A run is put on record without a fault. -/
theorem exec_start_of_inFile (h : InFile path rs w)
    (hr : (started agentId name parentId w).Proper) :
    ∃ s, w.store.writeText w.cwd path (document (rs ++ [started agentId name parentId w])) = .ok s ∧
      (start path agentId name parentId).exec w =
        (.ok (started agentId name parentId w), { w with store := s, nextRun := w.nextRun + 1 }) ∧
      InFile path (rs ++ [started agentId name parentId w])
        { w with store := s, nextRun := w.nextRun + 1 } := by
  have hnext : InFile path rs { w with nextRun := w.nextRun + 1 } := h.congr rfl rfl
  obtain ⟨s, hs, hsave⟩ := exec_save hnext.foundIn (rs ++ [started agentId name parentId w])
  refine ⟨s, hs, ?_, hnext.foundIn.written (proper_concat h.proper hr) hs⟩
  rw [exec_start_of_load (exec_load h.foundIn), exec_bind_of_ok hsave]
  rfl

theorem snd_exec_load (path : Path) (w : World) : ((load path).exec w).2 = w := by
  refine keeps_load (P := (· = w)) path w rfl

theorem proper_of_load (h : (load path).exec w = (.ok rs, w₁)) : ∀ r ∈ rs, r.Proper := by
  unfold load at h
  obtain ⟨there, w₂, -, h⟩ := exec_bind_eq_ok_iff.mp h
  split at h
  · cases h
    intro r hr
    cases hr
  · obtain ⟨read, w₃, -, h⟩ := exec_bind_eq_ok_iff.mp h
    split at h
    · rw [exec_lift] at h
      exact proper_of_ofText (Prod.mk.inj h).1
    · cases h
    · cases h

/-- The first run that was put on record leaves the records in the file, whatever that held. -/
theorem inFile_of_start (hr : (started agentId name parentId w).Proper)
    (h : (start path agentId name parentId).exec w = (.ok r, w')) :
    ∃ rs s₁ s₂, r = started agentId name parentId w ∧ InFile path (rs ++ [r]) w' ∧
      w.store.ensureDirectory w.cwd path.parent = .ok s₁ ∧
      s₁.writeText w.cwd path (document (rs ++ [r])) = .ok s₂ ∧
      w' = { w with store := s₂, nextRun := w.nextRun + 1 } := by
  have hsame := snd_exec_load path w
  rcases hload : (load path).exec w with ⟨e | rs, w₁⟩
  · unfold start at h
    rw [exec_bind, hload] at h
    cases h
  · rw [hload] at hsame
    have hw : w₁ = w := hsame
    rw [hw] at hload
    rw [exec_start_of_load hload] at h
    obtain ⟨_, w₂, hsave, h⟩ := exec_bind_eq_ok_iff.mp h
    obtain ⟨hr', rfl⟩ := Prod.mk.inj h
    obtain rfl := Except.ok.inj hr'
    have hproper := proper_concat (proper_of_load hload) hr
    obtain ⟨hfile, s₁, s₂, hs₁, hs₂, rfl⟩ := inFile_of_save hproper hsave
    exact ⟨rs, s₁, s₂, rfl, hfile, hs₁, hs₂, rfl⟩

end

/-! ### A run ends -/

theorem map_runId_finished? (h : finished? id state error time rs = some (rs', r)) :
    rs'.map (·.runId) = rs.map (·.runId) := by
  induction rs generalizing rs' with
  | nil => cases h
  | cons a as ih =>
    rw [finished?] at h
    split at h
    · cases h
      rfl
    · obtain ⟨⟨bs, b⟩, hb, he⟩ := Option.map_eq_some_iff.mp h
      cases he
      rw [List.map_cons, List.map_cons, ih hb]

/-- The records stay proper ones when a run of theirs has ended. -/
theorem proper_finished? (hrs : ∀ r ∈ rs, r.Proper) (ht : LoneHalf.occursIn time = false)
    (he : ∀ s ∈ error, LoneHalf.occursIn s = false)
    (h : finished? id state error time rs = some (rs', r)) : ∀ r ∈ rs', r.Proper := by
  induction rs generalizing rs' with
  | nil => cases h
  | cons a as ih =>
    have ha := hrs a (List.mem_cons_self ..)
    have has : ∀ r ∈ as, r.Proper := fun r hr => hrs r (List.mem_cons_of_mem _ hr)
    rw [finished?] at h
    split at h
    · cases h
      intro r hr
      rcases List.mem_cons.mp hr with rfl | hr
      · refine ⟨ha.runId, ha.agentId, ha.name, ha.startedAt, ?_, ha.parentId, he⟩
        rintro s ⟨⟩
        exact ht
      · exact has r hr
    · obtain ⟨⟨bs, b⟩, hb, he⟩ := Option.map_eq_some_iff.mp h
      cases he
      intro r hr
      rcases List.mem_cons.mp hr with rfl | hr
      · exact ha
      · exact ih has hb r hr

/-- The end of a run that has a record is put on record without a fault. -/
theorem exec_finish_of_foundIn (h : FoundIn path rs w) (hid : ∃ r ∈ rs, r.runId = id)
    (state : RunState) (error : Option String) :
    ∃ rs' r s, finished? id state error w.now.offsetText rs = some (rs', r) ∧
      w.store.writeText w.cwd path (document rs') = .ok s ∧
      (finish path id state error).exec w = (.ok r, { w with store := s }) ∧
      ((∀ s ∈ error, LoneHalf.occursIn s = false) → InFile path rs' { w with store := s }) := by
  cases hf : finished? id state error w.now.offsetText rs with
  | none =>
    obtain ⟨r, hr, heq⟩ := hid
    exact absurd heq (finished?_eq_none_iff.mp hf r hr)
  | some p =>
    obtain ⟨rs', r⟩ := p
    obtain ⟨s, hs, hsave⟩ := exec_save h rs'
    refine ⟨rs', r, s, rfl, hs, ?_, fun he =>
      h.written (proper_finished? h.proper w.now.occursIn_offsetText he hf) hs⟩
    unfold finish
    rw [exec_bind_of_ok (exec_get w), exec_bind_of_ok (exec_load h), hf]
    dsimp only
    rw [exec_bind_of_ok hsave]
    rfl

/-! ### The runs that have records -/

/-- The file of the registry has records of all the runs. -/
def Lists (path : Path) (ids : List String) (w : World) : Prop :=
  ∃ rs, InFile path rs w ∧ ∀ id ∈ ids, ∃ r ∈ rs, r.runId = id

variable {ids : List String}

theorem Lists.occursIn_of_mem (h : Lists path ids w) (hid : id ∈ ids) :
    LoneHalf.occursIn id = false := by
  obtain ⟨rs, hfile, hids⟩ := h
  obtain ⟨r, hr, rfl⟩ := hids id hid
  exact (hfile.proper r hr).runId

theorem Lists.congr (h : Lists path ids w) (hcwd : w'.cwd = w.cwd)
    (hstore : ∀ bytes, w.store.readBytes w.cwd path = .ok bytes →
      w'.store.readBytes w.cwd path = .ok bytes) : Lists path ids w' := by
  obtain ⟨rs, hfile, hids⟩ := h
  refine ⟨rs, hfile.congr hcwd ?_, hids⟩
  rw [hstore _ hfile.bytes, hfile.bytes]

/-- A run that starts gets a record of its own. -/
theorem exec_start_of_lists {agentId name : String} {parentId : Option String}
    (h : Lists path ids w) (hr : (started agentId name parentId w).Proper) :
    ∃ text s, w.store.writeText w.cwd path text = .ok s ∧
      (start path agentId name parentId).exec w =
        (.ok (started agentId name parentId w), { w with store := s, nextRun := w.nextRun + 1 }) ∧
      Lists path (runId w.nextRun :: ids) { w with store := s, nextRun := w.nextRun + 1 } := by
  obtain ⟨rs, hfile, hids⟩ := h
  obtain ⟨s, hs, hstart, hfile'⟩ := exec_start_of_inFile hfile hr
  refine ⟨_, s, hs, hstart, _, hfile', fun id hid => ?_⟩
  rcases List.mem_cons.mp hid with rfl | hid
  · exact ⟨_, List.mem_append_right _ (List.mem_singleton_self _), rfl⟩
  · obtain ⟨r, hr, he⟩ := hids id hid
    exact ⟨r, List.mem_append_left _ hr, he⟩

/-- A run with a record is ended in its record. -/
theorem exec_finish_of_lists (h : Lists path ids w) (hid : id ∈ ids) (state : RunState)
    (error : Option String) :
    ∃ r text s, w.store.writeText w.cwd path text = .ok s ∧
      (finish path id state error).exec w = (.ok r, { w with store := s }) ∧
      ((∀ s ∈ error, LoneHalf.occursIn s = false) → Lists path ids { w with store := s }) := by
  obtain ⟨rs, hfile, hids⟩ := h
  obtain ⟨rs', r, s, hf, hs, hfinish, hfile'⟩ :=
    exec_finish_of_foundIn hfile.foundIn (hids id hid) state error
  refine ⟨r, _, s, hs, hfinish, fun he => ⟨rs', hfile' he, fun id' hid' => ?_⟩⟩
  have hsame : id' ∈ rs'.map (·.runId) := by
    rw [map_runId_finished? hf]
    obtain ⟨a, ha, rfl⟩ := hids id' hid'
    exact List.mem_map_of_mem ha
  obtain ⟨a, ha, rfl⟩ := List.mem_map.mp hsame
  exact ⟨a, ha, rfl⟩

end Registry

end Conductor
