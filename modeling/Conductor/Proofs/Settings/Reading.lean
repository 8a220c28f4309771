import Conductor.Proofs.Action
import Conductor.Proofs.Store
import Conductor.Settings.Reader

/-!
# How settings are read

Settings can be read where the file of variables, if there is one, is a text, and the tables of
engines that the variables give are JSON (`Garbled` is the opposite).  Then values are supplied for
them (`supplies_or_garbled`), and whether these pass the check decides whether there are settings
(`exec_load_of_supplies`).  What is garbled is reported otherwise than what does not pass
(`exec_load_of_garbled`).  Reading changes nothing.
-/

namespace Conductor.Settings

open Act

/-- What the file of variables in the current directory gives. -/
inductive FileGives (vars : Variables) (w : World) : Variables → Prop
  | none (h : ∀ place content modified,
      w.store.stat w.cwd variablesFile ≠ .ok (place, .file content modified)) :
    FileGives vars w []
  | file {place content modified text}
    (h : w.store.stat w.cwd variablesFile = .ok (place, .file content modified))
    (ht : Store.textOf content = .ok text) :
    FileGives vars w ((DotEnv.read (vars.map fun v => (v.1.toList, v.2.map String.toList))
      text.toList).map fun v => (String.ofList v.1, v.2.map String.ofList))

/-- The file of variables is no text. -/
def GarblesFile (w : World) : Prop :=
  ∃ place content modified e,
    w.store.stat w.cwd variablesFile = .ok (place, .file content modified) ∧
      Store.textOf content = .error e

/-- The table of engines that variables give is not JSON. -/
def GarblesTable (vars : Variables) : Prop :=
  ∃ text, lastGiven? vars enginesName = some text ∧ ∀ v, Json.read text ≠ .ok v

/-- What gives the settings cannot be read. -/
inductive Garbled (vars : Variables) (w : World) : Prop
  | file (h : GarblesFile w)
  | surroundings (h : GarblesTable vars)
  | table {ofFile} (h : FileGives vars w ofFile) (ht : GarblesTable ofFile)

/-- The values that are supplied for the settings. -/
def Supplies (vars : Variables) (w : World) (ms : Json.Members) : Prop :=
  ∃ ofFile strong weak, FileGives vars w ofFile ∧ givenBy .surroundings vars names = .ok strong ∧
    givenBy .file ofFile names = .ok weak ∧ ms = join (join weak strong) []

/-- The settings that the surroundings give. -/
def Gives (vars : Variables) (w : World) (s : Settings) : Prop :=
  ∃ ms, Supplies vars w ms ∧ check ms = .ok s

variable {vars ofFile : Variables} {w : World} {ms : Json.Members} {origin : Origin}

/-! ### The file of variables -/

theorem exec_fileVariables_of_gives (h : FileGives vars w ofFile) :
    (fileVariables vars).exec w = (.ok ofFile, w) := by
  unfold fileVariables
  rw [exec_bind_of_ok (exec_get w)]
  cases h with
  | none h =>
    split
    · next hs => exact absurd hs (h _ _ _)
    · rfl
  | file h ht =>
    rw [h]
    dsimp only
    rw [exec_bind_of_ok (exec_readText variablesFile w), Store.readText_of_stat (by decide) h, ht]
    rfl

theorem exec_fileVariables_of_garblesFile (h : GarblesFile w) :
    ∃ e, (fileVariables vars).exec w = (.error (.read e), w) := by
  obtain ⟨place, content, modified, e, h, ht⟩ := h
  unfold fileVariables
  rw [exec_bind_of_ok (exec_get w), h]
  dsimp only
  rw [exec_bind_of_ok (exec_readText variablesFile w), Store.readText_of_stat (by decide) h, ht]
  exact ⟨.undecodable e, rfl⟩

theorem fileGives_or_garblesFile (vars : Variables) (w : World) :
    (∃ ofFile, FileGives vars w ofFile) ∨ GarblesFile w := by
  by_cases h : ∃ place content modified,
      w.store.stat w.cwd variablesFile = .ok (place, .file content modified)
  · obtain ⟨place, content, modified, h⟩ := h
    cases ht : Store.textOf content with
    | ok text => exact .inl ⟨_, .file h ht⟩
    | error e => exact .inr ⟨place, content, modified, e, h, ht⟩
  · exact .inl ⟨[], .none fun place content modified hs => h ⟨place, content, modified, hs⟩⟩

/-! ### The tables -/

/-- What is reported otherwise than settings that do not pass the check. -/
def Foreign (e : Fault) : Prop := ∀ title issues, e ≠ .invalid title issues

/-- What the last variable of a name gives for the setting, if there is one. -/
def lastValue (origin : Origin) (vars : Variables) (name : String) : Except Fault (Option Json) :=
  match lastGiven? vars name with
  | none => .ok none
  | some text => valueOf origin name text

theorem givenBy_cons (origin : Origin) (vars : Variables) (name : String) (rest : List String) :
    givenBy origin vars (name :: rest) = (do
      let value ← lastValue origin vars name
      let others ← givenBy origin vars rest
      return (value.map fun v => (name, v)).toList ++ others) := by
  unfold lastValue
  cases h : lastGiven? vars name <;> simp only [givenBy, h]

theorem exists_valueOf {name text : String}
    (h : name = enginesName → ∃ v, Json.read text = .ok v) (origin : Origin) :
    ∃ value, valueOf origin name text = .ok value := by
  unfold valueOf
  split
  · next hname =>
    obtain ⟨v, hv⟩ := h hname
    unfold enginesOf
    rw [hv]
    cases v <;> exact ⟨_, rfl⟩
  · exact ⟨_, rfl⟩

theorem exists_valueOf_error {text : String} (h : ∀ v, Json.read text ≠ .ok v) (origin : Origin) :
    ∃ e, valueOf origin enginesName text = .error e ∧ Foreign e := by
  unfold valueOf enginesOf
  rw [if_pos rfl]
  split
  · next v hv => exact absurd hv (h v)
  · exact ⟨_, rfl, nofun⟩
  · exact ⟨_, rfl, nofun⟩

theorem exists_lastValue {name : String} (h : name = enginesName → ¬ GarblesTable vars)
    (origin : Origin) : ∃ value, lastValue origin vars name = .ok value := by
  unfold lastValue
  split
  · exact ⟨_, rfl⟩
  · next text htext =>
    refine exists_valueOf (fun hname => ?_) origin
    refine Classical.not_forall_not.mp fun hno => ?_
    exact h hname ⟨text, hname ▸ htext, hno⟩

/-- Tables that are JSON leave nothing that cannot be read. -/
theorem exists_givenBy (h : ¬ GarblesTable vars) (origin : Origin) (given : List String) :
    ∃ ms, givenBy origin vars given = .ok ms := by
  induction given with
  | nil => exact ⟨_, rfl⟩
  | cons name rest ih =>
    obtain ⟨value, hvalue⟩ := exists_lastValue (fun _ => h : name = enginesName → _) origin
    obtain ⟨others, hothers⟩ := ih
    rw [givenBy_cons, hvalue, hothers]
    exact ⟨_, rfl⟩

/-- A table that is not JSON is reported. -/
theorem exists_givenBy_error (h : GarblesTable vars) (origin : Origin) {given : List String}
    (hmem : enginesName ∈ given) : ∃ e, givenBy origin vars given = .error e ∧ Foreign e := by
  induction given with
  | nil => cases hmem
  | cons name rest ih =>
    rw [givenBy_cons]
    by_cases hname : name = enginesName
    · obtain ⟨text, htext, hno⟩ := h
      obtain ⟨e, he, hforeign⟩ := exists_valueOf_error hno origin
      unfold lastValue
      rw [hname, htext]
      dsimp only
      rw [he]
      exact ⟨e, rfl, hforeign⟩
    · obtain ⟨value, hvalue⟩ := exists_lastValue (fun hn => absurd hn hname) origin
      obtain ⟨e, he, hforeign⟩ := ih ((List.mem_cons.mp hmem).resolve_left (Ne.symm hname))
      rw [hvalue, he]
      exact ⟨e, rfl, hforeign⟩

/-! ### The settings -/

theorem supplies_or_garbled (vars : Variables) (w : World) :
    (∃ ms, Supplies vars w ms) ∨ Garbled vars w := by
  rcases fileGives_or_garblesFile vars w with ⟨ofFile, hfile⟩ | hfile
  · by_cases hvars : GarblesTable vars
    · exact .inr (.surroundings hvars)
    · by_cases hofFile : GarblesTable ofFile
      · exact .inr (.table hfile hofFile)
      · obtain ⟨strong, hstrong⟩ := exists_givenBy hvars .surroundings names
        obtain ⟨weak, hweak⟩ := exists_givenBy hofFile .file names
        exact .inl ⟨_, ofFile, strong, weak, hfile, hstrong, hweak, rfl⟩
  · exact .inr (.file hfile)

/-- The values that are supplied are checked. -/
theorem exec_load_of_supplies (h : Supplies vars w ms) :
    (load vars []).exec w = (match check ms with
      | .ok s => .ok s
      | .bad issues => .error (.invalid title issues), w) := by
  obtain ⟨ofFile, strong, weak, hfile, hstrong, hweak, rfl⟩ := h
  unfold load
  rw [exec_bind_of_ok (exec_fileVariables_of_gives hfile), hstrong, hweak,
    exec_bind_of_ok (exec_lift _ w), exec_bind_of_ok (exec_lift _ w)]
  cases check (join (join weak strong) []) <;> rfl

theorem exec_load_of_gives {s : Settings} (h : Gives vars w s) :
    (load vars []).exec w = (.ok s, w) := by
  obtain ⟨ms, hms, hcheck⟩ := h
  rw [exec_load_of_supplies hms, hcheck]

/-- What is garbled is reported otherwise than settings that do not pass the check. -/
theorem exec_load_of_garbled (h : Garbled vars w) :
    ∃ e, (load vars []).exec w = (.error e, w) ∧ Foreign e := by
  have hmem : enginesName ∈ names := by decide
  have hstrong : ∀ {ofFile}, FileGives vars w ofFile → GarblesTable vars →
      ∃ e, (load vars []).exec w = (.error e, w) ∧ Foreign e := by
    intro ofFile hfile hvars
    obtain ⟨e, he, hforeign⟩ := exists_givenBy_error hvars .surroundings hmem
    unfold load
    rw [exec_bind_of_ok (exec_fileVariables_of_gives hfile), he]
    exact ⟨e, rfl, hforeign⟩
  have hnone : GarblesFile w → ∃ e, (load vars []).exec w = (.error e, w) ∧ Foreign e := by
    intro hfile
    obtain ⟨e, he⟩ := exec_fileVariables_of_garblesFile hfile
    unfold load
    rw [exec_bind, he]
    exact ⟨_, rfl, nofun⟩
  cases h with
  | file hfile => exact hnone hfile
  | surroundings hvars =>
    rcases fileGives_or_garblesFile vars w with ⟨ofFile, hfile⟩ | hfile
    · exact hstrong hfile hvars
    · exact hnone hfile
  | table hfile hofFile =>
    by_cases hvars : GarblesTable vars
    · exact hstrong hfile hvars
    · obtain ⟨strong, hok⟩ := exists_givenBy hvars .surroundings names
      obtain ⟨e, he, hforeign⟩ := exists_givenBy_error hofFile .file hmem
      unfold load
      rw [exec_bind_of_ok (exec_fileVariables_of_gives hfile), hok,
        exec_bind_of_ok (exec_lift _ w), he]
      exact ⟨e, rfl, hforeign⟩

end Conductor.Settings
