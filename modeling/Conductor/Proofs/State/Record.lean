import Conductor.Proofs.Json.RoundTrip
import Conductor.Proofs.State.Progress
import Conductor.Proofs.Store
import Conductor.Proofs.Text.Utf8
import Conductor.Proofs.Time

/-!
# A saved record is the one loaded

Main statement: after a record has been saved, it is the one that stands in the store
(`inFile_of_save`).  The clock must show a year of four digits, and the name of the template must be a
proper text, as that of every record loaded is (`occursIn_of_stored`).
-/

namespace Conductor.Progress

open Act Schema Text

variable {p : Progress} {now : Moment} {path : Path} {w w' : World}

/-! ### The text of a record -/

/-- The names of the members of a record. -/
def names : List String :=
  ["activeTemplate", "lastUpdated", "completedSteps", "notCompletedSteps", "resumeFromLastStep"]

theorem readable_toJson {d : Nat} (ht : LoneHalf.occursIn p.activeTemplate = false)
    (hn : ∀ n ∈ p.completed ++ p.notCompleted, isHuge n = false) :
    Json.Readable (d + 2) (p.toJson now) := by
  have hints : ∀ ns : List Int, (∀ n ∈ ns, isHuge n = false) →
      Json.Readable (d + 1) (.arr (ns.map .int)) := by
    intro ns hns
    refine .arr fun v hv => ?_
    obtain ⟨n, hn, rfl⟩ := List.mem_map.mp hv
    refine .int (Nat.le_of_not_lt ?_)
    exact of_decide_eq_false (hns n hn)
  have hcompleted := hints p.completed fun n h => hn n (List.mem_append_left _ h)
  have hnotCompleted := hints p.notCompleted fun n h => hn n (List.mem_append_right _ h)
  have hnames : names.Nodup ∧ ∀ n ∈ names, LoneHalf.occursIn n = false := by decide
  refine .obj hnames.1 (fun m hm => hnames.2 m.1 (List.mem_map_of_mem hm)) ?_
  · intro m hm
    simp only [List.mem_cons, List.not_mem_nil, or_false] at hm
    rcases hm with rfl | rfl | rfl | rfl | rfl
    · exact .str ht
    · exact .str (Moment.occursIn_zuluText now)
    · exact hcompleted
    · exact hnotCompleted
    · exact .bool _

/-- Integers pass the check of a list of integers. -/
theorem all_itemsFrom_int (ns : List Int) (index : Nat) :
    Checked.all (itemsFrom integer index (ns.map .int)) = .ok ns := by
  induction ns generalizing index with
  | nil => rfl
  | cons n ns ih =>
    rw [List.map_cons, itemsFrom, Checked.all, ih]
    rfl

/-- The value of a record passes the check and gives the record. -/
theorem check_toJson (ht : LoneHalf.occursIn p.activeTemplate = false) (hnow : now.InCalendar) :
    check (p.toJson now) = .ok p := by
  have htext : text (.str p.activeTemplate) = .ok p.activeTemplate := by
    rw [text, whole, ht]
    rfl
  have hcompleted : list integer (.arr (p.completed.map .int)) = .ok p.completed :=
    all_itemsFrom_int p.completed 0
  have hnotCompleted : list integer (.arr (p.notCompleted.map .int)) = .ok p.notCompleted :=
    all_itemsFrom_int p.notCompleted 0
  have hmoment := Moment.moment_zuluText hnow
  have hflag : flag (.bool p.resume) = .ok p.resume := rfl
  unfold check toJson record
  simp only [fieldOr, FieldName.find?, Json.member?, List.find?, String.reduceBEq, Option.map_some,
    htext, hmoment, hcompleted, hnotCompleted, hflag, Checked.below]
  rfl

/-- The text of a record is read as the record. -/
theorem ofText_document (ht : LoneHalf.occursIn p.activeTemplate = false)
    (hn : ∀ n ∈ p.completed ++ p.notCompleted, isHuge n = false) (hnow : now.InCalendar) :
    ofText (p.toJson now).document = .record p := by
  have hread : Json.read (p.toJson now).document = .ok (p.toJson now) :=
    Json.read_document (readable_toJson ht hn)
  unfold ofText
  rw [hread]
  dsimp only
  rw [check_toJson ht hnow]

theorem not_mem_document (ht : LoneHalf.occursIn p.activeTemplate = false)
    (hn : ∀ n ∈ p.completed ++ p.notCompleted, isHuge n = false) :
    '\r' ∉ (p.toJson now).document.toList :=
  (readable_toJson (d := 0) ht hn).not_mem_document

/-! ### The record in the store -/

theorem eq_ok_of_save {u : Unit} (h : (save path p).exec w = (.ok u, w')) :
    path.hasNul = false ∧ (∀ n ∈ p.completed ++ p.notCompleted, isHuge n = false) ∧
      ∃ s s' : Store, s.writeText w.cwd path (p.toJson w.now).document = .ok s' ∧
        w' = { w with store := s' } := by
  unfold save at h
  -- The directory is made first, even where a number is then found too long to be written.
  obtain ⟨_, w₁, hdir, h⟩ := exec_bind_eq_ok_iff.mp h
  obtain ⟨s, -, rfl⟩ := eq_ok_of_ensureDirectory hdir
  cases hhuge : (p.completed ++ p.notCompleted).any isHuge with
  | true =>
    rw [hhuge, if_pos rfl] at h
    cases h
  | false =>
    rw [hhuge, if_neg Bool.false_ne_true] at h
    obtain ⟨_, w₂, hget, h⟩ := exec_bind_eq_ok_iff.mp h
    cases hget
    obtain ⟨hnul, s', hs', rfl⟩ := eq_ok_of_writeText h
    rw [List.any_eq_false] at hhuge
    exact ⟨hnul, fun n hn => eq_false_of_ne_true (hhuge n hn), s, s', hs', rfl⟩

theorem held_of_readBytes {s : Store} {cwd : Path} {bytes : List UInt8}
    (h : s.readBytes cwd path = .ok bytes) : s.held cwd path = .ok (!path.hasNul) := by
  unfold Store.held
  cases hs : s.stat cwd path with
  | ok r => cases path.hasNul <;> rfl
  | error cause =>
    unfold Store.readBytes at h
    rw [hs] at h
    cases h

/-- What is found depends on the bytes of the file alone. -/
theorem stored_congr {s s' : Store} {cwd : Path} {bytes : List UInt8}
    (h : s.readBytes cwd path = .ok bytes) (h' : s'.readBytes cwd path = .ok bytes) :
    stored s' cwd path = stored s cwd path := by
  unfold stored foundIn Store.readText
  rw [held_of_readBytes h, held_of_readBytes h', h, h']

theorem foundIn_of_readText {s : Store} {cwd : Path} {t : String}
    (h : s.readText cwd path = .ok t) : foundIn s cwd path = .ok (ofText t) := by
  obtain ⟨hnul, bytes, hb⟩ := Store.exists_readBytes_of_readText h
  unfold foundIn
  rw [held_of_readBytes hb, hnul, h]
  rfl

/-- The record is that of the file, which is there. -/
structure InFile (path : Path) (p : Progress) (w : World) : Prop where
  stored_eq : stored w.store w.cwd path = .ok p
  isFile : ∃ bytes, w.store.readBytes w.cwd path = .ok bytes

/-- A record that has been saved is that of the file. -/
theorem inFile_of_save {u : Unit} (ht : LoneHalf.occursIn p.activeTemplate = false)
    (hnow : w.now.InCalendar) (h : (save path p).exec w = (.ok u, w')) : InFile path p w' := by
  obtain ⟨hnul, hn, s, s', hwrite, rfl⟩ := eq_ok_of_save h
  have hfound : foundIn s' w.cwd path = .ok (.record p) := by
    rw [foundIn_of_readText (Store.readText_writeText hwrite hnul (not_mem_document ht hn)),
      ofText_document ht hn hnow]
  refine ⟨?_, _, Store.readBytes_writeBytes (Store.writeBytes_of_writeText hwrite)⟩
  show stored s' w.cwd path = .ok p
  unfold stored
  rw [hfound]

/-- A text that passes the check is a proper one. -/
theorem occursIn_of_text {v : Json} {s : String} (h : text v = .ok s) :
    LoneHalf.occursIn s = false := by
  unfold text at h
  split at h
  · unfold whole at h
    split at h
    · cases h
    · next hs =>
      cases h
      exact eq_false_of_ne_true hs
  · cases h

/-- A text that passes the check of a field is a proper one, if the absent one is. -/
theorem occursIn_of_fieldOr {members : List (String × Json)} {f : FieldName} {absent s : String}
    (ha : LoneHalf.occursIn absent = false) (h : fieldOr members f absent text = .ok s) :
    LoneHalf.occursIn s = false := by
  unfold fieldOr at h
  split at h
  · next name v _ =>
    cases hv : text v with
    | ok t =>
      rw [hv] at h
      exact occursIn_of_text (hv.trans h)
    | bad issues =>
      rw [hv] at h
      cases h
  · cases h
    exact ha

/-- The template of a record that passes the check has a proper name. -/
theorem occursIn_of_check {v : Json} (h : check v = .ok p) :
    LoneHalf.occursIn p.activeTemplate = false := by
  unfold check record at h
  split at h
  · next members =>
    obtain ⟨_, _, h₄, -, rfl⟩ := Checked.ap_eq_ok_iff.mp h
    obtain ⟨_, _, h₃, -, rfl⟩ := Checked.ap_eq_ok_iff.mp h₄
    obtain ⟨_, _, h₂, -, rfl⟩ := Checked.ap_eq_ok_iff.mp h₃
    obtain ⟨_, _, h₁, -, rfl⟩ := Checked.ap_eq_ok_iff.mp h₂
    cases hname : fieldOr members ⟨"activeTemplate", "active_template"⟩ "" text with
    | ok name =>
      rw [hname] at h₁
      cases h₁
      exact occursIn_of_fieldOr (by decide) hname
    | bad issues =>
      rw [hname] at h₁
      cases h₁
  · cases h

theorem occursIn_of_ofText {t : String} (h : ofText t = .record p) :
    LoneHalf.occursIn p.activeTemplate = false := by
  unfold ofText at h
  split at h
  · cases h
  · cases h
  · split at h
    · next hcheck =>
      cases h
      exact occursIn_of_check hcheck
    · cases h

/-- The template of a record in the store has a proper name. -/
theorem occursIn_of_stored {s : Store} {cwd : Path} (h : stored s cwd path = .ok p) :
    LoneHalf.occursIn p.activeTemplate = false := by
  have hfresh : LoneHalf.occursIn ({} : Progress).activeTemplate = false := by decide
  unfold stored at h
  split at h
  · cases h
  · next q hfound =>
    cases h
    unfold foundIn at hfound
    split at hfound
    · cases hfound
    · cases hfound
      exact hfresh
    · split at hfound
      · exact occursIn_of_ofText (Except.ok.inj hfound)
      · cases hfound
      · cases hfound
  · cases h
    exact hfresh
  · cases h

/-- A record with a step in it is that of a file. -/
theorem inFile_of_stored (h : stored w.store w.cwd path = .ok p) (hp : p ≠ {}) :
    InFile path p w := by
  refine ⟨h, ?_⟩
  cases hb : w.store.readBytes w.cwd path with
  | ok bytes => exact ⟨bytes, rfl⟩
  | error cause =>
    -- Without a file there is nothing but the fresh record.
    refine absurd ?_ hp
    unfold stored foundIn Store.readText at h
    rw [hb] at h
    cases hheld : w.store.held w.cwd path with
    | error e =>
      rw [hheld] at h
      cases h
    | ok there =>
      rw [hheld] at h
      cases there <;> cases hnul : path.hasNul <;> rw [hnul] at h <;> cases h <;> rfl

/-! ### Marking steps -/

theorem mem_sortedSet {n : Int} {ns : List Int} : n ∈ sortedSet ns ↔ n ∈ ns := by
  induction ns with
  | nil => rfl
  | cons m ns ih =>
    show n ∈ insertSorted m (sortedSet ns) ↔ _
    rw [mem_insertSorted, ih, List.mem_cons]

/-- A number that is put into a sorted list unless it is there. -/
theorem mem_ite_sortedSet {n m : Int} {ns : List Int} :
    n ∈ (if ns.contains m then ns else sortedSet (m :: ns)) ↔ n ∈ ns ∨ n = m := by
  split
  · next h =>
    have hm : m ∈ ns := List.contains_iff_mem.mp h
    constructor
    · exact .inl
    · rintro (h | rfl)
      · exact h
      · exact hm
  · rw [mem_sortedSet, List.mem_cons, or_comm]

theorem mem_completed_markCompleted {n index : Int} :
    n ∈ (p.markCompleted index).completed ↔ n ∈ p.completed ∨ n = index :=
  mem_ite_sortedSet

theorem mem_notCompleted_markCompleted {n index : Int} :
    n ∈ (p.markCompleted index).notCompleted ↔ n ∈ p.notCompleted ∧ n ≠ index := by
  simp [markCompleted]

theorem mem_notCompleted_markStarted {n index : Int} :
    n ∈ (p.markStarted index).notCompleted ↔ n ∈ p.notCompleted ∨ n = index :=
  mem_ite_sortedSet

theorem inFile_of_recordCompleted {index : Int} {u : Unit} (hnow : w.now.InCalendar)
    (h : (recordCompleted path index).exec w = (.ok u, w')) :
    ∃ p, stored w.store w.cwd path = .ok p ∧ InFile path (p.markCompleted index) w' := by
  unfold recordCompleted at h
  obtain ⟨p, w₁, hload, h⟩ := exec_bind_eq_ok_iff.mp h
  obtain ⟨log, hl⟩ := exec_load path w
  obtain ⟨hp, rfl⟩ := Prod.mk.inj (hl.symm.trans hload)
  obtain ⟨_, w₂, hsave, h⟩ := exec_bind_eq_ok_iff.mp h
  cases h
  have ht : LoneHalf.occursIn (p.markCompleted index).activeTemplate = false :=
    occursIn_of_stored (p := p) hp
  have hfile := inFile_of_save (w := w.withLog log) ht hnow hsave
  exact ⟨p, hp, hfile.stored_eq, hfile.isFile⟩

theorem inFile_of_recordStarted {index : Int} {u : Unit} (hnow : w.now.InCalendar)
    (h : (recordStarted path index).exec w = (.ok u, w')) :
    ∃ p, stored w.store w.cwd path = .ok p ∧ InFile path (p.markStarted index) w' := by
  unfold recordStarted at h
  obtain ⟨p, w₁, hload, h⟩ := exec_bind_eq_ok_iff.mp h
  obtain ⟨log, hl⟩ := exec_load path w
  obtain ⟨hp, rfl⟩ := Prod.mk.inj (hl.symm.trans hload)
  refine ⟨p, hp, ?_⟩
  cases hthere : p.notCompleted.contains index with
  | true =>
    -- Nothing is written: the step is in the record already, so the record comes from a file.
    rw [hthere, if_pos rfl] at h
    cases h
    have hsame : p.markStarted index = p := by
      unfold markStarted
      rw [hthere, if_pos rfl]
    have hne : p ≠ {} := by
      rintro rfl
      cases hthere
    rw [hsame]
    exact inFile_of_stored hp hne
  | false =>
    rw [hthere, if_neg Bool.false_ne_true] at h
    have ht : LoneHalf.occursIn (p.markStarted index).activeTemplate = false :=
      occursIn_of_stored (p := p) hp
    exact inFile_of_save (w := w.withLog log) ht hnow h

section

variable {bytes : List UInt8} {e : Fault} {index : Int}

/-- A save that fails leaves a file that is there as it is. -/
theorem readBytes_of_save_fault (h : (save path p).exec w = (.error e, w'))
    (hb : w.store.readBytes w.cwd path = .ok bytes) :
    w'.cwd = w.cwd ∧ w'.store.readBytes w.cwd path = .ok bytes := by
  unfold save at h
  rw [exec_bind] at h
  split at h
  · next hdir =>
    obtain ⟨s, hs, rfl⟩ := eq_ok_of_ensureDirectory hdir
    have hkept := Store.readBytes_ensureDirectory hs hb
    split at h
    · cases h
      exact ⟨rfl, hkept⟩
    · rw [exec_bind, exec_get] at h
      obtain rfl := eq_of_checked_fault h
      exact ⟨rfl, hkept⟩
  · next hdir =>
    cases h
    obtain rfl := eq_of_checked_fault hdir
    exact ⟨rfl, hb⟩

/-- Loading leaves a file as it is, so what fails behind it does. -/
theorem readBytes_of_load_bind_fault {g : Progress → Act Unit}
    (hg : ∀ p w, (g p).exec w = (.error e, w') → w.store.readBytes w.cwd path = .ok bytes →
      w'.cwd = w.cwd ∧ w'.store.readBytes w.cwd path = .ok bytes)
    (h : (load path >>= g).exec w = (.error e, w'))
    (hb : w.store.readBytes w.cwd path = .ok bytes) :
    w'.cwd = w.cwd ∧ w'.store.readBytes w.cwd path = .ok bytes := by
  obtain ⟨log, hl⟩ := exec_load path w
  rw [exec_bind, hl] at h
  split at h
  · next hload =>
    obtain ⟨-, rfl⟩ := Prod.mk.inj hload
    exact hg _ (w.withLog log) h hb
  · next hload =>
    obtain ⟨-, rfl⟩ := Prod.mk.inj hload
    cases h
    exact ⟨rfl, hb⟩

theorem readBytes_of_recordCompleted_fault (h : (recordCompleted path index).exec w = (.error e, w'))
    (hb : w.store.readBytes w.cwd path = .ok bytes) :
    w'.cwd = w.cwd ∧ w'.store.readBytes w.cwd path = .ok bytes := by
  refine readBytes_of_load_bind_fault (fun p w h hb => ?_) h hb
  rw [exec_bind] at h
  split at h
  · cases h
  · next hsave =>
    cases h
    exact readBytes_of_save_fault hsave hb

theorem readBytes_of_recordStarted_fault (h : (recordStarted path index).exec w = (.error e, w'))
    (hb : w.store.readBytes w.cwd path = .ok bytes) :
    w'.cwd = w.cwd ∧ w'.store.readBytes w.cwd path = .ok bytes := by
  refine readBytes_of_load_bind_fault (fun p w h hb => ?_) h hb
  split at h
  · cases h
  · exact readBytes_of_save_fault h hb

end

end Conductor.Progress
