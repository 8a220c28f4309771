import Conductor.Proofs.State.Signals
import Conductor.Proofs.Store

/-!
# What a signal file can bring

Whatever a signal file holds and whatever its path leads to, reading it safely yields a signal, none
or a fault.  It yields a signal iff the file holds the JSON object of one in a version that has not
been seen (`Tells`), and a fault in three cases only, in which what is wrong is not taken for a
malformed signal (`Unheard`): no path can be what the path is, the bytes are not UTF-8, or the JSON
text has an integer of too many digits or is nested too deeply.  Main statements:
`readSafely_eq_error_iff` and `readSafely_eq_some_iff`.
-/

namespace Conductor

open Text

/-- The text is the JSON object of a signal. -/
def Signal.IsText (signal : Signal) (text : String) : Prop :=
  isBlankText text = false ∧
    ∃ members, Json.read text = .ok (.obj members) ∧ Signal.ofMembers members = .ok signal

/-- The text goes beyond what is read of JSON, although it need not be malformed. -/
def Json.Overruns (text : String) (e : Json.ReadError) : Prop :=
  isBlankText text = false ∧ Json.read text = .error e ∧ ∀ unread, e ≠ .malformed unread

namespace SignalWay

/-- The file at a path holds a text in a version that has not been seen. -/
def Brings (path : Path) (w : World) (text : String) : Prop :=
  path.hasNul = false ∧ ∃ place content modified,
    w.store.stat w.cwd path = .ok (place, .file content modified) ∧
      Store.textOf content = .ok text ∧
      Mailbox.valueAt? w.mailbox.seen path ≠ some ⟨modified, text⟩

/-- The file at a path holds a signal in a version that has not been seen. -/
def Tells (path : Path) (w : World) (signal : Signal) : Prop :=
  ∃ text, Brings path w text ∧ signal.IsText text

/-- Why the file at a path is not heard: what is wrong with it is not taken for a malformed
signal. -/
inductive Unheard (path : Path) (w : World) : Fault → Prop
  /-- The path holds a character that no path can hold. -/
  | nul (h : path.hasNul = true) : Unheard path w (.read .nul)
  /-- The bytes of the file are not UTF-8. -/
  | undecodable {place content modified e} (hp : path.hasNul = false)
    (hs : w.store.stat w.cwd path = .ok (place, .file content modified))
    (hc : Store.textOf content = .error e) : Unheard path w (.read (.undecodable e))
  /-- The text goes beyond what is read of JSON. -/
  | overrun {text e} (ht : Brings path w text) (he : Json.Overruns text e) :
    Unheard path w (.json e text)

variable {path : Path} {w : World} {text : String} {signal : Signal} {e : Fault}

/-! ### What is made of a text -/

theorem heard_ofText_eq_some_iff :
    heard (Signal.ofText path text) = .ok (some signal) ↔ signal.IsText text := by
  unfold Signal.ofText Signal.IsText
  cases isBlankText text with
  | true => simp [heard]
  | false =>
    rcases Json.read text with r | v
    · cases r <;> simp [heard]
    · cases v with
      | obj members => cases h : Signal.ofMembers members <;> simp [heard, h]
      | _ => simp [heard]

theorem heard_ofText_eq_error_iff :
    heard (Signal.ofText path text) = .error e ↔
      ∃ r, Json.Overruns text r ∧ e = .json r text := by
  unfold Signal.ofText Json.Overruns
  cases isBlankText text with
  | true => simp [heard]
  | false =>
    rcases Json.read text with r | v
    · cases r with
      | malformed unread => simp [heard]
      | hugeInteger digits =>
        simp only [heard, Bool.false_eq_true, if_false, Except.error.injEq, true_and]
        constructor
        · exact fun h => ⟨_, ⟨rfl, nofun⟩, h.symm⟩
        · rintro ⟨r, ⟨rfl, -⟩, rfl⟩
          rfl
      | tooDeep inArray =>
        simp only [heard, Bool.false_eq_true, if_false, Except.error.injEq, true_and]
        constructor
        · exact fun h => ⟨_, ⟨rfl, nofun⟩, h.symm⟩
        · rintro ⟨r, ⟨rfl, -⟩, rfl⟩
          rfl
    · cases v with
      | obj members => cases h : Signal.ofMembers members <;> simp [heard, h]
      | _ => simp [heard]

/-! ### What is made of a file -/

theorem readText_of_textOf {place : Place} {content : List UInt8} {modified : Int}
    (hp : path.hasNul = false)
    (hs : w.store.stat w.cwd path = .ok (place, .file content modified))
    (hc : Store.textOf content = .ok text) : w.store.readText w.cwd path = .ok text := by
  rw [Store.readText_of_stat hp hs, hc]
  rfl

/-- A text in a version that has not been seen is read as a signal. -/
theorem lookAtFile_of_brings (h : Brings path w text) :
    (lookAtFile path w.store w.cwd w.mailbox).1 = Signal.ofText path text := by
  obtain ⟨hp, place, content, modified, hs, hc, hv⟩ := h
  simp [lookAtFile, hp, hs, readText_of_textOf hp hs hc, Mailbox.notice, hv]

theorem lookAtFile_of_undecodable {place : Place} {content : List UInt8} {modified : Int}
    {e : Utf8.DecodeError} (hp : path.hasNul = false)
    (hs : w.store.stat w.cwd path = .ok (place, .file content modified))
    (hc : Store.textOf content = .error e) :
    (lookAtFile path w.store w.cwd w.mailbox).1 = .error (.read (.undecodable e)) := by
  have htext : w.store.readText w.cwd path = .error (.undecodable e) := by
    rw [Store.readText_of_stat hp hs, hc]
    rfl
  simp [lookAtFile, hp, hs, htext]

/-- A file brings a text that has not been seen, it is not heard, or it counts as no signal. -/
theorem lookAtFile_cases (path : Path) (w : World) :
    (∃ text, Brings path w text) ∨
      (∃ e, Unheard path w e ∧ (lookAtFile path w.store w.cwd w.mailbox).1 = .error e) ∨
      heard (lookAtFile path w.store w.cwd w.mailbox).1 = .ok none := by
  by_cases hp : path.hasNul = true
  · exact .inr (.inl ⟨_, .nul hp, by simp [lookAtFile, hp]⟩)
  · rw [Bool.not_eq_true] at hp
    rcases hs : w.store.stat w.cwd path with cause | ⟨place, node⟩
    · refine .inr (.inr ?_)
      cases cause <;> simp [lookAtFile, hp, hs, heard]
    · cases node with
      | directory =>
        refine .inr (.inr ?_)
        have htext : w.store.readText w.cwd path
            = .error (.file ⟨.isDirectory, path.toString⟩) := by
          simp [Store.readText, Store.readBytes, hp, hs, bind, Except.bind]
        simp [lookAtFile, hp, hs, htext, heard]
      | file content modified =>
        rcases hc : Store.textOf content with e | text
        · exact .inr (.inl ⟨_, .undecodable hp hs hc, lookAtFile_of_undecodable hp hs hc⟩)
        · by_cases hv : Mailbox.valueAt? w.mailbox.seen path = some ⟨modified, text⟩
          · refine .inr (.inr ?_)
            simp [lookAtFile, hp, hs, readText_of_textOf hp hs hc, Mailbox.notice, hv, heard]
          · exact .inl ⟨text, hp, place, content, modified, hs, hc, hv⟩

/-- A file is not heard in three cases only. -/
theorem heard_lookAtFile_eq_error_iff :
    heard (lookAtFile path w.store w.cwd w.mailbox).1 = .error e ↔ Unheard path w e := by
  constructor
  · intro h
    rcases lookAtFile_cases path w with ⟨text, ht⟩ | ⟨e', hu, he⟩ | hnone
    · rw [lookAtFile_of_brings ht] at h
      obtain ⟨r, hr, rfl⟩ := heard_ofText_eq_error_iff.mp h
      exact .overrun ht hr
    · rw [he] at h
      cases hu <;> cases h
      · exact .nul ‹_›
      · exact .undecodable ‹_› ‹_› ‹_›
      · exact .overrun ‹_› ‹_›
    · cases hnone.symm.trans h
  · intro h
    cases h with
    | nul hp => simp [lookAtFile, hp, heard]
    | undecodable hp hs hc =>
      rw [lookAtFile_of_undecodable hp hs hc]
      rfl
    | overrun ht he =>
      rw [lookAtFile_of_brings ht]
      exact heard_ofText_eq_error_iff.mpr ⟨_, he, rfl⟩

/-- A file is heard as a signal iff it holds the JSON object of one that has not been seen. -/
theorem heard_lookAtFile_eq_some_iff :
    heard (lookAtFile path w.store w.cwd w.mailbox).1 = .ok (some signal) ↔
      Tells path w signal := by
  constructor
  · intro h
    rcases lookAtFile_cases path w with ⟨text, ht⟩ | ⟨e, hu, -⟩ | hnone
    · rw [lookAtFile_of_brings ht] at h
      exact ⟨text, ht, heard_ofText_eq_some_iff.mp h⟩
    · cases (heard_lookAtFile_eq_error_iff.mpr hu).symm.trans h
    · cases hnone.symm.trans h
  · rintro ⟨text, ht, hsignal⟩
    rw [lookAtFile_of_brings ht]
    exact heard_ofText_eq_some_iff.mpr hsignal

/-! ### Reading safely -/

theorem fst_exec_readSafely (way : SignalWay) (dir : Path) (w : World) :
    ((readSafely way dir).exec w).1 = heard (look way dir w).1 := by
  obtain ⟨log, h⟩ := exec_readSafely way dir w
  rw [h]

/-- What is noted does not change what is read. -/
theorem fst_exec_readSafely_withLog (way : SignalWay) (dir : Path) (w : World)
    (log : Array Record) :
    ((readSafely way dir).exec (w.withLog log)).1 = ((readSafely way dir).exec w).1 := by
  rw [fst_exec_readSafely, fst_exec_readSafely]
  cases way <;> rfl

/-- Reading a signal safely yields a signal or none. -/
def Hears (way : SignalWay) (dir : Path) (w : World) : Prop :=
  ∃ signal, ((readSafely way dir).exec w).1 = .ok signal

variable {stateDir dir : Path}

theorem hears_of_ne_error {way : SignalWay}
    (h : ∀ e, ((readSafely way dir).exec w).1 ≠ .error e) : Hears way dir w := by
  unfold Hears
  rcases hr : ((readSafely way dir).exec w).1 with e | signal
  · exact absurd hr (h e)
  · exact ⟨signal, rfl⟩

/-- Reading the signal file ends in a fault iff the file is not heard. -/
theorem readSafely_eq_error_iff :
    ((readSafely (.file stateDir) dir).exec w).1 = .error e ↔
      Unheard (signalFile stateDir dir) w e := by
  rw [fst_exec_readSafely]
  exact heard_lookAtFile_eq_error_iff

/-- Reading the signal file yields a signal iff the file tells it. -/
theorem readSafely_eq_some_iff :
    ((readSafely (.file stateDir) dir).exec w).1 = .ok (some signal) ↔
      Tells (signalFile stateDir dir) w signal := by
  rw [fst_exec_readSafely]
  exact heard_lookAtFile_eq_some_iff

end SignalWay

end Conductor
