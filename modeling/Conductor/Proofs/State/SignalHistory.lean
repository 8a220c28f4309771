import Conductor.Proofs.Json.RoundTrip
import Conductor.Proofs.State.SignalFile
import Mathlib.Data.List.Basic

/-!
# Histories of a signal file

The signal file of a working directory is rewritten, deleted and read, in any order (`History`).  A
read remembers the record that it found, which is the time of the file and its text, whatever is
made of it: a signal, none or a fault.  So what has been seen can be told from the events alone
(`seenAfter`), as can what the file holds (`heldAfter`, `History.tracks`).

Main statement: a read reports the record of the file iff the file is there and its record is not
the one that was seen last, and says nothing otherwise (`History.reports_once`).  Hence there is no
news after a read until the file is rewritten (`not_isNews_after_read`).

A record is reported as a signal, as none where it is blank, and as one fault where it is malformed
(`Reports`).  A text that goes beyond what is read of JSON is reported otherwise, malformed or not
(`not_isReport_of_ones`).
-/

namespace Conductor

open Act Text

/-- What is wrong with a text that is no signal, although it is neither blank nor beyond what is
read of JSON. -/
inductive Signal.Malformed (path : Path) (text : String) : String → Prop
  | notJson {unread : Nat} (h : Json.read text = .error (.malformed unread)) :
    Malformed path text (s!"Failed to parse behavior file {path}: "
      ++ (Json.ReadError.malformed unread).message text)
  | notObject {v : Json} (h : Json.read text = .ok v) (hv : ∀ members, v ≠ .obj members) :
    Malformed path text s!"Behavior file {path} must contain a JSON object"
  | noSignal {members : List (String × Json)} {e : SignalError}
    (h : Json.read text = .ok (.obj members)) (he : Signal.ofMembers members = .error e) :
    Malformed path text s!"Invalid behavior signal in {path}: {e.message}"

namespace SignalWay

/-- What a record that is news is reported as, by its text. -/
inductive Reports (path : Path) (text : String) : Except Fault (Option Signal) → Prop
  | blank (h : isBlankText text = true) : Reports path text (.ok none)
  | signal {signal : Signal} (h : signal.IsText text) : Reports path text (.ok (some signal))
  | malformed {message : String} (hfilled : isBlankText text = false)
    (h : Signal.Malformed path text message) : Reports path text (.error (.signal message))
  /-- The text goes beyond what is read of JSON. -/
  | overrun {e : Json.ReadError} (h : Json.Overruns text e) :
    Reports path text (.error (.json e text))

/-- What a path leads to: a record, which is the time of the file and its text, or nothing. -/
inductive Holds (path : Path) (w : World) : Option Version → Prop
  | file {place : Place} {content : List UInt8} {modified : Int} {text : String}
    (hs : w.store.stat w.cwd path = .ok (place, .file content modified))
    (hc : Store.textOf content = .ok text) : Holds path w (some ⟨modified, text⟩)
  | nothing (hs : w.store.stat w.cwd path = .error .missing) : Holds path w none

/-- What happens to a signal file. -/
inductive Event where
  | rewritten (record : Version)
  | deleted
  | read (answer : Except Fault (Option Signal))

/-- The signal file of a working directory is rewritten, deleted and read, one after the other, the
newest first; what else happens leaves it alone and what has been seen of it. -/
inductive History (stateDir dir : Path) (w₀ : World) : List Event → World → Prop
  | nil : History stateDir dir w₀ [] w₀
  | aside {past : List Event} {w w' : World} (h : History stateDir dir w₀ past w)
    (hfile : ∀ held, Holds (signalFile stateDir dir) w held →
      Holds (signalFile stateDir dir) w' held)
    (hseen : Mailbox.valueAt? w'.mailbox.seen (signalFile stateDir dir) =
      Mailbox.valueAt? w.mailbox.seen (signalFile stateDir dir)) : History stateDir dir w₀ past w'
  | rewritten {past : List Event} {w w' : World} {record : Version}
    (h : History stateDir dir w₀ past w)
    (hfile : Holds (signalFile stateDir dir) w' (some record)) (hbox : w'.mailbox = w.mailbox) :
    History stateDir dir w₀ (.rewritten record :: past) w'
  | deleted {past : List Event} {w w' : World} (h : History stateDir dir w₀ past w)
    (hfile : Holds (signalFile stateDir dir) w' none) (hbox : w'.mailbox = w.mailbox) :
    History stateDir dir w₀ (.deleted :: past) w'
  | read {past : List Event} {w w' : World} {answer : Except Fault (Option Signal)}
    (h : History stateDir dir w₀ past w)
    (hx : (SignalWay.read (.file stateDir) dir).exec w = (answer, w')) :
    History stateDir dir w₀ (.read answer :: past) w'

/-- The record that the file holds after some events. -/
def heldAfter (first : Option Version) : List Event → Option Version
  | [] => first
  | .rewritten record :: _ => some record
  | .deleted :: _ => none
  | .read _ :: past => heldAfter first past

/-- The record that the last read that found the file has seen. -/
def seenAfter (first : Option Version) : List Event → Option Version
  | [] => none
  | .read _ :: past => (heldAfter first past).or (seenAfter first past)
  | _ :: past => seenAfter first past

/-- The file is there, and its record is not the one that was seen last. -/
def IsNews (first : Option Version) (past : List Event) : Prop :=
  ∃ record, heldAfter first past = some record ∧ seenAfter first past ≠ some record

/-- A read answers: with a report if there is news, with nothing else. -/
inductive Answers (path : Path) (first : Option Version) (past : List Event) :
    Except Fault (Option Signal) → Prop
  | news {record : Version} {answer : Except Fault (Option Signal)}
    (hheld : heldAfter first past = some record) (hseen : seenAfter first past ≠ some record)
    (h : Reports path record.text answer) : Answers path first past answer
  | nothing (h : ¬IsNews first past) : Answers path first past (.ok none)

variable {path stateDir dir : Path} {text : String} {r : Except Fault (Option Signal)}
  {first held seen : Option Version} {past : List Event} {w w₀ w' : World}

/-! ### Reports -/

theorem reports_ofText (path : Path) (text : String) :
    Reports path text (Signal.ofText path text) := by
  unfold Signal.ofText
  split
  · next hblank => exact .blank hblank
  · next hfilled =>
    rw [Bool.not_eq_true] at hfilled
    split
    · next hread => exact .malformed hfilled (.notJson hread)
    · next hnot hread => exact .overrun ⟨hfilled, hread, hnot⟩
    · next members hread =>
      split
      · next hsignal => exact .signal ⟨hfilled, members, hread, hsignal⟩
      · next hsignal => exact .malformed hfilled (.noSignal hread hsignal)
    · next hnot hread => exact .malformed hfilled (.notObject hread hnot)

/-- A text is reported in one way. -/
theorem Reports.ofText_eq (h : Reports path text r) : Signal.ofText path text = r := by
  unfold Signal.ofText
  cases h with
  | blank h => rw [if_pos h]
  | signal h =>
    obtain ⟨hfilled, members, hread, hsignal⟩ := h
    rw [hfilled, if_neg Bool.false_ne_true, hread]
    dsimp only
    rw [hsignal]
  | malformed hfilled h =>
    rw [hfilled, if_neg Bool.false_ne_true]
    cases h with
    | notJson hread => rw [hread]
    | notObject hread hv =>
      rw [hread]
      split
      · next heq => cases heq
      · next heq => cases heq
      · next heq => cases heq; exact absurd rfl (hv _)
      · rfl
    | noSignal hread hsignal =>
      rw [hread]
      dsimp only
      rw [hsignal]
  | overrun h =>
    obtain ⟨hfilled, hread, hnot⟩ := h
    rw [hfilled, if_neg Bool.false_ne_true, hread]
    split
    · next heq => cases heq; exact absurd rfl (hnot _)
    · next heq => cases heq; rfl
    · next heq => cases heq
    · next heq => cases heq

/-! ### One read -/

/-- What a path leads to depends on the files alone. -/
theorem Holds.of_files (h : Holds path w held) (hstore : w'.store = w.store)
    (hcwd : w'.cwd = w.cwd) : Holds path w' held := by
  cases h with
  | file hs hc =>
    rw [← hstore, ← hcwd] at hs
    exact .file hs hc
  | nothing hs =>
    rw [← hstore, ← hcwd] at hs
    exact .nothing hs

/-- The answer of a read by what the file holds and what has been seen of it. -/
def told (path : Path) (held seen : Option Version) : Except Fault (Option Signal) :=
  match held with
  | none => .ok none
  | some record => if seen = some record then .ok none else Signal.ofText path record.text

theorem lookAtFile_of_holds (hp : path.hasNul = false) (h : Holds path w held) :
    (lookAtFile path w.store w.cwd w.mailbox).1 =
        told path held (Mailbox.valueAt? w.mailbox.seen path) ∧
      Mailbox.valueAt? (lookAtFile path w.store w.cwd w.mailbox).2.seen path =
        held.or (Mailbox.valueAt? w.mailbox.seen path) := by
  cases h with
  | nothing hs =>
    unfold lookAtFile
    rw [hp, if_neg Bool.false_ne_true, hs]
    exact ⟨rfl, rfl⟩
  | @file place content modified text hs hc =>
    have htext := readText_of_textOf hp hs hc
    by_cases hv : Mailbox.valueAt? w.mailbox.seen path = some ⟨modified, text⟩
    · simp [lookAtFile, told, hp, hs, htext, Mailbox.notice, hv]
    · simp [lookAtFile, told, hp, hs, htext, Mailbox.notice, hv, Mailbox.valueAt?_setValue_self]

theorem answers_told (path : Path) (first : Option Version) (past : List Event) :
    Answers path first past (told path (heldAfter first past) (seenAfter first past)) := by
  cases hheld : heldAfter first past with
  | none =>
    refine .nothing ?_
    rintro ⟨record, hsome, -⟩
    cases hheld.symm.trans hsome
  | some record =>
    unfold told
    dsimp only
    by_cases hseen : seenAfter first past = some record
    · rw [if_pos hseen]
      refine .nothing ?_
      rintro ⟨record', hsome, hne⟩
      cases hheld.symm.trans hsome
      exact hne hseen
    · rw [if_neg hseen]
      exact .news hheld hseen (reports_ofText path record.text)

/-! ### Histories -/

/-- What the file holds and what has been seen of it is told by the events. -/
theorem History.tracks (hp : (signalFile stateDir dir).hasNul = false)
    (hfirst : Holds (signalFile stateDir dir) w₀ first)
    (hfresh : Mailbox.valueAt? w₀.mailbox.seen (signalFile stateDir dir) = none)
    (h : History stateDir dir w₀ past w) :
    Holds (signalFile stateDir dir) w (heldAfter first past) ∧
      Mailbox.valueAt? w.mailbox.seen (signalFile stateDir dir) = seenAfter first past := by
  induction h with
  | nil => exact ⟨hfirst, hfresh⟩
  | aside _ hfile hseen ih => exact ⟨hfile _ ih.1, hseen.trans ih.2⟩
  | rewritten _ hfile hbox ih => exact ⟨hfile, hbox ▸ ih.2⟩
  | deleted _ hfile hbox ih => exact ⟨hfile, hbox ▸ ih.2⟩
  | @read past w w' answer _ hx ih =>
    rw [exec_read] at hx
    obtain ⟨-, rfl⟩ := Prod.mk.inj hx
    refine ⟨?_, ?_⟩
    · -- A read changes no file.
      exact ih.1.of_files rfl rfl
    · rw [seenAfter, ← ih.2]
      exact (lookAtFile_of_holds hp ih.1).2

/-- Each read answers by what was there and what had been seen. -/
theorem History.answers (hp : (signalFile stateDir dir).hasNul = false)
    (hfirst : Holds (signalFile stateDir dir) w₀ first)
    (hfresh : Mailbox.valueAt? w₀.mailbox.seen (signalFile stateDir dir) = none)
    (h : History stateDir dir w₀ past w) {later earlier : List Event}
    {answer : Except Fault (Option Signal)} (hpast : past = later ++ .read answer :: earlier) :
    Answers (signalFile stateDir dir) first earlier answer := by
  -- The history is followed back to that read, so what came later varies.
  induction h generalizing later with
  | nil => cases later <;> cases hpast
  | aside _ _ _ ih => exact ih hpast
  | rewritten _ _ _ ih | deleted _ _ _ ih =>
    cases later with
    | nil => cases hpast
    | cons _ later => exact ih (List.cons.inj hpast).2
  | read h hx ih =>
    cases later with
    | cons _ later => exact ih (List.cons.inj hpast).2
    | nil =>
      cases hpast
      obtain ⟨hholds, hseen⟩ := h.tracks hp hfirst hfresh
      rw [exec_read] at hx
      obtain ⟨rfl, -⟩ := Prod.mk.inj hx
      have htold := (lookAtFile_of_holds hp hholds).1
      rw [hseen] at htold
      show Answers _ _ _ (lookAtFile _ _ _ _).1
      rw [htold]
      exact answers_told _ _ _

/-- After a read there is no news until the file is rewritten. -/
theorem not_isNews_after_read (first : Option Version) (answer : Except Fault (Option Signal))
    (earlier : List Event) {between : List Event} (h : ∀ record, .rewritten record ∉ between) :
    ¬IsNews first (between ++ .read answer :: earlier) := by
  have hread : ∀ past answer, ¬IsNews first past → ¬IsNews first (.read answer :: past) := by
    rintro past answer hnot ⟨record, hheld, hseen⟩
    rw [heldAfter] at hheld
    rw [seenAfter, hheld] at hseen
    exact hseen rfl
  induction between with
  | nil =>
    rintro ⟨record, hheld, hseen⟩
    change heldAfter first earlier = some record at hheld
    apply hseen
    rw [List.nil_append, seenAfter, hheld]
    rfl
  | cons event between ih =>
    have hnot := ih fun record hmem => h record (List.mem_cons_of_mem _ hmem)
    cases event with
    | rewritten record => exact absurd (List.mem_cons_self ..) (h record)
    | deleted => exact fun ⟨_, hheld, _⟩ => nomatch hheld
    | read answer' => exact hread _ _ hnot

/-- A read reports the record of the file iff it is not the one that was seen last, and any other
read says nothing.  So of the reads between two rewrites only the first can report, and a read that
follows a change does not miss it. -/
theorem History.reports_once (hp : (signalFile stateDir dir).hasNul = false)
    (hfirst : Holds (signalFile stateDir dir) w₀ first)
    (hfresh : Mailbox.valueAt? w₀.mailbox.seen (signalFile stateDir dir) = none)
    (h : History stateDir dir w₀ past w) :
    (∀ later answer earlier, past = later ++ .read answer :: earlier →
      Answers (signalFile stateDir dir) first earlier answer) ∧
    (∀ later answer between answer' earlier,
      past = later ++ .read answer :: (between ++ .read answer' :: earlier) →
      (∀ record, .rewritten record ∉ between) →
      answer = .ok none ∧ ¬IsNews first (between ++ .read answer' :: earlier)) ∧
    ∀ later answer record earlier, past = later ++ .read answer :: .rewritten record :: earlier →
      seenAfter first earlier ≠ some record →
      Reports (signalFile stateDir dir) record.text answer := by
  refine ⟨fun later answer earlier hpast => h.answers hp hfirst hfresh hpast,
    fun later answer between answer' earlier hpast hbetween => ?_,
    fun later answer record earlier hpast hchanged => ?_⟩
  · have hold := not_isNews_after_read first answer' earlier hbetween
    cases h.answers hp hfirst hfresh hpast with
    | news hheld hseen _ => exact absurd ⟨_, hheld, hseen⟩ hold
    | nothing => exact ⟨rfl, hold⟩
  · cases h.answers hp hfirst hfresh hpast with
    | news hheld _ hreports =>
      cases hheld
      exact hreports
    | nothing hnot => exact absurd ⟨record, rfl, hchanged⟩ hnot

/-! ### A signal that is left in place -/

/-- The text of a signal. -/
def stopText : String := "\x7b\"action\": \"stop\"\x7d"

/-- A working directory whose signal file, if there is one, holds a text since a time. -/
def noted (text : String) (modified : Option Int) (box : Mailbox) : World where
  store :=
    { entries := [(["work"], .directory), (["work", "state"], .directory),
        (["work", "state", "memory"], .directory)] ++
        (modified.map fun m => (["work", "state", "memory", "behavior.json"],
          Node.file (Utf8.encodeText text) m)).toList
      clock := 0 }
  cwd := ⟨.slash, ["work"]⟩
  mailbox := box

theorem holds_noted (htext : '\r' ∉ text.toList) (m : Int) (box : Mailbox) :
    Holds (signalFile ⟨.none, ["state"]⟩ ⟨.slash, ["work"]⟩) (noted text (some m) box)
      (some ⟨m, text⟩) :=
  .file rfl (Store.textOf_encodeText htext)

theorem holds_noted_none (text : String) (box : Mailbox) :
    Holds (signalFile ⟨.none, ["state"]⟩ ⟨.slash, ["work"]⟩) (noted text none box) none :=
  .nothing rfl

/-- What happens to this file: a signal is read once and counts again when the file is touched. -/
def stopEvents : List Event :=
  [.read (.ok (some ⟨.stop, none, none⟩)), .rewritten ⟨2, stopText⟩, .read (.ok none), .deleted,
    .read (.ok none), .read (.ok (some ⟨.stop, none, none⟩)), .rewritten ⟨1, stopText⟩]

theorem read_noted {text : String} {m : Option Int} {box : Mailbox} {past : List Event}
    (h : History ⟨.none, ["state"]⟩ ⟨.slash, ["work"]⟩ (noted text none {}) past
      (noted text m box))
    (answer : Except Fault (Option Signal))
    (ha : (look (.file ⟨.none, ["state"]⟩) ⟨.slash, ["work"]⟩ (noted text m box)).1 = answer) :
    History ⟨.none, ["state"]⟩ ⟨.slash, ["work"]⟩ (noted text none {}) (.read answer :: past)
      (noted text m (look (.file ⟨.none, ["state"]⟩) ⟨.slash, ["work"]⟩ (noted text m box)).2) :=
  .read h ((exec_read _ _ _).trans (by rw [ha]; rfl))

theorem exists_history_stop :
    ∃ w, History ⟨.none, ["state"]⟩ ⟨.slash, ["work"]⟩ (noted stopText none {}) stopEvents w := by
  have htext : '\r' ∉ stopText.toList := by decide
  have hfresh : History ⟨.none, ["state"]⟩ ⟨.slash, ["work"]⟩ (noted stopText none {}) [] _ := .nil
  have hwritten := hfresh.rewritten (holds_noted htext 1 {}) rfl
  have hread := read_noted hwritten (.ok (some ⟨.stop, none, none⟩)) (by decide +kernel)
  have hagain := read_noted hread (.ok none) (by decide +kernel)
  have hgone := History.deleted hagain (holds_noted_none stopText _) rfl
  have hnone := read_noted hgone (.ok none) (by decide +kernel)
  have htouched := History.rewritten hnone (holds_noted htext 2 _) rfl
  exact ⟨_, read_noted htouched _ (by decide +kernel)⟩

/-- A signal is reported once, and once more when its file has another time; a deletion in between
does not bring it back. -/
theorem stop_reported_once :
    (signalFile ⟨.none, ["state"]⟩ ⟨.slash, ["work"]⟩).hasNul = false ∧
    ∃ w, History ⟨.none, ["state"]⟩ ⟨.slash, ["work"]⟩ (noted stopText none {}) stopEvents w ∧
      ∀ later answer earlier, stopEvents = later ++ .read answer :: earlier →
        Answers (signalFile ⟨.none, ["state"]⟩ ⟨.slash, ["work"]⟩) none earlier answer := by
  obtain ⟨w, h⟩ := exists_history_stop
  have hreports := History.reports_once (by decide) (holds_noted_none stopText {}) rfl h
  exact ⟨by decide, w, h, hreports.1⟩

/-- A text that is written to a fresh file is reported. -/
theorem exists_history_news {text : String} (htext : '\r' ∉ text.toList)
    {answer : Except Fault (Option Signal)}
    (h : Reports (signalFile ⟨.none, ["state"]⟩ ⟨.slash, ["work"]⟩) text answer) :
    ∃ w, History ⟨.none, ["state"]⟩ ⟨.slash, ["work"]⟩ (noted text none {})
      [.read answer, .rewritten ⟨1, text⟩] w := by
  have hholds := holds_noted htext 1 {}
  have htold := (lookAtFile_of_holds (by decide) hholds).1
  have hfresh : History ⟨.none, ["state"]⟩ ⟨.slash, ["work"]⟩ (noted text none {}) [] _ := .nil
  have hwritten := hfresh.rewritten hholds rfl
  exact ⟨_, read_noted hwritten _ (htold.trans h.ofText_eq)⟩

end SignalWay

/-! ### An integer of too many digits -/

/-- A text of digits that are too many is not read, although it is one number. -/
theorem Json.read_of_long {ds : List Char} (hd : ∀ c ∈ ds, Json.isDigit c = true)
    (hzero : ds.head? ≠ some '0') (hlong : maxDigits < ds.length) :
    Json.read (String.ofList ds) = .error (.hugeInteger ds.length) := by
  obtain ⟨c, cs, rfl⟩ := List.exists_cons_of_length_pos (Nat.zero_lt_of_lt hlong)
  have hc : Json.isDigit c = true := hd c (List.mem_cons_self ..)
  have hspace : Json.isSpace c = false := (Json.begins_of_isDigit hc).1
  have hends : Json.EndsNumber [] := nofun
  obtain ⟨htake, hdrop⟩ := Json.takeWhile_digits hd hends
  rw [List.append_nil] at htake hdrop
  have hnumber : Json.readNumber false (c :: cs) = .error (.hugeInteger (c :: cs).length) := by
    have hne : c ≠ '0' := fun h => hzero (congrArg some h)
    rw [Json.readNumber, hc, if_neg (by decide), if_neg hne, htake, hdrop]
    dsimp only
    rw [Json.readFraction_of_endsNumber hends]
    dsimp only
    rw [Json.readExponent_of_endsNumber hends]
    dsimp only
    rw [if_pos (by rfl), if_pos hlong]
  unfold Json.read Json.readChars
  rw [String.toList_ofList, Json.skipSpace_cons hspace, Json.readValue_of_isDigit hc, hnumber]
  rfl

namespace SignalWay

/-- A number of as many digits. -/
def ones (count : Nat) : String := String.ofList (List.replicate count '1')

theorem not_mem_ones (count : Nat) : '\r' ∉ (ones count).toList := by
  rw [ones, String.toList_ofList, List.mem_replicate]
  exact fun h => absurd h.2 (by decide)

theorem overruns_ones {count : Nat} (hlong : maxDigits < count) :
    Json.Overruns (ones count) (.hugeInteger count) := by
  refine ⟨?_, ?_, nofun⟩
  · rw [isBlankText, ones, String.toList_ofList, allBlank, List.all_replicate,
      if_neg (Nat.ne_of_gt (Nat.zero_lt_of_lt hlong))]
    rfl
  · have hdigits : ∀ c ∈ List.replicate count '1', Json.isDigit c = true := by
      intro c hc
      rw [List.eq_of_mem_replicate hc]
      rfl
    have hone : (List.replicate count '1').head? ≠ some '0' := by
      rw [List.head?_replicate]
      split <;> decide
    have hread := Json.read_of_long hdigits hone (by rwa [List.length_replicate])
    rwa [List.length_replicate] at hread

/-- A report is a signal or none, or the fault of a malformed one. -/
def IsReport : Except Fault (Option Signal) → Prop
  | .ok _ => True
  | .error (.signal _) => True
  | .error _ => False

/-- A file that holds one number of too many digits is news, and what is reported is none of what a
record can be reported as. -/
theorem not_isReport_of_ones :
    ∃ answer w, History ⟨.none, ["state"]⟩ ⟨.slash, ["work"]⟩ (noted (ones 4301) none {})
        [.read answer, .rewritten ⟨1, ones 4301⟩] w ∧
      IsNews none [.rewritten ⟨1, ones 4301⟩] ∧
      answer = .error (.json (.hugeInteger 4301) (ones 4301)) ∧ ¬IsReport answer := by
  have hoverruns : Json.Overruns (ones 4301) (.hugeInteger 4301) := overruns_ones (by decide)
  obtain ⟨w, h⟩ := exists_history_news (not_mem_ones 4301) (.overrun hoverruns)
  exact ⟨_, w, h, ⟨_, rfl, nofun⟩, rfl, id⟩

end SignalWay
end Conductor
