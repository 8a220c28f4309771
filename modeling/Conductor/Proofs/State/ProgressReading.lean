import Conductor.Proofs.State.ProgressChange

/-!
# What a file of progress can bring

Whatever bytes the file of a progress record holds, loading yields a record or ends in a fault.  It
ends in a fault in two cases only, in which what is wrong is not taken for a file that holds no
record (`Overtaxes`): the bytes are not UTF-8, or the JSON text has an integer of too many digits or
is nested too deeply.  Else it yields the record that the file holds, and a fresh one where it holds
none (`recordOf`).

Main statement: `answers_unless_overtaxed`.  Where loading yields a record, every change of it
succeeds and leaves the changed record in the file, since the limits that a number has passed in
reading are those of writing (`printable_recordOf`); else every change ends in the fault of loading
and writes nothing.
-/

namespace Conductor.Progress

open Act Text

/-- The record that bytes hold: they are the UTF-8 text of a JSON value that passes the check. -/
def recordIn? (bytes : List UInt8) : Option Progress :=
  match Store.textOf bytes with
  | .error _ => none
  | .ok text =>
    match Json.read text with
    | .error _ => none
    | .ok v =>
      match check v with
      | .ok p => some p
      | .bad _ => none

/-- The record that contents stand for, a fresh one where no file holds any. -/
def recordOf (content : Option (List UInt8)) : Progress := (content.bind recordIn?).getD {}

/-- Contents whose reading ends in a fault. -/
inductive Overtaxes : Option (List UInt8) → Fault → Prop
  /-- The bytes are not UTF-8. -/
  | undecodable {bytes e} (h : Store.textOf bytes = .error e) :
    Overtaxes (some bytes) (.read (.undecodable e))
  /-- The text goes beyond what is read of JSON, although it need not be malformed. -/
  | overrun {bytes text r} (h : Store.textOf bytes = .ok text) (hr : Json.read text = .error r)
    (hm : ∀ unread, r ≠ .malformed unread) : Overtaxes (some bytes) (.json r text)

/-- The file holds the record after an action, or the action has written nothing and the record is
the one that was there. -/
inductive Leaves (path : Path) (w : World) (p : Progress) (w' : World) (p' : Progress) : Prop
  | untouched (hstore : w'.store = w.store) (he : p' = p)
  | written {bytes : List UInt8} (hb : w'.store.readBytes w'.cwd path = .ok bytes)
    (hr : recordIn? bytes = some p')

/-- The record that the contents stand for is loaded, and every change of it is made. -/
structure Answers (path : Path) (content : Option (List UInt8)) (w : World) : Prop where
  load : ∃ log, (load path).exec w = (.ok (recordOf content), w.withLog log)
  /-- A change leaves the changed record, unless the number of its step is too long to be written. -/
  made : ∀ c : Change, c.Proper → c.Writable →
    ∃ w', (c.act path).exec w = (.ok (), w') ∧
      Leaves path w (recordOf content) w' (c.edit (recordOf content))
  refused : ∀ c : Change, c.Proper → ¬ c.Writable →
    ∃ w', (c.act path).exec w = (.error (.value hugeMessage), w') ∧ Contents path w' content

/-- Loading ends in a fault, and every change does before it has written anything. -/
def Balks (path : Path) (e : Fault) (w : World) : Prop :=
  ∃ log, (load path).exec w = (.error e, w.withLog log) ∧
    ∀ c : Change, (c.act path).exec w = (.error e, w.withLog log)

/-- Loading yields a record. -/
def Loads (path : Path) (w : World) : Prop := ∃ p, ((load path).exec w).1 = .ok p

variable {path : Path} {p : Progress} {w : World} {content : Option (List UInt8)} {e : Fault}
  {bytes : List UInt8}

/-! ### What is made of contents -/

theorem exists_of_recordIn? (h : recordIn? bytes = some p) :
    ∃ text v, Store.textOf bytes = .ok text ∧ Json.read text = .ok v ∧ check v = .ok p := by
  unfold recordIn? at h
  split at h
  · cases h
  · next text htext =>
    split at h
    · cases h
    · next v hv =>
      split at h
      · next hp =>
        cases h
        exact ⟨text, v, htext, hv, hp⟩
      · cases h

theorem not_overtaxes_of_recordIn? (h : recordIn? bytes = some p) :
    ∀ e, ¬ Overtaxes (some bytes) e := by
  obtain ⟨text, value, htext, hread, -⟩ := exists_of_recordIn? h
  intro e he
  cases he with
  | undecodable hr => cases htext.symm.trans hr
  | overrun ht hr hm =>
    cases htext.symm.trans ht
    cases hread.symm.trans hr

theorem recordOf_of_recordIn? (h : recordIn? bytes = some p) : recordOf (some bytes) = p := by
  unfold recordOf
  rw [Option.bind_some, h]
  rfl

/-- What a text is found to hold is what its bytes hold. -/
theorem recordIn?_of_textOf {text : String} (ht : Store.textOf bytes = .ok text) :
    (∀ p, ofText text = .record p → recordIn? bytes = some p) ∧
      (∀ reason, ofText text = .unreadable reason → recordIn? bytes = none) ∧
      ∀ e, ofText text = .fault e → Overtaxes (some bytes) e := by
  unfold ofText recordIn?
  rw [ht]
  dsimp only
  cases hv : Json.read text with
  | error r =>
    cases r with
    | malformed unread => exact ⟨nofun, fun _ _ => rfl, nofun⟩
    | hugeInteger digits =>
      refine ⟨nofun, nofun, ?_⟩
      rintro e ⟨⟩
      exact .overrun ht hv nofun
    | tooDeep inArray =>
      refine ⟨nofun, nofun, ?_⟩
      rintro e ⟨⟩
      exact .overrun ht hv nofun
  | ok v =>
    dsimp only
    cases check v with
    | ok p =>
      refine ⟨?_, nofun, nofun⟩
      rintro q ⟨⟩
      rfl
    | bad issues => exact ⟨nofun, fun _ _ => rfl, nofun⟩

/-- A record that passes the check has numbers that can be written, if those of the value can be. -/
theorem printable_of_check {v : Json} (hv : v.Short) (h : check v = .ok p) : Printable p := by
  unfold check Schema.record at h
  cases hv with
  | @obj members hmembers =>
    obtain ⟨_, _, h₄, -, rfl⟩ := Schema.Checked.ap_eq_ok_iff.mp h
    obtain ⟨_, unfinished, h₃, hunfinished, rfl⟩ := Schema.Checked.ap_eq_ok_iff.mp h₄
    obtain ⟨_, done, h₂, hdone, rfl⟩ := Schema.Checked.ap_eq_ok_iff.mp h₃
    obtain ⟨_, _, h₁, -, rfl⟩ := Schema.Checked.ap_eq_ok_iff.mp h₂
    have hlists : ∀ n ∈ done ++ unfinished, isHuge n = false := by
      intro n hn
      rw [isHuge_eq_false_iff]
      rcases List.mem_append.mp hn with hn | hn
      · exact Schema.fits_of_fieldOr hmembers hdone n hn
      · exact Schema.fits_of_fieldOr hmembers hunfinished n hn
    -- The record is put together from the two lists as they are.
    cases hname : Schema.fieldOr members ⟨"activeTemplate", "active_template"⟩ "" Schema.text with
    | ok name =>
      rw [hname] at h₁
      cases h₁
      exact hlists
    | bad issues =>
      rw [hname] at h₁
      cases h₁
  | _ => cases h

theorem recordOf_cases (content : Option (List UInt8)) :
    recordOf content = {} ∨ ∃ v, v.Short ∧ check v = .ok (recordOf content) := by
  unfold recordOf
  cases hr : content.bind recordIn? with
  | none => exact .inl rfl
  | some p =>
    obtain ⟨bytes, -, hp⟩ := Option.bind_eq_some_iff.mp hr
    obtain ⟨text, v, -, hv, hcheck⟩ := exists_of_recordIn? hp
    exact .inr ⟨v, Json.short_of_read hv, hcheck⟩

theorem printable_recordOf (content : Option (List UInt8)) : Printable (recordOf content) := by
  rcases recordOf_cases content with h | ⟨v, hv, hcheck⟩
  · rw [h]
    exact List.forall_mem_nil _
  · exact printable_of_check hv hcheck

theorem occursIn_recordOf (content : Option (List UInt8)) :
    LoneHalf.occursIn (recordOf content).activeTemplate = false := by
  rcases recordOf_cases content with h | ⟨v, -, hcheck⟩
  · rw [h]
    decide
  · exact occursIn_of_check hcheck

/-! ### Loading -/

theorem foundIn_of_undecodable {r : Utf8.DecodeError} (hnul : path.hasNul = false)
    (hb : w.store.readBytes w.cwd path = .ok bytes) (hr : Store.textOf bytes = .error r) :
    foundIn w.store w.cwd path = .ok (.fault (.read (.undecodable r))) := by
  have hread : w.store.readText w.cwd path = .error (.undecodable r) := by
    unfold Store.readText
    rw [hnul, if_neg Bool.false_ne_true, hb]
    dsimp only
    rw [hr]
  unfold foundIn
  rw [held_of_readBytes hb, hnul, hread]
  rfl

theorem foundIn_of_textOf {text : String} (hnul : path.hasNul = false)
    (hb : w.store.readBytes w.cwd path = .ok bytes) (ht : Store.textOf bytes = .ok text) :
    foundIn w.store w.cwd path = .ok (ofText text) := by
  refine foundIn_of_readText ?_
  unfold Store.readText
  rw [hnul, if_neg Bool.false_ne_true, hb]
  dsimp only
  rw [ht]

theorem stored_of_overtaxes (hc : Contents path w content) (h : Overtaxes content e) :
    stored w.store w.cwd path = .error e := by
  unfold stored
  cases hc with
  | room _ => cases h
  | file hp hnul hb =>
    cases h with
    | undecodable hr => rw [foundIn_of_undecodable hnul hb hr]
    | @overrun _ text r ht hr hm =>
      have htext : ofText text = .fault (.json r text) := by
        unfold ofText
        rw [hr]
        cases r with
        | malformed unread => exact absurd rfl (hm unread)
        | hugeInteger digits => rfl
        | tooDeep inArray => rfl
      rw [foundIn_of_textOf hnul hb ht, htext]

theorem stored_of_not_overtaxed (hc : Contents path w content) (h : ∀ e, ¬ Overtaxes content e) :
    stored w.store w.cwd path = .ok (recordOf content) := by
  unfold stored
  cases hc with
  | room hroom =>
    unfold foundIn
    rw [hroom.absent]
    rfl
  | @file bytes hp hnul hb =>
    cases ht : Store.textOf bytes with
    | error r => exact absurd (.undecodable ht) (h _)
    | ok text =>
      rw [foundIn_of_textOf hnul hb ht]
      cases hr : ofText text with
      | record p =>
        unfold recordOf
        rw [Option.bind_some, (recordIn?_of_textOf ht).1 p hr]
        rfl
      | unreadable reason =>
        unfold recordOf
        rw [Option.bind_some, (recordIn?_of_textOf ht).2.1 reason hr]
        rfl
      | fault e => exact absurd ((recordIn?_of_textOf ht).2.2 e hr) (h e)

/-! ### Changes -/

/-- The file after a record has been saved. -/
theorem leaves_of_readText {w' : World} {p' : Progress} {t : String}
    (ht : w'.store.readText w'.cwd path = .ok t) (hp : ofText t = .record p') :
    Leaves path w p w' p' := by
  obtain ⟨bytes, hb, htext⟩ := Store.exists_textOf_of_readText ht
  exact .written hb ((recordIn?_of_textOf htext).1 p' hp)

/-- Where loading yields the record of the contents, every change of it is made. -/
theorem answers_of_not_overtaxed (hc : Contents path w content) (hnow : w.now.InCalendar)
    (h : ∀ e, ¬ Overtaxes content e) : Answers path content w := by
  obtain ⟨log, hload⟩ := exec_load path w
  rw [stored_of_not_overtaxed hc h] at hload
  have hholds : (holds path).exec w = (.ok true, w) ∨
      ((holds path).exec w = (.ok false, w) ∧ recordOf content = {}) := by
    cases content with
    | none => exact .inr ⟨exec_holds_of_contents hc, rfl⟩
    | some bytes => exact .inl (exec_holds_of_contents hc)
  have hprintable := printable_recordOf content
  refine ⟨⟨log, hload⟩, fun c hproper hwritable => ?_, fun c hproper hwritable => ?_⟩
  · cases comesTo c hload hholds with
    | nothing he log' hx => exact ⟨_, hx, .untouched rfl he⟩
    | saving log' hx =>
      obtain ⟨s, hsave, -, t, ht, hp⟩ := exec_save (hc.withLog log')
        (occursIn_edit (occursIn_recordOf content) hproper) hnow (hprintable.edit hwritable)
      obtain ⟨log'', hact⟩ := hx _ _ hsave
      exact ⟨_, hact, leaves_of_readText ht hp⟩
  · cases comesTo c hload hholds with
    | nothing he log' hx =>
      exact absurd (writable_of_printable_edit (p := recordOf content) (by rwa [he])) hwritable
    | saving log' hx =>
      obtain ⟨s, hsave, hkept⟩ := exec_save_huge (hc.withLog log')
        (exists_isHuge_edit (p := recordOf content) hwritable)
      obtain ⟨log'', hact⟩ := hx _ _ hsave
      exact ⟨_, hact, hkept.congr rfl rfl⟩

/-- Where loading ends in a fault, every change does. -/
theorem balks_of_overtaxes (hc : Contents path w content) (h : Overtaxes content e) :
    Balks path e w := by
  obtain ⟨log, hload⟩ := exec_load path w
  rw [stored_of_overtaxes hc h] at hload
  have hbind : ∀ g : Progress → Act Unit,
      (load path >>= g).exec w = (.error e, w.withLog log) := by
    intro g
    rw [exec_bind, hload]
  refine ⟨log, hload, fun c => ?_⟩
  cases c with
  | activate name => exact hbind _
  | started index => exact hbind _
  | completed index => exact hbind _
  | clear =>
    -- A file is looked for first, and contents that are not read are those of a file.
    have hsome : content.isSome = true := by cases h <;> rfl
    have hheld := exec_holds_of_contents hc
    rw [hsome] at hheld
    show (Progress.clear path).exec w = _
    unfold Progress.clear
    rw [exec_bind_of_ok hheld, Bool.not_true, if_neg Bool.false_ne_true]
    exact hbind _

/-! ### Whatever the file holds -/

/-- Whatever a file of progress holds, it overtaxes the reader and then nothing is done, or the
record that it stands for is loaded and every change of it is made. -/
theorem answers_unless_overtaxed (hc : Contents path w content) (hnow : w.now.InCalendar) :
    (∀ e, Overtaxes content e → Balks path e w) ∧
      ((∀ e, ¬ Overtaxes content e) → Answers path content w) :=
  ⟨fun _ => balks_of_overtaxes hc, answers_of_not_overtaxed hc hnow⟩

/-- Where the file of the record is kept. -/
def heldPath : Path := ⟨.none, ["template.json"]⟩

/-- A directory with a file of some bytes in it. -/
def holding (bytes : List UInt8) : World :=
  { store := { entries := [(["work"], .directory), (["work", "template.json"], .file bytes 0)]
               clock := 1 }
    cwd := ⟨.slash, ["work"]⟩ }

/-- A file that is not JSON counts as a fresh record, and a step can be marked in it. -/
theorem garbled_answers :
    Contents heldPath (holding [0x7b]) (some [0x7b]) ∧ (holding [0x7b]).now.InCalendar ∧
      (∀ e, ¬ Overtaxes (some [0x7b]) e) ∧ recordOf (some [0x7b]) = {} ∧
      Answers heldPath (some [0x7b]) (holding [0x7b]) := by
  have hc : Contents heldPath (holding [0x7b]) (some [0x7b]) :=
    .file (by decide) (by decide) (by decide +kernel)
  have hnow : (holding [0x7b]).now.InCalendar := by decide
  have hsound : ∀ e, ¬ Overtaxes (some [0x7b]) e := by
    have htext : Store.textOf [0x7b] = .ok "\x7b" := by decide +kernel
    have hread : Json.read "\x7b" = .error (.malformed 0) := by rfl
    intro e he
    cases he with
    | undecodable hr => cases htext.symm.trans hr
    | overrun ht hr hm =>
      cases htext.symm.trans ht
      cases hread.symm.trans hr
      exact hm 0 rfl
  exact ⟨hc, hnow, hsound, by decide +kernel, (answers_unless_overtaxed hc hnow).2 hsound⟩

/-- Bytes that are not UTF-8 are not taken for a file without a record. -/
theorem not_loads_undecodable : ¬ Loads heldPath (holding [0xff]) := by
  have hload : ((load heldPath).exec (holding [0xff])).1.isOk = false := by decide +kernel
  rintro ⟨p, hp⟩
  rw [hp] at hload
  cases hload

end Conductor.Progress
