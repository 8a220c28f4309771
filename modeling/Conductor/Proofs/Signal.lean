import Conductor.Proofs.Text.Pieces
import Conductor.Signal

/-!
# The meaning of a signal's record

What the members of an object say about a signal (`Describes`): they name an action, they may give a
reason, and they may give a target, by its name of today or, where that is absent, by its historical
one.  Reading accepts exactly the members that describe a signal (`ofMembers_eq_ok_iff`), and it
refuses the others for what is wrong with their action (`ofMembers_eq_error_iff`).

Main statement: what is read is in normal form, and printing it gives members that mean what the
read ones meant (`reprinting_keeps_meaning`).  Printing drops what a record need not say: the blanks
around a word, its case, a blank reason, members that are no text and the historical name of the
target.  A signal in normal form holds nothing that is dropped, so its print describes it
(`describes_toMembers`); and nothing describes two signals (`Describes.unique`), so the print
describes no other.
-/

namespace Conductor

open Text

/-- Different actions have different words. -/
theorem Action.eq_of_word_eq {a b : Action} (h : a.word = b.word) : a = b := by
  have hsome : some a = some b := by rw [← ofWord?_word a, ← ofWord?_word b, h]
  exact Option.some.inj hsome

theorem Action.ofWord?_eq_none_iff {word : String} :
    ofWord? word = none ↔ ∀ a : Action, word ≠ a.word := by
  constructor
  · rintro h a rfl
    rw [ofWord?_word] at h
    cases h
  · intro h
    unfold ofWord?
    rw [List.find?_eq_none]
    intro a _ ha
    exact h a (eq_of_beq ha).symm

namespace Signal

/-- The members name an action: by a text which is the action's word once it is trimmed and in lower
case. -/
def NamesAction (members : List (String × Json)) (action : Action) : Prop :=
  ∃ text, Json.member? members "action" = some (.str text) ∧ lower (trimmed text) = action.word

/-- The member of a name is a text that is not blank. -/
def GivesText (members : List (String × Json)) (name text : String) : Prop :=
  Json.member? members name = some (.str text) ∧ isBlankText text = false

/-- The members give a target, up to the blanks around it.  The historical name counts only where
the name of today is absent, whatever that holds. -/
inductive GivesTarget (members : List (String × Json)) : String → Prop
  | current {text : String} (h : GivesText members "trigger_target_id" text) :
    GivesTarget members (trimmed text)
  | historical {text : String} (habsent : Json.member? members "trigger_target_id" = none)
    (h : GivesText members "triggerAgentId" text) : GivesTarget members (trimmed text)

/-- The members describe a signal. -/
structure Describes (members : List (String × Json)) (s : Signal) : Prop where
  action : NamesAction members s.action
  reason : ∀ r, s.reason = some r ↔ GivesText members "reason" r
  target : ∀ t, s.target = some t ↔ GivesTarget members t

/-- What is wrong with members that name no action. -/
inductive Refuses (members : List (String × Json)) : SignalError → Prop
  | noAction (h : ∀ text, Json.member? members "action" ≠ some (.str text)) :
    Refuses members .noAction
  | unknownAction {text : String} (h : Json.member? members "action" = some (.str text))
    (hword : ∀ a : Action, lower (trimmed text) ≠ a.word) :
    Refuses members (.unknownAction (lower (trimmed text)))

/-- A signal in normal form: a reason that is there is not blank, and neither is a target, which has
no blanks around it. -/
structure Normal (s : Signal) : Prop where
  reason : ∀ r, s.reason = some r → isBlankText r = false
  target : ∀ t, s.target = some t → isBlankText t = false ∧ trimmed t = t

variable {members : List (String × Json)} {name t : String} {a b : Action} {s s' : Signal}
  {e : SignalError}

/-! ### Members -/

theorem filledText?_eq_some_iff :
    filledText? (Json.member? members name) = some t ↔ GivesText members name t := by
  unfold GivesText
  cases Json.member? members name with
  | none => simp [filledText?]
  | some v =>
    cases v with
    | str text =>
      rw [filledText?, unlessBlank_eq_some_iff, Option.some.injEq, Json.str.injEq]
      exact and_congr_right fun heq => by rw [heq]
    | _ => simp [filledText?]

theorem map_trimmed_filledText?_eq_some_iff :
    (filledText? ((Json.member? members "trigger_target_id").or
      (Json.member? members "triggerAgentId"))).map trimmed = some t ↔ GivesTarget members t := by
  rw [Option.map_eq_some_iff]
  cases hcurrent : Json.member? members "trigger_target_id" with
  | none =>
    rw [Option.none_or]
    constructor
    · rintro ⟨text, h, rfl⟩
      exact .historical hcurrent (filledText?_eq_some_iff.mp h)
    · rintro (⟨⟨h, -⟩⟩ | ⟨-, h⟩)
      · rw [hcurrent] at h
        cases h
      · exact ⟨_, filledText?_eq_some_iff.mpr h, rfl⟩
  | some v =>
    rw [Option.some_or, ← hcurrent]
    constructor
    · rintro ⟨text, h, rfl⟩
      exact .current (filledText?_eq_some_iff.mp h)
    · rintro (⟨h⟩ | ⟨habsent, -⟩)
      · exact ⟨_, filledText?_eq_some_iff.mpr h, rfl⟩
      · rw [hcurrent] at habsent
        cases habsent

/-! ### Reading -/

theorem NamesAction.unique (h : NamesAction members a) (h' : NamesAction members b) : a = b := by
  obtain ⟨text, haction, hword⟩ := h
  obtain ⟨text', haction', hword'⟩ := h'
  cases haction.symm.trans haction'
  exact Action.eq_of_word_eq (hword.symm.trans hword')

/-- Nothing describes two signals. -/
theorem Describes.unique (h : Describes members s) (h' : Describes members s') : s = s' := by
  have haction : s.action = s'.action := h.action.unique h'.action
  have hreason : s.reason = s'.reason :=
    Option.ext fun r => (h.reason r).trans (h'.reason r).symm
  have htarget : s.target = s'.target :=
    Option.ext fun t => (h.target t).trans (h'.target t).symm
  cases s
  cases s'
  cases haction
  cases hreason
  cases htarget
  rfl

/-- An action is all that a record needs. -/
theorem exists_describes_of_namesAction (h : NamesAction members a) :
    ∃ s, ofMembers members = .ok s ∧ Describes members s := by
  have hnames := h
  obtain ⟨text, haction, hword⟩ := h
  refine ⟨⟨a, filledText? (Json.member? members "reason"),
    (filledText? ((Json.member? members "trigger_target_id").or
      (Json.member? members "triggerAgentId"))).map trimmed⟩, ?_, hnames,
    fun r => filledText?_eq_some_iff, fun t => map_trimmed_filledText?_eq_some_iff⟩
  simp only [ofMembers, haction, hword, Action.ofWord?_word]
  cases Json.member? members "trigger_target_id" <;> rfl

theorem Refuses.not_namesAction (h : Refuses members e) (a : Action) : ¬ NamesAction members a := by
  rintro ⟨text, haction, hword⟩
  cases h with
  | noAction hno => exact hno text haction
  | unknownAction haction' hno =>
    cases haction.symm.trans haction'
    exact hno a hword

theorem Refuses.unique {e' : SignalError} (h : Refuses members e) (h' : Refuses members e') :
    e = e' := by
  cases h with
  | noAction hno =>
    cases h' with
    | noAction => rfl
    | unknownAction haction => exact absurd haction (hno _)
  | unknownAction haction =>
    cases h' with
    | noAction hno => exact absurd haction (hno _)
    | unknownAction haction' =>
      cases haction.symm.trans haction'
      rfl

/-- Members that name no action are refused. -/
theorem exists_refuses (h : ∀ a, ¬ NamesAction members a) :
    ∃ e, ofMembers members = .error e ∧ Refuses members e := by
  by_cases htext : ∃ text, Json.member? members "action" = some (.str text)
  · obtain ⟨text, haction⟩ := htext
    have hword : ∀ a : Action, lower (trimmed text) ≠ a.word := fun a ha => h a ⟨text, haction, ha⟩
    refine ⟨_, ?_, .unknownAction haction hword⟩
    simp only [ofMembers, haction, Action.ofWord?_eq_none_iff.mpr hword]
  · have hno : ∀ text, Json.member? members "action" ≠ some (.str text) :=
      fun text ht => htext ⟨text, ht⟩
    refine ⟨_, ?_, .noAction hno⟩
    unfold ofMembers
    split
    · next text haction => exact absurd haction (hno text)
    · rfl

/-- Reading yields the signal that the members describe. -/
theorem ofMembers_eq_ok_iff : ofMembers members = .ok s ↔ Describes members s := by
  constructor
  · intro h
    by_cases hnames : ∃ a, NamesAction members a
    · obtain ⟨a, ha⟩ := hnames
      obtain ⟨s', hs', hdescribes⟩ := exists_describes_of_namesAction ha
      cases h.symm.trans hs'
      exact hdescribes
    · obtain ⟨e, he, -⟩ := exists_refuses (not_exists.mp hnames)
      cases h.symm.trans he
  · intro h
    obtain ⟨s', hs', hdescribes⟩ := exists_describes_of_namesAction h.action
    rw [hs', hdescribes.unique h]

/-- Reading refuses the members that name no action, for what is wrong with them. -/
theorem ofMembers_eq_error_iff : ofMembers members = .error e ↔ Refuses members e := by
  constructor
  · intro h
    have hno : ∀ a, ¬ NamesAction members a := by
      intro a ha
      obtain ⟨s, hs, -⟩ := exists_describes_of_namesAction ha
      cases h.symm.trans hs
    obtain ⟨e', he', hrefuses⟩ := exists_refuses hno
    cases h.symm.trans he'
    exact hrefuses
  · intro h
    obtain ⟨e', he', hrefuses⟩ := exists_refuses h.not_namesAction
    rw [he', hrefuses.unique h]

/-! ### Normal form -/

/-- What is described is in normal form. -/
theorem Describes.normal (h : Describes members s) : s.Normal where
  reason := by
    intro r hr
    exact ((h.reason r).mp hr).2
  target := by
    intro t ht
    have htrimmed : ∀ text, isBlankText text = false →
        isBlankText (trimmed text) = false ∧ trimmed (trimmed text) = trimmed text :=
      fun text hb => ⟨(isBlankText_trimmed text).trans hb, trimmed_trimmed text⟩
    cases (h.target t).mp ht with
    | current hgives => exact htrimmed _ hgives.2
    | historical _ hgives => exact htrimmed _ hgives.2

/-! ### Printing -/

theorem member?_action_toMembers (s : Signal) :
    Json.member? s.toMembers "action" = some (.str s.action.word) := rfl

theorem member?_reason_toMembers (s : Signal) :
    Json.member? s.toMembers "reason" = s.reason.map .str := by
  obtain ⟨action, reason, target⟩ := s
  cases reason <;> cases target <;> rfl

theorem member?_target_toMembers (s : Signal) :
    Json.member? s.toMembers "trigger_target_id" = s.target.map .str := by
  obtain ⟨action, reason, target⟩ := s
  cases reason <;> cases target <;> rfl

/-- The target is not printed by its historical name. -/
theorem member?_historical_toMembers (s : Signal) :
    Json.member? s.toMembers "triggerAgentId" = none := by
  obtain ⟨action, reason, target⟩ := s
  cases reason <;> cases target <;> rfl

theorem lower_trimmed_word (a : Action) : lower (trimmed a.word) = a.word := by
  cases a <;> decide

/-- The print of a signal in normal form describes it. -/
theorem describes_toMembers (h : s.Normal) : Describes s.toMembers s where
  action := ⟨s.action.word, member?_action_toMembers s, lower_trimmed_word s.action⟩
  reason := by
    intro r
    simp only [GivesText, member?_reason_toMembers, Option.map_eq_some_iff, Json.str.injEq,
      exists_eq_right]
    exact ⟨fun hr => ⟨hr, h.reason r hr⟩, And.left⟩
  target := by
    intro t
    have hmember := member?_target_toMembers s
    constructor
    · intro ht
      obtain ⟨hfilled, htrimmed⟩ := h.target t ht
      rw [ht] at hmember
      have hgives : GivesTarget s.toMembers (trimmed t) := .current ⟨hmember, hfilled⟩
      rwa [htrimmed] at hgives
    · rintro (⟨⟨hgiven, -⟩⟩ | ⟨-, hgiven, -⟩)
      · obtain ⟨text, ht, heq⟩ := Option.map_eq_some_iff.mp (hmember.symm.trans hgiven)
        cases heq
        rw [ht, (h.target _ ht).2]
      · rw [member?_historical_toMembers] at hgiven
        cases hgiven

/-- Members are refused iff they name no action, for what is wrong with it.  What is read of all
others is in normal form and is read again from its print, and the print means what the members
meant. -/
theorem reprinting_keeps_meaning (members : List (String × Json)) :
    (∀ e, ofMembers members = .error e ↔ Refuses members e) ∧
      ((∃ e, ofMembers members = .error e) ↔ ∀ a, ¬ NamesAction members a) ∧
      ((∃ e, ofMembers members = .error e) ∨
        ∃ s, ofMembers members = .ok s ∧ Describes members s ∧ s.Normal ∧
          ofMembers s.toMembers = .ok s ∧
            ∀ s', Describes s.toMembers s' ↔ Describes members s') := by
  refine ⟨fun e => ofMembers_eq_error_iff, ?_⟩
  -- An action is all that reading needs: no other member can make it fail.
  by_cases hnames : ∃ a, NamesAction members a
  · obtain ⟨a, ha⟩ := hnames
    obtain ⟨s, hs, hdescribes⟩ := exists_describes_of_namesAction ha
    have hprint : Describes s.toMembers s := describes_toMembers hdescribes.normal
    have hmeaning : ∀ s', Describes s.toMembers s' ↔ Describes members s' := by
      intro s'
      constructor
      · exact fun h => h.unique hprint ▸ hdescribes
      · exact fun h => h.unique hdescribes ▸ hprint
    refine ⟨iff_of_false ?_ fun hno => hno a ha, .inr ⟨s, hs, hdescribes, hdescribes.normal,
      ofMembers_eq_ok_iff.mpr hprint, hmeaning⟩⟩
    rintro ⟨e, he⟩
    cases hs.symm.trans he
  · have hno : ∀ a, ¬ NamesAction members a := not_exists.mp hnames
    obtain ⟨e, he, -⟩ := exists_refuses hno
    exact ⟨iff_of_true ⟨e, he⟩ hno, .inl ⟨e, he⟩⟩

/-- A target by its historical name is printed by its name of today. -/
example : (ofMembers [("action", .str " Trigger\n"), ("reason", .str " "),
      ("triggerAgentId", .str " fix ")]).map toMembers =
    .ok [("action", .str "trigger"), ("trigger_target_id", .str "fix")] := by
  rfl

end Signal

end Conductor
