import Conductor.Command.Basic
import Conductor.Proofs.Entries

/-!
# Filling command templates

A template whose only braces are those of its placeholders is a text of symbols, each a placeholder
or a character other than a brace (`Symbol`).  Main statement: the command of a call is the words of
the template in which every placeholder is replaced as it stands, and then what the two flags add;
so it has as many words whatever the agent and the directory are called (`argv_of_symbols`).

The words are cut before anything is filled in.  No character of a placeholder separates, quotes or
escapes, so a placeholder goes into a word as a whole and only a character can end one
(`split_symbol`); every word of the template is a text of symbols again (`exists_tokens_of_split`).
A word is filled symbol by symbol: its fields are those of its placeholders, and what they are
filled with is not read again (`fill_written`).
-/

namespace Conductor

namespace Command

/-- A symbol of a template: a placeholder, or a character other than a brace. -/
inductive Symbol where
  | profile
  | directory
  | plain (c : Char) (free : c ≠ '\x7b' ∧ c ≠ '\x7d')

/-- How a symbol is written. -/
def Symbol.written : Symbol → List Char
  | profile => "\x7bprofile\x7d".toList
  | directory => "\x7bcwd\x7d".toList
  | plain c _ => [c]

/-- What stands in place of a symbol for an agent and a directory. -/
def Symbol.filled (agentId directory : List Char) : Symbol → List Char
  | profile => agentId
  | .directory => directory
  | plain c _ => [c]

/-- The text of symbols. -/
def written (symbols : List Symbol) : List Char := symbols.flatMap Symbol.written

/-- The text of symbols with every placeholder replaced. -/
def filled (agentId directory : List Char) (symbols : List Symbol) : List Char :=
  symbols.flatMap (Symbol.filled agentId directory)

/-- What a flag adds to a command: the flag and its value, where both are given and not empty. -/
inductive Adds (flag value : Option String) (shown : String → String) : List String → Prop
  | both {f v} (hf : flag = some f) (hv : value = some v) (hne : f ≠ "" ∧ v ≠ "") :
    Adds flag value shown [f, shown v]
  | none (h : ∀ f v, flag = some f → value = some v → f = "" ∨ v = "") : Adds flag value shown []

/-- How the reasoning effort is given. -/
def effortText (effort : String) : String := "model_reasoning_effort=\"" ++ effort ++ "\""

variable {place : Place} {word symbols : List Symbol} {c : Char} {s rest : List Char}
  {ws : List (List Char)} {agentId directory : List Char}

/-! ### Symbols -/

theorem written_cons (p : Symbol) (symbols : List Symbol) :
    written (p :: symbols) = p.written ++ written symbols := List.flatMap_cons

theorem filled_cons (agentId directory : List Char) (p : Symbol) (symbols : List Symbol) :
    filled agentId directory (p :: symbols) =
      p.filled agentId directory ++ filled agentId directory symbols := List.flatMap_cons

theorem reverse_written_concat (word : List Symbol) (p : Symbol) :
    (written (word ++ [p])).reverse = p.written.reverse ++ (written word).reverse := by
  simp [written]

theorem Symbol.eq_of_written_append {p q : Symbol} {s t : List Char}
    (h : p.written ++ s = q.written ++ t) : p = q ∧ s = t := by
  cases p with
  | profile =>
    cases q with
    | profile => exact ⟨rfl, List.append_cancel_left h⟩
    | directory => cases h
    | plain c free => exact absurd (List.cons.inj h).1.symm free.1
  | directory =>
    cases q with
    | profile => cases h
    | directory => exact ⟨rfl, List.append_cancel_left h⟩
    | plain c free => exact absurd (List.cons.inj h).1.symm free.1
  | plain c free =>
    cases q with
    | profile => exact absurd (List.cons.inj h).1 free.1
    | directory => exact absurd (List.cons.inj h).1 free.1
    | plain d _ =>
      obtain ⟨rfl, rfl⟩ := List.cons.inj h
      exact ⟨rfl, rfl⟩

theorem Symbol.written_ne_nil (p : Symbol) : p.written ≠ [] := by
  cases p with
  | plain c free => exact List.cons_ne_nil _ _
  | _ => decide

/-- A text is a text of symbols in one way only. -/
theorem written_injective : Function.Injective written := by
  intro symbols
  induction symbols with
  | nil =>
    rintro (_ | ⟨q, more⟩) h
    · rfl
    · rw [written_cons] at h
      exact absurd (List.append_eq_nil_iff.mp h.symm).1 q.written_ne_nil
  | cons p symbols ih =>
    rintro (_ | ⟨q, more⟩) h
    · rw [written_cons] at h
      exact absurd (List.append_eq_nil_iff.mp h).1 p.written_ne_nil
    · rw [written_cons, written_cons] at h
      obtain ⟨rfl, hmore⟩ := Symbol.eq_of_written_append h
      rw [ih hmore]

/-! ### Splitting -/

/-- What is open as a quote was opened by a quote mark. -/
def Place.Proper (place : Place) : Prop := ∀ q, place = .quotes q → isQuoteMark q = true

/-- Where a splitting stands after a character that stands for itself. -/
def Place.inside : Place → Place
  | quotes q => .quotes q
  | escape true => .quotes '"'
  | _ => .word

theorem Place.inside_eq (place : Place) :
    place.inside = .word ∨ ∃ q, place.inside = .quotes q := by
  cases place with
  | quotes q => exact .inr ⟨q, rfl⟩
  | escape inQuotes =>
    cases inQuotes with
    | true => exact .inr ⟨'"', rfl⟩
    | false => exact .inl rfl
  | _ => exact .inl rfl

theorem Place.proper_between : Proper .between := by
  rintro q ⟨⟩

theorem Place.proper_word : Proper .word := by
  rintro q ⟨⟩

theorem Place.proper_escape (inQuotes : Bool) : Proper (.escape inQuotes) := by
  rintro q ⟨⟩

theorem Place.Proper.inside (h : place.Proper) : place.inside.Proper := by
  cases place with
  | quotes q => exact h
  | escape inQuotes =>
    cases inQuotes with
    | true =>
      rintro q ⟨⟩
      decide
    | false => rintro q ⟨⟩
  | _ => rintro q ⟨⟩

theorem isPlain_iff : isPlain c = true ↔
    isSeparator c = false ∧ c ≠ '\\' ∧ isQuoteMark c = false := by
  unfold isPlain
  simp only [Bool.and_eq_true, Bool.not_eq_true', bne_iff_ne, and_assoc]

theorem Place.Proper.ne_of_isPlain {q : Char} (h : (Place.quotes q).Proper)
    (hc : isPlain c = true) : c ≠ q := by
  rintro rfl
  cases (isPlain_iff.mp hc).2.2.symm.trans (h c rfl)

/-- A character that stands for itself goes into the word, behind a backslash that it does not
take. -/
theorem exists_split_cons (hp : place.Proper) (hc : isPlain c = true) (word : List Symbol) :
    ∃ kept : List Symbol, ∀ rest, split place (written word).reverse (c :: rest)
      = split place.inside (c :: (written kept).reverse) rest := by
  obtain ⟨hsep, hback, hquote⟩ := isPlain_iff.mp hc
  cases place with
  | between =>
    refine ⟨[], fun rest => ?_⟩
    rw [split, hsep, if_neg Bool.false_ne_true, if_neg hback, hquote, if_neg Bool.false_ne_true]
    rfl
  | word =>
    refine ⟨word, fun rest => ?_⟩
    rw [split, hsep, if_neg Bool.false_ne_true, if_neg hback, hquote, if_neg Bool.false_ne_true]
    rfl
  | quotes q =>
    refine ⟨word, fun rest => ?_⟩
    rw [split, if_neg (hp.ne_of_isPlain hc), decide_eq_false hback, Bool.false_and,
      if_neg Bool.false_ne_true]
    rfl
  | escape inQuotes =>
    cases inQuotes with
    | false => exact ⟨word, fun rest => rfl⟩
    | true =>
      have hdouble : c ≠ '"' := by
        rintro rfl
        cases hquote
      -- Between double quotes the backslash is kept.
      refine ⟨word ++ [.plain '\\' (by decide)], fun rest => ?_⟩
      rw [split, decide_eq_false hdouble, decide_eq_false hback, reverse_written_concat]
      rfl

/-- Further such characters go into the word behind it. -/
theorem split_inside (hp : place.Proper) (hs : ∀ c ∈ s, isPlain c = true) (word rest : List Char) :
    split place.inside word (s ++ rest) = split place.inside (s.reverse ++ word) rest := by
  induction s generalizing word with
  | nil => rfl
  | cons c s ih =>
    obtain ⟨hc, hs⟩ := List.forall_mem_cons.mp hs
    obtain ⟨hsep, hback, hquote⟩ := isPlain_iff.mp hc
    have hstep : split place.inside word (c :: (s ++ rest))
        = split place.inside (c :: word) (s ++ rest) := by
      rcases place.inside_eq with hword | ⟨q, hquotes⟩
      · rw [hword, split, hsep, if_neg Bool.false_ne_true, if_neg hback, hquote,
          if_neg Bool.false_ne_true]
      · have hq := hp.inside
        rw [hquotes] at hq
        rw [hquotes, split, if_neg (hq.ne_of_isPlain hc), decide_eq_false hback, Bool.false_and,
          if_neg Bool.false_ne_true]
    rw [List.cons_append, hstep, ih hs, List.reverse_cons, List.append_assoc, List.singleton_append]

/-- The rest of a text is split behind a word of symbols as it is from some place with a word of
symbols. -/
def GoesOn (place : Place) (word : List Symbol) (s rest : List Char) : Prop :=
  ∃ place' word', Place.Proper place' ∧
    split place (written word).reverse (s ++ rest) = split place' (written word').reverse rest

/-- A symbol whose characters stand for themselves goes into a word as a whole. -/
theorem goesOn_of_isPlain (hp : place.Proper) (word : List Symbol) {p : Symbol}
    (hwritten : p.written = c :: s) (hs : ∀ d ∈ c :: s, isPlain d = true) (rest : List Char) :
    GoesOn place word p.written rest := by
  obtain ⟨hc, hs⟩ := List.forall_mem_cons.mp hs
  obtain ⟨kept, hkept⟩ := exists_split_cons hp hc word
  refine ⟨place.inside, kept ++ [p], hp.inside, ?_⟩
  rw [reverse_written_concat, hwritten, List.cons_append, hkept, split_inside hp hs,
    List.reverse_cons, List.append_assoc, List.singleton_append]

/-- A character that separates, quotes or escapes may end the word. -/
theorem goesOn_or_ends (hp : place.Proper) (word : List Symbol) (free : c ≠ '\x7b' ∧ c ≠ '\x7d')
    (rest : List Char) : GoesOn place word [c] rest ∨
      split place (written word).reverse (c :: rest)
        = (split .between [] rest).map (written word :: ·) := by
  have hkept : c :: (written word).reverse = (written (word ++ [.plain c free])).reverse :=
    (reverse_written_concat word (.plain c free)).symm
  unfold GoesOn
  rw [List.singleton_append]
  cases place with
  | between =>
    rw [split]
    split
    · exact .inl ⟨.between, [], Place.proper_between, rfl⟩
    · split
      · exact .inl ⟨.escape false, [], Place.proper_escape false, rfl⟩
      · split
        · next hq => exact .inl ⟨.quotes c, [], fun _ h => Place.quotes.inj h ▸ hq, rfl⟩
        · exact .inl ⟨.word, [.plain c free], Place.proper_word, rfl⟩
  | word =>
    rw [split]
    split
    · exact .inr (by rw [List.reverse_reverse])
    · split
      · exact .inl ⟨.escape false, word, Place.proper_escape false, rfl⟩
      · split
        · next hq => exact .inl ⟨.quotes c, word, fun _ h => Place.quotes.inj h ▸ hq, rfl⟩
        · exact .inl ⟨.word, word ++ [.plain c free], Place.proper_word, by rw [hkept]⟩
  | quotes q =>
    rw [split]
    split
    · exact .inl ⟨.word, word, Place.proper_word, rfl⟩
    · split
      · exact .inl ⟨.escape true, word, Place.proper_escape true, rfl⟩
      · exact .inl ⟨.quotes q, word ++ [.plain c free], hp, by rw [hkept]⟩
  | escape inQuotes =>
    cases inQuotes with
    | false => exact .inl ⟨.word, word ++ [.plain c free], Place.proper_word, hkept ▸ rfl⟩
    | true =>
      rw [split]
      split
      · exact .inl ⟨.quotes '"', word ++ [.plain c free], hp.inside, by rw [hkept]⟩
      · -- The backslash is no escape here, so it is kept too.
        refine .inl
          ⟨.quotes '"', word ++ [.plain '\\' (by decide)] ++ [.plain c free], hp.inside, ?_⟩
        rw [reverse_written_concat, reverse_written_concat]
        rfl

/-- A symbol goes into a word as a whole, or it ends one. -/
theorem split_symbol (hp : place.Proper) (word : List Symbol) (p : Symbol) (rest : List Char) :
    GoesOn place word p.written rest ∨
      split place (written word).reverse (p.written ++ rest)
        = (split .between [] rest).map (written word :: ·) := by
  cases p with
  | profile =>
    have hplain : ∀ c ∈ "\x7bprofile\x7d".toList, isPlain c = true :=
      List.forall_iff_forall_mem.mp (by decide)
    exact .inl (goesOn_of_isPlain hp word rfl hplain rest)
  | directory =>
    have hplain : ∀ c ∈ "\x7bcwd\x7d".toList, isPlain c = true :=
      List.forall_iff_forall_mem.mp (by decide)
    exact .inl (goesOn_of_isPlain hp word rfl hplain rest)
  | plain c free => exact goesOn_or_ends hp word free rest

/-- The words of a text of symbols are texts of symbols. -/
theorem exists_tokens_of_split (hp : place.Proper)
    (h : split place (written word).reverse (written symbols) = .ok ws) :
    ∃ tokens : List (List Symbol), ws = tokens.map written := by
  induction symbols generalizing place word ws with
  | nil =>
    cases place with
    | between =>
      cases h
      exact ⟨[], rfl⟩
    | word =>
      cases h
      exact ⟨[word], by rw [List.reverse_reverse]; rfl⟩
    | quotes q => cases h
    | escape inQuotes => cases h
  | cons p symbols ih =>
    rw [written_cons] at h
    rcases split_symbol hp word p (written symbols) with ⟨place', word', hp', hgoes⟩ | hends
    · rw [hgoes] at h
      exact ih hp' h
    · -- The word ends, and the next one begins with no symbol.
      rw [hends] at h
      obtain ⟨more, hmore, rfl⟩ := map_eq_ok_iff.mp h
      have hrest : split .between (written []).reverse (written symbols) = .ok more := hmore
      obtain ⟨tokens, rfl⟩ := ih Place.proper_between hrest
      exact ⟨word :: tokens, rfl⟩

/-! ### Filling -/

/-- What the fields of a template are filled with. -/
abbrev values (agentId directory : List Char) : List (String × List Char) :=
  [("profile", agentId), ("cwd", directory)]

/-- A field of a plain name is filled with the value of that name. -/
theorem text_field {name : String} {value : List Char} (values : List (String × List Char))
    (hplain : name.toList.takeWhile (!endsPart ·) = name.toList)
    (hnumber : number? name.toList = .ok none) (hne : name.toList ≠ [])
    (hvalue : values.find? (·.1.toList == name.toList) = some (name, value))
    (fill : List Char → Except FieldFault (List Char)) :
    (Piece.field name.toList none []).text values fill = .ok value := by
  have hrest : name.toList.dropWhile (!endsPart ·) = [] := by
    have happend := List.takeWhile_append_dropWhile (p := (!endsPart ·)) (l := name.toList)
    rw [hplain] at happend
    simpa using happend
  have hfound : valueOf values name.toList = .ok (.text value) := by
    unfold valueOf
    dsimp only
    rw [hplain, hnumber, hrest]
    show (if name.toList.isEmpty then _ else _) = _
    rw [if_neg (by simpa using hne), hvalue]
    rfl
  unfold Piece.text
  dsimp only
  rw [hfound]
  rfl

theorem text_profile (fill : List Char → Except FieldFault (List Char)) :
    (Piece.field "profile".toList none []).text (values agentId directory) fill = .ok agentId :=
  text_field _ (by decide) (by decide +kernel) (by decide) (by simp) fill

theorem text_directory (fill : List Char → Except FieldFault (List Char)) :
    (Piece.field "cwd".toList none []).text (values agentId directory) fill = .ok directory :=
  text_field _ (by decide) (by decide +kernel) (by decide) (by simp) fill

theorem readPieces_profile (cs rest : List Char) :
    readPieces (.literal cs) (Symbol.profile.written ++ rest) =
      (.literal cs.reverse :: .field "profile".toList none [] :: (readPieces (.literal []) rest).1,
        (readPieces (.literal []) rest).2) := rfl

theorem readPieces_directory (cs rest : List Char) :
    readPieces (.literal cs) (Symbol.directory.written ++ rest) =
      (.literal cs.reverse :: .field "cwd".toList none [] :: (readPieces (.literal []) rest).1,
        (readPieces (.literal []) rest).2) := rfl

theorem readPieces_plain (free : c ≠ '\x7b' ∧ c ≠ '\x7d') (cs rest : List Char) :
    readPieces (.literal cs) (c :: rest) = readPieces (.literal (c :: cs)) rest := by
  rw [readPieces, Reading.next, if_neg free.1, if_neg free.2]
  rfl

/-- The pieces of a text of symbols are those of the symbols, without a fault. -/
theorem exists_texts (fill : List Char → Except FieldFault (List Char)) (cs : List Char)
    (symbols : List Symbol) :
    ∃ ps texts, readPieces (.literal cs) (written symbols) = (ps, none) ∧
      List.Forall₂ (fun p t => p.text (values agentId directory) fill = .ok t) ps texts ∧
      texts.flatten = cs.reverse ++ filled agentId directory symbols := by
  induction symbols generalizing cs with
  | nil => exact ⟨[.literal cs.reverse], [cs.reverse], rfl, .cons rfl .nil, by simp [filled]⟩
  | cons p symbols ih =>
    rw [written_cons, filled_cons]
    cases p with
    | profile =>
      obtain ⟨ps, texts, hread, htexts, hflat⟩ := ih []
      refine ⟨.literal cs.reverse :: .field "profile".toList none [] :: ps,
        cs.reverse :: agentId :: texts, ?_, .cons rfl (.cons (text_profile fill) htexts), ?_⟩
      · rw [readPieces_profile, hread]
      · rw [List.flatten_cons, List.flatten_cons, hflat]
        rfl
    | directory =>
      obtain ⟨ps, texts, hread, htexts, hflat⟩ := ih []
      refine ⟨.literal cs.reverse :: .field "cwd".toList none [] :: ps,
        cs.reverse :: directory :: texts, ?_, .cons rfl (.cons (text_directory fill) htexts), ?_⟩
      · rw [readPieces_directory, hread]
      · rw [List.flatten_cons, List.flatten_cons, hflat]
        rfl
    | plain c free =>
      obtain ⟨ps, texts, hread, htexts, hflat⟩ := ih (c :: cs)
      refine ⟨ps, texts, ?_, htexts, ?_⟩
      · rw [← hread]
        exact readPieces_plain free cs (written symbols)
      · rw [hflat, List.reverse_cons, List.append_assoc]
        rfl

/-- In a text of symbols every placeholder is replaced and nothing else is. -/
theorem fill_written (agentId directory : List Char) (symbols : List Symbol) :
    fill (values agentId directory) (written symbols) = .ok (filled agentId directory symbols) := by
  obtain ⟨ps, texts, hread, htexts, hflat⟩ :=
    @exists_texts agentId directory (fillTo (values agentId directory) 1) [] symbols
  unfold fill fillTo pieces
  rw [hread]
  dsimp only
  rw [mapM_eq_ok_iff.mpr htexts]
  exact congrArg Except.ok hflat

end Command

namespace AgentCommand

open Command

variable {command : AgentCommand} {tokens : List (List Symbol)} {template : String}

/-- The words of a template are filled one by one. -/
theorem fillTemplate_eq (hwords : words template.toList = .ok (tokens.map written))
    (agentId : String) (dir : Path) : fillTemplate template agentId dir =
      .ok (tokens.map fun t => String.ofList (filled agentId.toList dir.toString.toList t)) := by
  have hfilled : (tokens.map written).mapM (fun w =>
      (fill (values agentId.toList dir.toString.toList) w).mapError Command.Fault.field)
        = .ok (tokens.map (filled agentId.toList dir.toString.toList)) := by
    rw [mapM_eq_ok_iff, List.forall₂_map_left_iff, List.forall₂_map_right_iff, List.forall₂_same]
    intro t _
    rw [fill_written]
    rfl
  unfold fillTemplate
  rw [hwords]
  show (do
    let filled ← (tokens.map written).mapM fun w =>
      (fill (values agentId.toList dir.toString.toList) w).mapError Command.Fault.field
    return filled.map String.ofList : Except Command.Fault (List String)) = _
  rw [hfilled]
  exact congrArg Except.ok List.map_map

theorem adds_flagged (flag value : Option String) (shown : String → String) :
    Adds flag value shown (flagged flag value shown) := by
  unfold flagged
  split
  · next f v =>
    split
    · next hempty =>
      refine .none fun f' v' hf hv => ?_
      cases hf
      cases hv
      simpa using hempty
    · next hempty => exact .both rfl rfl (by simpa using hempty)
  · next hmissing => exact .none fun f v hf hv => absurd hv (hmissing f v hf)

/-- Which template a call has does not depend on the agent. -/
theorem templateFor_eq_ok {engine : Option String} {agentId : String}
    (h : command.templateFor agentId engine = .ok template) (other : String) :
    command.templateFor other engine = .ok template := by
  unfold templateFor at h ⊢
  split at h
  · exact h
  · split at h
    · exact h
    · cases h

theorem argv_of_fillTemplate {engine : Option String} {anyone : String}
    (h : command.templateFor anyone engine = .ok template) (agentId : String) (dir : Path)
    (model effort : Option String) : command.argv agentId dir model effort engine =
      (fillTemplate template agentId dir).map fun args =>
        args ++ flagged command.modelFlag model id
          ++ flagged command.effortFlag effort effortText := by
  unfold argv
  rw [templateFor_eq_ok h agentId]
  show (do
    let filled ← fillTemplate template agentId dir
    return filled ++ flagged command.modelFlag model id
      ++ flagged command.effortFlag effort effortText : Except Command.Fault (List String)) = _
  cases fillTemplate template agentId dir <;> rfl

/-- The command of a template whose only braces are those of its placeholders is its words, in which
every placeholder is replaced as it stands, and behind them the model with its flag and the
reasoning effort with its own.  The words are cut before anything is filled in, so their number
depends neither on the agent nor on the directory.  Only a template that cannot be split into words
has no command. -/
theorem argv_of_symbols {engine : Option String} {anyone : String} {symbols : List Symbol}
    (h : command.templateFor anyone engine = .ok template)
    (hs : template.toList = written symbols) (model effort : Option String) :
    (∀ fault, words template.toList = .error fault →
      ∀ agentId dir, command.argv agentId dir model effort engine = .error (.words fault)) ∧
    (∀ ws, words template.toList = .ok ws →
      ∃ (tokens : List (List Symbol)) (modelArgs effortArgs : List String),
        ws = tokens.map written ∧ Adds command.modelFlag model id modelArgs ∧
        Adds command.effortFlag effort effortText effortArgs ∧
        ∀ agentId dir, command.argv agentId dir model effort engine =
          .ok (tokens.map (fun t => String.ofList (filled agentId.toList dir.toString.toList t))
            ++ modelArgs ++ effortArgs)) ∧
    ∀ agentId dir agentId' dir' args, command.argv agentId dir model effort engine = .ok args →
      ∃ args', command.argv agentId' dir' model effort engine = .ok args' ∧
        args'.length = args.length := by
  have hargv := fun agentId dir => argv_of_fillTemplate h agentId dir model effort
  cases hws : words template.toList with
  | error fault =>
    have hnone : ∀ agentId dir,
        command.argv agentId dir model effort engine = .error (.words fault) := by
      intro agentId dir
      rw [hargv, fillTemplate, hws]
      rfl
    refine ⟨fun f hf agentId dir => Except.error.inj hf ▸ hnone agentId dir, nofun, ?_⟩
    intro agentId dir agentId' dir' args hargs
    cases (hnone agentId dir).symm.trans hargs
  | ok ws =>
    have hsplit : split .between (written []).reverse (written symbols) = .ok ws := hs ▸ hws
    obtain ⟨tokens, rfl⟩ := exists_tokens_of_split Place.proper_between hsplit
    have hfilled : ∀ agentId dir, command.argv agentId dir model effort engine =
        .ok (tokens.map (fun t => String.ofList (filled agentId.toList dir.toString.toList t))
          ++ flagged command.modelFlag model id
          ++ flagged command.effortFlag effort effortText) := by
      intro agentId dir
      rw [hargv, fillTemplate_eq hws]
      rfl
    refine ⟨nofun, fun ws hws => ?_, fun agentId dir agentId' dir' args hargs => ?_⟩
    · cases hws
      exact ⟨tokens, _, _, rfl, adds_flagged .., adds_flagged .., hfilled⟩
    · refine ⟨_, hfilled agentId' dir', ?_⟩
      cases (hfilled agentId dir).symm.trans hargs
      simp only [List.length_append, List.length_map]

/-- A command whose directory stands in quotes. -/
def quotingCommand : AgentCommand := { template := "x '\x7bcwd\x7d' -\x7bprofile\x7d" }

/-- The words of the command. -/
def quotingTokens : List (List Symbol) :=
  [[.plain 'x' (by decide)], [.directory], [.plain '-' (by decide), .profile]]

/-- The template of the command. -/
def quotingSymbols : List Symbol :=
  [.plain 'x' (by decide), .plain ' ' (by decide), .plain '\'' (by decide), .directory,
    .plain '\'' (by decide), .plain ' ' (by decide), .plain '-' (by decide), .profile]

/-- An agent whose id holds a blank, a quote and a placeholder is one argument with all of them. -/
theorem quotingCommand_argv :
    quotingCommand.templateFor "" none = .ok quotingCommand.template ∧
      quotingCommand.template.toList = written quotingSymbols ∧
      quotingCommand.argv "a \"\x7bcwd\x7d" ⟨.slash, ["my work"]⟩ (some "o3") none none
        = .ok ["x", "/my work", "-a \"\x7bcwd\x7d", "--model", "o3"] := by
  have htemplate : quotingCommand.templateFor "" none = .ok quotingCommand.template := rfl
  have hs : quotingCommand.template.toList = written quotingSymbols := by decide +kernel
  have hwords : words quotingCommand.template.toList = .ok (quotingTokens.map written) := by
    decide +kernel
  obtain ⟨-, hargv, -⟩ := argv_of_symbols htemplate hs (some "o3") none
  obtain ⟨tokens, modelArgs, effortArgs, htokens, hmodel, heffort, hall⟩ := hargv _ hwords
  obtain rfl := List.map_injective_iff.mpr written_injective htokens
  refine ⟨htemplate, hs, (hall _ _).trans ?_⟩
  cases hmodel with
  | none h => exact absurd (h _ _ rfl rfl) (by decide)
  | both hf hv _ =>
    cases hf
    cases hv
    cases heffort with
    | both _ hv _ => cases hv
    | none _ => decide +kernel

end AgentCommand

end Conductor
