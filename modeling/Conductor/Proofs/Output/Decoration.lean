import Conductor.Proofs.Text.Pieces
import Conductor.Proofs.Verdict
import Mathlib.Data.List.Basic

/-!
# Decoration does not change what an output says

An output that is put together from plain texts and complete control sequences says what its plain
texts say, and footers below an output say nothing.  Main statement: neither changes the last
meaningful line of an output, its last word or the verdict on a step
(`decoration_says_nothing`).

A control sequence is found where it begins, whatever stands behind it
(`withoutControls_written_append`), so colours go piece by piece.  A footer cannot end a sequence
that the output has left open: the line feed in front of it is no part of one, and only a bell ends
the other kind (`afterControl?_append_footers`).  Hence what is left of the output is followed by
the footers as they are, and lines that are blank or telemetry are passed over
(`lastMeaningful_append_of_silent`).
-/

namespace Conductor.Output

open Text

/-- A piece of a decorated output. -/
inductive Piece where
  /-- A text without an escape character. -/
  | plain (text : List Char) (free : '\x1b' ∉ text)
  /-- A control sequence: a bracket, parameters, intermediates and a final character. -/
  | control (parameters intermediates : List Char) (final : Char)
    (hp : ∀ c ∈ parameters, isParameter c = true)
    (hi : ∀ c ∈ intermediates, isIntermediate c = true) (hf : isFinal final = true)
  /-- A command to the terminal: a closing bracket and a text up to the bell. -/
  | command (text : List Char) (free : '\x07' ∉ text)

/-- A piece as it is written. -/
def Piece.written : Piece → List Char
  | plain text _ => text
  | control parameters intermediates final .. =>
    '\x1b' :: '[' :: (parameters ++ (intermediates ++ [final]))
  | command text _ => '\x1b' :: ']' :: (text ++ ['\x07'])

/-- What a terminal shows of a piece. -/
def Piece.shown : Piece → List Char
  | plain text _ => text
  | _ => []

/-- The output that is put together from pieces. -/
def decorated (pieces : List Piece) : String := String.ofList (pieces.flatMap Piece.written)

/-- The same output without its control sequences. -/
def undecorated (pieces : List Piece) : String := String.ofList (pieces.flatMap Piece.shown)

/-- A line that an engine prints below an output. -/
structure Footer (line : String) : Prop where
  /-- It is a single line without the characters that begin and end control sequences. -/
  free : ∀ c ∈ ['\x1b', '\x07', '\r', '\n'], c ∉ line.toList
  /-- It is blank or begins as telemetry does, in any case. -/
  silent : isBlankText line = true ∨
    ∃ start ∈ telemetryStarts, start.toList <+: lowerChars (trim line.toList)

/-- A line that is passed over. -/
def Silent (line : List Char) : Prop := trim line = [] ∨ isTelemetry (trim line) = true

variable {s t o rest text footers : List Char} {c : Char} {p : Char → Bool}

/-! ### Control sequences -/

theorem isParameter_iff : isParameter c = true ↔
    48 ≤ c.toNat ∧ c.toNat ≤ 57 ∨ c.toNat = 59 ∨ c.toNat = 63 := by
  unfold isParameter
  rw [Bool.or_eq_true, Bool.or_eq_true, Bool.and_eq_true, decide_eq_true_eq, decide_eq_true_eq,
    beq_iff_eq, beq_iff_eq, or_assoc, ← Char.toNat_inj, ← Char.toNat_inj]
  exact Iff.rfl

theorem isIntermediate_iff : isIntermediate c = true ↔ 32 ≤ c.toNat ∧ c.toNat ≤ 47 := by
  unfold isIntermediate
  rw [Bool.and_eq_true, decide_eq_true_eq, decide_eq_true_eq]
  exact Iff.rfl

theorem isFinal_iff : isFinal c = true ↔ 64 ≤ c.toNat ∧ c.toNat ≤ 126 := by
  unfold isFinal
  rw [Bool.and_eq_true, decide_eq_true_eq, decide_eq_true_eq]
  exact Iff.rfl

theorem not_isParameter_of_isIntermediate (h : isIntermediate c = true) :
    isParameter c = false := by
  rw [isIntermediate_iff] at h
  rw [← Bool.not_eq_true, isParameter_iff]
  omega

theorem not_isParameter_of_isFinal (h : isFinal c = true) : isParameter c = false := by
  rw [isFinal_iff] at h
  rw [← Bool.not_eq_true, isParameter_iff]
  omega

theorem not_isIntermediate_of_isFinal (h : isFinal c = true) : isIntermediate c = false := by
  rw [isFinal_iff] at h
  rw [← Bool.not_eq_true, isIntermediate_iff]
  omega

theorem withoutControls_cons_of_ne (h : c ≠ '\x1b') (s : List Char) :
    withoutControls (c :: s) = c :: withoutControls s := by
  rw [withoutControls]
  exact h

theorem withoutControls_of_complete (h : afterControl? s = some rest) :
    withoutControls ('\x1b' :: s) = withoutControls rest := by
  rw [withoutControls]
  split
  · next hrest =>
    cases h.symm.trans hrest
    rfl
  · next hnone => cases h.symm.trans hnone

theorem withoutControls_of_open (h : afterControl? s = none) :
    withoutControls ('\x1b' :: s) = '\x1b' :: withoutControls s := by
  rw [withoutControls]
  split
  · next hrest => cases h.symm.trans hrest
  · rfl

/-- Text without an escape character stays as it is. -/
theorem withoutControls_append_of_not_mem (h : '\x1b' ∉ s) (t : List Char) :
    withoutControls (s ++ t) = s ++ withoutControls t := by
  induction s with
  | nil => rfl
  | cons c s ih =>
    rw [List.mem_cons, not_or] at h
    rw [List.cons_append, withoutControls_cons_of_ne (Ne.symm h.1), ih h.2, List.cons_append]

theorem afterControl?_bracket {parameters intermediates : List Char}
    (hp : ∀ c ∈ parameters, isParameter c = true)
    (hi : ∀ c ∈ intermediates, isIntermediate c = true) (hc : isFinal c = true) (t : List Char) :
    afterControl? ('[' :: (parameters ++ (intermediates ++ c :: t))) = some t := by
  have hparameters : (parameters ++ (intermediates ++ c :: t)).dropWhile isParameter
      = intermediates ++ c :: t := by
    rw [List.dropWhile_append_of_pos hp]
    -- The parameters end at the first intermediate, or at the final character.
    cases intermediates with
    | nil => exact List.dropWhile_cons_of_neg (by simp [not_isParameter_of_isFinal hc])
    | cons i intermediates =>
      have hi := not_isParameter_of_isIntermediate (hi i (List.mem_cons_self ..))
      exact List.dropWhile_cons_of_neg (by simp [hi])
  rw [afterControl?, hparameters, dropWhile_append_stop hi (not_isIntermediate_of_isFinal hc)]
  exact if_pos hc

theorem afterControl?_bell (h : '\x07' ∉ s) (t : List Char) :
    afterControl? (']' :: (s ++ '\x07' :: t)) = some t := by
  have hbell : (s ++ '\x07' :: t).dropWhile (· ≠ '\x07') = '\x07' :: t :=
    dropWhile_append_stop (decide_ne_of_not_mem h) (by decide) t
  rw [afterControl?, hbell]

/-- What is left of a piece is what a terminal shows of it, whatever stands behind it. -/
theorem withoutControls_written_append (piece : Piece) (t : List Char) :
    withoutControls (piece.written ++ t) = piece.shown ++ withoutControls t := by
  cases piece with
  | plain text free => exact withoutControls_append_of_not_mem free t
  | control parameters intermediates final hp hi hf =>
    have hrest := afterControl?_bracket hp hi hf t
    simpa [Piece.written, Piece.shown] using withoutControls_of_complete hrest
  | command text free =>
    have hrest := afterControl?_bell free t
    simpa [Piece.written, Piece.shown] using withoutControls_of_complete hrest

theorem withoutControls_flatMap_written (pieces : List Piece) :
    withoutControls (pieces.flatMap Piece.written) = pieces.flatMap Piece.shown := by
  induction pieces with
  | nil => exact withoutControls.eq_1
  | cons piece pieces ih =>
    rw [List.flatMap_cons, List.flatMap_cons, withoutControls_written_append, ih]

theorem not_mem_shown (piece : Piece) : '\x1b' ∉ piece.shown := by
  cases piece with
  | plain text free => exact free
  | _ => exact List.not_mem_nil

theorem withoutControls_of_not_mem (h : '\x1b' ∉ s) : withoutControls s = s := by
  have happend := withoutControls_append_of_not_mem h []
  rwa [withoutControls.eq_1, List.append_nil] at happend

/-- Control sequences are removed and nothing else is. -/
theorem withoutControls_written_eq_shown (pieces : List Piece) :
    withoutControls (pieces.flatMap Piece.written)
      = withoutControls (pieces.flatMap Piece.shown) := by
  have hfree : '\x1b' ∉ pieces.flatMap Piece.shown := by
    intro h
    obtain ⟨piece, -, hmem⟩ := List.mem_flatMap.mp h
    exact not_mem_shown piece hmem
  rw [withoutControls_flatMap_written, withoutControls_of_not_mem hfree]

/-! ### Footers -/

/-- Dropping stops at a character that is not wanted, if not before. -/
theorem dropWhile_append_cons_of_neg (hc : p c = false) (s t : List Char) :
    (s ++ c :: t).dropWhile p = s.dropWhile p ++ c :: t := by
  induction s with
  | nil => exact List.dropWhile_cons_of_neg (by simp [hc])
  | cons d s ih =>
    rw [List.cons_append, List.dropWhile_cons, List.dropWhile_cons, ih]
    split <;> rfl

theorem afterControl?_of_other (h₁ : c ≠ '[') (h₂ : c ≠ ']') (s : List Char) :
    afterControl? (c :: s) = none :=
  afterControl?.eq_3 _ (fun _ h => h₁ (List.cons.inj h).1) fun _ h => h₂ (List.cons.inj h).1

/-- Lines below a text end no control sequence that the text has left open. -/
theorem afterControl?_append_footers (h : '\x07' ∉ footers) (s : List Char) :
    afterControl? (s ++ '\n' :: footers)
      = (afterControl? s).map fun rest => rest ++ '\n' :: footers := by
  cases s with
  | nil => exact afterControl?_of_other (by decide) (by decide) footers
  | cons c s =>
    rw [List.cons_append]
    by_cases hbracket : c = '['
    · subst hbracket
      -- The line feed is no parameter, no intermediate and no final character.
      rw [afterControl?, afterControl?, dropWhile_append_cons_of_neg (by decide),
        dropWhile_append_cons_of_neg (by decide)]
      cases (s.dropWhile isParameter).dropWhile isIntermediate with
      | nil => rfl
      | cons d rest =>
        dsimp only [List.cons_append]
        split <;> rfl
    · by_cases hcommand : c = ']'
      · subst hcommand
        have hnone : ('\n' :: footers).dropWhile (· ≠ '\x07') = [] :=
          dropWhile_eq_nil.mpr (decide_ne_of_not_mem (by simpa using h))
        rw [afterControl?, afterControl?, List.dropWhile_append, hnone]
        cases s.dropWhile (· ≠ '\x07') with
        | nil => rfl
        | cons d rest => rfl
      · rw [afterControl?_of_other hbracket hcommand, afterControl?_of_other hbracket hcommand]
        rfl

/-- Lines below a text stay as they are, and so does what is left of the text. -/
theorem withoutControls_append_footers (hescape : '\x1b' ∉ footers) (hbell : '\x07' ∉ footers)
    (s : List Char) :
    withoutControls (s ++ '\n' :: footers) = withoutControls s ++ '\n' :: footers := by
  fun_induction withoutControls s with
  | case1 => exact withoutControls_of_not_mem (by simpa using hescape)
  | case2 s rest hrest ih =>
    have hafter : afterControl? (s ++ '\n' :: footers) = some (rest ++ '\n' :: footers) := by
      rw [afterControl?_append_footers hbell, hrest, Option.map_some]
    rw [List.cons_append, withoutControls_of_complete hafter, ih]
  | case3 s hopen ih =>
    have hafter : afterControl? (s ++ '\n' :: footers) = none := by
      rw [afterControl?_append_footers hbell, hopen, Option.map_none]
    rw [List.cons_append, withoutControls_of_open hafter, ih, List.cons_append]
  | case4 c s hc ih =>
    rw [List.cons_append, withoutControls_cons_of_ne hc, ih, List.cons_append]

/-! ### Lines -/

/-- The lines of an output that carry meaning. -/
def meaningful (s : List Char) : List (List Char) :=
  ((lines s).map trim).filter fun line => !line.isEmpty && !isTelemetry line

theorem lastMeaningful_eq (s : List Char) :
    lastMeaningful s = (meaningful (unifyLineEnds (withoutControls s))).getLast?.getD [] := rfl

theorem meaningful_append (s t : List Char) :
    meaningful (s ++ '\n' :: t) = meaningful s ++ meaningful t := by
  unfold meaningful lines
  rw [splitBy_append_cons (by decide), List.map_append, List.filter_append]

theorem meaningful_eq_nil (h : ∀ line ∈ lines s, Silent line) : meaningful s = [] := by
  unfold meaningful
  rw [List.filter_eq_nil_iff]
  intro line hline
  obtain ⟨raw, hraw, rfl⟩ := List.mem_map.mp hline
  rcases h raw hraw with hblank | htelemetry
  · simp [hblank]
  · simp [htelemetry]

/-- Silent lines below an output do not change what it says. -/
theorem lastMeaningful_append_of_silent (hescape : '\x1b' ∉ footers) (hbell : '\x07' ∉ footers)
    (hreturn : '\r' ∉ footers) (hsilent : ∀ line ∈ lines footers, Silent line) (o : List Char) :
    lastMeaningful (o ++ '\n' :: footers) = lastMeaningful o := by
  obtain ⟨u, ho, hfooters⟩ := exists_unifyLineEnds_append (withoutControls o) footers
  rw [lastMeaningful_eq, lastMeaningful_eq, withoutControls_append_footers hescape hbell, hfooters,
    unifyLineEnds_of_not_mem hreturn, meaningful_append, meaningful_eq_nil hsilent,
    List.append_nil]
  rcases ho with ho | ho
  · rw [ho]
  · rw [ho, meaningful_append, meaningful_eq_nil (s := []), List.append_nil]
    simp [lines, splitBy, Silent, trim, trimEnd, trimStart]

/-- Footers do not begin or end a control sequence, and they have no line ends but line feeds. -/
theorem Footer.not_mem_joinLines {ls : List String} (h : ∀ line ∈ ls, Footer line)
    (hc : c ∈ ['\x1b', '\x07', '\r']) : c ∉ joinLines (ls.map String.toList) := by
  have hlines : ∀ d ∈ joinLines (ls.map String.toList), d ∉ ['\x1b', '\x07', '\r'] := by
    refine forall_mem_intercalate (by decide) fun piece hpiece d hd hmem => ?_
    obtain ⟨line, hline, rfl⟩ := List.mem_map.mp hpiece
    exact (h line hline).free d (List.mem_append_left ['\n'] hmem) hd
  exact fun hmem => hlines c hmem hc

/-- The lines of footers are silent. -/
theorem Footer.silent_lines {ls : List String} (h : ∀ line ∈ ls, Footer line) :
    ∀ line ∈ lines (joinLines (ls.map String.toList)), Silent line := by
  have hsilent : ∀ line ∈ ls, Silent line.toList := by
    intro line hline
    rcases (h line hline).silent with hblank | ⟨start, hstart, hprefix⟩
    · exact .inl (trim_eq_nil_iff.mpr hblank)
    · exact .inr (List.any_eq_true.mpr ⟨start, hstart, List.isPrefixOf_iff_prefix.mpr hprefix⟩)
  cases ls with
  | nil =>
    intro line hline
    cases List.mem_singleton.mp hline
    exact .inl rfl
  | cons first more =>
    have hfound : lines (joinLines ((first :: more).map String.toList))
        = (first :: more).map String.toList := by
      refine splitBy_intercalate (by decide) (List.cons_ne_nil _ _) ?_
      intro piece hpiece c hc
      obtain ⟨line, hline, rfl⟩ := List.mem_map.mp hpiece
      have hne : c ≠ '\n' := by
        rintro rfl
        exact (h line hline).free _ (by decide) hc
      simpa using hne
    intro line hline
    rw [hfound] at hline
    obtain ⟨footer, hfooter, rfl⟩ := List.mem_map.mp hline
    exact hsilent footer hfooter

/-! ### What an output says -/

/-- Two outputs say the same: in their last meaningful lines, in their last words and to every step
that is judged by them. -/
structure SaysSame (output other : String) : Prop where
  line : lastLine output = lastLine other
  word : finalToken? output = finalToken? other
  verdict : ∀ behavior signal iterations,
    evaluate behavior output signal iterations = evaluate behavior other signal iterations

theorem SaysSame.of_lastMeaningful {output other : String}
    (h : lastMeaningful output.toList = lastMeaningful other.toList) : SaysSame output other := by
  have hword : finalToken? output = finalToken? other := by
    unfold finalToken?
    rw [h]
  exact ⟨congrArg String.ofList h, hword, evaluate_congr hword⟩

/-- An output that is put together from plain texts and complete control sequences says what the
plain texts say, and an output says the same with footers below it.  So neither colours nor the
figures of an engine decide whether a loop repeats. -/
theorem decoration_says_nothing :
    (∀ pieces, SaysSame (decorated pieces) (undecorated pieces)) ∧
      ∀ (output : String) (footers : List String), (∀ line ∈ footers, Footer line) →
        SaysSame (output ++ "\n" ++ "\n".intercalate footers) output := by
  constructor
  · intro pieces
    refine .of_lastMeaningful ?_
    unfold decorated undecorated
    rw [String.toList_ofList, String.toList_ofList, lastMeaningful_eq, lastMeaningful_eq,
      withoutControls_written_eq_shown]
  · intro output footers h
    refine .of_lastMeaningful ?_
    have hbelow : (output ++ "\n" ++ "\n".intercalate footers).toList
        = output.toList ++ '\n' :: joinLines (footers.map String.toList) := by
      simp [joinLines]
    rw [hbelow]
    exact lastMeaningful_append_of_silent (Footer.not_mem_joinLines h (by decide))
      (Footer.not_mem_joinLines h (by decide)) (Footer.not_mem_joinLines h (by decide))
      (Footer.silent_lines h) output.toList

/-- An output that is cut off within a control sequence, with the figures of an engine below it. -/
theorem footers_say_nothing :
    lastLine ("\x1b[32mAGAIN\x1b[0" ++ "\n" ++ "\n".intercalate ["", "Tokens used: 12"])
      = lastLine "\x1b[32mAGAIN\x1b[0" := by
  refine (decoration_says_nothing.2 _ _ fun line hline => ?_).line
  simp only [List.mem_cons, List.not_mem_nil, or_false] at hline
  rcases hline with rfl | rfl
  · exact ⟨List.forall_iff_forall_mem.mp (by decide), .inl (by decide)⟩
  · exact ⟨List.forall_iff_forall_mem.mp (by decide),
      .inr ⟨"tokens used", by decide, by decide +kernel⟩⟩

end Conductor.Output
