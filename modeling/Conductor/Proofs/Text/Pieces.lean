import Conductor.Proofs.Json.Scalar
import Conductor.Text.Digit
import Conductor.Text.Lines

/-!
# Trimming and splitting

What is left of a text without the blanks around it, and the pieces of a text that was put together
from pieces.  Trimming leaves a text alone up to the first and from the last character that is not
blank (`trim_around`), and blanks at the ends of a text change its pieces by blanks only
(`map_trim_splitBy_trim`).  Pieces without the separator are found again in what they are put
together to (`splitBy_intercalate`).  A text without carriage returns keeps its line ends, and a
line feed behind a text ends its last line (`exists_unifyLineEnds_append`).  A number that is
printed in decimal digits is read back (`readInteger?_toDigits`).
-/

namespace Conductor.Text

variable {p : Char → Bool} {c sep : Char} {s t : List Char} {pieces : List (List Char)}

/-! ### Trimming -/

theorem dropWhile_of_neg (hs : ∀ c ∈ s, p c = false) : s.dropWhile p = s := by
  cases s with
  | nil => rfl
  | cons c s => exact List.dropWhile_cons_of_neg (by simp [hs c (List.mem_cons_self ..)])

theorem decide_ne_of_not_mem (h : c ∉ s) : ∀ d ∈ s, decide (d ≠ c) = true :=
  fun _ hd => decide_eq_true fun e => h (e ▸ hd)

/-- Taking stops at the first character that is not wanted. -/
theorem takeWhile_append_stop (hs : ∀ a ∈ s, p a = true) (hc : p c = false) (t : List Char) :
    (s ++ c :: t).takeWhile p = s := by
  rw [List.takeWhile_append_of_pos hs, List.takeWhile_cons_of_neg (by simp [hc]), List.append_nil]

theorem dropWhile_append_stop (hs : ∀ a ∈ s, p a = true) (hc : p c = false) (t : List Char) :
    (s ++ c :: t).dropWhile p = c :: t := by
  rw [List.dropWhile_append_of_pos hs, List.dropWhile_cons_of_neg (by simp [hc])]

theorem allBlank_append : allBlank (s ++ t) = true ↔ allBlank s = true ∧ allBlank t = true := by
  unfold allBlank
  rw [List.all_append, Bool.and_eq_true]

theorem trimStart_blank_append (hs : allBlank s = true) : trimStart (s ++ t) = trimStart t := by
  unfold trimStart
  exact List.dropWhile_append_of_pos (by simpa [allBlank] using hs)

theorem trimStart_cons (hc : isBlank c = false) : trimStart (c :: s) = c :: s := by
  unfold trimStart
  rw [List.dropWhile_cons_of_neg (by simp [hc])]

theorem trimStart_append_cons (hc : isBlank c = false) :
    trimStart (s ++ c :: t) = trimStart s ++ c :: t := by
  induction s with
  | nil => exact trimStart_cons hc
  | cons d s ih =>
    by_cases hd : isBlank d = true
    · have hb : allBlank [d] = true := by simpa [allBlank] using hd
      rw [List.cons_append, ← List.singleton_append, trimStart_blank_append hb, ih,
        ← List.singleton_append (l := s), trimStart_blank_append hb]
    · rw [List.cons_append, trimStart_cons (by simpa using hd), trimStart_cons (by simpa using hd),
        List.cons_append]

theorem trimEnd_eq : trimEnd s = (trimStart s.reverse).reverse := rfl

theorem trimEnd_append_cons (hc : isBlank c = false) :
    trimEnd (s ++ c :: t) = s ++ c :: trimEnd t := by
  rw [trimEnd_eq, trimEnd_eq, List.reverse_append, List.reverse_cons, List.append_assoc,
    List.singleton_append, trimStart_append_cons hc]
  simp

/-- Trimming leaves a text alone around a character that is not blank. -/
theorem trim_around (hc : isBlank c = false) :
    trim (s ++ c :: t) = trimStart s ++ c :: trimEnd t := by
  unfold trim
  rw [trimStart_append_cons hc, trimEnd_append_cons hc]

/-- A text is its trimmed text with blanks around it. -/
theorem exists_trim_eq (s : List Char) :
    ∃ before after, allBlank before = true ∧ allBlank after = true ∧
      s = before ++ trim s ++ after := by
  refine ⟨s.takeWhile isBlank, ((trimStart s).reverse.takeWhile isBlank).reverse, ?_, ?_, ?_⟩
  · exact List.all_takeWhile
  · unfold allBlank
    rw [List.all_reverse]
    exact List.all_takeWhile
  · rw [List.append_assoc, trim, trimEnd, ← List.reverse_append, List.takeWhile_append_dropWhile,
      List.reverse_reverse, trimStart, List.takeWhile_append_dropWhile]

theorem trim_blank_append (hs : allBlank s = true) : trim (s ++ t) = trim t := by
  unfold trim
  rw [trimStart_blank_append hs]

theorem eq_append_cons_of_not_blank (hs : allBlank s = false) :
    ∃ before c after, isBlank c = false ∧ s = before ++ c :: after := by
  cases hd : trimStart s with
  | nil =>
    rw [trimStart_eq_nil_iff.mp hd] at hs
    cases hs
  | cons c after =>
    refine ⟨s.takeWhile isBlank, c, after, head_dropWhile_not hd, ?_⟩
    rw [← hd, trimStart, List.takeWhile_append_dropWhile]

theorem trim_append_blank (ht : allBlank t = true) : trim (s ++ t) = trim s := by
  cases hs : allBlank s with
  | true => rw [trim_eq_nil_iff.mpr hs, trim_eq_nil_iff.mpr (allBlank_append.mpr ⟨hs, ht⟩)]
  | false =>
    obtain ⟨before, c, after, hc, rfl⟩ := eq_append_cons_of_not_blank hs
    rw [List.append_assoc, List.cons_append, trim_around hc, trim_around hc,
      trimEnd_append_blank ht]

theorem trim_of_not_blank (hs : ∀ c ∈ s, isBlank c = false) : trim s = s := by
  have hrev : ∀ c ∈ s.reverse, isBlank c = false := fun c hc => hs c (List.mem_reverse.mp hc)
  rw [trim, trimStart, dropWhile_of_neg hs, trimEnd, dropWhile_of_neg hrev, List.reverse_reverse]

/-- Trimming leaves a text alone between two characters that are not blank. -/
theorem trim_between {d : Char} (hc : isBlank c = false) (hd : isBlank d = false) :
    trim (c :: (s ++ [d])) = c :: (s ++ [d]) := by
  have h := trim_around (s := []) (t := s ++ [d]) hc
  have hend : trimEnd (s ++ [d]) = s ++ [d] := trimEnd_append_cons (t := []) hd
  rwa [hend] at h

/-- A trimmed text does not begin with a blank. -/
theorem isBlank_of_head?_trim (h : (trim s).head? = some c) : isBlank c = false := by
  unfold trim at h
  cases hs : trimStart s with
  | nil =>
    rw [hs] at h
    cases h
  | cons d t =>
    have hd : isBlank d = false := head_dropWhile_not hs
    have hend : trimEnd (d :: t) = d :: trimEnd t := @trimEnd_append_cons d [] t hd
    rw [hs, hend] at h
    cases h
    exact hd

/-- A trimmed text does not end in a blank. -/
theorem isBlank_of_getLast?_trim (h : (trim s).getLast? = some c) : isBlank c = false := by
  rw [trim, trimEnd_eq, List.getLast?_reverse] at h
  obtain ⟨t, ht⟩ := List.head?_eq_some_iff.mp h
  exact head_dropWhile_not ht

theorem trimStart_trimStart (s : List Char) : trimStart (trimStart s) = trimStart s := by
  cases hs : trimStart s with
  | nil => rfl
  | cons c cs => exact trimStart_cons (head_dropWhile_not hs)

theorem trim_trimStart (s : List Char) : trim (trimStart s) = trim s := by
  unfold trim
  rw [trimStart_trimStart]

theorem trim_trimEnd (s : List Char) : trim (trimEnd s) = trim s := by
  have hidem : ∀ s, trimEnd (trimEnd s) = trimEnd s := by
    intro s
    simp only [trimEnd, List.reverse_reverse]
    rw [← trimStart, ← trimStart, trimStart_trimStart]
  cases hs : allBlank s with
  | true => rw [trimEnd_eq_nil_iff.mpr hs, trim_eq_nil_iff.mpr hs]; rfl
  | false =>
    obtain ⟨before, c, after, hc, rfl⟩ := eq_append_cons_of_not_blank hs
    rw [trimEnd_append_cons hc, trim_around hc, trim_around hc, hidem]

theorem trim_trim (s : List Char) : trim (trim s) = trim s := by
  calc
    trim (trim s) = trim (trimStart s) := trim_trimEnd (trimStart s)
    _ = trim s := trim_trimStart s

theorem trimmed_trimmed (s : String) : trimmed (trimmed s) = trimmed s := by
  unfold trimmed
  rw [String.toList_ofList, trim_trim]

/-- Trimming makes no text blank. -/
theorem isBlankText_trimmed (s : String) : isBlankText (trimmed s) = isBlankText s := by
  unfold isBlankText trimmed
  rw [String.toList_ofList, Bool.eq_iff_iff, ← trim_eq_nil_iff, ← trim_eq_nil_iff, trim_trim]

theorem unlessBlank_eq_some_iff {text t : String} :
    unlessBlank text = some t ↔ text = t ∧ isBlankText text = false := by
  unfold unlessBlank
  cases isBlankText text with
  | true => simp
  | false => simp

/-! ### Splitting -/

theorem splitBy_cons_of_neg (hc : p c = false) (t : List Char) :
    ∃ w ws, splitBy p t = w :: ws ∧ splitBy p (c :: t) = (c :: w) :: ws := by
  cases ht : splitBy p t with
  | nil => exact absurd ht (splitBy_ne_nil p t)
  | cons w ws => exact ⟨w, ws, rfl, by rw [splitBy, if_neg (by simp [hc]), ht]⟩

/-- What stands in front of a text goes to its first piece. -/
theorem splitBy_append_of_neg (hs : ∀ c ∈ s, p c = false) (t : List Char) :
    ∃ w ws, splitBy p t = w :: ws ∧ splitBy p (s ++ t) = (s ++ w) :: ws := by
  induction s with
  | nil =>
    obtain ⟨w, ws, h⟩ := List.exists_cons_of_ne_nil (splitBy_ne_nil p t)
    exact ⟨w, ws, h, h⟩
  | cons c s ih =>
    obtain ⟨hc, hs⟩ := List.forall_mem_cons.mp hs
    obtain ⟨w, ws, ht, hst⟩ := ih hs
    obtain ⟨w', ws', hst', hcst⟩ := splitBy_cons_of_neg hc (s ++ t)
    cases hst.symm.trans hst'
    exact ⟨w, ws, ht, hcst⟩

/-- What stands behind a text goes to its last piece. -/
theorem splitBy_append_of_neg_right (ht : ∀ c ∈ t, p c = false) (s : List Char) :
    ∃ ws w, splitBy p s = ws ++ [w] ∧ splitBy p (s ++ t) = ws ++ [w ++ t] := by
  induction s with
  | nil =>
    obtain ⟨w, ws, hnil, h⟩ := splitBy_append_of_neg ht []
    cases hnil
    rw [List.append_nil] at h
    exact ⟨[], [], rfl, h⟩
  | cons c s ih =>
    obtain ⟨ws, w, hs, hst⟩ := ih
    cases hc : p c with
    | true =>
      refine ⟨[] :: ws, w, ?_, ?_⟩
      · rw [splitBy, if_pos hc, hs, List.cons_append]
      · rw [List.cons_append, splitBy, if_pos hc, hst, List.cons_append]
    | false =>
      -- The first piece may be the last one too, so both ends of the list matter.
      obtain ⟨v, vs, hv, hcv⟩ := splitBy_cons_of_neg hc s
      obtain ⟨v', vs', hv', hcv'⟩ := splitBy_cons_of_neg hc (s ++ t)
      rw [hs] at hv
      rw [hst] at hv'
      rw [List.cons_append, hcv, hcv']
      cases ws with
      | nil =>
        cases hv
        cases hv'
        exact ⟨[], c :: w, rfl, rfl⟩
      | cons u us =>
        cases hv
        cases hv'
        exact ⟨(c :: v) :: us, w, rfl, rfl⟩

/-- A separator ends the pieces in front of it. -/
theorem splitBy_append_cons (hsep : p sep = true) (s t : List Char) :
    splitBy p (s ++ sep :: t) = splitBy p s ++ splitBy p t := by
  induction s with
  | nil => simp [splitBy, hsep]
  | cons c s ih =>
    rw [List.cons_append]
    cases hc : p c with
    | true => rw [splitBy, if_pos hc, splitBy, if_pos hc, ih, List.cons_append]
    | false =>
      obtain ⟨w, ws, hs, hcs⟩ := splitBy_cons_of_neg hc s
      obtain ⟨v, vs, hst, hcst⟩ := splitBy_cons_of_neg hc (s ++ sep :: t)
      rw [ih, hs, List.cons_append] at hst
      cases hst
      rw [hcst, hcs, List.cons_append]

/-- Blanks around a text change its pieces by blanks only. -/
theorem map_trim_splitBy_trim (hp : ∀ c, isBlank c = true → p c = false) (s : List Char) :
    (splitBy p (trim s)).map trim = (splitBy p s).map trim := by
  obtain ⟨before, after, hb, ha, hs⟩ := exists_trim_eq s
  have hfree : ∀ {t}, allBlank t = true → ∀ c ∈ t, p c = false :=
    fun ht c hc => hp c (List.all_eq_true.mp ht c hc)
  obtain ⟨ws, w, hm, hma⟩ := splitBy_append_of_neg_right (hfree ha) (trim s)
  obtain ⟨v, vs, hv, hbv⟩ := splitBy_append_of_neg (hfree hb) (trim s ++ after)
  rw [← List.append_assoc, ← hs] at hbv
  have hback : (splitBy p (trim s)).map trim = (splitBy p (trim s ++ after)).map trim := by
    rw [hm, hma, List.map_append, List.map_append, List.map_singleton, List.map_singleton,
      trim_append_blank ha]
  rw [hback, hv, hbv, List.map_cons, List.map_cons, trim_blank_append hb]

theorem splitBy_of_neg (hs : ∀ c ∈ s, p c = false) : splitBy p s = [s] := by
  obtain ⟨w, ws, hnil, h⟩ := splitBy_append_of_neg hs []
  cases hnil
  rwa [List.append_nil] at h

/-- Pieces without the separator are found again in what they are put together to. -/
theorem splitBy_intercalate (hsep : p sep = true) (hne : pieces ≠ [])
    (hp : ∀ piece ∈ pieces, ∀ c ∈ piece, p c = false) :
    splitBy p ([sep].intercalate pieces) = pieces := by
  induction pieces with
  | nil => exact absurd rfl hne
  | cons first more ih =>
    obtain ⟨hfirst, hmore⟩ := List.forall_mem_cons.mp hp
    cases more with
    | nil => rw [List.intercalate_singleton, splitBy_of_neg hfirst]
    | cons second more =>
      have hrest := ih (List.cons_ne_nil _ _) hmore
      rw [List.intercalate_cons_cons]
      obtain ⟨w, ws, hw, h⟩ := splitBy_append_of_neg hfirst
        (sep :: [sep].intercalate (second :: more))
      rw [splitBy, if_pos hsep, hrest] at hw
      cases hw
      rw [List.append_nil] at h
      simpa using h

/-- A piece holds characters of the text, none of which separates. -/
theorem mem_of_mem_splitBy {piece : List Char} (h : piece ∈ splitBy p s) (hc : c ∈ piece) :
    c ∈ s ∧ p c = false := by
  induction s generalizing piece with
  | nil =>
    rw [splitBy, List.mem_singleton] at h
    cases h ▸ hc
  | cons a s ih =>
    have hmore : ∀ {piece}, piece ∈ splitBy p s → c ∈ piece → c ∈ a :: s ∧ p c = false :=
      fun h hc => ⟨List.mem_cons_of_mem _ (ih h hc).1, (ih h hc).2⟩
    cases ha : p a with
    | true =>
      rw [splitBy, if_pos ha] at h
      rcases List.mem_cons.mp h with rfl | h
      · cases hc
      · exact hmore h hc
    | false =>
      obtain ⟨w, ws, hs, has⟩ := splitBy_cons_of_neg ha s
      rw [has] at h
      rw [hs] at hmore
      rcases List.mem_cons.mp h with rfl | h
      · rcases List.mem_cons.mp hc with rfl | hc
        · exact ⟨List.mem_cons_self .., ha⟩
        · exact hmore (List.mem_cons_self ..) hc
      · exact hmore (List.mem_cons_of_mem _ h) hc

/-- What holds of the separator and of all pieces holds of what they are put together to. -/
theorem forall_mem_intercalate {P : Char → Prop} {sep : Char} (hsep : P sep)
    (hpieces : ∀ piece ∈ pieces, ∀ c ∈ piece, P c) : ∀ c ∈ [sep].intercalate pieces, P c := by
  induction pieces with
  | nil => exact List.forall_mem_nil _
  | cons first more ih =>
    obtain ⟨hfirst, hmore⟩ := List.forall_mem_cons.mp hpieces
    cases more with
    | nil => rwa [List.intercalate_singleton]
    | cons second more =>
      rw [List.intercalate_cons_cons, List.append_assoc]
      exact List.forall_mem_append.mpr ⟨hfirst, List.forall_mem_cons.mpr ⟨hsep, ih hmore⟩⟩

/-! ### Line ends -/

theorem unifyLineEnds_of_not_mem (h : '\r' ∉ s) : unifyLineEnds s = s := by
  induction s with
  | nil => rfl
  | cons c s ih =>
    rw [List.mem_cons, not_or] at h
    rw [unifyLineEnds, ih h.2]
    · exact fun _ hc _ => h.1 hc.symm
    · exact fun hc => h.1 hc.symm

/-- A line feed stands for itself behind a text, except that a return at the end of the text
becomes one with it. -/
theorem exists_unifyLineEnds_append (s t : List Char) :
    ∃ u, (unifyLineEnds s = u ∨ unifyLineEnds s = u ++ ['\n']) ∧
      unifyLineEnds (s ++ '\n' :: t) = u ++ '\n' :: unifyLineEnds t := by
  fun_induction unifyLineEnds s with
  | case1 => exact ⟨[], .inl rfl, rfl⟩
  | case2 s ih =>
    obtain ⟨u, hs, ht⟩ := ih
    refine ⟨'\n' :: u, ?_, ?_⟩
    · rcases hs with hs | hs <;> simp [hs]
    · rw [List.cons_append, List.cons_append, unifyLineEnds, ht, List.cons_append]
  | case3 s hs ih =>
    cases s with
    | nil =>
      -- The return ends the text, so the line feed behind it is part of the same line end.
      exact ⟨[], .inr rfl, rfl⟩
    | cons d s =>
      obtain ⟨u, hu, ht⟩ := ih
      have hd : ∀ cs, d :: (s ++ '\n' :: t) ≠ '\n' :: cs :=
        fun _ h => hs s (by rw [(List.cons.inj h).1])
      refine ⟨'\n' :: u, ?_, ?_⟩
      · rcases hu with hu | hu <;> simp [hu]
      · rw [List.cons_append, List.cons_append, unifyLineEnds.eq_3 _ hd, ← List.cons_append, ht,
          List.cons_append]
  | case4 c s hc hc' ih =>
    obtain ⟨u, hu, ht⟩ := ih
    have hne : ∀ cs, c = '\r' → s ++ '\n' :: t = '\n' :: cs → False := fun _ h => absurd h hc'
    refine ⟨c :: u, ?_, ?_⟩
    · rcases hu with hu | hu <;> simp [hu]
    · rw [List.cons_append, unifyLineEnds.eq_4 _ _ hne hc', ht, List.cons_append]

/-! ### Decimal numbers -/

theorem isDigit_iff : Json.isDigit c = true ↔ 48 ≤ c.toNat ∧ c.toNat ≤ 57 := by
  unfold Json.isDigit
  rw [Bool.and_eq_true, decide_eq_true_eq, decide_eq_true_eq]
  exact Iff.rfl

theorem digitValue?_of_isDigit (hc : Json.isDigit c = true) :
    digitValue? c = some (c.toNat - '0'.toNat) := by
  have hle := isDigit_iff.mp hc
  have hz : zeros = 0x30 :: zeros.tail := rfl
  unfold digitValue?
  rw [hz, List.find?_cons_of_pos]
  · rfl
  · rw [Bool.and_eq_true, decide_eq_true_eq, decide_eq_true_eq]
    omega

theorem isBlank_of_isDigit (hc : Json.isDigit c = true) : isBlank c = false := by
  have hle := isDigit_iff.mp hc
  simp only [isBlank, Bool.or_eq_false_iff, Bool.and_eq_false_iff, decide_eq_false_iff_not,
    beq_eq_false_iff_ne]
  omega

theorem readDigits_of_isDigit {ds : List Char} (hd : ∀ c ∈ ds, Json.isDigit c = true)
    (acc count : Nat) :
    readDigits acc count ds =
      some (ds.foldl (fun n d => 10 * n + (d.toNat - '0'.toNat)) acc, count + ds.length) := by
  induction ds generalizing acc count with
  | nil => rfl
  | cons d ds ih =>
    obtain ⟨hd, hds⟩ := List.forall_mem_cons.mp hd
    have hunder : d ≠ '_' := by
      rintro rfl
      cases hd
    rw [readDigits.eq_3 _ _ _ _ (fun c cs h => absurd h hunder), digitValue?_of_isDigit hd]
    show readDigits _ _ ds = _
    rw [ih hds, List.foldl_cons, List.length_cons]
    congr 2
    omega

/-- A printed number without too many digits is read back. -/
theorem readInteger?_toDigits {n : Nat} (hn : (Nat.toDigits 10 n).length ≤ maxDigits) :
    readInteger? (Nat.toDigits 10 n) = some (n : Int) := by
  have hd : ∀ c ∈ Nat.toDigits 10 n, Json.isDigit c = true :=
    fun c hc => Json.isDigit_of_mem_toDigits hc
  have hspace : ∀ c ∈ Nat.toDigits 10 n, isSpaceAround c = false := by
    intro c hc
    rw [isSpaceAround, isBlank_of_isDigit (hd c hc), Bool.false_and]
  have hrev : ∀ c ∈ (Nat.toDigits 10 n).reverse, isSpaceAround c = false :=
    fun c hc => hspace c (List.mem_reverse.mp hc)
  have htrim : trimNumber (Nat.toDigits 10 n) = Nat.toDigits 10 n := by
    rw [trimNumber, dropWhile_of_neg hspace, dropWhile_of_neg hrev, List.reverse_reverse]
  have hvalue := Json.digitsValue_toDigits n
  rw [readInteger?, htrim]
  match hds : Nat.toDigits 10 n with
  | [] => exact absurd hds Nat.toDigits_ne_nil
  | d :: ds =>
    rw [hds] at hd hn hvalue
    obtain ⟨hd, hds⟩ := List.forall_mem_cons.mp hd
    have hread : readNatural? (d :: ds) = some n := by
      rw [readNatural?, digitValue?_of_isDigit hd]
      show ((readDigits _ 1 ds).bind fun r => if r.2 ≤ maxDigits then some r.1 else none) = _
      rw [readDigits_of_isDigit hds, Option.bind_some, if_pos (by simpa [Nat.add_comm] using hn),
        ← hvalue, Json.digitsValue, List.foldl_cons, Nat.mul_zero, Nat.zero_add]
    -- No sign stands in front of the digits.
    have hminus : d ≠ '-' := by
      rintro rfl
      cases hd
    have hplus : d ≠ '+' := by
      rintro rfl
      cases hd
    split
    · next heq => cases heq; exact absurd rfl hminus
    · next heq => cases heq; exact absurd rfl hplus
    · rw [hread]
      rfl

end Conductor.Text
