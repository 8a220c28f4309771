import Conductor.Proofs.Json.Scalar

/-!
# Printed documents are read back

A value is `Readable` within a depth when it holds no numbers but integers of a size that is read,
no text with half of a pair alone, no name twice in an object, and is nested no deeper.  Main
statement: reading the document of a readable value yields the value (`read_document`).

The proof goes along the value: a printed value is read up to where it ends, whatever follows it
unless that would go on with a number (`ReadsBack`).  The fuel of the reader is used up by one for
each value, item and member, so the length of what is printed is enough of it.
-/

namespace Conductor.Json

open Text

theorem indentedChars_int (level : Nat) (n : Int) : indentedChars level (.int n) = intChars n := by
  rw [indentedChars]

theorem indentedChars_str (level : Nat) (s : String) :
    indentedChars level (.str s) = textChars s := by
  rw [indentedChars]

/-- Values that are read as they were printed, nested at most to a depth. -/
inductive Readable : (depth : Nat) → Json → Prop
  | null {d} : Readable d .null
  | bool {d} (b : Bool) : Readable d (.bool b)
  | int {d n} (h : (Nat.toDigits 10 n.natAbs).length ≤ maxDigits) : Readable d (.int n)
  | str {d s} (h : LoneHalf.occursIn s = false) : Readable d (.str s)
  | arr {d items} (h : ∀ v ∈ items, Readable d v) : Readable (d + 1) (.arr items)
  | obj {d members} (hn : (members.map (·.1)).Nodup)
    (ht : ∀ m ∈ members, LoneHalf.occursIn m.1 = false)
    (h : ∀ m ∈ members, Readable d m.2) : Readable (d + 1) (.obj members)

/-- The printed value is read up to its end. -/
def ReadsBack (d : Nat) (v : Json) : Prop :=
  ∀ level fuel depth rest, d ≤ depth → (indentedChars level v).length < fuel → EndsNumber rest →
    readValue fuel depth (indentedChars level v ++ rest) = .ok (v, rest)

variable {d fuel depth level : Nat} {v : Json} {s rest : List Char}

/-! ### Spaces -/

theorem skipSpace_newLine (level : Nat) (s : List Char) :
    skipSpace (newLine level ++ s) = skipSpace s := by
  have hspaces : ∀ n, skipSpace (List.replicate n ' ' ++ s) = skipSpace s := by
    intro n
    induction n with
    | zero => rfl
    | succ n ih => exact ih
  exact hspaces (2 * level)

theorem skipSpace_cons {c : Char} (hc : isSpace c = false) (s : List Char) :
    skipSpace (c :: s) = c :: s := by
  unfold skipSpace
  rw [List.dropWhile_cons, hc, if_neg Bool.false_ne_true]

/-- The characters that a readable value may begin with. -/
def Begins (c : Char) : Prop :=
  isSpace c = false ∧ c ≠ ']' ∧ c ≠ '\x7d'

theorem begins_of_isDigit {c : Char} (h : isDigit c = true) : Begins c := by
  refine ⟨?_, ?_, ?_⟩
  · cases hs : isSpace c with
    | false => rfl
    | true =>
      simp only [isSpace, Bool.or_eq_true, beq_iff_eq] at hs
      rcases hs with ((rfl | rfl) | rfl) | rfl <;> revert h <;> decide
  · rintro rfl
    revert h
    decide
  · rintro rfl
    revert h
    decide

theorem exists_intChars (n : Int) :
    (∃ c cs, isDigit c = true ∧ intChars n = c :: cs) ∨
      ∃ c cs, isDigit c = true ∧ intChars n = '-' :: c :: cs := by
  obtain ⟨c, cs, hds⟩ :=
    List.exists_cons_of_ne_nil (Nat.toDigits_ne_nil (n := n.natAbs) (b := 10))
  have hc : isDigit c = true := isDigit_of_mem_toDigits (by rw [hds]; exact List.mem_cons_self ..)
  unfold intChars
  split
  · exact .inr ⟨c, cs, hc, by rw [hds]⟩
  · exact .inl ⟨c, cs, hc, hds⟩

theorem Readable.begins (h : Readable d v) (level : Nat) :
    ∃ c cs, indentedChars level v = c :: cs ∧ Begins c := by
  cases h with
  | null => exact ⟨_, _, rfl, by decide, by decide, by decide⟩
  | bool b => cases b <;> exact ⟨_, _, rfl, by decide, by decide, by decide⟩
  | @int _ n _ =>
    rcases exists_intChars n with ⟨c, cs, hc, he⟩ | ⟨c, cs, -, he⟩
    · exact ⟨c, cs, by rw [indentedChars_int, he], begins_of_isDigit hc⟩
    · exact ⟨'-', c :: cs, by rw [indentedChars_int, he], by decide, by decide, by decide⟩
  | str _ => exact ⟨_, _, by rw [indentedChars_str, textChars], by decide, by decide, by decide⟩
  | @arr _ items _ => cases items <;> exact ⟨_, _, rfl, by decide, by decide, by decide⟩
  | @obj _ members _ _ _ => cases members <;> exact ⟨_, _, rfl, by decide, by decide, by decide⟩

theorem Readable.skipSpace_eq (h : Readable d v) (level : Nat) (s : List Char) :
    skipSpace (indentedChars level v ++ s) = indentedChars level v ++ s := by
  obtain ⟨c, cs, he, hc⟩ := h.begins level
  rw [he]
  exact skipSpace_cons hc.1 _

/-! ### Single values -/

theorem readsBack_null : ReadsBack d .null := by
  intro level fuel depth rest _ hf _
  obtain ⟨fuel, rfl⟩ := Nat.exists_eq_add_one.mpr (Nat.zero_lt_of_lt hf)
  rfl

theorem readsBack_bool (b : Bool) : ReadsBack d (.bool b) := by
  intro level fuel depth rest _ hf _
  obtain ⟨fuel, rfl⟩ := Nat.exists_eq_add_one.mpr (Nat.zero_lt_of_lt hf)
  cases b <;> rfl

/-- The first two letters of a word are no digits. -/
theorem keywords_begin : ∀ k ∈ keywords,
    2 ≤ k.1.toList.length ∧ (k.1.toList.take 2).all (!isDigit ·) = true := by
  decide

/-- No word begins like an integer. -/
theorem keyword?_eq_none {c : Char} (hc : isDigit c = true) (s : List Char) :
    keyword? (c :: s) = none ∧ keyword? ('-' :: c :: s) = none := by
  have hne : ∀ x, (!isDigit x) = true → x ≠ c := by
    rintro x hx rfl
    rw [hc] at hx
    cases hx
  have hword : ∀ k ∈ keywords, ∃ a b cs, k.1.toList = a :: b :: cs ∧ a ≠ c ∧ b ≠ c := by
    intro k hk
    obtain ⟨hlen, hall⟩ := keywords_begin k hk
    match hcs : k.1.toList with
    | [] | [_] => simp [hcs] at hlen
    | a :: b :: cs =>
      rw [hcs] at hall
      simp only [List.take_succ_cons, List.all_cons, Bool.and_eq_true] at hall
      exact ⟨a, b, cs, rfl, hne a hall.1, hne b hall.2.1⟩
  unfold keyword?
  rw [List.findSome?_eq_none_iff, List.findSome?_eq_none_iff]
  constructor
  · intro k hk
    obtain ⟨a, b, cs, hcs, ha, -⟩ := hword k hk
    simp [hcs, ha]
  · intro k hk
    obtain ⟨a, b, cs, hcs, -, hb⟩ := hword k hk
    simp [hcs, hb]

theorem readValue_of_isDigit {c : Char} (hc : isDigit c = true) (fuel depth : Nat)
    (s : List Char) : readValue (fuel + 1) depth (c :: s) = readNumber false (c :: s) := by
  have hne : ∀ x, isDigit x = false → c ≠ x := by
    rintro x hx rfl
    rw [hc] at hx
    cases hx
  rw [readValue, (keyword?_eq_none hc _).1]
  all_goals
    intro t h
    exact hne _ (by decide) (List.cons.inj h).1

theorem readValue_minus {c : Char} (hc : isDigit c = true) (fuel depth : Nat) (s : List Char) :
    readValue (fuel + 1) depth ('-' :: c :: s) = readNumber true (c :: s) := by
  rw [readValue, (keyword?_eq_none hc _).2]

theorem readsBack_int {n : Int} (hn : (Nat.toDigits 10 n.natAbs).length ≤ maxDigits) :
    ReadsBack d (.int n) := by
  intro level fuel depth rest _ hf hr
  obtain ⟨fuel, rfl⟩ := Nat.exists_eq_add_one.mpr (Nat.zero_lt_of_lt hf)
  obtain ⟨c, cs, hds⟩ :=
    List.exists_cons_of_ne_nil (Nat.toDigits_ne_nil (n := n.natAbs) (b := 10))
  have hc : isDigit c = true := isDigit_of_mem_toDigits (by rw [hds]; exact List.mem_cons_self ..)
  rw [indentedChars_int, intChars]
  split
  · next hneg =>
    have hread := readNumber_toDigits true hn hr
    rw [hds] at hread ⊢
    rw [List.cons_append, List.cons_append, readValue_minus hc, ← List.cons_append, hread,
      if_pos rfl]
    congr 3
    omega
  · next hpos =>
    have hread := readNumber_toDigits false hn hr
    rw [hds] at hread ⊢
    rw [List.cons_append, readValue_of_isDigit hc, ← List.cons_append, hread,
      if_neg Bool.false_ne_true, Int.natAbs_of_nonneg (by omega)]

theorem readsBack_str {s : String} (hs : LoneHalf.occursIn s = false) : ReadsBack d (.str s) := by
  intro level fuel depth rest _ hf _
  obtain ⟨fuel, rfl⟩ := Nat.exists_eq_add_one.mpr (Nat.zero_lt_of_lt hf)
  have hread : readText ((s.toList.flatMap textChar ++ ['"'] ++ rest).length + 1)
      (s.toList.flatMap textChar ++ ['"'] ++ rest) = .ok (s.toList, rest) :=
    readText_textChars hs rfl
  rw [indentedChars_str, textChars, List.cons_append, readValue, hread]
  show Except.ok _ = _
  rw [String.ofList_toList]

/-! ### Arrays -/

theorem itemLines_cons_cons (level : Nat) (v u : Json) (us : List Json) :
    itemLines level (v :: u :: us) =
      newLine level ++ (indentedChars level v ++ ',' :: itemLines level (u :: us)) :=
  List.append_assoc ..

/-- The printed items of an array are read up to its closing bracket. -/
theorem readItems_itemLines {items : List Json} (hne : items ≠ [])
    (h : ∀ v ∈ items, Readable d v ∧ ReadsBack d v) (hd : d ≤ depth)
    (hf : (itemLines level items).length < fuel) (outer : Nat) (rest : List Char) :
    readItems fuel depth (skipSpace (itemLines level items ++ (newLine outer ++ ']' :: rest))) =
      .ok (items, rest) := by
  induction items generalizing fuel with
  | nil => exact absurd rfl hne
  | cons v vs ih =>
    obtain ⟨fuel, rfl⟩ := Nat.exists_eq_add_one.mpr (Nat.zero_lt_of_lt hf)
    obtain ⟨hv, hback⟩ := h v (List.mem_cons_self ..)
    cases vs with
    | nil =>
      rw [itemLines, List.length_append, newLine, List.length_cons] at hf
      rw [itemLines, List.append_assoc, skipSpace_newLine, hv.skipSpace_eq, readItems,
        hback level fuel depth _ hd (by omega) (endsNumber_newLine _ _)]
      dsimp only [bind, Except.bind]
      rw [skipSpace_newLine, skipSpace_cons (by decide)]
      rfl
    | cons u us =>
      rw [itemLines_cons_cons, List.length_append, List.length_append, newLine, List.length_cons,
        List.length_cons] at hf
      have htail : readItems fuel depth
          (skipSpace (itemLines level (u :: us) ++ (newLine outer ++ ']' :: rest))) =
            .ok (u :: us, rest) :=
        ih (List.cons_ne_nil u us) (fun x hx => h x (List.mem_cons_of_mem _ hx)) (by omega)
      rw [itemLines_cons_cons, List.append_assoc, List.append_assoc, skipSpace_newLine,
        hv.skipSpace_eq, readItems, List.cons_append,
        hback level fuel depth _ hd (by omega) (endsNumber_comma _)]
      dsimp only [bind, Except.bind]
      rw [skipSpace_cons (by decide)]
      simp only [htail]

/-- The first printed item does not close the array. -/
theorem exists_skipSpace_itemLines {v : Json} (hv : Readable d v) (level : Nat) (vs : List Json)
    (s : List Char) :
    ∃ c cs, skipSpace (itemLines level (v :: vs) ++ s) = c :: cs ∧ c ≠ ']' := by
  obtain ⟨c, cs, hc, hb⟩ := hv.begins level
  have hl : ∃ tail,
      itemLines level (v :: vs) = newLine level ++ (indentedChars level v ++ tail) := by
    cases vs with
    | nil => exact ⟨[], by rw [itemLines, List.append_nil]⟩
    | cons u us => exact ⟨_, itemLines_cons_cons level v u us⟩
  obtain ⟨tail, hl⟩ := hl
  rw [hl, List.append_assoc, skipSpace_newLine, hc]
  exact ⟨c, _, skipSpace_cons hb.1 _, hb.2.1⟩

theorem readsBack_arr {items : List Json} (h : ∀ v ∈ items, Readable d v ∧ ReadsBack d v) :
    ReadsBack (d + 1) (.arr items) := by
  intro level fuel depth rest hd hf _
  obtain ⟨fuel, rfl⟩ := Nat.exists_eq_add_one.mpr (Nat.zero_lt_of_lt hf)
  obtain ⟨depth, rfl⟩ := Nat.exists_eq_add_one.mpr (Nat.zero_lt_of_lt hd)
  cases items with
  | nil => rfl
  | cons v vs =>
    have hp : indentedChars level (.arr (v :: vs)) ++ rest =
        '[' :: (itemLines (level + 1) (v :: vs) ++ (newLine level ++ ']' :: rest)) := by
      rw [indentedChars, List.cons_append, List.append_assoc, List.append_assoc]
      · rfl
      · exact List.cons_ne_nil _ _
    have hlen : (itemLines (level + 1) (v :: vs)).length < fuel := by
      have := congrArg List.length hp
      simp only [List.length_append, List.length_cons] at this
      omega
    have hread : readItems fuel depth
        (skipSpace (itemLines (level + 1) (v :: vs) ++ (newLine level ++ ']' :: rest))) =
          .ok (v :: vs, rest) :=
      readItems_itemLines (List.cons_ne_nil v vs) h (Nat.le_of_succ_le_succ hd) hlen level rest
    obtain ⟨c, cs, hc, hne⟩ := exists_skipSpace_itemLines (h v (List.mem_cons_self ..)).1
      (level + 1) vs (newLine level ++ ']' :: rest)
    rw [hc] at hread
    rw [hp, readValue]
    dsimp only
    rw [hc]
    split
    · next heq => exact absurd (List.cons.inj heq).1 hne
    · rw [hread]
      rfl

/-! ### Objects -/

theorem memberLines_cons_cons (level : Nat) (n : String) (v : Json) (m : String × Json)
    (ms : List (String × Json)) :
    memberLines level ((n, v) :: m :: ms) =
      newLine level ++ (textChars n ++ ':' :: ' ' ::
        (indentedChars level v ++ ',' :: memberLines level (m :: ms))) := by
  rw [memberLines, List.append_assoc]
  exact List.cons_ne_nil _ _

/-- What is read after the value of a member. -/
def readAfterMember (fuel depth : Nat) (m : String × Json) (s : List Char) :
    Except ReadError (List (String × Json) × List Char) :=
  match skipSpace s with
  | ',' :: rest => do
    let (ms, rest) ← readMembers fuel depth (skipSpace rest)
    .ok (m :: ms, rest)
  | '\x7d' :: rest => .ok ([m], rest)
  | rest => .error (.malformed rest.length)

/-- A printed member is read up to the end of its value. -/
theorem readMembers_member {n : String} (hn : LoneHalf.occursIn n = false) (hv : Readable d v)
    (hback : ReadsBack d v) (hd : d ≤ depth) (hf : (indentedChars level v).length < fuel)
    (hs : EndsNumber s) :
    readMembers (fuel + 1) depth (textChars n ++ ':' :: ' ' :: (indentedChars level v ++ s)) =
      readAfterMember fuel depth (n, v) s := by
  have hcolon : skipSpace (':' :: ' ' :: (indentedChars level v ++ s)) =
      ':' :: ' ' :: (indentedChars level v ++ s) := skipSpace_cons (by decide) _
  have hvalue : skipSpace (' ' :: (indentedChars level v ++ s)) = indentedChars level v ++ s :=
    hv.skipSpace_eq level s
  have htail : ∃ tail, textChars n ++ ':' :: ' ' :: (indentedChars level v ++ s) = '"' :: tail :=
    ⟨_, rfl⟩
  obtain ⟨tail, htail⟩ := htail
  rw [htail, readMembers, readText_textChars hn htail]
  simp only [bind, Except.bind, hcolon, hvalue, hback level fuel depth s hd hf hs,
    String.ofList_toList]
  rfl

/-- The printed members of an object are read up to its closing brace. -/
theorem readMembers_memberLines {members : List (String × Json)} (hne : members ≠ [])
    (ht : ∀ m ∈ members, LoneHalf.occursIn m.1 = false)
    (h : ∀ m ∈ members, Readable d m.2 ∧ ReadsBack d m.2) (hd : d ≤ depth)
    (hf : (memberLines level members).length < fuel) (outer : Nat) (rest : List Char) :
    readMembers fuel depth
        (skipSpace (memberLines level members ++ (newLine outer ++ '\x7d' :: rest))) =
      .ok (members, rest) := by
  induction members generalizing fuel with
  | nil => exact absurd rfl hne
  | cons m ms ih =>
    obtain ⟨fuel, rfl⟩ := Nat.exists_eq_add_one.mpr (Nat.zero_lt_of_lt hf)
    obtain ⟨n, v⟩ := m
    obtain ⟨hv, hback⟩ : Readable d v ∧ ReadsBack d v := h (n, v) (List.mem_cons_self ..)
    have hn : LoneHalf.occursIn n = false := ht (n, v) (List.mem_cons_self ..)
    have hname : ∀ s, skipSpace (textChars n ++ s) = textChars n ++ s :=
      fun s => skipSpace_cons (by decide) _
    cases ms with
    | nil =>
      have hlen : (indentedChars level v).length < fuel := by
        simp only [memberLines, newLine, List.length_append, List.length_cons] at hf
        omega
      rw [memberLines, List.append_assoc, List.append_assoc, skipSpace_newLine, hname,
        List.cons_append, List.cons_append,
        readMembers_member hn hv hback hd hlen (endsNumber_newLine _ _), readAfterMember,
        skipSpace_newLine, skipSpace_cons (by decide)]
      rfl
    | cons m ms =>
      rw [memberLines_cons_cons] at hf
      simp only [newLine, List.length_append, List.length_cons] at hf
      have hlen : (indentedChars level v).length < fuel := by omega
      have htail : readMembers fuel depth
          (skipSpace (memberLines level (m :: ms) ++ (newLine outer ++ '\x7d' :: rest))) =
            .ok (m :: ms, rest) :=
        ih (List.cons_ne_nil m ms) (fun x hx => ht x (List.mem_cons_of_mem _ hx))
          (fun x hx => h x (List.mem_cons_of_mem _ hx)) (by omega)
      rw [memberLines_cons_cons, List.append_assoc, List.append_assoc, skipSpace_newLine, hname,
        List.cons_append, List.cons_append, List.append_assoc, List.cons_append,
        readMembers_member hn hv hback hd hlen (endsNumber_comma _), readAfterMember,
        skipSpace_cons (by decide)]
      show (do
        let (ms, rest) ← readMembers fuel depth (skipSpace (memberLines level (m :: ms) ++ _))
        .ok ((n, v) :: ms, rest)) = _
      rw [htail]
      rfl

theorem put_of_not_mem {members : List (String × Json)} {name : String}
    (h : name ∉ members.map (·.1)) (v : Json) : put members name v = members ++ [(name, v)] := by
  induction members with
  | nil => rfl
  | cons m ms ih =>
    rw [List.map_cons, List.mem_cons, not_or] at h
    have hne : (m.1 == name) = false := beq_eq_false_iff_ne.mpr (Ne.symm h.1)
    rw [put, hne, ih h.2]
    rfl

theorem foldl_put {members before : List (String × Json)}
    (h : ((before ++ members).map (·.1)).Nodup) :
    members.foldl (fun ms m => put ms m.1 m.2) before = before ++ members := by
  induction members generalizing before with
  | nil => exact (List.append_nil _).symm
  | cons m ms ih =>
    have hm : m.1 ∉ before.map (·.1) := by
      rw [List.map_append, List.nodup_append] at h
      exact fun hmem => h.2.2 _ hmem _ (List.mem_cons_self ..) rfl
    rw [List.append_cons] at h ⊢
    rw [List.foldl_cons, put_of_not_mem hm]
    exact ih h

/-- Members with names of their own are kept in order. -/
theorem ofMembers_of_nodup {members : List (String × Json)} (h : (members.map (·.1)).Nodup) :
    ofMembers members = .obj members :=
  congrArg Json.obj (foldl_put h)

theorem readsBack_obj {members : List (String × Json)} (hn : (members.map (·.1)).Nodup)
    (ht : ∀ m ∈ members, LoneHalf.occursIn m.1 = false)
    (h : ∀ m ∈ members, Readable d m.2 ∧ ReadsBack d m.2) :
    ReadsBack (d + 1) (.obj members) := by
  intro level fuel depth rest hd hf _
  obtain ⟨fuel, rfl⟩ := Nat.exists_eq_add_one.mpr (Nat.zero_lt_of_lt hf)
  obtain ⟨depth, rfl⟩ := Nat.exists_eq_add_one.mpr (Nat.zero_lt_of_lt hd)
  cases members with
  | nil => rfl
  | cons m ms =>
    have hp : indentedChars level (.obj (m :: ms)) ++ rest =
        '\x7b' :: (memberLines (level + 1) (m :: ms) ++ (newLine level ++ '\x7d' :: rest)) := by
      rw [indentedChars, List.cons_append, List.append_assoc, List.append_assoc]
      · rfl
      · exact List.cons_ne_nil _ _
    have hlen : (memberLines (level + 1) (m :: ms)).length < fuel := by
      have := congrArg List.length hp
      simp only [List.length_append, List.length_cons] at this
      omega
    have hread : readMembers fuel depth
        (skipSpace (memberLines (level + 1) (m :: ms) ++ (newLine level ++ '\x7d' :: rest))) =
          .ok (m :: ms, rest) :=
      readMembers_memberLines (List.cons_ne_nil m ms) ht h (Nat.le_of_succ_le_succ hd) hlen level
        rest
    rw [hp, readValue]
    dsimp only
    split
    · next heq =>
      -- A brace that closes the object holds no member.
      rw [heq] at hread
      obtain ⟨fuel, rfl⟩ := Nat.exists_eq_add_one.mpr (Nat.zero_lt_of_lt hlen)
      cases hread
    · rw [hread]
      exact congrArg (fun v => Except.ok (v, rest)) (ofMembers_of_nodup hn)

/-! ### Documents -/

theorem Readable.readsBack (h : Readable d v) : ReadsBack d v := by
  induction h with
  | null => exact readsBack_null
  | bool b => exact readsBack_bool b
  | int h => exact readsBack_int h
  | str h => exact readsBack_str h
  | arr h ih => exact readsBack_arr fun v hv => ⟨h v hv, ih v hv⟩
  | obj hn ht h ih => exact readsBack_obj hn ht fun m hm => ⟨h m hm, ih m hm⟩

/-- The document of a readable value is read as the value. -/
theorem read_document (h : Readable maxDepth v) : read v.document = .ok v := by
  have hdoc : v.document.toList = indentedChars 0 v ++ ['\n'] := String.toList_ofList
  have hread : readValue ((indentedChars 0 v ++ ['\n']).length + 1) maxDepth
      (indentedChars 0 v ++ ['\n']) = .ok (v, ['\n']) := by
    refine h.readsBack 0 _ _ _ (Nat.le_refl _) ?_ (endsNumber_newLine 0 [])
    rw [List.length_append]
    omega
  unfold read readChars
  rw [hdoc, h.skipSpace_eq, hread]
  rfl

/-! ### Line ends -/

theorem not_mem_hexDigits {c : Char} (hc : ∀ d < 16, Nat.digitChar d ≠ c) (width n : Nat) :
    c ∉ hexDigits width n := by
  induction width generalizing n with
  | zero => exact List.not_mem_nil
  | succ width ih =>
    rw [hexDigits, List.mem_append, List.mem_singleton]
    rintro (h | h)
    · exact ih _ h
    · exact hc _ (Nat.mod_lt _ (by decide)) h.symm

theorem not_mem_textChar (c : Char) : '\r' ∉ textChar c := by
  have hhex : ∀ n, '\r' ∉ '\\' :: 'u' :: hexDigits 4 n := by
    intro n h
    simp only [List.mem_cons] at h
    rcases h with h | h | h
    · exact absurd h (by decide)
    · exact absurd h (by decide)
    · exact not_mem_hexDigits (by decide) 4 n h
  unfold textChar
  split
  case h_8 _ _ _ hcr _ _ _ =>
    split
    · exact hhex _
    · split
      · exact hhex _
      · rw [List.mem_singleton]
        exact fun h => hcr h.symm
  all_goals decide

theorem not_mem_newLine (level : Nat) : '\r' ∉ newLine level := by
  rw [newLine, List.mem_cons, List.mem_replicate]
  rintro (h | ⟨-, h⟩) <;> exact absurd h (by decide)

theorem not_mem_textChars (s : String) : '\r' ∉ textChars s := by
  rw [textChars, List.mem_cons, List.mem_append, List.mem_flatMap, List.mem_singleton]
  rintro (h | ⟨c, -, h⟩ | h)
  · exact absurd h (by decide)
  · exact not_mem_textChar c h
  · exact absurd h (by decide)

theorem not_mem_itemLines {items : List Json} (h : ∀ v ∈ items, ∀ l, '\r' ∉ indentedChars l v)
    (level : Nat) : '\r' ∉ itemLines level items := by
  induction items with
  | nil => exact List.not_mem_nil
  | cons v vs ih =>
    have hv := h v (List.mem_cons_self ..) level
    cases vs with
    | nil =>
      rw [itemLines, List.mem_append]
      rintro (h | h)
      · exact not_mem_newLine level h
      · exact hv h
    | cons u us =>
      have htail := ih fun x hx => h x (List.mem_cons_of_mem _ hx)
      rw [itemLines_cons_cons, List.mem_append, List.mem_append, List.mem_cons]
      rintro (h | h | h | h)
      · exact not_mem_newLine level h
      · exact hv h
      · exact absurd h (by decide)
      · exact htail h

theorem not_mem_memberLines {members : List (String × Json)}
    (h : ∀ m ∈ members, ∀ l, '\r' ∉ indentedChars l m.2) (level : Nat) :
    '\r' ∉ memberLines level members := by
  induction members with
  | nil => exact List.not_mem_nil
  | cons m ms ih =>
    obtain ⟨n, v⟩ := m
    have hv : '\r' ∉ indentedChars level v := h (n, v) (List.mem_cons_self ..) level
    cases ms with
    | nil =>
      rw [memberLines, List.mem_append, List.mem_append, List.mem_cons, List.mem_cons]
      rintro ((h | h) | h | h | h)
      · exact not_mem_newLine level h
      · exact not_mem_textChars n h
      · exact absurd h (by decide)
      · exact absurd h (by decide)
      · exact hv h
    | cons m ms =>
      have htail := ih fun x hx => h x (List.mem_cons_of_mem _ hx)
      rw [memberLines_cons_cons]
      simp only [List.mem_append, List.mem_cons]
      rintro (h | h | h | h | h | h | h)
      · exact not_mem_newLine level h
      · exact not_mem_textChars n h
      · exact absurd h (by decide)
      · exact absurd h (by decide)
      · exact hv h
      · exact absurd h (by decide)
      · exact htail h

/-- No carriage return is printed. -/
theorem Readable.not_mem_indentedChars (h : Readable d v) (level : Nat) :
    '\r' ∉ indentedChars level v := by
  induction h generalizing level with
  | null => exact (by decide : '\r' ∉ "null".toList)
  | bool b =>
    cases b with
    | false => exact (by decide : '\r' ∉ "false".toList)
    | true => exact (by decide : '\r' ∉ "true".toList)
  | @int _ n _ =>
    have hdigit : ∀ c ∈ Nat.toDigits 10 n.natAbs, c ≠ '\r' := by
      rintro c hc rfl
      exact absurd (isDigit_of_mem_toDigits hc) (by decide)
    rw [indentedChars_int, intChars]
    split
    · rw [List.mem_cons]
      rintro (h | h)
      · exact absurd h (by decide)
      · exact hdigit _ h rfl
    · exact fun h => hdigit _ h rfl
  | @str _ s _ => exact not_mem_textChars s
  | @arr _ items _ ih =>
    cases items with
    | nil => exact (by decide : '\r' ∉ ['[', ']'])
    | cons v vs =>
      rw [indentedChars]
      · simp only [List.mem_cons, List.mem_append, List.not_mem_nil, or_false]
        rintro (h | (h | h) | h)
        · exact absurd h (by decide)
        · exact not_mem_itemLines ih (level + 1) h
        · exact not_mem_newLine level h
        · exact absurd h (by decide)
      · exact List.cons_ne_nil _ _
  | @obj _ members _ _ _ ih =>
    cases members with
    | nil => exact (by decide : '\r' ∉ ['\x7b', '\x7d'])
    | cons m ms =>
      rw [indentedChars]
      · simp only [List.mem_cons, List.mem_append, List.not_mem_nil, or_false]
        rintro (h | (h | h) | h)
        · exact absurd h (by decide)
        · exact not_mem_memberLines ih (level + 1) h
        · exact not_mem_newLine level h
        · exact absurd h (by decide)
      · exact List.cons_ne_nil _ _

theorem Readable.not_mem_document (h : Readable d v) : '\r' ∉ v.document.toList := by
  rw [document, String.toList_ofList, List.mem_append, List.mem_singleton]
  rintro (hv | hr)
  · exact h.not_mem_indentedChars 0 hv
  · exact absurd hr (by decide)

end Conductor.Json
