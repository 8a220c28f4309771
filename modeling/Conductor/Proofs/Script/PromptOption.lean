import Conductor.Proofs.Script.Writing

/-!
# The prompt option

The request of a task may stand in the prompt option, between quotes, or behind the task.  Main
statement: the two ways are read alike iff the request holds no closing bracket, and so is a task
whose request in the option gives way to an argument (`prompt_option_iff`).

The cutter and the option reader take a quote in an option list as one, so operators, commas, colons
and opening brackets in it are part of the request (`closed_promptForm`, `options?_prompt`).  The
options of a name however end at the first closing bracket, in a quote or not.  What stands behind
that bracket is then the argument, if the task is read at all, and it still holds the quote and the
bracket that were to end the option (`exists_argument_of_cut`), so it is never the request.
-/

namespace Conductor.Script

open Text

/-- A text between quotes. -/
def between (q : Char) (text : String) : String := String.ofList (q :: (text.toList ++ [q]))

/-- A task with its request behind it. -/
def argued (name : String) (q : Char) (text : String) : String := name ++ " " ++ between q text

/-- A task with its request in the prompt option. -/
def prompted (name : String) (q : Char) (text : String) : String :=
  name ++ "[prompt:" ++ between q text ++ "]"

/-- A name with a request in the prompt option, and what follows. -/
def promptForm (name : List Char) (q : Char) (request tail : List Char) : List Char :=
  name ++ '[' :: ("prompt:".toList ++ q :: (request ++ q :: ']' :: tail))

variable {name request tail rest s : List Char} {c q : Char} {a : List Char} {p : Parts}
  {t task : Task}

/-! ### Tasks by their parts -/

theorem exists_cons_of_parts? (h : parts? s = some p) :
    ∃ c cs, s = c :: cs ∧ isNameChar c = true := by
  unfold parts? at h
  dsimp only at h
  split at h
  · cases h
  · next hne =>
    cases s with
    | nil => exact absurd rfl hne
    | cons c cs =>
      refine ⟨c, cs, rfl, ?_⟩
      by_contra hc
      rw [List.takeWhile_cons_of_neg hc] at hne
      exact hne rfl

/-- A task is made of its parts. -/
theorem taskOf_of_parts? (h : parts? s = some p) : taskOf s = (do
    let argument ← argument? (p.rest.getD [])
    let options ← options? p.options
    options.foldlM applyOption ⟨String.ofList p.name, String.ofList argument, [], none⟩) := by
  obtain ⟨c, cs, rfl, hc⟩ := exists_cons_of_parts? h
  rw [taskOf, (isNameChar_iff.mp hc).2.2.1, if_neg Bool.false_ne_true, h]

/-- A text that writes a task has parts that are read. -/
theorem exists_of_taskOf (h : taskOf s = .ok task) : ∃ p a options, parts? s = some p ∧
    argument? (p.rest.getD []) = .ok a ∧ options? p.options = .ok options ∧
      options.foldlM applyOption ⟨String.ofList p.name, String.ofList a, [], none⟩ = .ok task := by
  cases hp : parts? s with
  | some p =>
    rw [taskOf_of_parts? hp] at h
    obtain ⟨a, ha, h⟩ := exists_of_bind_eq_ok h
    obtain ⟨options, ho, h⟩ := exists_of_bind_eq_ok h
    exact ⟨p, a, options, rfl, ha, ho, h⟩
  | none =>
    unfold taskOf at h
    split at h
    · cases h
    · split at h
      · cases h
      · rw [hp] at h
        cases h

/-- A closed text is read as a single task iff it is one. -/
theorem readChars_eq_task_iff (h : Closed s) :
    readChars s = .ok [[t]] ↔ taskOf (trim s) = .ok t := by
  obtain ⟨cut, hcut, ht⟩ := foundAgain_last h 0
  rw [joined_last] at hcut
  rw [readChars_eq_ok_iff, hcut]
  simp only [Except.ok.injEq, exists_eq_left', ht, writes_iff, List.forall₂_cons,
    List.forall₂_nil_right_iff, and_true]
  exact and_iff_right_of_imp fun htask => (writes_iff.mpr htask).not_blank

/-! ### The option is read -/

theorem splitOptions_quoted (hfree : q ∉ s) : splitOptions (some q) (s ++ [q]) = [s ++ [q]] := by
  induction s with
  | nil => simp [splitOptions, pushChar]
  | cons c s ih =>
    obtain ⟨hc, hs⟩ := not_or.mp (mt List.mem_cons.mpr hfree)
    rw [List.cons_append, splitOptions, if_neg (Ne.symm hc), ih hs, pushChar]

theorem splitOptions_plain (hs : ∀ c ∈ s, isQuote c = false ∧ c ≠ ',')
    (h : splitOptions none rest = [rest]) : splitOptions none (s ++ rest) = [s ++ rest] := by
  induction s with
  | nil => exact h
  | cons c s ih =>
    obtain ⟨⟨hq, hcomma⟩, hs⟩ := List.forall_mem_cons.mp hs
    rw [List.cons_append, splitOptions, hq, if_neg Bool.false_ne_true, if_neg hcomma, ih hs,
      pushChar]

theorem unquote_quoted (hq : isQuote q = true) (request : List Char) :
    unquote (q :: (request ++ [q])) = request := by
  have hlast : (request ++ [q]).getLast? == some q := by simp
  rw [unquote, trim_between (isBlank_of_isQuote hq) (isBlank_of_isQuote hq)]
  dsimp only
  rw [hq, Bool.true_and, if_pos hlast, List.dropLast_concat]

theorem keyValue?_prompt (hq : isQuote q = true) (request : List Char) :
    keyValue? ("prompt:".toList ++ q :: (request ++ [q])) = .ok ("prompt".toList, request) := by
  have hkey : ∀ c ∈ "prompt".toList, decide (c ≠ ':') = true :=
    List.forall_iff_forall_mem.mp (by decide)
  have hsplit : "prompt:".toList ++ q :: (request ++ [q])
      = "prompt".toList ++ ':' :: q :: (request ++ [q]) := rfl
  rw [hsplit, keyValue?, dropWhile_append_stop hkey (by decide),
    takeWhile_append_stop hkey (by decide)]
  dsimp only
  have htrim : trim "prompt".toList = "prompt".toList := by decide +kernel
  rw [htrim, unquote_quoted hq, if_neg (by decide)]

/-- The option list of a request is the one option. -/
theorem options?_prompt (hq : isQuote q = true) (hfree : q ∉ request) :
    options? ("prompt:".toList ++ q :: (request ++ [q])) = .ok [("prompt".toList, request)] := by
  have hquoted : splitOptions none (q :: (request ++ [q])) = [q :: (request ++ [q])] := by
    rw [splitOptions, if_pos hq, splitOptions_quoted hfree, pushChar]
  have hone : splitOptions none ("prompt:".toList ++ q :: (request ++ [q]))
      = ["prompt:".toList ++ q :: (request ++ [q])] :=
    splitOptions_plain (List.forall_iff_forall_mem.mp (by decide)) hquoted
  have htrim : trim ("prompt:".toList ++ q :: (request ++ [q]))
      = "prompt:".toList ++ q :: (request ++ [q]) :=
    trim_between (c := 'p') (s := "rompt:".toList ++ q :: request) (by decide)
      (isBlank_of_isQuote hq)
  rw [options?, hone, List.map_singleton, htrim]
  show [_].mapM keyValue? = _
  rw [mapM_eq_ok_iff]
  exact .cons (keyValue?_prompt hq request) .nil

theorem ne_closing_of_isQuote (hq : isQuote q = true) : q ≠ ']' := by
  rintro rfl
  cases hq

theorem applyOption_prompt (t : Task) (request : List Char) :
    applyOption t ("prompt".toList, request) = .ok { t with
      argument := if t.argument.isEmpty then String.ofList request else t.argument } := by
  unfold applyOption
  dsimp only
  rw [if_neg (by decide), if_neg (by decide), if_pos rfl]

/-- A request in the prompt option counts where there is no argument. -/
theorem taskOf_promptForm (hne : name ≠ []) (hname : ∀ c ∈ name, isNameChar c = true)
    (hq : isQuote q = true) (hfree : q ∉ request) (hbracket : ']' ∉ request)
    {r : Option (List Char)} (hr : restParts? tail = some r) (ha : argument? (r.getD []) = .ok a) :
    taskOf (promptForm name q request tail) =
      .ok ⟨String.ofList name, String.ofList (if a = [] then request else a), [], none⟩ := by
  have hq' := ne_closing_of_isQuote hq
  have hinside : ∀ c ∈ "prompt:".toList ++ q :: (request ++ [q]), c ≠ ']' := by
    refine List.forall_mem_append.mpr ⟨List.forall_iff_forall_mem.mp (by decide), ?_⟩
    refine List.forall_mem_cons.mpr ⟨hq', List.forall_mem_append.mpr ⟨?_, ?_⟩⟩
    · exact fun c hc h => hbracket (h ▸ hc)
    · exact List.forall_mem_singleton.mpr hq'
  have hparts : parts? (promptForm name q request tail)
      = some ⟨name, "prompt:".toList ++ q :: (request ++ [q]), r⟩ := by
    have h := parts?_bracketed hne hname hinside tail
    rw [hr, Option.map_some, List.append_assoc, List.cons_append, List.append_assoc,
      List.singleton_append] at h
    exact h
  have hempty : (String.ofList a).isEmpty = decide (a = []) := by
    cases a <;> simp
  rw [taskOf_of_parts? hparts, ha, options?_prompt hq hfree]
  show [("prompt".toList, request)].foldlM applyOption ⟨_, String.ofList a, [], none⟩ = _
  rw [List.foldlM_cons, applyOption_prompt, hempty]
  by_cases h : a = []
  · simp [h]
  · simp [h]

/-! ### Closed -/

theorem closed_promptForm (hname : ∀ c ∈ name, isNameChar c = true) (hq : isQuote q = true)
    (hfree : q ∉ request) (htail : Closed tail) : Closed (promptForm name q request tail) := by
  have hclose : ClosesFrom ⟨none, true⟩ (']' :: tail) := htail.closing
  have hquote := hclose.quoted hq hfree
  have hprompt := hquote.options (List.forall_iff_forall_mem.mp (by decide) :
    ∀ c ∈ "prompt:".toList, c ≠ ']' ∧ isQuote c = false)
  exact hprompt.opening.plain fun c hc => (isNameChar_iff.mp (hname c hc)).2

theorem trim_promptForm (hne : name ≠ []) (hname : ∀ c ∈ name, isNameChar c = true)
    (htail : trimEnd tail = tail) :
    trim (promptForm name q request tail) = promptForm name q request tail := by
  obtain ⟨c, cs, rfl⟩ := List.exists_cons_of_ne_nil hne
  have hc : isBlank c = false := (isNameChar_iff.mp (hname c (List.mem_cons_self ..))).1
  have h := trim_around (s := c :: (cs ++ '[' :: ("prompt:".toList ++ q :: (request ++ [q]))))
    (c := ']') (t := tail) (by decide)
  rw [htail, trimStart_cons hc] at h
  simpa [promptForm] using h

/-! ### The option is cut -/

/-- An argument is the rest of its task, or stands in it between quotes. -/
theorem eq_of_argument? (h : argument? rest = .ok a) :
    a = trim rest ∨ ∃ q, isQuote q = true ∧ trim rest = q :: (a ++ [q]) := by
  unfold argument? at h
  dsimp only at h
  split at h
  · next hnil =>
    cases h
    exact .inl hnil.symm
  · next q cs hrest =>
    split at h
    · cases h
      exact .inl rfl
    · next hq =>
      have hq : isQuote q = true := by simpa using hq
      split at h
      · next d hend =>
        cases h
        have hd : d = q := by simpa using head_dropWhile_not hend
        refine .inr ⟨q, hq, ?_⟩
        rw [hrest, ← hd, ← hend, hd, List.takeWhile_append_dropWhile]
      · cases h

theorem trim_of_restParts? {r : Option (List Char)} (h : restParts? s = some r) :
    trim (r.getD []) = trim s := by
  cases s with
  | nil =>
    cases h
    rfl
  | cons c s =>
    rw [restParts?] at h
    split at h
    · next hc =>
      cases h
      have hblank : allBlank [c] = true := by simpa [allBlank] using hc
      rw [Option.getD_some, trim_trimStart, ← List.singleton_append, trim_blank_append hblank]
    · cases h

/-- An option changes no argument that is there. -/
theorem argument_applyOption {option : List Char × List Char} (h : applyOption t option = .ok task)
    (ht : t.argument ≠ "") : task.argument = t.argument := by
  unfold applyOption at h
  dsimp only at h
  split at h
  · cases h
    rfl
  · split at h
    · split at h
      · cases h
        rfl
      · cases h
    · split at h
      · cases h
        simp [ht]
      · cases h

theorem argument_foldlM {options : List (List Char × List Char)}
    (h : options.foldlM applyOption t = .ok task) (ht : t.argument ≠ "") :
    task.argument = t.argument := by
  refine foldlM_preserves (fun t' => t'.argument = t.argument) (fun happly hkept => ?_) h rfl
  exact (argument_applyOption happly (hkept ▸ ht)).trans hkept

/-- Where the request holds a closing bracket, the argument of the task holds the quote and the
bracket that were to end the option: as the rest of the task or as a quoted part of it. -/
theorem exists_argument_of_cut (hne : name ≠ []) (hname : ∀ c ∈ name, isNameChar c = true)
    (hq : isQuote q = true) (hbracket : ']' ∈ request)
    (h : taskOf (promptForm name q request tail) = .ok task) :
    ∃ a before, task.argument = String.ofList a ∧
      (a = before ++ q :: ']' :: trimEnd tail ∨
        ∃ p, isQuote p = true ∧ before ++ q :: ']' :: trimEnd tail = p :: (a ++ [p])) := by
  obtain ⟨before, behind, rfl, hbefore⟩ := List.eq_append_cons_of_mem hbracket
  have hq' := ne_closing_of_isQuote hq
  have hinside : ∀ c ∈ "prompt:".toList ++ q :: before, c ≠ ']' := by
    refine List.forall_mem_append.mpr ⟨List.forall_iff_forall_mem.mp (by decide), ?_⟩
    exact List.forall_mem_cons.mpr ⟨hq', fun c hc h => hbefore (h ▸ hc)⟩
  have hparts := parts?_bracketed hne hname hinside (behind ++ q :: ']' :: tail)
  have hform : name ++ '[' ::
      ("prompt:".toList ++ q :: before ++ ']' :: (behind ++ q :: ']' :: tail))
      = promptForm name q (before ++ ']' :: behind) tail := by
    simp [promptForm]
  obtain ⟨parts, a, options, hp, ha, -, hfold⟩ := exists_of_taskOf h
  rw [← hform, hparts, Option.map_eq_some_iff] at hp
  obtain ⟨r, hr, rfl⟩ := hp
  -- What stands behind the bracket is not blank up to the bracket that was to end the option.
  have htrim : trim (r.getD []) = trimStart behind ++ q :: ']' :: trimEnd tail := by
    have h := trim_around (s := behind ++ [q]) (c := ']') (t := tail) (by decide)
    have hstart : trimStart (behind ++ [q]) = trimStart behind ++ [q] :=
      trimStart_append_cons (isBlank_of_isQuote hq)
    rw [trim_of_restParts? hr]
    simpa [hstart] using h
  have hcases := eq_of_argument? ha
  rw [htrim] at hcases
  -- The bracket is in the argument, since it is no quote, so the argument is not empty.
  have hmem : ']' ∈ a := by
    rcases hcases with rfl | ⟨p, hp, hrest⟩
    · simp
    · have hin : ']' ∈ p :: (a ++ [p]) := by
        rw [← hrest]
        simp
      have hp' := ne_closing_of_isQuote hp
      simpa [Ne.symm hp'] using hin
  have hne' : String.ofList a ≠ "" := by
    intro h
    have : a = [] := by simpa using h
    rw [this] at hmem
    cases hmem
  exact ⟨a, trimStart behind, argument_foldlM hfold hne', hcases⟩

/-- A request with a closing bracket is not read from the option. -/
theorem argument_ne_of_cut (hne : name ≠ []) (hname : ∀ c ∈ name, isNameChar c = true)
    (hq : isQuote q = true) (hfree : q ∉ request) (hbracket : ']' ∈ request)
    (h : taskOf (promptForm name q request []) = .ok task) :
    task.argument ≠ String.ofList request := by
  obtain ⟨a, before, harg, hcases⟩ := exists_argument_of_cut hne hname hq hbracket h
  rw [harg]
  intro heq
  obtain rfl : a = request := String.ofList_injective heq
  rcases hcases with rfl | ⟨p, hp, hrest⟩
  · exact hfree (by simp)
  · -- The bracket is the last character, where a quote would have to be.
    have hlast := congrArg List.getLast? hrest
    have hnil : trimEnd [] = [] := rfl
    rw [hnil] at hlast
    have hlast : ']' = p := by simpa [List.getLast?_append, List.getLast?_cons] using hlast
    exact ne_closing_of_isQuote hp hlast.symm

theorem trimEnd_argument {p : Char} (hp : isQuote p = true) (argument : List Char) :
    trimEnd (' ' :: p :: (argument ++ [p])) = ' ' :: p :: (argument ++ [p]) :=
  trimEnd_append_cons (s := ' ' :: p :: argument) (t := []) (isBlank_of_isQuote hp)

/-- Where the request holds a closing bracket, an argument behind the option is read as a longer
one. -/
theorem argument_ne_of_cut_argued {p : Char} {argument : List Char} (hne : name ≠ [])
    (hname : ∀ c ∈ name, isNameChar c = true) (hq : isQuote q = true) (hbracket : ']' ∈ request)
    (hp : isQuote p = true)
    (h : taskOf (promptForm name q request (' ' :: p :: (argument ++ [p]))) = .ok task) :
    task.argument ≠ String.ofList argument := by
  obtain ⟨a, before, harg, hcases⟩ := exists_argument_of_cut hne hname hq hbracket h
  rw [trimEnd_argument hp] at hcases
  rw [harg]
  intro heq
  obtain rfl : a = argument := String.ofList_injective heq
  -- The argument that is read is longer.
  rcases hcases with heq | ⟨d, -, heq⟩
  · have hlength := congrArg List.length heq
    simp only [List.length_append, List.length_cons, List.length_nil] at hlength
    omega
  · have hlength := congrArg List.length heq
    simp only [List.length_append, List.length_cons, List.length_nil] at hlength
    omega

/-! ### Reading -/

section

variable {name text : String} (hne : name ≠ "") (hname : ∀ c ∈ name.toList, isNameChar c = true)
  (hq : isQuote q = true) (hfree : q ∉ text.toList)
include hne hname hq hfree

/-- A request behind a task is the argument of the task. -/
theorem read_argued : read (argued name q text) = .ok [[⟨name, text, [], none⟩]] := by
  have hprintable : Task.Printable ⟨name, text, [], none⟩ :=
    ⟨hne, hname, ⟨q, hq, hfree⟩, List.forall_mem_nil _, by rintro n ⟨⟩⟩
  have hwritten : Task.Written ⟨name, text, [], none⟩
      (name.toList ++ ([] ++ ([' '] ++ q :: (text.toList ++ [q])))) :=
    @Task.Written.intro ⟨_, _, _, _⟩ [] [] [' '] q (.inl rfl) .none (by decide) (by decide) hq hfree
  have htext : (argued name q text).toList
      = name.toList ++ ([] ++ ([' '] ++ q :: (text.toList ++ [q]))) := by
    simp [argued, between]
  have hclosed := hwritten.closed hprintable (padded_self _)
  unfold read
  rw [htext, readChars_eq_task_iff hclosed, hwritten.trim_eq hprintable]
  exact hwritten.taskOf_eq hprintable

/-- A task with a request in the prompt option is read as its form is. -/
theorem read_prompted_iff {tail : String} (hclosed : Closed tail.toList)
    (hend : trimEnd tail.toList = tail.toList) :
    read (prompted name q text ++ tail) = .ok [[t]] ↔
      taskOf (promptForm name.toList q text.toList tail.toList) = .ok t := by
  have htext : (prompted name q text ++ tail).toList
      = promptForm name.toList q text.toList tail.toList := by
    simp [prompted, between, promptForm]
  unfold read
  rw [htext, readChars_eq_task_iff (closed_promptForm hname hq hfree hclosed),
    trim_promptForm (by simpa using hne) hname hend]

/-- A request in the prompt option is read as one behind the task iff it holds no closing bracket,
and iff it holds none it gives way to an argument behind the option. -/
theorem prompt_option_iff :
    read (argued name q text) = .ok [[⟨name, text, [], none⟩]] ∧
    (read (prompted name q text) = read (argued name q text) ↔ ']' ∉ text.toList) ∧
    ∀ p argument, isQuote p = true → p ∉ argument.toList → argument ≠ "" →
      (read (prompted name q text ++ " " ++ between p argument) = read (argued name p argument) ↔
        ']' ∉ text.toList) := by
  have hname_ne : name.toList ≠ [] := by simpa using hne
  refine ⟨read_argued hne hname hq hfree, ?_, fun p argument hp hpfree hargument => ?_⟩
  · have hread : read (prompted name q text ++ "") = .ok [[⟨name, text, [], none⟩]] ↔ _ :=
      read_prompted_iff hne hname hq hfree rfl rfl
    rw [String.append_empty] at hread
    rw [read_argued hne hname hq hfree, hread]
    constructor
    · exact fun h hbracket => argument_ne_of_cut hname_ne hname hq hfree hbracket h (by simp)
    · intro hbracket
      have hrest : restParts? [] = some none := rfl
      have h := taskOf_promptForm hname_ne hname hq hfree hbracket hrest rfl
      simpa using h
  · have htail : (" " ++ between p argument).toList = ' ' :: p :: (argument.toList ++ [p]) := by
      simp [between]
    have hclosed : Closed (' ' :: p :: (argument.toList ++ [p])) :=
      (ClosesFrom.quoted (t := []) hp hpfree rfl).plain (s := [' ']) (by simp [IsPlain, isQuote])
    have hend := trimEnd_argument hp argument.toList
    rw [String.append_assoc, read_argued hne hname hp hpfree,
      read_prompted_iff hne hname hq hfree (by rwa [htail]) (by rwa [htail]), htail]
    constructor
    · intro h hbracket
      exact argument_ne_of_cut_argued hname_ne hname hq hbracket hp h (by simp)
    · intro hbracket
      have hrest : restParts? (' ' :: p :: (argument.toList ++ [p]))
          = some (some (p :: (argument.toList ++ [p]))) :=
        @restParts?_gap _ [' '] (by decide) (by decide) (isBlank_of_isQuote hp) _
      have h := taskOf_promptForm hname_ne hname hq hfree hbracket hrest
        (argument?_quoted hp hpfree)
      rw [h]
      simp [hargument]

end

/-- Operators, separators, an opening bracket and the other quote stay in a request, wherever it
stands, and an argument goes before it. -/
theorem check_prompted :
    read (prompted "check" '"' "a, b: 'c' [d && e")
        = read (argued "check" '"' "a, b: 'c' [d && e") ∧
      read (prompted "check" '"' "a, b: 'c' [d && e" ++ " " ++ between '\'' "f")
        = read (argued "check" '\'' "f") := by
  have hname : ∀ c ∈ "check".toList, isNameChar c = true :=
    List.forall_iff_forall_mem.mp (by decide)
  have hfree : '"' ∉ "a, b: 'c' [d && e".toList := by decide
  obtain ⟨-, hrequest, hargument⟩ := prompt_option_iff (by decide) hname rfl hfree
  exact ⟨hrequest.mpr (by decide), (hargument '\'' "f" rfl (by decide) (by decide)).mpr (by decide)⟩

/-- A closing bracket in a request ends the options within the quotes. -/
theorem not_alike_check :
    ¬ ∀ name q text, name ≠ "" → (∀ c ∈ name.toList, isNameChar c = true) → isQuote q = true →
      q ∉ text.toList → read (prompted name q text) = read (argued name q text) := by
  intro h
  have heq := h "check" '\'' "see [1] for details" (by decide)
    (List.forall_iff_forall_mem.mp (by decide)) rfl (by decide)
  have hcut : read (prompted "check" '\'' "see [1] for details")
      = .ok [[{ name := "check", argument := "for details']" }]] := by decide +kernel
  have hwhole : read (argued "check" '\'' "see [1] for details")
      = .ok [[{ name := "check", argument := "see [1] for details" }]] := by decide +kernel
  rw [hcut, hwhole] at heq
  simp at heq

end Conductor.Script
