import Conductor.Proofs.Script.Grammar
import Conductor.Proofs.Text.Pieces

/-!
# Writing scripts

A plan is written task by task: the name, the options in brackets and in either order, and the
argument between quotes that it does not hold, with any blanks around operators and separators
(`Plan.Written`).  `Plan.text` is one way to write it.  Main statement: what a plan that can be
written is written as is read as that plan (`read_of_printable`).

The readers agree on what is written.  No scan sees more than the quotes and brackets that were
written around the argument and the options, so a segment is closed (`Task.Written.closed`); the
option reader finds the pieces that were put together, and each of them sets what it was written
for (`Setting.Written.applies`), so a segment writes its task (`Task.Written.writes`).
-/

namespace Conductor.Script

open Text

/-! ### What is written -/

/-- A text with blanks around it, or without. -/
def Padded (core text : List Char) : Prop :=
  ∃ before after, allBlank before = true ∧ allBlank after = true ∧ text = before ++ core ++ after

/-- What the options of a task set. -/
inductive Setting where
  | input (paths : List String)
  | tail (n : Nat)

/-- What has to be set for a task. -/
def Task.settings (t : Task) : List Setting :=
  (if t.inputFiles = [] then [] else [.input t.inputFiles]) ++ (t.tail.map .tail).toList

/-- The key of an option. -/
def Setting.key : Setting → List Char
  | .input _ => "input".toList
  | .tail _ => "tail".toList

/-- The texts of a value: paths with any blanks around them, or a number with any around it. -/
inductive Setting.ValueWritten : Setting → List Char → Prop
  | input {paths : List String} {pieces : List (List Char)}
      (hpieces : List.Forall₂ (fun path => Padded path.toList) paths pieces) :
      ValueWritten (.input paths) ([';'].intercalate pieces)
  | tail {n : Nat} {value : List Char} (hvalue : Padded (Nat.toDigits 10 n) value) :
      ValueWritten (.tail n) value

/-- The texts of an option: a key with any blanks around it, and a value. -/
def Setting.Written (setting : Setting) (text : List Char) : Prop :=
  ∃ key value, Padded setting.key key ∧ setting.ValueWritten value ∧ text = key ++ ':' :: value

/-- The texts of options: nothing where there are none, else a list in brackets. -/
inductive OptionsWritten : List Setting → List Char → Prop
  | none : OptionsWritten [] []
  | some {settings : List Setting} {pieces : List (List Char)} (hne : settings ≠ [])
      (hpieces : List.Forall₂ Setting.Written settings pieces) :
      OptionsWritten settings ('[' :: [','].intercalate pieces ++ [']'])

/-- The texts of a task. -/
inductive Task.Written (t : Task) : List Char → Prop
  | intro {order : List Setting} {options gap : List Char} {q : Char}
      (horder : order = t.settings ∨ order = t.settings.reverse)
      (hoptions : OptionsWritten order options) (hgap : allBlank gap = true) (hne : gap ≠ [])
      (hq : isQuote q = true) (hfree : q ∉ t.argument.toList) :
      Written t (t.name.toList ++ (options ++ (gap ++ q :: (t.argument.toList ++ [q]))))

/-- The texts of a plan: the stages are joined by `&&` and their tasks by `&`, with any blanks
around each task. -/
def Plan.Written (plan : Plan) (text : String) : Prop :=
  ∃ stages, List.Forall₂ (List.Forall₂ fun t segment => ∃ core, Task.Written t core ∧
    Padded core segment) plan stages ∧ text.toList = joined stages

/-! ### What can be written -/

/-- A path that can stand in an option list. -/
structure PathPrintable (path : String) : Prop where
  ne : path ≠ ""
  trimmed : trim path.toList = path.toList
  free : ∀ c ∈ path.toList, c ≠ ';' ∧ c ≠ ',' ∧ c ≠ ']' ∧ isQuote c = false

/-- A task that can be written. -/
structure Task.Printable (t : Task) : Prop where
  name_ne : t.name ≠ ""
  name : ∀ c ∈ t.name.toList, isNameChar c = true
  argument : ∃ q, isQuote q = true ∧ q ∉ t.argument.toList
  inputFiles : ∀ path ∈ t.inputFiles, PathPrintable path
  tail : ∀ n ∈ t.tail, 0 < n ∧ (Nat.toDigits 10 n).length ≤ maxDigits

/-- A plan that can be written. -/
structure Plan.Printable (plan : Plan) : Prop where
  ne : plan ≠ []
  stage_ne : ∀ stage ∈ plan, stage ≠ []
  task : ∀ stage ∈ plan, ∀ t ∈ stage, Task.Printable t

/-! ### One way to write a plan -/

/-- A value without blanks. -/
def Setting.value : Setting → List Char
  | .input paths => [';'].intercalate (paths.map String.toList)
  | .tail n => Nat.toDigits 10 n

/-- An option without blanks. -/
def Setting.text (setting : Setting) : List Char := setting.key ++ ':' :: setting.value

/-- Options without blanks. -/
def optionsText : List Setting → List Char
  | [] => []
  | settings => '[' :: [','].intercalate (settings.map Setting.text) ++ [']']

/-- A task with one blank before its argument, which stands in double quotes unless it holds one. -/
def Task.text (t : Task) : List Char :=
  let q := if '"' ∈ t.argument.toList then '\'' else '"'
  t.name.toList ++ (optionsText t.settings ++ ([' '] ++ q :: (t.argument.toList ++ [q])))

/-- A plan without blanks around its operators. -/
def Plan.text (plan : Plan) : String := String.ofList (joined (plan.map (·.map Task.text)))

variable {c q : Char} {s t core text key value piece : List Char} {pieces : List (List Char)}
  {setting : Setting} {order : List Setting} {task : Task}

/-! ### Characters -/

theorem isQuote_iff : isQuote c = true ↔ c = '\'' ∨ c = '"' := by
  unfold isQuote
  rw [Bool.or_eq_true, beq_iff_eq, beq_iff_eq]

theorem ne_of_isBlank {d : Char} (hc : isBlank c = true) (hd : isBlank d = false) : c ≠ d := by
  rintro rfl
  rw [hc] at hd
  cases hd

theorem isBlank_of_isQuote (hq : isQuote q = true) : isBlank q = false := by
  rcases isQuote_iff.mp hq with rfl | rfl
  · decide
  · decide

/-- A character that begins and ends nothing in a script. -/
def IsPlain (c : Char) : Prop := c ≠ '&' ∧ isQuote c = false ∧ c ≠ '[' ∧ c ≠ ']'

/-- A character that may stand in an option. -/
abbrev InOption (c : Char) : Prop := c ≠ ',' ∧ c ≠ ']' ∧ isQuote c = false

theorem isQuote_of_isBlank (hc : isBlank c = true) : isQuote c = false := by
  cases hq : isQuote c with
  | false => rfl
  | true =>
    rw [isBlank_of_isQuote hq] at hc
    cases hc

theorem isPlain_of_isBlank (hc : isBlank c = true) : IsPlain c :=
  ⟨ne_of_isBlank hc (by decide), isQuote_of_isBlank hc, ne_of_isBlank hc (by decide),
    ne_of_isBlank hc (by decide)⟩

theorem inOption_of_isBlank (hc : isBlank c = true) : InOption c :=
  ⟨ne_of_isBlank hc (by decide), ne_of_isBlank hc (by decide), isQuote_of_isBlank hc⟩

theorem isNameChar_iff : isNameChar c = true ↔ isBlank c = false ∧ IsPlain c := by
  unfold isNameChar IsPlain
  simp only [Bool.and_eq_true, Bool.not_eq_true', bne_iff_ne]
  constructor
  · rintro ⟨⟨⟨⟨hb, hq⟩, hopen⟩, hclose⟩, hand⟩
    exact ⟨hb, hand, hq, hopen, hclose⟩
  · rintro ⟨hb, hand, hq, hopen, hclose⟩
    exact ⟨⟨⟨⟨hb, hq⟩, hopen⟩, hclose⟩, hand⟩

theorem Padded.forall_mem {P : Char → Prop} (h : Padded core text) (hcore : ∀ c ∈ core, P c)
    (hblank : ∀ c, isBlank c = true → P c) : ∀ c ∈ text, P c := by
  obtain ⟨before, after, hb, ha, rfl⟩ := h
  intro c hc
  rcases List.mem_append.mp hc with hc | hc
  · rcases List.mem_append.mp hc with hc | hc
    · exact hblank c (List.all_eq_true.mp hb c hc)
    · exact hcore c hc
  · exact hblank c (List.all_eq_true.mp ha c hc)

theorem Padded.trim_eq (h : Padded core text) (hcore : trim core = core) : trim text = core := by
  obtain ⟨before, after, hb, ha, rfl⟩ := h
  rw [List.append_assoc, trim_blank_append hb, trim_append_blank ha, hcore]

/-! ### A plan that can be written is written -/

theorem padded_self (core : List Char) : Padded core core :=
  ⟨[], [], rfl, rfl, by rw [List.append_nil, List.nil_append]⟩

theorem Setting.written_text (setting : Setting) : setting.Written setting.text := by
  refine ⟨setting.key, setting.value, padded_self _, ?_, rfl⟩
  cases setting with
  | tail n => exact .tail (padded_self _)
  | input paths =>
    refine .input ?_
    rw [List.forall₂_map_right_iff]
    exact List.forall₂_same.mpr fun path _ => padded_self path.toList

theorem optionsWritten_text (settings : List Setting) :
    OptionsWritten settings (optionsText settings) := by
  cases settings with
  | nil => exact .none
  | cons setting settings =>
    refine .some (List.cons_ne_nil _ _) ?_
    rw [List.forall₂_map_right_iff]
    exact List.forall₂_same.mpr fun setting _ => setting.written_text

theorem Task.Printable.written_text (h : task.Printable) : task.Written task.text := by
  have hgap : allBlank [' '] = true := by decide
  unfold Task.text
  split
  · next hdouble =>
    refine .intro (.inl rfl) (optionsWritten_text _) hgap (List.cons_ne_nil _ _) (by decide) ?_
    obtain ⟨q, hq, hfree⟩ := h.argument
    rcases isQuote_iff.mp hq with rfl | rfl
    · exact hfree
    · exact absurd hdouble hfree
  · next hdouble =>
    exact .intro (.inl rfl) (optionsWritten_text _) hgap (List.cons_ne_nil _ _) (by decide) hdouble

theorem Plan.Printable.written_text {plan : Plan} (h : plan.Printable) :
    plan.Written plan.text := by
  refine ⟨plan.map (·.map Task.text), ?_, by rw [Plan.text, String.toList_ofList]⟩
  rw [List.forall₂_map_right_iff]
  refine List.forall₂_same.mpr fun stage hstage => ?_
  rw [List.forall₂_map_right_iff]
  refine List.forall₂_same.mpr fun t ht => ?_
  exact ⟨t.text, (h.task stage hstage t ht).written_text, padded_self _⟩

/-! ### Options -/

/-- A setting that can be written. -/
def Setting.Printable : Setting → Prop
  | .input paths => paths ≠ [] ∧ ∀ path ∈ paths, PathPrintable path
  | .tail n => 0 < n ∧ (Nat.toDigits 10 n).length ≤ maxDigits

/-- The task with a setting. -/
def Setting.applied (t : Task) : Setting → Task
  | .input paths => { t with inputFiles := paths }
  | .tail n => { t with tail := some n }

theorem Task.Printable.settings (h : task.Printable) :
    ∀ setting ∈ task.settings, setting.Printable := by
  obtain ⟨name, argument, inputFiles, tail⟩ := task
  intro setting hs
  rcases List.mem_append.mp hs with hs | hs
  · by_cases hin : inputFiles = []
    · rw [if_pos hin] at hs
      cases hs
    · rw [if_neg hin] at hs
      obtain rfl := List.mem_singleton.mp hs
      exact ⟨hin, h.inputFiles⟩
  · cases tail with
    | none => cases hs
    | some n =>
      obtain rfl := List.mem_singleton.mp hs
      exact h.tail n rfl

theorem Task.Printable.settings_order (h : task.Printable)
    (horder : order = task.settings ∨ order = task.settings.reverse) :
    ∀ setting ∈ order, setting.Printable := by
  intro setting hs
  refine h.settings setting ?_
  rcases horder with rfl | rfl
  · exact hs
  · exact List.mem_reverse.mp hs

/-- The settings of a task make it, in either order. -/
theorem Task.foldl_applied {order : List Setting}
    (horder : order = task.settings ∨ order = task.settings.reverse) :
    order.foldl Setting.applied ⟨task.name, task.argument, [], none⟩ = task := by
  obtain ⟨name, argument, inputFiles, tail⟩ := task
  by_cases hin : inputFiles = []
  · subst hin
    cases tail <;> rcases horder with rfl | rfl <;> rfl
  · have hsettings : ∀ tail, Task.settings ⟨name, argument, inputFiles, tail⟩ =
        .input inputFiles :: (tail.map .tail).toList := fun tail => by
      rw [Task.settings, if_neg hin]
      rfl
    rw [hsettings] at horder
    cases tail <;> rcases horder with rfl | rfl <;> rfl

theorem Setting.key_ne_nil (setting : Setting) : setting.key ≠ [] := by
  cases setting with
  | input paths => exact List.cons_ne_nil _ _
  | tail n => exact List.cons_ne_nil _ _

theorem Setting.of_mem_key (hc : c ∈ setting.key) :
    isBlank c = false ∧ c ≠ ':' ∧ InOption c := by
  have hkeys : List.Forall (fun c => isBlank c = false ∧ c ≠ ':' ∧ c ≠ ',' ∧ c ≠ ']' ∧
      isQuote c = false) ("input".toList ++ "tail".toList) := by decide
  refine List.forall_iff_forall_mem.mp hkeys c ?_
  cases setting with
  | input paths => exact List.mem_append_left _ hc
  | tail n => exact List.mem_append_right _ hc

theorem inOption_of_isDigit (hc : Json.isDigit c = true) : InOption c := by
  have hle := isDigit_iff.mp hc
  refine ⟨?_, ?_, ?_⟩
  · rintro rfl
    cases hc
  · rintro rfl
    cases hc
  · cases hq : isQuote c with
    | false => rfl
    | true =>
      rcases isQuote_iff.mp hq with rfl | rfl
      · cases hc
      · cases hc

theorem Setting.ValueWritten.inOption (hp : setting.Printable) (h : setting.ValueWritten value) :
    ∀ c ∈ value, InOption c := by
  cases h with
  | input hpieces =>
    refine forall_mem_intercalate (by decide) (forall_of_forall₂ hpieces ?_)
    intro path hpath piece hpiece
    exact hpiece.forall_mem (fun c hc => ((hp.2 path hpath).free c hc).2)
      fun c hc => inOption_of_isBlank hc
  | tail hvalue =>
    exact hvalue.forall_mem (fun c hc => inOption_of_isDigit (Json.isDigit_of_mem_toDigits hc))
      fun c hc => inOption_of_isBlank hc

theorem Setting.Written.inOption (hp : setting.Printable) (h : setting.Written text) :
    ∀ c ∈ text, InOption c := by
  obtain ⟨key, value, hkey, hvalue, rfl⟩ := h
  refine List.forall_mem_append.mpr ⟨?_, List.forall_mem_cons.mpr ⟨by decide, hvalue.inOption hp⟩⟩
  exact hkey.forall_mem (fun c hc => (of_mem_key hc).2.2) fun c hc => inOption_of_isBlank hc

theorem unquote_of_free (hs : ∀ c ∈ s, isQuote c = false) : unquote s = trim s := by
  obtain ⟨before, after, -, -, heq⟩ := exists_trim_eq s
  unfold unquote
  cases ht : trim s with
  | nil => rfl
  | cons q cs =>
    have hq : q ∈ s := by
      rw [heq, ht]
      simp
    dsimp only
    rw [hs q hq, Bool.false_and, if_neg Bool.false_ne_true]

/-- An option is read as its key and its trimmed value. -/
theorem Setting.Written.keyValue?_eq (hp : setting.Printable) (h : setting.Written text) :
    ∃ value, setting.ValueWritten value ∧
      keyValue? (trim text) = .ok (setting.key, trim value) := by
  obtain ⟨key, value, hkey, hvalue, rfl⟩ := h
  refine ⟨value, hvalue, ?_⟩
  have hcolon : ∀ c ∈ trimStart key, decide (c ≠ ':') = true := by
    intro c hc
    have hmem : c ∈ key := (List.dropWhile_sublist _).subset hc
    have hne : ∀ c ∈ key, c ≠ ':' :=
      hkey.forall_mem (fun c hc => (of_mem_key hc).2.1) fun c hc => ne_of_isBlank hc (by decide)
    exact decide_eq_true (hne c hmem)
  have hfree : ∀ c ∈ trimEnd value, isQuote c = false := by
    intro c hc
    have hmem : c ∈ value := by
      have hr := (List.dropWhile_sublist _).subset (List.mem_reverse.mp hc)
      exact List.mem_reverse.mp hr
    exact (hvalue.inOption hp c hmem).2.2
  have hname : trim (trimStart key) = setting.key := by
    rw [trim_trimStart]
    exact hkey.trim_eq (trim_of_not_blank fun c hc => (of_mem_key hc).1)
  rw [trim_around (by decide), keyValue?, dropWhile_append_stop hcolon (by decide),
    takeWhile_append_stop hcolon (by decide)]
  dsimp only
  rw [hname, if_neg (by simp [setting.key_ne_nil]), unquote_of_free hfree, trim_trimEnd]

/-- The paths of a value are found again. -/
theorem inputPaths_trim {paths : List String} (hne : paths ≠ [])
    (hp : ∀ path ∈ paths, PathPrintable path)
    (h : List.Forall₂ (fun path => Padded path.toList) paths pieces) :
    inputPaths (trim ([';'].intercalate pieces)) = paths := by
  have hpieces : pieces ≠ [] := by
    rintro rfl
    cases h
    exact hne rfl
  have hsep : ∀ piece ∈ pieces, ∀ c ∈ piece, (c == ';') = false := by
    refine forall_of_forall₂ h fun path hpath piece hpiece => ?_
    refine hpiece.forall_mem (fun c hc => ?_) fun c hc => ?_
    · exact beq_eq_false_iff_ne.mpr ((hp path hpath).free c hc).1
    · exact beq_eq_false_iff_ne.mpr (ne_of_isBlank hc (by decide))
  have hblank : ∀ c, isBlank c = true → (c == ';') = false :=
    fun c hc => beq_eq_false_iff_ne.mpr (ne_of_isBlank hc (by decide))
  have htrim : pieces.map trim = paths.map String.toList := by
    clear hne hpieces hsep
    induction h with
    | nil => rfl
    | cons hpath _ ih =>
      obtain ⟨hfirst, hmore⟩ := List.forall_mem_cons.mp hp
      rw [List.map_cons, List.map_cons, hpath.trim_eq hfirst.trimmed, ih hmore]
  have hfilter : (paths.map String.toList).filter (!·.isEmpty) = paths.map String.toList := by
    refine List.filter_eq_self.mpr (List.forall_mem_map.mpr fun path hpath => ?_)
    have := (hp path hpath).ne
    simpa using this
  rw [inputPaths, map_trim_splitBy_trim hblank, splitBy_intercalate (by decide) hpieces hsep, htrim,
    hfilter, List.map_map]
  exact (List.map_congr_left fun path _ => String.ofList_toList).trans (List.map_id _)

/-- A value that is written for a setting sets it. -/
theorem Setting.ValueWritten.applies (hp : setting.Printable) (h : setting.ValueWritten value)
    (t : Task) : applyOption t (setting.key, trim value) = .ok (setting.applied t) := by
  cases h with
  | input hpieces =>
    show Except.ok { t with inputFiles := inputPaths _ } = _
    rw [inputPaths_trim hp.1 hp.2 hpieces]
    rfl
  | @tail n value hvalue =>
    have hdigits : trim (Nat.toDigits 10 n) = Nat.toDigits 10 n :=
      trim_of_not_blank fun c hc => isBlank_of_isDigit (Json.isDigit_of_mem_toDigits hc)
    have hpos : (0 : Int) < n := by exact_mod_cast hp.1
    have hkey : "tail".toList ≠ "input".toList := by decide
    unfold applyOption Setting.key
    dsimp only
    rw [hvalue.trim_eq hdigits, if_neg hkey, if_pos rfl, readInteger?_toDigits hp.2]
    dsimp only
    rw [if_pos hpos, Int.toNat_natCast]
    rfl

/-- What stands between brackets is read as options that set what they should. -/
def OptionsRead (order : List Setting) (inside : List Char) : Prop :=
  ∃ pairs, options? inside = .ok pairs ∧
    ∀ t, pairs.foldlM applyOption t = .ok (order.foldl Setting.applied t)

/-- Where no quote is, options are cut at every comma. -/
theorem splitOptions_none (hs : ∀ c ∈ s, isQuote c = false) :
    splitOptions none s = splitBy (· == ',') s := by
  induction s with
  | nil => rfl
  | cons c s ih =>
    obtain ⟨hc, hs⟩ := List.forall_mem_cons.mp hs
    rw [splitOptions, splitBy, ih hs, hc, if_neg Bool.false_ne_true]
    by_cases hcomma : c = ','
    · rw [if_pos hcomma, if_pos (beq_iff_eq.mpr hcomma)]
    · rw [if_neg hcomma, if_neg (by simpa using hcomma)]
      cases splitBy (· == ',') s <;> rfl

/-- The options that are written are read, and set what they are written for. -/
theorem OptionsRead.of_written (hp : ∀ setting ∈ order, setting.Printable) (hne : order ≠ [])
    (h : List.Forall₂ Setting.Written order pieces) :
    OptionsRead order ([','].intercalate pieces) := by
  have hin : ∀ piece ∈ pieces, ∀ c ∈ piece, InOption c :=
    forall_of_forall₂ h fun setting hs piece hw => hw.inOption (hp setting hs)
  have hquote : ∀ c ∈ [','].intercalate pieces, isQuote c = false :=
    forall_mem_intercalate (by decide) fun piece hpiece c hc => (hin piece hpiece c hc).2.2
  have hcut : splitBy (· == ',') ([','].intercalate pieces) = pieces := by
    refine splitBy_intercalate (by decide) ?_ fun piece hpiece c hc => ?_
    · rintro rfl
      cases h
      exact hne rfl
    · exact beq_eq_false_iff_ne.mpr (hin piece hpiece c hc).1
  have hread : ∃ pairs, ((pieces.map trim).filter (!·.isEmpty)).mapM keyValue? = .ok pairs ∧
      ∀ t, pairs.foldlM applyOption t = .ok (order.foldl Setting.applied t) := by
    -- These facts are about the whole list and would stand in the way of the induction.
    clear hne hin hquote hcut
    induction h with
    | nil => exact ⟨[], rfl, fun t => rfl⟩
    | @cons setting piece order pieces hpiece hmore ih =>
      obtain ⟨hfirst, hrest⟩ := List.forall_mem_cons.mp hp
      obtain ⟨pairs, hpairs, happly⟩ := ih hrest
      obtain ⟨value, hvalue, hkey⟩ := hpiece.keyValue?_eq hfirst
      refine ⟨(setting.key, trim value) :: pairs, ?_, fun t => ?_⟩
      · have hfull : (!(trim piece).isEmpty) = true := by
          cases ht : trim piece with
          | nil =>
            rw [ht] at hkey
            cases hkey
          | cons c cs => rfl
        rw [List.map_cons, List.filter_cons, if_pos hfull, mapM_eq_ok_iff]
        exact .cons hkey (mapM_eq_ok_iff.mp hpairs)
      · rw [List.foldlM_cons, hvalue.applies hfirst, List.foldl_cons, ← happly]
        rfl
  unfold OptionsRead options?
  rwa [splitOptions_none hquote, hcut]

/-! ### Tasks -/

/-- The bracketed part of a task, with what stands in the brackets. -/
theorem OptionsWritten.exists_inside {options : List Char} (h : OptionsWritten order options)
    (hp : ∀ setting ∈ order, setting.Printable) :
    ∃ inside, OptionsRead order inside ∧ (∀ c ∈ inside, c ≠ ']' ∧ isQuote c = false) ∧
      (options = [] ∧ inside = [] ∨ options = '[' :: inside ++ [']']) := by
  cases h with
  | none =>
    exact ⟨[], ⟨[], rfl, fun t => rfl⟩, List.forall_mem_nil _, .inl ⟨rfl, rfl⟩⟩
  | some hne hpieces =>
    refine ⟨_, .of_written hp hne hpieces, ?_, .inr rfl⟩
    refine forall_mem_intercalate (by decide) (forall_of_forall₂ hpieces ?_)
    intro setting hs piece hw c hc
    exact (hw.inOption (hp setting hs) c hc).2

theorem restParts?_gap {gap : List Char} (hgap : allBlank gap = true) (hne : gap ≠ [])
    (hc : isBlank c = false) (rest : List Char) :
    restParts? (gap ++ c :: rest) = some (some (c :: rest)) := by
  match gap, hne with
  | b :: gap, _ =>
    obtain ⟨hb, hgap⟩ := List.all_cons.symm.trans hgap |> Bool.and_eq_true_iff.mp
    rw [List.cons_append, restParts?, if_pos hb, trimStart_blank_append hgap, trimStart_cons hc]

/-- A name without options ends at the first blank. -/
theorem parts?_bare {name : List Char} (hne : name ≠ []) (hname : ∀ c ∈ name, isNameChar c = true)
    (hc : isBlank c = true) (after : List Char) :
    parts? (name ++ c :: after) =
      (restParts? (c :: after)).map fun rest => ⟨name, [], rest⟩ := by
  have hstop : isNameChar c = false := by
    cases hn : isNameChar c with
    | false => rfl
    | true => exact absurd hc (by simp [(isNameChar_iff.mp hn).1])
  have hopen : c ≠ '[' := ne_of_isBlank hc (by decide)
  unfold parts?
  rw [takeWhile_append_stop hname hstop, dropWhile_append_stop hname hstop]
  dsimp only
  rw [List.isEmpty_eq_false_iff.mpr hne, if_neg Bool.false_ne_true]
  split
  · next heq =>
    cases heq
    exact absurd rfl hopen
  · rfl

/-- The options of a name end at the first closing bracket. -/
theorem parts?_bracketed {name inside : List Char} (hne : name ≠ [])
    (hname : ∀ c ∈ name, isNameChar c = true) (hinside : ∀ c ∈ inside, c ≠ ']')
    (after : List Char) :
    parts? (name ++ '[' :: (inside ++ ']' :: after)) =
      (restParts? after).map fun rest => ⟨name, inside, rest⟩ := by
  have hopen : isNameChar '[' = false := by decide
  have hin : ∀ c ∈ inside, decide (c ≠ ']') = true := fun c hc => decide_eq_true (hinside c hc)
  unfold parts?
  rw [takeWhile_append_stop hname hopen, dropWhile_append_stop hname hopen]
  dsimp only
  rw [List.isEmpty_eq_false_iff.mpr hne, if_neg Bool.false_ne_true]
  split
  · next heq =>
    cases heq
    rw [dropWhile_append_stop hin (by decide), takeWhile_append_stop hin (by decide)]
  · next hother => exact absurd rfl (hother _)

theorem parts?_written {name inside options gap : List Char} (hne : name ≠ [])
    (hname : ∀ c ∈ name, isNameChar c = true) (hinside : ∀ c ∈ inside, c ≠ ']')
    (hoptions : options = [] ∧ inside = [] ∨ options = '[' :: inside ++ [']'])
    (hgap : allBlank gap = true) (hgne : gap ≠ []) (hc : isBlank c = false) (rest : List Char) :
    parts? (name ++ (options ++ (gap ++ c :: rest))) = some ⟨name, inside, some (c :: rest)⟩ := by
  have hrest := restParts?_gap hgap hgne hc rest
  rcases hoptions with ⟨rfl, rfl⟩ | rfl
  · match gap, hgne with
    | b :: gap, _ =>
      obtain ⟨hb, -⟩ := Bool.and_eq_true_iff.mp (List.all_cons.symm.trans hgap)
      rw [List.cons_append] at hrest
      rw [List.nil_append, List.cons_append, parts?_bare hne hname hb, hrest]
      rfl
  · rw [List.cons_append, List.cons_append, List.append_assoc, List.singleton_append,
      parts?_bracketed hne hname hinside, hrest]
    rfl

theorem argument?_quoted {argument : List Char} (hq : isQuote q = true) (hfree : q ∉ argument) :
    argument? (q :: (argument ++ [q])) = .ok argument := by
  have htrim : trim (q :: (argument ++ [q])) = q :: (argument ++ [q]) :=
    trim_between (isBlank_of_isQuote hq) (isBlank_of_isQuote hq)
  have hin : ∀ c ∈ argument, decide (c ≠ q) = true := by
    intro c hc
    refine decide_eq_true ?_
    rintro rfl
    exact hfree hc
  rw [argument?, htrim]
  dsimp only
  rw [hq, if_neg (by decide), dropWhile_append_stop hin (by simp),
    takeWhile_append_stop hin (by simp)]

/-- What a task is written as is read as that task. -/
theorem Task.Written.taskOf_eq (hp : task.Printable) (h : task.Written text) :
    taskOf text = .ok task := by
  obtain @⟨order, options, gap, q, horder, hoptions, hgap, hne, hq, hfree⟩ := h
  obtain ⟨inside, ⟨pairs, hpairs, happly⟩, hinside, hbrackets⟩ :=
    hoptions.exists_inside (hp.settings_order horder)
  have hname : task.name.toList ≠ [] := by simpa using hp.name_ne
  have hparts := parts?_written hname hp.name (fun c hc => (hinside c hc).1) hbrackets hgap hne
    (isBlank_of_isQuote hq) (task.argument.toList ++ [q])
  have hfirst : ∃ c cs, task.name.toList ++ (options ++ (gap ++ q :: (task.argument.toList ++ [q])))
      = c :: cs ∧ isQuote c = false := by
    match hn : task.name.toList, hname with
    | c :: name, _ =>
      exact ⟨c, _, rfl, (isNameChar_iff.mp (hp.name c (hn ▸ List.mem_cons_self ..))).2.2.1⟩
  obtain ⟨c, cs, htext, hc⟩ := hfirst
  rw [htext] at hparts ⊢
  have hmade := Task.foldl_applied horder
  rw [taskOf, hc, if_neg Bool.false_ne_true, hparts]
  show (do
    let argument ← argument? (q :: (task.argument.toList ++ [q]))
    let options ← options? inside
    options.foldlM applyOption
      ⟨String.ofList task.name.toList, String.ofList argument, [], none⟩) = _
  rw [argument?_quoted hq hfree, hpairs]
  show pairs.foldlM applyOption
    ⟨String.ofList task.name.toList, String.ofList task.argument.toList, [], none⟩ = _
  rw [happly, String.ofList_toList, String.ofList_toList, hmade]

/-! ### Segments -/

theorem ClosesFrom.plain (hs : ∀ c ∈ s, IsPlain c) (ht : ClosesFrom {} t) :
    ClosesFrom {} (s ++ t) := by
  induction s with
  | nil => exact ht
  | cons c s ih =>
    obtain ⟨⟨hand, hq, hopen, hclose⟩, hs⟩ := List.forall_mem_cons.mp hs
    have hnext : Opened.next {} c = {} := by
      simp [Opened.next, hq, hopen, hclose]
    refine ⟨fun h => absurd h hand, ?_⟩
    rw [hnext]
    exact ih hs

/-- A quote closes what it opened, whatever stands in it, in an option list and outside. -/
theorem ClosesFrom.quoted {options : Bool} (hq : isQuote q = true) (hs : q ∉ s)
    (ht : ClosesFrom ⟨none, options⟩ t) : ClosesFrom ⟨none, options⟩ (q :: (s ++ q :: t)) := by
  have hin : ∀ s, q ∉ s → ClosesFrom ⟨some q, options⟩ (s ++ q :: t) := by
    intro s hs
    induction s with
    | nil =>
      have hnext : Opened.next ⟨some q, options⟩ q = ⟨none, options⟩ := by simp [Opened.next]
      refine ⟨fun _ => by simp, ?_⟩
      rw [hnext]
      exact ht
    | cons c s ih =>
      obtain ⟨hc, hs⟩ := not_or.mp (mt List.mem_cons.mpr hs)
      -- Inside the quotes only their own quote changes what is open.
      have hnext : Opened.next ⟨some q, options⟩ c = ⟨some q, options⟩ := by
        simp [Opened.next, Ne.symm hc]
      refine ⟨fun _ => by simp, ?_⟩
      rw [hnext]
      exact ih hs
  have hnext : Opened.next ⟨none, options⟩ q = ⟨some q, options⟩ := by simp [Opened.next, hq]
  refine ⟨?_, ?_⟩
  · rintro rfl
    cases hq
  · rw [hnext]
    exact hin s hs

theorem ClosesFrom.opening (h : ClosesFrom ⟨none, true⟩ s) : ClosesFrom {} ('[' :: s) := by
  have hnext : Opened.next {} '[' = ⟨none, true⟩ := by decide
  refine ⟨by decide, ?_⟩
  rwa [hnext]

theorem ClosesFrom.closing (h : ClosesFrom {} s) : ClosesFrom ⟨none, true⟩ (']' :: s) := by
  have hnext : Opened.next ⟨none, true⟩ ']' = {} := by decide
  refine ⟨fun _ => by simp, ?_⟩
  rwa [hnext]

/-- An option list stays open where neither a quote nor a closing bracket is. -/
theorem ClosesFrom.options (hs : ∀ c ∈ s, c ≠ ']' ∧ isQuote c = false)
    (ht : ClosesFrom ⟨none, true⟩ t) : ClosesFrom ⟨none, true⟩ (s ++ t) := by
  induction s with
  | nil => exact ht
  | cons c s ih =>
    obtain ⟨⟨hclose, hq⟩, hs⟩ := List.forall_mem_cons.mp hs
    have hnext : Opened.next ⟨none, true⟩ c = ⟨none, true⟩ := by
      simp [Opened.next, hq, hclose]
    refine ⟨fun _ => by simp, ?_⟩
    rw [hnext]
    exact ih hs

/-- What a task is written as is closed, with any blanks around it. -/
theorem Task.Written.closed (hp : task.Printable) (h : task.Written core)
    (hs : Padded core piece) : Closed piece := by
  obtain @⟨order, options, gap, q, horder, hoptions, hgap, hne, hq, hfree⟩ := h
  obtain ⟨before, after, hbefore, hafter, rfl⟩ := hs
  have hblank : ∀ {s}, allBlank s = true → ∀ c ∈ s, IsPlain c :=
    fun hs c hc => isPlain_of_isBlank (List.all_eq_true.mp hs c hc)
  obtain ⟨inside, -, hinside, hbrackets⟩ := hoptions.exists_inside (hp.settings_order horder)
  have hend : ClosesFrom {} after := by
    have := ClosesFrom.plain (t := []) (hblank hafter) rfl
    rwa [List.append_nil] at this
  have hargument := (ClosesFrom.quoted hq hfree hend).plain (hblank hgap)
  have htail : ClosesFrom {}
      (options ++ (gap ++ q :: (task.argument.toList ++ q :: after))) := by
    rcases hbrackets with ⟨rfl, -⟩ | rfl
    · exact hargument
    · have := (hargument.closing.options hinside).opening
      rwa [List.cons_append, List.cons_append, List.append_assoc, List.singleton_append]
  have hname : ∀ c ∈ task.name.toList, IsPlain c := fun c hc => (isNameChar_iff.mp (hp.name c hc)).2
  have hall := (htail.plain hname).plain (hblank hbefore)
  unfold Closed
  simpa only [List.append_assoc, List.cons_append, List.nil_append] using hall

theorem Task.Written.trim_eq (hp : task.Printable) (h : task.Written core) : trim core = core := by
  obtain @⟨order, options, gap, q, horder, hoptions, hgap, hne, hq, hfree⟩ := h
  have hname : task.name.toList ≠ [] := by simpa using hp.name_ne
  match hn : task.name.toList, hname with
  | c :: name, _ =>
    have hc : isBlank c = false :=
      (isNameChar_iff.mp (hp.name c (hn ▸ List.mem_cons_self ..))).1
    have hfront := trim_around (s := [])
      (t := name ++ (options ++ (gap ++ q :: task.argument.toList)) ++ [q]) hc
    have hback := trimEnd_append_cons (s := name ++ (options ++ (gap ++ q :: task.argument.toList)))
      (t := []) (isBlank_of_isQuote hq)
    have hnil : trimStart [] = [] ∧ trimEnd [] = [] := ⟨rfl, rfl⟩
    rw [hback, hnil.1, hnil.2] at hfront
    simpa only [List.append_assoc, List.cons_append, List.nil_append] using hfront

/-- What a task is written as writes it, with any blanks around it. -/
theorem Task.Written.writes (hp : task.Printable) (h : task.Written core)
    (hs : Padded core piece) : Writes piece task := by
  rw [writes_iff, hs.trim_eq (h.trim_eq hp)]
  exact h.taskOf_eq hp

/-- What a stage is written as are closed segments that write its tasks. -/
theorem forall₂_closed_writes {stage : Stage} {segments : List (List Char)}
    (hp : ∀ t ∈ stage, Task.Printable t)
    (h : List.Forall₂ (fun t segment => ∃ core, Task.Written t core ∧ Padded core segment)
      stage segments) :
    List.Forall₂ (fun t segment => Closed segment ∧ Writes segment t) stage segments := by
  refine ((List.forall₂_and_left _ _).mpr ⟨hp, h⟩).imp ?_
  rintro t segment ⟨ht, core, hw, hs⟩
  exact ⟨hw.closed ht hs, hw.writes ht hs⟩

/-- A plan is read from what it is written as: from its own text, and from every text that writes
it. -/
theorem read_of_printable (plan : Plan) (h : plan.Printable) :
    read plan.text = .ok plan ∧ ∀ text, plan.Written text → read text = .ok plan := by
  have hread : ∀ text, plan.Written text → read text = .ok plan := by
    rintro text ⟨stages, hstages, htext⟩
    have hall := ((List.forall₂_and_left _ _).mpr ⟨h.task, hstages⟩).imp
      fun _ _ hs => forall₂_closed_writes hs.1 hs.2
    have hwrites : List.Forall₂ (List.Forall₂ Writes) stages plan :=
      (hall.imp fun _ _ hs => (hs.imp fun _ _ hw => hw.2).flip).flip
    have hne : stages ≠ [] := by
      rintro rfl
      cases hall
      exact h.ne rfl
    have hstage : ∀ stage ∈ stages, stage ≠ [] := by
      refine forall_of_forall₂ hall fun stage hs segments hw => ?_
      rintro rfl
      cases hw
      exact h.stage_ne [] hs rfl
    have hclosed : ∀ stage ∈ stages, ∀ segment ∈ stage, Closed segment :=
      forall_of_forall₂ hall fun _ _ _ hs => forall_of_forall₂ hs fun _ _ _ hw => hw.1
    have hsome := exists_writes_of_forall₂ hwrites
    refine Decomposes.readChars_eq_ok ⟨hne, hstage, hclosed, ?_, hsome, htext⟩ hwrites
    intro stage hs segment hseg
    obtain ⟨t, ht⟩ := hsome stage hs segment hseg
    exact ht.not_blank
  exact ⟨hread _ h.written_text, hread⟩

/-- A plan whose texts hold operators, brackets, quotes and a line break. -/
def quotingPlan : Plan :=
  [[{ name := "plan", argument := "it's [a] && b\n", inputFiles := ["x & [y.md", "z.md"],
      tail := some 20 }, { name := "code" }],
    [{ name := "review", argument := " say \"done\" ", tail := some 3 }]]

/-- The plan with blanks wherever they may stand, and with its options in the other order. -/
def spaciousText : String :=
  "plan[ tail : 20 ,input: x & [y.md ; z.md] \"it's [a] && b\n\"\t& code  ''\n&&" ++
    "review[tail:3]\n' say \"done\" ' "

theorem quotingPlan_printable : Plan.Printable quotingPlan := by
  refine ⟨by decide, by decide, ?_⟩
  have hplan : Task.Printable ⟨"plan", "it's [a] && b\n", ["x & [y.md", "z.md"], some 20⟩ := by
    refine ⟨by decide, List.all_eq_true.mp (by decide), ⟨'"', by decide, by decide⟩, ?_, ?_⟩
    · rintro path (_ | ⟨_, _ | ⟨_, ⟨⟩⟩⟩)
      · exact ⟨by decide, by decide +kernel, List.forall_iff_forall_mem.mp (by decide)⟩
      · exact ⟨by decide, by decide +kernel, List.forall_iff_forall_mem.mp (by decide)⟩
    · rintro n ⟨⟩
      exact ⟨by decide, by decide +kernel⟩
  have hcode : Task.Printable ⟨"code", "", [], none⟩ :=
    ⟨by decide, List.all_eq_true.mp (by decide), ⟨'"', by decide, by decide⟩,
      List.forall_mem_nil _, by rintro n ⟨⟩⟩
  have hreview : Task.Printable ⟨"review", " say \"done\" ", [], some 3⟩ := by
    refine ⟨by decide, List.all_eq_true.mp (by decide), ⟨'\'', by decide, by decide⟩,
      List.forall_mem_nil _, ?_⟩
    rintro n ⟨⟩
    exact ⟨by decide, by decide +kernel⟩
  exact List.forall_mem_cons.mpr ⟨List.forall_mem_cons.mpr ⟨hplan, List.forall_mem_cons.mpr
    ⟨hcode, List.forall_mem_nil _⟩⟩, List.forall_mem_cons.mpr ⟨List.forall_mem_cons.mpr
    ⟨hreview, List.forall_mem_nil _⟩, List.forall_mem_nil _⟩⟩

theorem spaciousText_written : Plan.Written quotingPlan spaciousText := by
  have htail : Setting.Written (.tail 20) " tail : 20 ".toList :=
    ⟨" tail ".toList, " 20 ".toList, ⟨[' '], [' '], by decide, by decide, by decide⟩,
      .tail ⟨[' '], [' '], by decide, by decide, by decide +kernel⟩, by decide⟩
  have hpaths : List.Forall₂ (fun path => Padded path.toList) ["x & [y.md", "z.md"]
      [" x & [y.md ".toList, " z.md".toList] :=
    .cons ⟨[' '], [' '], by decide, by decide, by decide⟩
      (.cons ⟨[' '], [], by decide, by decide, by decide⟩ .nil)
  have hinput : Setting.Written (.input ["x & [y.md", "z.md"]) "input: x & [y.md ; z.md".toList :=
    ⟨"input".toList, " x & [y.md ; z.md".toList, padded_self _, .input hpaths, by decide⟩
  have hshort : Setting.Written (.tail 3) "tail:3".toList :=
    ⟨"tail".toList, "3".toList, padded_self _, .tail (padded_self _), by decide⟩
  have hplan : Task.Written ⟨"plan", "it's [a] && b\n", ["x & [y.md", "z.md"], some 20⟩
      "plan[ tail : 20 ,input: x & [y.md ; z.md] \"it's [a] && b\n\"".toList :=
    @Task.Written.intro ⟨_, _, _, _⟩ [.tail 20, .input _] _ " ".toList '"' (.inr rfl)
      (.some (List.cons_ne_nil _ _) (.cons htail (.cons hinput .nil))) (by decide) (by decide)
      (by decide) (by decide)
  have hcode : Task.Written ⟨"code", "", [], none⟩ "code  ''".toList :=
    @Task.Written.intro ⟨_, "", _, _⟩ [] _ "  ".toList '\'' (.inl rfl) .none (by decide)
      (by decide) (by decide) (by decide)
  have hreview : Task.Written ⟨"review", " say \"done\" ", [], some 3⟩
      "review[tail:3]\n' say \"done\" '".toList :=
    @Task.Written.intro ⟨_, _, _, _⟩ [.tail 3] _ "\n".toList '\'' (.inl rfl)
      (.some (List.cons_ne_nil _ _) (.cons hshort .nil)) (by decide) (by decide) (by decide)
      (by decide)
  refine ⟨_, .cons (.cons ⟨_, hplan, [], ['\t'], ?_, ?_, rfl⟩
    (.cons ⟨_, hcode, [' '], ['\n'], ?_, ?_, rfl⟩ .nil))
    (.cons (.cons ⟨_, hreview, [], [' '], ?_, ?_, rfl⟩ .nil) .nil), ?_⟩
  all_goals decide +kernel

/-- Operators, brackets and quotes in a plan's texts come back as they were. -/
theorem quotingPlan_read :
    Plan.Printable quotingPlan ∧ Plan.Written quotingPlan spaciousText ∧
      read spaciousText = .ok quotingPlan :=
  ⟨quotingPlan_printable, spaciousText_written,
    (read_of_printable quotingPlan quotingPlan_printable).2 _ spaciousText_written⟩

end Conductor.Script
