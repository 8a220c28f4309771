import Conductor.Prompt

/-!
# The parts of a prompt

A prompt is one part after the other: the sections of the input files under a header, the template of
the agent under another one, and the request, which has a header only where it is not alone
(`Prompt.written`).  The lines that a prompt is composed of make the same text, but for a line feed
at the end (`dropFinalLineFeeds_intercalate`).

Main statement: the composed prompt is the text of the parts without the line feeds at its end
(`compose_eq_written`).
-/

namespace Conductor.Prompt

open Text

variable {sections : List String}

/-- The sections of the input files under a header, with a blank line between two of them and behind
the last one; nothing where there are none. -/
def filesPart (sections : List String) : String :=
  if sections.isEmpty then "" else "[INPUT FILES]\n" ++ "\n\n".intercalate sections ++ "\n\n"

/-- A template under a header, with a blank line behind it; nothing where it is blank. -/
def systemPart (template : String) : String :=
  if isBlankText template then "" else "[SYSTEM]\n" ++ template ++ "\n\n"

/-- A request, under a header where something comes before it; nothing where it is blank. -/
def requestPart (before request : String) : String :=
  if isBlankText request then ""
  else if before.isEmpty then request
  else "[REQUEST]\n" ++ request

/-- The parts of a prompt in order. -/
def written (sections : List String) (template request : String) : String :=
  let before := filesPart sections ++ systemPart template
  before ++ requestPart before request

/-! ### Lines -/

/-- Lines, each of them with a line feed at its end. -/
def unlines (lines : List String) : String := String.join (lines.map (· ++ "\n"))

theorem unlines_append (ls ms : List String) : unlines (ls ++ ms) = unlines ls ++ unlines ms := by
  unfold unlines
  rw [List.map_append, String.join_append]

theorem unlines_eq_empty_iff {lines : List String} : unlines lines = "" ↔ lines = [] := by
  cases lines <;> simp [unlines]

theorem unlines_eq_intercalate {lines : List String} (h : lines ≠ []) :
    unlines lines = "\n".intercalate lines ++ "\n" := by
  unfold unlines
  induction lines with
  | nil => exact absurd rfl h
  | cons line rest ih =>
    rw [List.map_cons, String.join_cons]
    cases rest with
    | nil => simp
    | cons next rest =>
      rw [ih (List.cons_ne_nil _ _), String.intercalate_cons_cons]
      simp [String.append_assoc]

theorem dropFinalLineFeeds_concat (s : List Char) :
    dropFinalLineFeeds (s ++ ['\n']) = dropFinalLineFeeds s := by
  simp [dropFinalLineFeeds]

/-- But for line feeds at the end it is the same whether lines are joined or ended by line feeds. -/
theorem dropFinalLineFeeds_intercalate (lines : List String) :
    dropFinalLineFeeds ("\n".intercalate lines).toList =
      dropFinalLineFeeds (unlines lines).toList := by
  by_cases h : lines = []
  · rw [h]
    rfl
  · rw [unlines_eq_intercalate h, String.toList_append]
    exact (dropFinalLineFeeds_concat _).symm

/-! ### Composing -/

theorem isBlankText_append_left {s : String} (h : isBlankText s = false) (t : String) :
    isBlankText (s ++ t) = false := by
  unfold isBlankText allBlank at h ⊢
  rw [String.toList_append, List.all_append, h, Bool.false_and]

theorem isBlankText_intercalate (h : ∀ s ∈ sections, isBlankText s = false)
    (hne : sections ≠ []) : isBlankText ("\n\n".intercalate sections) = false := by
  cases sections with
  | nil => exact absurd rfl hne
  | cons first rest =>
    have hfirst := h first List.mem_cons_self
    cases rest with
    | nil => rwa [String.intercalate_singleton]
    | cons second rest =>
      rw [String.intercalate_cons_cons]
      exact isBlankText_append_left (isBlankText_append_left hfirst _) _

/-- A part with a header is two lines and an empty one. -/
theorem unlines_headed (header text : String) :
    unlines [header, text, ""] = header ++ "\n" ++ text ++ "\n\n" := by
  simp [unlines, String.append_assoc]

/-- The lines of a request behind other lines are its part of the prompt and a line feed. -/
theorem unlines_request (before : List String) {request : String}
    (hrequest : isBlankText request = false) :
    unlines (if before.isEmpty then [request] else ["[REQUEST]", request]) =
      requestPart (unlines before) request ++ "\n" := by
  unfold requestPart
  rw [if_neg (ne_true_of_eq_false hrequest)]
  by_cases h : before = []
  · rw [if_pos (List.isEmpty_iff.mpr h), if_pos (String.isEmpty_iff.mpr (unlines_eq_empty_iff.mpr h))]
    simp [unlines]
  · rw [if_neg (mt List.isEmpty_iff.mp h),
      if_neg (mt String.isEmpty_iff.mp (mt unlines_eq_empty_iff.mp h))]
    simp [unlines, String.append_assoc]

theorem unlines_files (h : ∀ s ∈ sections, isBlankText s = false) :
    unlines (if isBlankText ("\n\n".intercalate sections) then []
      else ["[INPUT FILES]", "\n\n".intercalate sections, ""]) = filesPart sections := by
  unfold filesPart
  by_cases hne : sections = []
  · subst hne
    rfl
  · rw [isBlankText_intercalate h hne, if_neg Bool.false_ne_true, unlines_headed,
      if_neg (mt List.isEmpty_iff.mp hne)]
    rfl

theorem unlines_system (template : String) :
    unlines (if isBlankText template then [] else ["[SYSTEM]", template, ""]) =
      systemPart template := by
  unfold systemPart
  split
  · rfl
  · exact unlines_headed _ _

/-- Composing a prompt puts its parts one behind the other, without line feeds at the end. -/
theorem compose_eq_written (h : ∀ s ∈ sections, isBlankText s = false)
    (template request : String) :
    compose ("\n\n".intercalate sections) template request =
      String.ofList (dropFinalLineFeeds (written sections template request).toList) := by
  unfold compose written
  rw [dropFinalLineFeeds_intercalate]
  unfold parts
  dsimp only
  rw [← unlines_files h, ← unlines_system, ← unlines_append]
  split
  · next hrequest =>
    unfold requestPart
    rw [if_pos hrequest, String.append_empty]
  · next hrequest =>
    -- The line of the request ends with a line feed that its part does not have.
    rw [unlines_append, unlines_request _ (eq_false_of_ne_true hrequest), ← String.append_assoc,
      String.toList_append]
    exact congrArg String.ofList (dropFinalLineFeeds_concat _)

end Conductor.Prompt
