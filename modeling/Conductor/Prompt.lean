import Conductor.State.World

/-!
# Prompts

A prompt is put together from the files a task names, the template of the agent and the request. A
file that cannot be read leaves a marker in its place. Main statement: a composed prompt does not
end with a line feed.
-/

namespace Conductor

open Text

namespace Prompt

/-- The line that ends the text of an input file. -/
def rule : String := String.ofList (List.replicate 60 '=')

/-- The section of an input file that was read. -/
def loadedSection (name content : String) : String := s!"=== File: {name} ===\n{content}\n{rule}"

/-- The section of an input file that could not be read. -/
def failedSection (name reason : String) : String :=
  s!"=== File: {name} (FAILED TO LOAD) ===\nError: {reason}\n{rule}"

/-- The record of an input file that could not be read. -/
def failedRecord (name reason : String) : Record :=
  { level := .warning, source := .execution,
    message := s!"Failed to load input file {name}: {reason}" }

/-- The lines of a prompt; parts that are blank are left out, and the request is announced where
something comes before it. -/
def parts (inputs template request : String) : List String :=
  let files := if isBlankText inputs then [] else ["[INPUT FILES]", inputs, ""]
  let system := if isBlankText template then [] else ["[SYSTEM]", template, ""]
  let before := files ++ system
  if isBlankText request then before
  else before ++ (if before.isEmpty then [request] else ["[REQUEST]", request])

/-- Drops the line feeds at the end. -/
def dropFinalLineFeeds (s : List Char) : List Char :=
  (s.reverse.dropWhile (· == '\n')).reverse

/-- The prompt of input sections, an agent's template and a request. -/
def compose (inputs template request : String) : String :=
  String.ofList (dropFinalLineFeeds ("\n".intercalate (parts inputs template request)).toList)

/-- The text of the file that a prompt path names below a working directory. -/
def read (dir : Path) (name : String) : Act (Except ReadFault String) :=
  Act.readText (dir / Path.ofString name)

/-- The section of one input file. Only a path that can name no file is not held back. -/
def inputSection (dir : Path) (name : String) : Act String := do
  match ← read dir name with
  | .ok content => return loadedSection name content
  | .error .nul => throw (.read .nul)
  | .error e =>
    Act.note [failedRecord name e.message]
    return failedSection name e.message

/-- The sections of input files in order, with a blank line between two. -/
def inputSections (dir : Path) (names : List String) : Act String := do
  return "\n\n".intercalate (← names.mapM (inputSection dir))

theorem getLast?_dropFinalLineFeeds (s : List Char) :
    (dropFinalLineFeeds s).getLast? ≠ some '\n' := by
  unfold dropFinalLineFeeds
  rw [List.getLast?_reverse]
  cases h : s.reverse.dropWhile (· == '\n') with
  | nil => simp
  | cons c cs =>
    have := head_dropWhile_not h
    simpa using this

end Prompt

end Conductor
