import Conductor.Text.Lines
import Conductor.Text.Case

/-!
# What an output says

The last line of an agent's output that carries meaning, and its last word: terminal control
sequences, blank lines and the figures an engine prints after the answer are passed over.
-/

namespace Conductor.Output

open Text

/-- A parameter character of a control sequence. -/
def isParameter (c : Char) : Bool := ('0' ≤ c && c ≤ '9') || c == ';' || c == '?'

/-- An intermediate character of a control sequence. -/
def isIntermediate (c : Char) : Bool := ' ' ≤ c && c ≤ '/'

/-- A character that ends a control sequence. -/
def isFinal (c : Char) : Bool := '@' ≤ c && c ≤ '~'

/-- The rest after a control sequence whose escape character has been read, if one is complete:
a bracket, parameters, intermediates and a final character, or a closing bracket and a text up to
the bell. -/
def afterControl? : List Char → Option (List Char)
  | '[' :: cs =>
    match (cs.dropWhile isParameter).dropWhile isIntermediate with
    | c :: rest => if isFinal c then some rest else none
    | [] => none
  | ']' :: cs =>
    match cs.dropWhile (· ≠ '\x07') with
    | _ :: rest => some rest
    | [] => none
  | _ => none

theorem length_dropWhile_le (p : Char → Bool) (s : List Char) :
    (s.dropWhile p).length ≤ s.length := by
  induction s with
  | nil => simp
  | cons c cs ih =>
    rw [List.dropWhile_cons]
    split
    · exact Nat.le_succ_of_le ih
    · exact Nat.le_refl _

theorem length_afterControl? {s rest : List Char} (h : afterControl? s = some rest) :
    rest.length < s.length := by
  unfold afterControl? at h
  split at h
  · next cs =>
    have h1 := length_dropWhile_le isParameter cs
    have h2 := length_dropWhile_le isIntermediate (cs.dropWhile isParameter)
    split at h
    · next c r hr =>
      split at h
      · cases h
        rw [hr] at h2
        simp only [List.length_cons] at h2 ⊢
        omega
      · cases h
    · cases h
  · next cs =>
    have h1 := length_dropWhile_le (· ≠ '\x07') cs
    split at h
    · next c r hr =>
      cases h
      rw [hr] at h1
      simp only [List.length_cons] at h1 ⊢
      omega
    · cases h
  · cases h

/-- Removes the complete control sequences. -/
def withoutControls (s : List Char) : List Char :=
  match s with
  | [] => []
  | '\x1b' :: cs =>
    match _h : afterControl? cs with
    | some rest => withoutControls rest
    | none => '\x1b' :: withoutControls cs
  | c :: cs => c :: withoutControls cs
termination_by s.length
decreasing_by
  · have := length_afterControl? _h
    simp only [List.length_cons]
    omega
  · simp
  · simp

/-- How the lines begin that engines print after an answer. -/
def telemetryStarts : List String :=
  ["tokens used", "token usage", "usage:", "cost:", "duration:", "[telemetry", "[tokens"]

/-- Whether a line is one of those, in any case. -/
def isTelemetry (line : List Char) : Bool :=
  telemetryStarts.any fun p => p.toList.isPrefixOf (lowerChars line)

/-- The last line, trimmed, that is neither blank nor telemetry; empty if there is none. -/
def lastMeaningful (s : List Char) : List Char :=
  (((lines (unifyLineEnds (withoutControls s))).map trim).filter
    fun line => !line.isEmpty && !isTelemetry line).getLast?.getD []

/-- `lastMeaningful` on strings. -/
def lastLine (s : String) : String := String.ofList (lastMeaningful s.toList)

/-- The last word of the last meaningful line. -/
def finalToken? (s : String) : Option String :=
  (words (lastMeaningful s.toList)).getLast?.map String.ofList

end Conductor.Output
