import Conductor.Text.Blank

/-!
# Lines

Three notions of a line: the pieces between line feeds, a text whose three line ends (LF, CRLF, CR)
have been made one, and the lines as a terminal shows them, which vertical tabs, form feeds and the
Unicode separators end as well. Main statement: joining the pieces between line feeds gives the text
back.
-/

namespace Conductor.Text

/-- The pieces between line feeds; a final line feed is followed by one empty piece. -/
def lines (s : List Char) : List (List Char) := splitBy (· == '\n') s

/-- Writes one line feed between each two pieces. -/
def joinLines (ls : List (List Char)) : List Char := List.intercalate ['\n'] ls

/-- Turns each CRLF into LF. -/
def crlfToLf : List Char → List Char
  | [] => []
  | '\r' :: '\n' :: cs => '\n' :: crlfToLf cs
  | c :: cs => c :: crlfToLf cs

/-- Turns each CRLF and each remaining CR into LF. -/
def unifyLineEnds : List Char → List Char
  | [] => []
  | '\r' :: '\n' :: cs => '\n' :: unifyLineEnds cs
  | '\r' :: cs => '\n' :: unifyLineEnds cs
  | c :: cs => c :: unifyLineEnds cs

/-- Whether a character ends a line on a terminal. -/
def isLineBreak (c : Char) : Bool :=
  let n := c.toNat
  (0xA ≤ n && n ≤ 0xD) || (0x1C ≤ n && n ≤ 0x1E) || n == 0x85 || n == 0x2028 || n == 0x2029

/-- The lines a terminal shows; the text after the last line break counts only if there is any. -/
def terminalLines (s : List Char) : List (List Char) :=
  let pieces := splitBy isLineBreak (crlfToLf s)
  if pieces.getLast? = some [] then pieces.dropLast else pieces

theorem splitBy_ne_nil (p : Char → Bool) (s : List Char) : splitBy p s ≠ [] := by
  cases s with
  | nil => simp [splitBy]
  | cons c cs =>
    rw [splitBy]
    split
    · simp
    · split <;> simp

/-- The pieces between line feeds, joined by line feeds, are the text. -/
theorem joinLines_lines (s : List Char) : joinLines (lines s) = s := by
  unfold joinLines lines
  induction s with
  | nil => rfl
  | cons c cs ih =>
    rw [splitBy]
    have hne := splitBy_ne_nil (· == '\n') cs
    cases hs : splitBy (· == '\n') cs with
    | nil => exact absurd hs hne
    | cons w ws =>
      rw [hs] at ih
      split
      · next hc =>
        have : c = '\n' := by simpa using hc
        subst this
        simpa [List.intercalate_cons_cons] using ih
      · cases ws with
        | nil => simpa using ih
        | cons v vs => simpa [List.intercalate_cons_cons] using ih

end Conductor.Text
