import Conductor.Text.Lines

/-!
# Normal form of captured output

What a terminal would have left standing: a carriage return lets the rest of its line overwrite what
came before it, and at most one blank line separates two others. Main statement: no carriage return
is left.
-/

namespace Conductor.Output

open Text

/-- What a line shows: the characters after its last carriage return. -/
def afterLastReturn (line : List Char) : List Char :=
  (line.reverse.takeWhile (· ≠ '\r')).reverse

/-- Shortens runs of line feeds to two; `written` is the number of line feeds just written. -/
def squeeze (written : Nat) : List Char → List Char
  | [] => []
  | c :: cs =>
    if c = '\n' then
      if written < 2 then c :: squeeze (written + 1) cs else squeeze written cs
    else c :: squeeze 0 cs

/-- Every line as it shows, the lines joined and runs of line feeds shortened to two. -/
def normalChars (s : List Char) : List Char :=
  squeeze 0 (joinLines ((lines (crlfToLf s)).map afterLastReturn))

/-- `normalChars` on strings. -/
def normal (s : String) : String := String.ofList (normalChars s.toList)

/-! ### Carriage returns -/

theorem return_not_mem_afterLastReturn (line : List Char) : '\r' ∉ afterLastReturn line := by
  unfold afterLastReturn
  rw [List.mem_reverse]
  intro h
  have := List.all_takeWhile (p := (· ≠ '\r')) (l := line.reverse)
  rw [List.all_eq_true] at this
  simpa using this _ h

theorem mem_of_mem_squeeze {c : Char} {k : Nat} {s : List Char} (h : c ∈ squeeze k s) : c ∈ s := by
  induction s generalizing k with
  | nil => simp [squeeze] at h
  | cons a as ih =>
    rw [squeeze] at h
    split at h
    · split at h
      · rcases List.mem_cons.mp h with rfl | h
        · exact List.mem_cons_self
        · exact List.mem_cons_of_mem _ (ih h)
      · exact List.mem_cons_of_mem _ (ih h)
    · rcases List.mem_cons.mp h with rfl | h
      · exact List.mem_cons_self
      · exact List.mem_cons_of_mem _ (ih h)

theorem return_not_mem_joinLines {ls : List (List Char)} (h : ∀ l ∈ ls, '\r' ∉ l) :
    '\r' ∉ joinLines ls := by
  induction ls with
  | nil => simp [joinLines]
  | cons l rest ih =>
    have hl := h l List.mem_cons_self
    have hrest := ih fun m hm => h m (List.mem_cons_of_mem _ hm)
    cases rest with
    | nil => simpa [joinLines] using hl
    | cons m rest =>
      have hjoin : joinLines (l :: m :: rest) = l ++ '\n' :: joinLines (m :: rest) := by
        simp [joinLines, List.intercalate]
      simp [hjoin, hl, hrest]

theorem return_not_mem_normalChars (s : List Char) : '\r' ∉ normalChars s := by
  intro h
  refine return_not_mem_joinLines ?_ (mem_of_mem_squeeze h)
  intro l hl
  obtain ⟨line, _, rfl⟩ := List.mem_map.mp hl
  exact return_not_mem_afterLastReturn line

end Conductor.Output
