/-!
# Blank characters

The white space of Unicode texts, and the three things done with it: trimming, splitting into words
and asking whether a text is blank. Main statement: a text is blank iff trimming
leaves nothing.
-/

namespace Conductor.Text

/-- White space: the ASCII controls from tab to return and from file separator to space, and the
space, line and paragraph separators beyond ASCII. -/
def isBlank (c : Char) : Bool :=
  let n := c.toNat
  (0x9 ≤ n && n ≤ 0xD) || (0x1C ≤ n && n ≤ 0x20) || n == 0x85 || n == 0xA0 || n == 0x1680
    || (0x2000 ≤ n && n ≤ 0x200A) || n == 0x2028 || n == 0x2029 || n == 0x202F || n == 0x205F
    || n == 0x3000

/-- Drops the blanks at the start. -/
def trimStart (s : List Char) : List Char := s.dropWhile isBlank

/-- Drops the blanks at the end. -/
def trimEnd (s : List Char) : List Char := (s.reverse.dropWhile isBlank).reverse

/-- Drops the blanks at both ends. -/
def trim (s : List Char) : List Char := trimEnd (trimStart s)

/-- White space around a number: the blanks without the four ASCII separators. -/
def isSpaceAround (c : Char) : Bool := isBlank c && !(0x1C ≤ c.toNat && c.toNat ≤ 0x1F)

/-- Drops the white space around a number. -/
def trimNumber (s : List Char) : List Char :=
  ((s.dropWhile isSpaceAround).reverse.dropWhile isSpaceAround).reverse

/-- Whether a text holds nothing but blanks. -/
def allBlank (s : List Char) : Bool := s.all isBlank

/-- Splits at every character that satisfies `p`, which belongs to no piece; there is one piece more
than there are such characters. -/
def splitBy (p : Char → Bool) : List Char → List (List Char)
  | [] => [[]]
  | c :: cs =>
    if p c then [] :: splitBy p cs
    else match splitBy p cs with
      | [] => [[c]]
      | w :: ws => (c :: w) :: ws

/-- The maximal runs of characters that are not blank. -/
def words (s : List Char) : List (List Char) := (splitBy isBlank s).filter (!·.isEmpty)

/-- `trim` on strings. -/
def trimmed (s : String) : String := String.ofList (trim s.toList)

/-- `allBlank` on strings. -/
def isBlankText (s : String) : Bool := allBlank s.toList

/-- The text, unless it is blank. -/
def unlessBlank (s : String) : Option String := if isBlankText s then none else some s

/-- Whether an optional text is present and not blank. -/
def isFilled : Option String → Bool
  | none => false
  | some s => !isBlankText s

/-! ### Trimming -/

theorem head_dropWhile_not {p : Char → Bool} {s : List Char} {c : Char} {cs : List Char}
    (h : s.dropWhile p = c :: cs) : p c = false := by
  induction s with
  | nil => simp at h
  | cons a as ih =>
    rw [List.dropWhile_cons] at h
    split at h
    · exact ih h
    · next hp => cases h; simpa using hp

theorem dropWhile_eq_nil {p : Char → Bool} {s : List Char} :
    s.dropWhile p = [] ↔ ∀ c ∈ s, p c = true := by
  induction s with
  | nil => simp
  | cons a as ih =>
    rw [List.dropWhile_cons]
    split
    · next hp => simp [ih, hp]
    · next hp => simp [hp]

theorem trimEnd_append_blank {s t : List Char} (ht : allBlank t = true) :
    trimEnd (s ++ t) = trimEnd s := by
  have hrev : ∀ c ∈ t.reverse, isBlank c = true := by simpa [allBlank] using ht
  unfold trimEnd
  rw [List.reverse_append, List.dropWhile_append_of_pos hrev]

theorem trimStart_eq_nil_iff {s : List Char} : trimStart s = [] ↔ allBlank s = true := by
  rw [trimStart, dropWhile_eq_nil, allBlank, List.all_eq_true]

theorem trimEnd_eq_nil_iff {s : List Char} : trimEnd s = [] ↔ allBlank s = true := by
  rw [trimEnd, List.reverse_eq_nil_iff, dropWhile_eq_nil, allBlank, List.all_eq_true]
  simp only [List.mem_reverse]

theorem allBlank_of_trimStart {s : List Char} (h : allBlank (trimStart s) = true) :
    allBlank s = true := by
  rw [← trimStart_eq_nil_iff]
  cases hs : trimStart s with
  | nil => rfl
  | cons c cs =>
    have hc := head_dropWhile_not (p := isBlank) hs
    rw [hs] at h
    simp [allBlank, hc] at h

/-- A text is blank iff trimming leaves nothing. -/
theorem trim_eq_nil_iff {s : List Char} : trim s = [] ↔ allBlank s = true := by
  rw [trim, trimEnd_eq_nil_iff]
  constructor
  · exact allBlank_of_trimStart
  · intro h
    rw [trimStart_eq_nil_iff.mpr h]
    rfl

end Conductor.Text
