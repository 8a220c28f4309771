import Conductor.Shell.Pattern

/-!
# Fields

What a word expands to is a row of items: characters, which know where they come from, quotes, and
cuts between arguments. The row is split into fields at the separators that came from unquoted
expansions, and a field that is a pattern becomes the paths that match it. Main statements: a quote
always makes a field, and characters that do not come from an expansion are never split.
-/

namespace Conductor.Shell

/-- Where a character comes from: from an unquoted text, from a quoted one, or from an unquoted
expansion. -/
inductive Origin where
  | plain
  | quoted
  | expanded
  deriving DecidableEq, Repr, Inhabited

/-- A piece of what a word expands to. -/
inductive Item where
  | char (c : Char) (origin : Origin)
  | mark
  /-- Between two arguments, as if there were a blank. -/
  | gap
  /-- Between two quoted arguments, each of which is a field even if it is empty. -/
  | cut
  deriving DecidableEq, Repr, Inhabited

/-- The items of a text. -/
def itemsOf (origin : Origin) (s : List Char) : List Item := s.map (.char · origin)

/-- The characters of items. -/
def charsOf (items : List Item) : List Char :=
  items.filterMap fun i => match i with
    | .char c _ => some c
    | _ => none

/-- The items as the marks of a pattern. -/
def marksOf (items : List Item) : List Mark :=
  items.filterMap fun i => match i with
    | .char c origin => some (c, origin == .quoted)
    | _ => none

/-! ### Splitting -/

/-- Fields that are being split off: those that are done and the open one, the last piece of each
first. Behind a separator others are swallowed: blanks, and perhaps one more that is no blank. -/
structure Splitting where
  done : List (List Item) := []
  current : List Item := []
  swallowing : Option Bool := none

namespace Splitting

/-- Ends the open field. -/
def close (s : Splitting) (swallowing : Option Bool) : Splitting :=
  { done := s.current.reverse :: s.done, swallowing := swallowing }

/-- Goes on at a separator. -/
def separate (s : Splitting) (blank : Bool) : Splitting :=
  match s.swallowing with
  -- Behind blanks one separator that is no blank is swallowed too, and behind it only blanks.
  | some other =>
    if blank then s
    else if other then { s with swallowing := some false }
    else s.close (some false)
  | none => if s.current.isEmpty && blank then s else s.close (some blank)

/-- Goes on at an item. -/
def step (separators : List Char) (s : Splitting) (i : Item) : Splitting :=
  match i with
  | .char c .expanded =>
    if separators.contains c then s.separate (isBlank c)
    else { s with current := i :: s.current, swallowing := none }
  | .gap => s.separate true
  | .cut => s.close none
  | i => { s with current := i :: s.current, swallowing := none }

/-- The fields in order. -/
def fields (s : Splitting) : List (List Item) :=
  (if s.current.isEmpty then s.done else s.current.reverse :: s.done).reverse

end Splitting

/-- The fields of a row of items. -/
def splitFields (separators : List Char) (items : List Item) : List (List Item) :=
  (items.foldl (Splitting.step separators) {}).fields

/-- A quote always makes a field. -/
theorem splitFields_mark (separators : List Char) : splitFields separators [.mark] = [[.mark]] :=
  rfl

theorem foldl_step_of_not_expanded (separators : List Char) {origin : Origin}
    (h : origin ≠ .expanded) (s : List Char) (st : Splitting) (hs : s ≠ []) :
    (itemsOf origin s).foldl (Splitting.step separators) st =
      { st with current := (itemsOf origin s).reverse ++ st.current, swallowing := none } := by
  induction s generalizing st with
  | nil => exact absurd rfl hs
  | cons c cs ih =>
    have hstep : Splitting.step separators st (.char c origin) =
        { st with current := .char c origin :: st.current, swallowing := none } := by
      cases origin
      · rfl
      · rfl
      · exact absurd rfl h
    rw [itemsOf, List.map_cons, List.foldl_cons, hstep]
    by_cases hcs : cs = []
    · subst hcs
      rfl
    · rw [← itemsOf, ih _ hcs]
      simp [itemsOf]

/-- Characters that do not come from an expansion are never split. -/
theorem splitFields_of_not_expanded (separators : List Char) {origin : Origin}
    (h : origin ≠ .expanded) {s : List Char} (hs : s ≠ []) :
    splitFields separators (itemsOf origin s) = [itemsOf origin s] := by
  have hne : (itemsOf origin s).reverse.isEmpty = false := by
    simpa [itemsOf, List.isEmpty_eq_false_iff] using hs
  rw [splitFields, foldl_step_of_not_expanded separators h s {} hs]
  simp [Splitting.fields, hne]

/-! ### Paths -/

/-- What paths can be found: the names in the directory that a text writes, and whether a text leads
to anything. -/
structure Directory where
  names : List Char → List (List Char)
  leads : List Char → Bool

/-- The parts of a pattern between slashes. -/
def splitSlashes (s : List Mark) : List (List Mark) :=
  s.foldr (fun m parts =>
    if m.1 = '/' then [] :: parts
    else match parts with
      | part :: rest => (m :: part) :: rest
      | [] => [[m]]) [[]]

/-- The names that a part of a pattern matches. One with a dot in front has to be asked for by it.
-/
def matchingNames (names : List (List Char)) (part : List Mark) : List (List Char) :=
  let ps := pieces part
  let dotted := (part.head?).any (·.1 == '.')
  let names := if dotted then ['.'] :: ['.', '.'] :: names else names
  names.filter fun n => (dotted || n.head? != some '.') && matchesAll ps n

/-- The paths that the parts of a pattern match behind what has been matched. -/
def matchingPaths (d : Directory) (done : List Char) : List (List Mark) → List (List Char)
  | [] => [done]
  | part :: rest =>
    let slash := if rest.isEmpty then [] else ['/']
    if isOpenPattern part then
      (matchingNames (d.names done) part).flatMap fun n => matchingPaths d (done ++ n ++ slash) rest
    else
      let path := done ++ part.map (·.1) ++ slash
      if rest.isEmpty && !d.leads path then [] else matchingPaths d path rest

/-- The order of octets. -/
def octetsLe (a b : List Char) : Bool := decide (¬ b < a)

/-- The paths that a field stands for: those that it matches as a pattern, else itself. -/
def expandPaths (d : Directory) (field : List Item) : List (List Char) :=
  let marks := marksOf field
  if isOpenPattern marks then
    match matchingPaths d [] (splitSlashes marks) with
    | [] => [charsOf field]
    | paths => paths.mergeSort octetsLe
  else [charsOf field]

end Conductor.Shell
