import Conductor.Shell.Syntax

/-!
# Patterns

A pattern matches texts: a question mark stands for one character, a star for any text, and brackets
for one character of a set. A character that has been quoted means itself. Main statement: a pattern
of quoted characters matches their text and nothing else.
-/

namespace Conductor.Shell

/-- A member of a set of characters: those between two characters, or those of a class. -/
inductive Member where
  | range (low high : Char)
  | named (name : String)
  deriving DecidableEq, Repr, Inhabited

/-- A piece of a pattern. -/
inductive Piece where
  | exactly (c : Char)
  | anyOne
  | anyText
  | oneOf (negated : Bool) (members : List Member)
  deriving DecidableEq, Repr, Inhabited

/-- A character of a pattern and whether it has been quoted. -/
abbrev Mark := Char × Bool

/-- A printing character other than a space. -/
def isGraphic (c : Char) : Bool := '!' ≤ c && c ≤ '~'

/-- Whether a character is of a class. -/
def isOfClass (name : String) (c : Char) : Bool :=
  match name with
  | "alnum" => c.isAlphanum
  | "alpha" => c.isAlpha
  | "blank" => c == ' ' || c == '\t'
  | "cntrl" => c < ' ' || c == '\x7f'
  | "digit" => c.isDigit
  | "graph" => isGraphic c
  | "lower" => c.isLower
  | "print" => isGraphic c || c == ' '
  | "punct" => isGraphic c && !c.isAlphanum
  | "space" => c == ' ' || '\t' ≤ c && c ≤ '\r'
  | "upper" => c.isUpper
  | "xdigit" => c.isDigit || 'a' ≤ c && c ≤ 'f' || 'A' ≤ c && c ≤ 'F'
  | _ => false

/-- The names of the classes. -/
def classNames : List String :=
  ["alnum", "alpha", "blank", "cntrl", "digit", "graph", "lower", "print", "punct", "space",
    "upper", "xdigit"]

/-- Whether a character is a member. -/
def Member.holds (c : Char) : Member → Bool
  | range low high => low ≤ c && c ≤ high
  | named name => isOfClass name c

/-- The class in brackets and colons of its own that marks begin with, and the rest. -/
def classOf? (s : List Mark) : Option (Member × List Mark) :=
  classNames.findSome? fun name =>
    let written := (':' :: name.toList) ++ [':', ']']
    if (s.take written.length).map (·.1) = written then some (.named name, s.drop written.length)
    else none

/-- The members of a set up to the bracket that closes it, and the rest; a bracket at the front is a
member. At most `fuel` members are read. -/
def membersUpTo (first : Bool) : (fuel : Nat) → List Mark → Option (List Member × List Mark)
  | 0, _ => none
  | _, [] => none
  | fuel + 1, (c, quoted) :: rest =>
    let add (m : Member) (rest : List Mark) : Option (List Member × List Mark) :=
      (membersUpTo false fuel rest).map fun (ms, rest) => (m :: ms, rest)
    if c = ']' && !quoted && !first then some ([], rest)
    else match if c = '[' && !quoted then classOf? rest else none with
      | some (m, rest) => add m rest
      | none =>
        match rest with
        | ('-', false) :: (']', false) :: _ => add (.range c c) rest
        | ('-', false) :: (d, _) :: rest => add (.range c d) rest
        | rest => add (.range c c) rest

/-- The set that marks behind an opening bracket begin with, and the rest. -/
def set? (s : List Mark) : Option (Piece × List Mark) :=
  match s with
  | ('!', false) :: s => (membersUpTo true (s.length + 1) s).map fun (ms, r) => (.oneOf true ms, r)
  | s => (membersUpTo true (s.length + 1) s).map fun (ms, r) => (.oneOf false ms, r)

/-- A backslash that is not quoted quotes the character behind it. -/
def applyBackslashes : List Mark → List Mark
  | ('\\', false) :: (c, _) :: rest => (c, true) :: applyBackslashes rest
  | m :: rest => m :: applyBackslashes rest
  | [] => []

/-- The pieces of a pattern, of which at most `fuel` are read. -/
def piecesUpTo : (fuel : Nat) → List Mark → List Piece
  | 0, _ => []
  | _, [] => []
  | fuel + 1, (c, quoted) :: rest =>
    if quoted then .exactly c :: piecesUpTo fuel rest
    else match c with
      | '?' => .anyOne :: piecesUpTo fuel rest
      | '*' => .anyText :: piecesUpTo fuel rest
      | '[' =>
        match set? rest with
        | some (p, rest) => p :: piecesUpTo fuel rest
        | none => .exactly '[' :: piecesUpTo fuel rest
      | c => .exactly c :: piecesUpTo fuel rest

/-- The pieces of a pattern. -/
def pieces (s : List Mark) : List Piece :=
  let s := applyBackslashes s
  piecesUpTo s.length s

/-- Whether a piece that is no text matches a character. -/
def Piece.matchesOne (c : Char) : Piece → Bool
  | exactly d => c == d
  | oneOf negated members => (members.any (·.holds c)) != negated
  | _ => true

/-- Whether pieces match a text. -/
def matchesAll : List Piece → List Char → Bool
  | [], s => s.isEmpty
  | .anyText :: ps, s => matchesAll ps s || (match s with
    | [] => false
    | _ :: cs => matchesAll (.anyText :: ps) cs)
  | p :: ps, c :: cs => p.matchesOne c && matchesAll ps cs
  | _ :: _, [] => false
termination_by ps s => (ps.length, s.length)

/-- Takes away the beginning of a text that matches, the shortest or the longest one. -/
def trimStart (longest : Bool) (ps : List Piece) (s : List Char) : List Char :=
  let ends := List.range (s.length + 1)
  let ends := if longest then ends.reverse else ends
  match ends.find? fun n => matchesAll ps (s.take n) with
  | some n => s.drop n
  | none => s

/-- Takes away the end of a text that matches, the shortest or the longest one. -/
def trimEnd (longest : Bool) (ps : List Piece) (s : List Char) : List Char :=
  let starts := List.range (s.length + 1)
  let starts := if longest then starts else starts.reverse
  match starts.find? fun n => matchesAll ps (s.drop n) with
  | some n => s.take n
  | none => s

/-- Whether a pattern matches more than one text. -/
def isOpenPattern (s : List Mark) : Bool := (pieces s).any fun p => !(p matches .exactly _)

/-! ### Quoted characters -/

theorem applyBackslashes_quoted (s : List Char) :
    applyBackslashes (s.map fun c => (c, true)) = s.map fun c => (c, true) := by
  induction s with
  | nil => rfl
  | cons c cs ih =>
    rw [List.map_cons, applyBackslashes, ih]
    intro d b rest h
    simp at h

theorem piecesUpTo_quoted (s : List Char) {fuel : Nat} (h : s.length ≤ fuel) :
    piecesUpTo fuel (s.map fun c => (c, true)) = s.map Piece.exactly := by
  induction s generalizing fuel with
  | nil => cases fuel <;> rfl
  | cons c cs ih =>
    cases fuel with
    | zero => simp at h
    | succ fuel => simp [piecesUpTo, ih (by simpa using h)]

theorem matchesAll_exactly (s t : List Char) :
    matchesAll (s.map Piece.exactly) t = decide (t = s) := by
  induction s generalizing t with
  | nil => cases t <;> simp [matchesAll]
  | cons c cs ih =>
    cases t with
    | nil => simp [matchesAll]
    | cons d ds =>
      rw [List.map_cons, matchesAll, ih, Piece.matchesOne]
      · by_cases hd : d = c <;> by_cases hs : ds = cs <;> simp [hd, hs]
      · simp

/-- A pattern of quoted characters matches their text and nothing else. -/
theorem matchesAll_pieces_quoted (s t : List Char) :
    matchesAll (pieces (s.map fun c => (c, true))) t = decide (t = s) := by
  unfold pieces
  rw [applyBackslashes_quoted, piecesUpTo_quoted s (by simp), matchesAll_exactly]

end Conductor.Shell
