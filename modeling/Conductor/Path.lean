import Conductor.Text.Blank

/-!
# Paths

A path is a root and the names below it. Reading a path drops empty names and single dots, keeps
double dots, and tells three roots apart: none, a single slash, and exactly two slashes. Main
statement: an absolute path joined to another one replaces it.
-/

namespace Conductor

open Text

/-- What a path starts from. -/
inductive Root where
  | none
  | slash
  | doubleSlash
  deriving DecidableEq, Repr, Inhabited

/-- A path: where it starts and the names from there. -/
structure Path where
  root : Root
  names : List String
  deriving DecidableEq, Repr, Inhabited

namespace Path

/-- The path that a text writes. -/
def ofString (s : String) : Path :=
  let cs := s.toList
  let slashes := (cs.takeWhile (· == '/')).length
  let root := if slashes = 0 then Root.none else if slashes = 2 then .doubleSlash else .slash
  let names := (splitBy (· == '/') cs).filter fun n => !n.isEmpty && n != ['.']
  ⟨root, names.map String.ofList⟩

/-- The text of a path; the path without names from nowhere is a dot. -/
def toString (p : Path) : String :=
  let names := "/".intercalate p.names
  match p.root with
  | .none => if p.names.isEmpty then "." else names
  | .slash => "/" ++ names
  | .doubleSlash => "//" ++ names

instance : ToString Path := ⟨toString⟩

/-- Whether a path starts at a root. -/
def isAbsolute (p : Path) : Bool := p.root != .none

/-- The path `q` seen from `p`; an absolute one is itself. -/
def join (p q : Path) : Path :=
  if q.isAbsolute then q else ⟨p.root, p.names ++ q.names⟩

instance : HDiv Path Path Path := ⟨join⟩

/-- One name below a path. -/
def child (p : Path) (name : String) : Path := ⟨p.root, p.names ++ [name]⟩

/-- The path without its last name. -/
def parent (p : Path) : Path := ⟨p.root, p.names.dropLast⟩

/-- Takes back one name for each double dot. -/
def resolveNames (done : List String) : List String → List String
  | [] => done.reverse
  | ".." :: rest => resolveNames done.tail rest
  | n :: rest => resolveNames (n :: done) rest

/-- The absolute path without double dots, seen from `base`. -/
def resolve (base p : Path) : Path :=
  let q := base / p
  ⟨.slash, resolveNames [] q.names⟩

/-- Whether a path holds a character that no path can hold. -/
def hasNul (p : Path) : Bool := p.names.any fun n => n.toList.contains '\x00'

theorem join_of_isAbsolute (p : Path) {q : Path} (h : q.isAbsolute = true) : p / q = q := by
  change p.join q = q
  simp [join, h]

theorem join_of_not_isAbsolute (p : Path) {q : Path} (h : q.isAbsolute = false) :
    p / q = ⟨p.root, p.names ++ q.names⟩ := by
  change p.join q = _
  simp [join, h]

end Path

end Conductor
