import Conductor.Path
import Conductor.Text.Lines
import Conductor.Text.Quoted
import Conductor.Text.Utf8

/-!
# The file store

Files and directories in memory, each at a place: the names from the root, without dots. A path is
followed name by name and must go through directories; every way in which that can fail is a cause
of its own. Main statements: what is put at a place is found there, and nothing else changes.
-/

namespace Conductor

open Text

/-- What stands at a place. A file has its bytes and the time it was written. -/
inductive Node where
  | directory
  | file (content : List UInt8) (modified : Int)
  deriving Repr, Inhabited, DecidableEq

/-- A place in the store: the names from the root. -/
abbrev Place := List String

/-- The files and directories; the root is always a directory. `clock` is the time that the next
file is written at. -/
structure Store where
  entries : List (Place × Node)
  clock : Int
  deriving Repr, Inhabited

/-- Why a path leads nowhere. -/
inductive FileCause where
  | missing
  | isDirectory
  | notDirectory
  | denied
  | alreadyThere
  | nameTooLong
  deriving DecidableEq, Repr

/-- A failed file operation. -/
structure FileError where
  cause : FileCause
  path : String
  deriving DecidableEq, Repr

namespace FileCause

/-- The system's number for a cause. -/
def number : FileCause → Nat
  | missing => 2
  | denied => 13
  | alreadyThere => 17
  | notDirectory => 20
  | isDirectory => 21
  | nameTooLong => 36

/-- The system's words for a cause. -/
def words : FileCause → String
  | missing => "No such file or directory"
  | denied => "Permission denied"
  | alreadyThere => "File exists"
  | notDirectory => "Not a directory"
  | isDirectory => "Is a directory"
  | nameTooLong => "File name too long"

end FileCause

/-- What went wrong, with the path. -/
def FileError.message (e : FileError) : String :=
  s!"[Errno {e.cause.number}] {e.cause.words}: {quoted e.path}"

namespace Store

/-- A store with nothing in it. -/
def empty : Store := ⟨[], 1000000000000000000⟩

/-- What stands at a place. -/
def at? (s : Store) (place : Place) : Option Node :=
  if place = [] then some .directory else (s.entries.find? (·.1 == place)).map (·.2)

/-- Puts a node at a place. -/
def putNode (s : Store) (place : Place) (node : Node) : Store :=
  { s with entries := (place, node) :: s.entries.filter (·.1 != place) }

/-- Takes away what stands at a place. -/
def removeNode (s : Store) (place : Place) : Store :=
  { s with entries := s.entries.filter (·.1 != place) }

/-- The longest name, in bytes. -/
def maxNameBytes : Nat := 255

/-- Follows names from the directory `here`: where they lead, whether or not something is there. -/
def walk (s : Store) (here : Place) : List String → Except FileCause Place
  | [] => .ok here
  | n :: rest =>
    match s.at? here with
    | none => .error .missing
    | some (.file ..) => .error .notDirectory
    | some .directory =>
      if n = ".." then walk s here.dropLast rest
      else if maxNameBytes < n.utf8ByteSize then .error .nameTooLong
      else walk s (here ++ [n]) rest

/-- The first length of a path, in bytes, that is too much. -/
def pathLimit : Nat := 4096

/-- The place that a path seen from the directory `base` leads to. -/
def locate (s : Store) (base path : Path) : Except FileCause Place :=
  if pathLimit ≤ path.toString.utf8ByteSize then .error .nameTooLong
  else walk s [] (base / path).names

/-- What a path leads to. -/
def stat (s : Store) (base path : Path) : Except FileCause (Place × Node) := do
  let place ← locate s base path
  match s.at? place with
  | some node => .ok (place, node)
  | none => .error .missing

/-- Whether a path leads to something. -/
def holds (s : Store) (base path : Path) : Bool := (stat s base path).toOption.isSome

/-- Whether a path leads to a directory. -/
def isDirectory (s : Store) (base path : Path) : Bool :=
  match stat s base path with
  | .ok (_, .directory) => true
  | _ => false

/-- The bytes of the file that a path leads to. -/
def readBytes (s : Store) (base path : Path) : Except FileCause (List UInt8) := do
  match ← stat s base path with
  | (_, .file content _) => .ok content
  | (_, .directory) => .error .isDirectory

/-- Writes a file at a path, whose directory must be there. -/
def writeBytes (s : Store) (base path : Path) (content : List UInt8) :
    Except FileCause Store := do
  let place ← locate s base path
  match s.at? place, s.at? place.dropLast with
  | some .directory, _ => .error .isDirectory
  | _, some .directory =>
    .ok { s.putNode place (.file content s.clock) with clock := s.clock + 1 }
  | _, some (.file ..) => .error .notDirectory
  | _, none => .error .missing

/-- Makes one directory. -/
def makeDirectory (s : Store) (base path : Path) : Except FileCause Store := do
  let place ← locate s base path
  match s.at? place with
  | some _ => .error .alreadyThere
  | none => .ok (s.putNode place .directory)

/-- Makes a directory unless it is there already. -/
def ensureOne (s : Store) (base path : Path) : Except FileError Store :=
  match makeDirectory s base path with
  | .ok s => .ok s
  | .error cause =>
    if cause ≠ .missing && isDirectory s base path then .ok s
    else .error ⟨cause, path.toString⟩

/-- Makes a directory and the missing ones above it; `depth` bounds how many. -/
def ensureUpTo (s : Store) (base : Path) : (depth : Nat) → Path → Except FileError Store
  | 0, path => ensureOne s base path
  | depth + 1, path =>
    match makeDirectory s base path with
    | .error .missing =>
      if path.names.isEmpty then .error ⟨.missing, path.toString⟩
      else do
        let s ← ensureUpTo s base depth path.parent
        ensureOne s base path
    | _ => ensureOne s base path

/-- Makes a directory and all missing ones above it; one that is there already stays. -/
def ensureDirectory (s : Store) (base path : Path) : Except FileError Store :=
  ensureUpTo s base path.names.length path

/-! ### What is put is found -/

theorem at?_putNode_self (s : Store) {place : Place} (h : place ≠ []) (node : Node) :
    (s.putNode place node).at? place = some node := by
  simp [at?, putNode, h]

theorem at?_putNode_of_ne (s : Store) {place other : Place} (h : other ≠ place) (node : Node) :
    (s.putNode place node).at? other = s.at? other := by
  unfold at? putNode
  have hne : (place == other) = false := by simpa using fun e => h e.symm
  have : ∀ l : List (Place × Node),
      (l.filter (·.1 != place)).find? (·.1 == other) = l.find? (·.1 == other) := by
    intro l
    induction l with
    | nil => rfl
    | cons e es ih =>
      rw [List.filter_cons]
      split
      · rw [List.find?_cons, List.find?_cons, ih]
      · next hp =>
        have hp : e.1 = place := by simpa using hp
        rw [ih, List.find?_cons]
        simp [hp, hne]
  simp [hne, this]

end Store

end Conductor
