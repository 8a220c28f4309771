import Conductor.Shell.Utility

/-!
# Looking for programs

Where programs are, and why one cannot be found or started. Files of the store are never programs.
Main statement: a name with a slash is not looked for in directories.
-/

namespace Conductor.Shell

open Text Process

/-- The directories that programs are in. -/
def programDirs : List String := ["/bin", "/usr/bin"]

/-- The names under which a shell is started. -/
def shellNames : List String := ["bash", "dash", "sh"]

/-- Whether a name is that of a program. -/
def isProgramName (name : List Char) : Bool :=
  let s := String.ofList name
  programNames.contains s || shellNames.contains s

/-- The directory of a path as it is written, and the name behind it. -/
def splitPath (path : List Char) : List Char × List Char :=
  let name := (path.reverse.takeWhile (· ≠ '/')).reverse
  (path.take (path.length - name.length), name)

/-- The program that a path with a slash leads to, as seen from a directory, or why it leads to
none. -/
def programAt (store : Store) (dir : Path) (path : List Char) : Except FileCause (List Char) :=
  let (parent, name) := splitPath path
  let parentPath := Path.resolve dir (pathOf parent)
  if programDirs.contains parentPath.toString && isProgramName name then .ok name
  else
    let full := pathOf path
    let place := (Path.resolve dir full).toString
    if systemDirs.contains place || place = "/dev/null" then .error .denied
    else match store.stat dir full with
      | .ok (_, .file ..) =>
        if path.getLast? = some '/' then .error .notDirectory else .error .denied
      | .ok (_, .directory) => .error .denied
      | .error cause =>
        if cause = .missing && Store.maxNameBytes < name.length then .error .nameTooLong
        else .error cause

/-- The paths at which a name is looked for. -/
def candidates (path name : List Char) : List (List Char) :=
  (Text.splitBy (· == ':') path).map fun d => if d.isEmpty then name else d ++ '/' :: name

/-- Where a name leads: at once if there is a slash in it, else in the directories of a search
path. -/
def places (path name : List Char) : List (List Char) :=
  if name.contains '/' then [name] else candidates path name

/-- A name with a slash is not looked for in directories. -/
theorem places_of_slash (path : List Char) {name : List Char} (h : name.contains '/' = true) :
    places path name = [name] := if_pos h

/-- What the search for a program finds: its path, the path and the program; else the cause at each
place. -/
def search (store : Store) (dir : Path) (path name : List Char) :
    Except (List FileCause) (List Char × List Char) :=
  (places path name).foldl (fun result place =>
    match result with
    | .ok found => .ok found
    | .error causes =>
      let seen := if place.contains '/' then place else '.' :: '/' :: place
      match programAt store dir seen with
      | .ok program => .ok (place, program)
      | .error cause => .error (causes ++ [cause])) (.error [])

namespace Process

/-- The search path of a process. -/
def searchPath (p : Process) : List Char := (p.lookUp? "PATH".toList).getD []

/-- Looks for a program. -/
def search (p : Process) (name : List Char) : Except (List FileCause) (List Char × List Char) :=
  Shell.search p.machine.store p.dir p.searchPath name

end Process

namespace Run

/-- Looks for a program, and keeps in mind where it is if its name does not tell. -/
def track (name : List Char) : Run (Except (List FileCause) (List Char × List Char)) := do
  let result := (← get).search name
  match result with
  | .ok (path, _) =>
    if !name.contains '/' then
      modify fun p => { p with tracked := putNamed name (path, false) p.tracked }
    return result
  | .error _ => return result

end Run

/-- The words for a program that cannot be found or started. -/
def startWords (cause : FileCause) : String :=
  match cause with
  | .missing => "not found"
  | .notDirectory => "not found"
  | cause => cause.words

/-- The cause that is told of those at several places: the last one that is not a lack. -/
def toldCause (causes : List FileCause) : FileCause :=
  ((causes.filter fun c => c ≠ .missing ∧ c ≠ .notDirectory).getLast?).getD .missing

end Conductor.Shell
