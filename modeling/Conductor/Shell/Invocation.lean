import Conductor.Shell.Redirection
import Conductor.Shell.Search
import Conductor.Shell.Settings

/-!
# How a shell is called

The script that a shell runs by its arguments, and the state in which it starts in the place of
another process. Main statement: a variable with which a shell starts has been exported to it, or
every shell has it.
-/

namespace Conductor.Shell

open Text Process

namespace Run

/-- The bytes of a file that is read as a script; those of a directory are none. -/
def scriptBytes (p : Process) (name : List Char) : Except FileCause (List UInt8) :=
  match fileBytes p name with
  | .error .isDirectory => .ok []
  | result => result

/-- What a shell is to do by its arguments: its script, its name and its own arguments. -/
structure Task where
  /-- Whether the script is read line by line from a file or the input. -/
  fromFile : Bool
  script : List Char
  name : List Char
  arguments : List (List Char)

/-- The options in front of a shell's arguments: whether a script is among the arguments, whether it
is read from the input, and the arguments left. At most `fuel` words are read. -/
def shellLetters : (fuel : Nat) → (inline input : Bool) → List (List Char) →
    Run (Bool × Bool × List (List Char))
  | 0, inline, input, words => return (inline, input, words)
  | fuel + 1, inline, input, words => do
    match words with
    | ['-', '-'] :: rest => return (inline, input, rest)
    | ['-'] :: rest => return (inline, input, rest)
    | ('-' :: letters) :: rest =>
      let rest ← applyLetters true (letters.filter fun c => c ≠ 'c' ∧ c ≠ 'l') rest
      shellLetters fuel (inline || letters.contains 'c') (input || letters.contains 's') rest
    | ('+' :: letters) :: rest => shellLetters fuel inline input (← applyLetters false letters rest)
    | words => return (inline, input, words)

/-- What a shell is to do by its name and arguments. -/
def taskOf (name : List Char) (arguments : List (List Char)) : Run Task := do
  let (inline, input, rest) ← shellLetters (arguments.length + 1) false false arguments
  match inline, rest with
  | true, [] => fail "-c requires an argument".toList
  | true, script :: rest => return ⟨false, script, rest.headD name, rest.tail⟩
  | false, file :: rest =>
    if input then return ⟨true, Octets.ofBytes (← takeAll 0), name, file :: rest⟩
    else
      let p ← get
      match scriptBytes p file with
      | .ok bytes => return ⟨true, Octets.ofBytes bytes, file, rest⟩
      | .error cause =>
        fail ("cannot open ".toList ++ file ++ ": ".toList ++ (openingWords false cause).toList)
  | false, [] =>
    modify fun p => { p with options := 's' :: p.options.filter (· != 's') }
    return ⟨true, Octets.ofBytes (← takeAll 0), name, []⟩

/-- The variables that every shell has. -/
def ownVariables (p : Process) : List Variable :=
  let set (name : String) (value : List Char) : Variable := ⟨name.toList, some value, false, false⟩
  [set "IFS" defaultSeparators, set "OPTIND" ['1'], set "PATH" defaultPath,
    set "PPID" (decimal (p.machine.alive.headD 1)), set "PS1" ['#', ' '], set "PS2" ['>', ' '],
    set "PS4" ['+', ' '], ⟨"PWD".toList, some (Octets.ofText p.dir.toString), true, false⟩]

/-- The state in which a shell starts in the place of a process. -/
def startingShell (name : List Char) (p : Process) : Process :=
  let kept := p.vars.filter fun v =>
    v.exported && v.value.isSome && !(["IFS", "OPTIND", "PPID"].contains (String.ofList v.name))
  let kept := kept.map fun v => { v with fixed := false }
  let own := (ownVariables p).filter fun v => !kept.any (·.name == v.name)
  { machine := p.machine, self := p.self, number := p.self, parent := p.machine.alive.headD 1,
    dir := p.dir, vars := kept ++ own, name := name, streams := p.streams,
    traps := p.traps.filter (·.2.isEmpty), umask := p.umask }

/-- A variable with which a shell starts has been exported to it, or every shell has it. -/
theorem mem_vars_startingShell {name : List Char} {p : Process} {v : Variable}
    (h : v ∈ (startingShell name p).vars) : v.exported = true ∨ v ∈ ownVariables p := by
  simp only [startingShell, List.mem_append, List.mem_map, List.mem_filter] at h
  rcases h with ⟨w, ⟨_, hw⟩, rfl⟩ | ⟨hv, _⟩
  · simp_all
  · exact Or.inr hv

end Run

end Conductor.Shell
