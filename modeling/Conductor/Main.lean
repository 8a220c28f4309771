import Conductor.Child.Engine
import Conductor.CommandLine.Reads
import Conductor.Shell.Spawn
import Conductor.Store.Changes
import Std.Time.DateTime.Timestamp

/-!
# The command line

Reads the files that a request reads, performs it on them and writes back what has changed. Agents
are run on the files that were read.
-/

namespace Conductor

open CommandLine

/-- The text of a place. -/
def placeText (place : Place) : String := "/" ++ "/".intercalate place

/-- What stands at a place of the file system. -/
def look (place : Place) : IO (Option Node) := do
  match ← (IO.FS.readBinFile (placeText place)).toBaseIO with
  | .ok bytes => return some (.file bytes.toList 0)
  | .error (.inappropriateType ..) => return some .directory
  | .error _ => return none

/-- Adds what stands at a place, whose directory is at hand, to a store. -/
def fetchOne (s : Store) (place : Place) : IO Store := do
  match s.at? place, s.at? place.dropLast with
  | none, some .directory =>
    match ← look place with
    | some node => return s.putNode place node
    | none => return s
  | _, _ => return s

/-- Adds what stands at a place and above it. -/
def fetch (s : Store) (place : Place) : IO Store :=
  ((List.range place.length).map fun n => place.take (n + 1)).foldlM fetchOne s

/-- How often the paths that a request reads are looked up: for the file of variables, for what the
settings name, and for what the files named there name. -/
def rounds : Nat := 3

/-- Adds the files that a request reads. -/
def gather (r : Request) (vars : Variables) (w : World) : IO World :=
  (List.range rounds).foldlM (fun w _ => do
    let places := (r.reads vars w).map fun path => (Path.resolve w.cwd path).names
    return { w with store := ← places.foldlM fetch w.store }) w

/-- The variables of the surroundings that matter. -/
def surroundings : IO Variables :=
  (Settings.names ++ ["HOME", "PATH", "PWD"]).filterMapM fun name => do
    return (← IO.getEnv name).map fun value => (name, some value)

/-- The world before anything is read. -/
def emptyWorld : IO World := do
  let cwd := Path.ofString (toString (← IO.currentDir))
  let nanoseconds := (← Std.Time.Timestamp.now).toNanosecondsSinceUnixEpoch.val
  return {
    store := ← fetch Store.empty cwd.names
    cwd := cwd
    nextRun := nanoseconds.toNat
    now := nanoseconds / 1000 }

/-- Writes what has changed to the file system. -/
def keep (before after : Store) : IO Unit := do
  for (place, node) in (before.written after).mergeSort (·.1.length ≤ ·.1.length) do
    match node with
    | .directory => IO.FS.createDirAll (placeText place)
    | .file content _ => IO.FS.writeBinFile (placeText place) content.toByteArray
  for place in (before.removed after).mergeSort (·.length ≥ ·.length) do
    match before.at? place with
    | some (.file ..) => IO.FS.removeFile (placeText place)
    | _ => IO.FS.removeDir (placeText place)

/-- Performs a request and tells of it. -/
def serveRequest (r : Request) : IO UInt32 := do
  let vars ← surroundings
  let before ← gather r vars (← emptyWorld)
  let (result, after) := (perform (Child.engineOf Shell.spawn vars) vars r).exec before
  keep before.store after.store
  match result with
  | .error f =>
    IO.eprintln f.message
    return Exit.failed.code.toUInt32
  | .ok ended =>
    for line in ended.logging.lines before.now after.log.toList do
      IO.println (line.text ended.logging.layout)
    ended.output.forM fun line => IO.println line
    ended.errors.forM fun line => IO.eprintln line
    return ended.exit.code.toUInt32

end Conductor

/-- Reads the command line, does what it asks for and ends with its code. -/
def main (words : List String) : IO UInt32 := do
  match Conductor.CommandLine.read words with
  | .ok request => Conductor.serveRequest request
  | .error .help =>
    Conductor.CommandLine.usage.forM fun line => IO.println ("usage: " ++ line)
    return 0
  | .error .version =>
    IO.println Conductor.CommandLine.versionText
    return 0
  | .error (.wrong program message) =>
    IO.eprintln s!"{program}: error: {message}"
    return Conductor.CommandLine.Exit.refused.code.toUInt32
