import Conductor.Json.Members
import Conductor.Run.Engine
import Conductor.State.SignalFile

/-!
# Rehearsals

A rehearsal is an engine whose answers were prepared. Each call to an agent takes the next response
of the agent's list, and the last one repeats. A response may write files, leave a signal, cancel
the run or fail, and only then does it answer. Main statement: once a list has ended, its last
response stays.
-/

namespace Conductor

open Json

/-- A prepared answer. -/
structure Response where
  cancels : Bool := false
  /-- Files to write; a directory has no content. -/
  files : List (Path × Option (List UInt8)) := []
  /-- The text of the signal file, and the time it is written at. -/
  behavior : Option (String × Option Int) := none
  signal : Option (Except SignalError Signal) := none
  failure : Option Fault := none
  text : Option String := none
  chunks : Option (List String) := none
  errorChunks : List String := []

namespace Store

/-- Writes a file or makes a directory; what cannot be written is left out. -/
def place (s : Store) (base : Path) (file : Path × Option (List UInt8)) : Store :=
  match file.2 with
  | none => (s.ensureDirectory base file.1).toOption.getD s
  | some bytes =>
    match s.ensureDirectory base file.1.parent with
    | .error _ => s
    | .ok s => (s.writeBytes base file.1 bytes).toOption.getD s

/-- Writes a file with the time it was written at. -/
def placeAt (s : Store) (base path : Path) (bytes : List UInt8) (modified : Int) : Store :=
  match s.ensureDirectory base path.parent with
  | .error _ => s
  | .ok s =>
    match s.writeBytes base path bytes, s.locate base path with
    | .ok t, .ok place => t.putNode place (.file bytes modified)
    | .ok t, _ => t
    | .error _, _ => s

end Store

/-- Prepared answers: by agent, with the number of calls that were made before them and of signal
files that were written before them. -/
structure Rehearsal where
  responses : List (String × List Response)
  stateDir : Path
  signals : SignalWay
  firstCall : Nat := 0
  firstWrite : Nat := 0
  maxCalls : Nat := 100

namespace Rehearsal

/-- The response at a position of a list, the last one where the list has ended. -/
def pick (rs : List Response) (n : Nat) : Response := (rs[n]?.or rs.getLast?).getD {}

/-- The response that a call to an agent takes after `n` earlier ones. -/
def responseFor (e : Rehearsal) (agentId : String) (n : Nat) : Response :=
  pick (((e.responses.find? (·.1 == agentId)).map (·.2)).getD []) n

/-- How many of some calls are to an agent. -/
def callsTo (agentId : String) (calls : List Invocation) : Nat :=
  calls.countP (·.agentId == agentId)

/-- How many of the responses that calls take write the signal file; `earlier` are the calls before
them. -/
def writes (e : Rehearsal) (earlier : List Invocation) : List Invocation → Nat
  | [] => 0
  | c :: cs =>
    (if (e.responseFor c.agentId (callsTo c.agentId earlier)).behavior.isSome then 1 else 0)
      + writes e (c :: earlier) cs

/-- The calls that a world has seen since the rehearsal began. -/
def callsIn (e : Rehearsal) (w : World) : List Invocation :=
  (w.calls.toList.take e.maxCalls).drop e.firstCall

/-- The time that the `n`th signal file is written at. -/
def writeTime (n : Nat) : Int := 1000 + n

/-- Answers a call; the world's calls end with it. One call more than allowed is refused. -/
def engine (e : Rehearsal) : Engine := fun w call =>
  if e.maxCalls < w.calls.size then
    { store := w.store, result := .error (.cancelled { message := "call limit" }) }
  else
    let earlier := (e.callsIn w).dropLast
    let r := e.responseFor call.agentId (callsTo call.agentId earlier)
    let store := r.files.foldl (·.place w.cwd ·) w.store
    let store := match r.behavior with
      | none => store
      | some (text, modified) =>
        store.placeAt w.cwd (signalFile e.stateDir call.workingDir) (Text.Utf8.encodeText text)
          (modified.getD (writeTime (e.firstWrite + e.writes [] earlier + 1)))
    let reply : Reply String := { store := store, cancels := r.cancels, result := .ok "" }
    match r.signal with
    | some (.error f) => { reply with result := .error (.foreign f.message) }
    | signal =>
      let published := match signal, e.signals with
        | some (.ok s), .mailbox => [(call.workingDir, s)]
        | _, _ => []
      match r.failure with
      | some f => { reply with published := published, result := .error f }
      | none =>
        let text := r.text.getD s!"{call.agentId} done"
        { reply with
          published := published
          chunks := ((r.chunks.getD [text]).map fun c => (Stream.output, c))
            ++ r.errorChunks.map fun c => (Stream.errors, c)
          result := .ok text }

/-- Once a list has ended, its last response stays. -/
theorem pick_of_length_le {rs : List Response} {n : Nat} (h : rs.length ≤ n) :
    pick rs n = rs.getLast?.getD {} := by
  simp [pick, List.getElem?_eq_none h]

end Rehearsal

end Conductor
