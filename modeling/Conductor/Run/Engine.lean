import Conductor.Prompt

/-!
# Engines

An engine answers agent calls. It is a function of the world and the call: its reply tells what it
did to the files, whether it cancelled the run, which signals it published, what it streamed and how
it ended. Main statement: taking a reply in adds nothing to the calls made.
-/

namespace Conductor

/-- The two streams of an agent's output. -/
inductive Stream where
  | output
  | errors
  deriving DecidableEq, Repr, Inhabited

/-- The word for a stream. -/
def Stream.word : Stream → String
  | output => "stdout"
  | errors => "stderr"

/-- What an engine did in an agent call, and what came of it. -/
structure Reply (α : Type) where
  store : Store
  cancels : Bool := false
  published : List (Path × Signal) := []
  records : List Record := []
  chunks : List (Stream × String) := []
  result : Except Fault α

/-- The same reply with another result. -/
def Reply.map {α β : Type} (f : α → β) (r : Reply α) : Reply β :=
  { r with result := r.result.map f }

/-- Answers agent calls. -/
abbrev Engine := World → Invocation → Reply String

/-- The record of a chunk that an agent streamed under an identity; line feeds at its end are not
shown, and nothing is noted where nothing else is there. -/
def chunkRecord? (identity : String) (chunk : Stream × String) : Option Record :=
  let text := String.ofList (Prompt.dropFinalLineFeeds chunk.2.toList)
  if text.isEmpty then none
  else some {
    level := if chunk.1 = .output then .info else .warning
    source := .agent identity
    message := text
    details := [("agent", .str identity), ("stream", .str chunk.1.word)] }

/-- The records of what an engine did under an identity. -/
def Reply.notes {α : Type} (r : Reply α) (identity : String) : List Record :=
  r.records ++ r.chunks.filterMap (chunkRecord? identity)

/-- The world after a reply. -/
def World.receive {α : Type} (w : World) (identity : String) (r : Reply α) : World :=
  { w with
    store := r.store
    cancelled := w.cancelled || r.cancels
    mailbox := r.published.foldl (fun b p => b.post p.1 p.2) w.mailbox
    log := (r.notes identity).foldl Array.push w.log }

theorem calls_receive {α : Type} (w : World) (identity : String) (r : Reply α) :
    (w.receive identity r).calls = w.calls := rfl

end Conductor
