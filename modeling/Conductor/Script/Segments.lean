import Conductor.Script.Plan

/-!
# Segments of a script

A script is cut into stages at every `&&` and into the segments of a stage at every other `&`,
except inside quotes and option brackets. Each segment keeps its offset, so that faults inside it
can be placed.
-/

namespace Conductor.Script

/-- A quote character. -/
def isQuote (c : Char) : Bool := c == '\'' || c == '"'

/-- What is open at a place of the script: a quote with its offset, an option list with its. -/
structure Scan where
  quote : Option (Char × Nat) := none
  bracket : Option Nat := none
  deriving DecidableEq, Repr, Inhabited

namespace Scan

/-- Whether an operator counts here. -/
def isOpen (s : Scan) : Bool := s.quote.isNone && s.bracket.isNone

/-- What is open after the character `c` at an offset. -/
def next (s : Scan) (offset : Nat) (c : Char) : Scan :=
  match s.quote with
  | some (q, _) => if c = q then { s with quote := none } else s
  | none =>
    if isQuote c then { s with quote := some (c, offset) }
    else if c = '[' then { s with bracket := some offset }
    else if c = ']' then { s with bracket := none }
    else s

end Scan

/-- A piece of the script and its offset. -/
structure Segment where
  offset : Nat
  text : List Char
  deriving DecidableEq, Repr, Inhabited

/-- Puts a character at the front of the first segment, which starts at `offset`. -/
def pushFront (offset : Nat) (c : Char) : List (List Segment) → List (List Segment)
  | (s :: ss) :: rest => (⟨offset, c :: s.text⟩ :: ss) :: rest
  | [] :: rest => [⟨offset, [c]⟩] :: rest
  | [] => [[⟨offset, [c]⟩]]

/-- Starts a new segment of the first stage. -/
def newSegment (offset : Nat) : List (List Segment) → List (List Segment)
  | stage :: rest => (⟨offset, []⟩ :: stage) :: rest
  | [] => [[⟨offset, []⟩]]

/-- Cuts the rest of a script at `offset` into stages of segments, given what is open there. -/
def split (scan : Scan) (offset : Nat) : List Char → Except SyntaxError (List (List Segment))
  | [] =>
    match scan.quote with
    | some (_, at_) => .error ⟨.unterminatedQuote, some at_⟩
    | none =>
      match scan.bracket with
      | some at_ => .error ⟨.unterminatedOptions, some at_⟩
      | none => .ok [[⟨offset, []⟩]]
  | '&' :: '&' :: cs =>
    if scan.isOpen then do
      let stages ← split scan (offset + 2) cs
      .ok ([⟨offset, []⟩] :: stages)
    else do
      -- inside a quote or an option list both are plain characters
      let stages ← split scan (offset + 2) cs
      .ok (pushFront offset '&' (pushFront (offset + 1) '&' stages))
  | c :: cs =>
    if c = '&' && scan.isOpen then do
      let stages ← split scan (offset + 1) cs
      .ok (newSegment offset stages)
    else do
      let stages ← split (scan.next offset c) (offset + 1) cs
      .ok (pushFront offset c stages)

/-- The stages of a script and their segments. -/
def segments (s : List Char) : Except SyntaxError (List (List Segment)) := split {} 0 s

end Conductor.Script
