import Conductor.Script.Segments
import Conductor.Text.Digit

/-!
# Reading scripts

A task is a name, options in brackets and an argument, the last two optional. The argument stands
between quotes or is the rest of the segment as it is. Options are keys with values between commas;
a later one of a key replaces an earlier one, save that a prompt only counts while there is no
argument.
-/

namespace Conductor.Script

open Text

/-- A character that a task name may hold. -/
def isNameChar (c : Char) : Bool :=
  !isBlank c && !isQuote c && c != '[' && c != ']' && c != '&'

/-- The three parts of a task: its name, its options and what follows after blanks. -/
structure Parts where
  name : List Char
  options : List Char
  rest : Option (List Char)
  deriving DecidableEq, Repr

/-- What follows a name or an option list: nothing, or a blank and a rest without leading blanks. -/
def restParts? : List Char → Option (Option (List Char))
  | [] => some none
  | c :: cs => if isBlank c then some (some (trimStart cs)) else none

/-- The parts of a trimmed task. -/
def parts? (s : List Char) : Option Parts :=
  let name := s.takeWhile isNameChar
  if name.isEmpty then none
  else match s.dropWhile isNameChar with
    | '[' :: cs =>
      match cs.dropWhile (· ≠ ']') with
      | _ :: after => (restParts? after).map fun rest => ⟨name, cs.takeWhile (· ≠ ']'), rest⟩
      | [] => none
    | after => (restParts? after).map fun rest => ⟨name, [], rest⟩

/-- The argument that a rest writes: the text between quotes, or the rest itself. -/
def argument? (rest : List Char) : Except SyntaxFault (List Char) :=
  let rest := trim rest
  match rest with
  | [] => .ok []
  | q :: cs =>
    if !isQuote q then .ok rest
    else match cs.dropWhile (· ≠ q) with
      | [_] => .ok (cs.takeWhile (· ≠ q))
      | _ => .error .textAfterArgument

/-- The trimmed text, without quotes around it. -/
def unquote (s : List Char) : List Char :=
  match trim s with
  | q :: cs => if isQuote q && cs.getLast? == some q then cs.dropLast else q :: cs
  | [] => []

/-- Puts a character at the front of the first piece. -/
def pushChar (c : Char) : List (List Char) → List (List Char)
  | p :: ps => (c :: p) :: ps
  | [] => [[c]]

/-- Cuts options at the commas outside quotes. -/
def splitOptions (quote : Option Char) : List Char → List (List Char)
  | [] => [[]]
  | c :: cs =>
    match quote with
    | some q => pushChar c (splitOptions (if c = q then none else quote) cs)
    | none =>
      if isQuote c then pushChar c (splitOptions (some c) cs)
      else if c = ',' then [] :: splitOptions none cs
      else pushChar c (splitOptions none cs)

/-- The key and the value of an option. -/
def keyValue? (part : List Char) : Except SyntaxFault (List Char × List Char) :=
  match part.dropWhile (· ≠ ':') with
  | _ :: value =>
    let key := trim (part.takeWhile (· ≠ ':'))
    if key.isEmpty then .error (.invalidOption (String.ofList part)) else .ok (key, unquote value)
  | [] => .error (.invalidOption (String.ofList part))

/-- The keys and values of options; blank pieces are passed over. -/
def options? (s : List Char) : Except SyntaxFault (List (List Char × List Char)) :=
  (((splitOptions none s).map trim).filter (!·.isEmpty)).mapM keyValue?

/-- The paths between semicolons, trimmed, without the blank ones. -/
def inputPaths (value : List Char) : List String :=
  (((splitBy (· == ';') value).map trim).filter (!·.isEmpty)).map String.ofList

/-- Adds one option to a task. -/
def applyOption (t : Task) (option : List Char × List Char) : Except SyntaxFault Task :=
  let (key, value) := option
  if key = "input".toList then .ok { t with inputFiles := inputPaths value }
  else if key = "tail".toList then
    match readInteger? value with
    | some n => .ok { t with tail := if 0 < n then some n.toNat else none }
    | none => .error (.invalidTail (String.ofList value))
  else if key = "prompt".toList then
    .ok { t with argument := if t.argument.isEmpty then String.ofList value else t.argument }
  else .error (.unknownOption (String.ofList key))

/-- The task that a trimmed text writes. -/
def taskOf (s : List Char) : Except SyntaxFault Task :=
  match s with
  | [] => .error .emptyTask
  | c :: _ =>
    if isQuote c then .error .missingName
    else match parts? s with
      | none => .error (.invalidTask (String.ofList s))
      | some p => do
        let argument ← argument? (p.rest.getD [])
        let options ← options? p.options
        options.foldlM applyOption ⟨String.ofList p.name, String.ofList argument, [], none⟩

/-- The task of a segment; a fault is reported at the segment's first character that is not blank,
or at its start where it is blank. -/
def Segment.task (s : Segment) : Except SyntaxError Task :=
  let blanks := if allBlank s.text then 0 else s.text.length - (trimStart s.text).length
  match taskOf (trim s.text) with
  | .ok t => .ok t
  | .error fault => .error ⟨fault, some (s.offset + blanks)⟩

/-- The tasks of a stage. -/
def stageOf (segments : List Segment) : Except SyntaxError Stage :=
  match segments with
  | [s] => if allBlank s.text then .error ⟨.emptyStage, some s.offset⟩ else return [← s.task]
  | _ => segments.mapM Segment.task

/-- The plan that a text writes. -/
def readChars (s : List Char) : Except SyntaxError Plan := do
  if allBlank s then .error ⟨.emptyScript, none⟩
  else
    let stages ← segments s
    stages.mapM stageOf

/-- `readChars` on strings. -/
def read (s : String) : Except SyntaxError Plan := readChars s.toList

end Conductor.Script
