/-!
# UTF-8

Bytes as a sequence of pieces: a piece is a character or a run of bytes that begin none. A strict
reading fails at the first run that begins none; a lenient one puts a replacement character for it.
An incremental reading keeps back the bytes of a character that is not complete yet.
-/

namespace Conductor.Text.Utf8

/-- Why bytes begin no character. -/
inductive Cause where
  | start
  | continuation
  | truncated
  deriving DecidableEq, Repr

/-- A piece of a byte sequence. -/
inductive Piece where
  | char (c : Char)
  | bad (bytes : List UInt8) (cause : Cause)
  deriving Repr

/-- What a first byte announces: how many bytes follow, between which bounds the second one lies,
and the bits it contributes. -/
structure Lead where
  following : Nat
  low : UInt8
  high : UInt8
  bits : Nat

/-- What a byte beyond ASCII announces. -/
def lead? (b : UInt8) : Option Lead :=
  if b < 0xC2 then none
  else if b < 0xE0 then some ⟨1, 0x80, 0xBF, b.toNat - 0xC0⟩
  else if b = 0xE0 then some ⟨2, 0xA0, 0xBF, 0⟩
  else if b = 0xED then some ⟨2, 0x80, 0x9F, 0xD⟩
  else if b < 0xF0 then some ⟨2, 0x80, 0xBF, b.toNat - 0xE0⟩
  else if b = 0xF0 then some ⟨3, 0x90, 0xBF, 0⟩
  else if b < 0xF4 then some ⟨3, 0x80, 0xBF, b.toNat - 0xF0⟩
  else if b = 0xF4 then some ⟨3, 0x80, 0x8F, 4⟩
  else none

/-- Reads the bytes that follow a first byte; `taken` are the bytes of this piece so far, last one
first. -/
def follow (taken : List UInt8) (bits : Nat) (low high : UInt8) :
    (following : Nat) → List UInt8 → Piece × List UInt8
  | 0, rest => (.char (Char.ofNat bits), rest)
  | _ + 1, [] => (.bad taken.reverse .truncated, [])
  | n + 1, b :: rest =>
    if low ≤ b && b ≤ high then
      follow (b :: taken) (bits * 64 + (b.toNat - 0x80)) 0x80 0xBF n rest
    else (.bad taken.reverse .continuation, b :: rest)

/-- The first piece of a sequence that starts with `b`, and the rest. -/
def piece (b : UInt8) (rest : List UInt8) : Piece × List UInt8 :=
  if b < 0x80 then (.char (Char.ofNat b.toNat), rest)
  else match lead? b with
    | none => (.bad [b] .start, rest)
    | some l => follow [b] l.bits l.low l.high l.following rest

theorem length_follow (taken : List UInt8) (bits : Nat) (low high : UInt8) (n : Nat)
    (rest : List UInt8) : (follow taken bits low high n rest).2.length ≤ rest.length := by
  induction n generalizing taken bits low high rest with
  | zero => simp [follow]
  | succ n ih =>
    cases rest with
    | nil => simp [follow]
    | cons b rest =>
      rw [follow]
      split
      · exact Nat.le_succ_of_le (ih ..)
      · simp

theorem length_piece (b : UInt8) (rest : List UInt8) : (piece b rest).2.length ≤ rest.length := by
  unfold piece
  split
  · simp
  · split
    · simp
    · exact length_follow ..

/-- All pieces of a sequence. -/
def pieces : List UInt8 → List Piece
  | [] => []
  | b :: rest => (piece b rest).1 :: pieces (piece b rest).2
termination_by s => s.length
decreasing_by
  have := length_piece b rest
  simp only [List.length_cons]
  omega

/-- The bytes of a character. -/
def encodeChar (c : Char) : List UInt8 := String.utf8EncodeChar c

/-- The bytes of a text. -/
def encode (s : List Char) : List UInt8 := s.flatMap encodeChar

/-- `encode` on strings. -/
def encodeText (s : String) : List UInt8 := encode s.toList

/-- Where and why a sequence is no text: the bytes from `offset` on. -/
structure DecodeError where
  offset : Nat
  bytes : List UInt8
  cause : Cause
  deriving DecidableEq, Repr

/-- Two lower-case hexadecimal digits. -/
def byteHex (b : UInt8) : String :=
  String.ofList [Nat.digitChar (b.toNat / 16), Nat.digitChar (b.toNat % 16)]

/-- What is wrong with the bytes. -/
def DecodeError.message (e : DecodeError) : String :=
  let reason := match e.cause with
    | .start => "invalid start byte"
    | .continuation => "invalid continuation byte"
    | .truncated => "unexpected end of data"
  let place := match e.bytes with
    | [b] => s!"byte 0x{byteHex b} in position {e.offset}"
    | bs => s!"bytes in position {e.offset}-{e.offset + bs.length - 1}"
  s!"'utf-8' codec can't decode {place}: {reason}"

/-- The text of pieces that start at `offset`, or the first run that begins no character. -/
def strict (offset : Nat) : List Piece → Except DecodeError (List Char)
  | [] => .ok []
  | .bad bytes cause :: _ => .error ⟨offset, bytes, cause⟩
  | .char c :: ps => do
    let cs ← strict (offset + (encodeChar c).length) ps
    .ok (c :: cs)

/-- The text of a sequence. -/
def decode (s : List UInt8) : Except DecodeError (List Char) := strict 0 (pieces s)

/-- The character that stands for a piece, the replacement character for bytes that begin none. -/
def Piece.shown : Piece → Char
  | char c => c
  | bad .. => Char.ofNat 0xFFFD

/-- The text of a sequence with replacement characters. -/
def decodeLossy (s : List UInt8) : List Char := (pieces s).map Piece.shown

/-! ### Reading in portions -/

/-- Splits off the bytes at the end that begin a character but do not complete it. -/
def splitIncomplete : List UInt8 → List Piece × List UInt8
  | s =>
    let ps := pieces s
    match ps.getLast? with
    | some (.bad bytes .truncated) => (ps.dropLast, bytes)
    | _ => (ps, [])

/-- Reads one more portion after the bytes kept back: the text to pass on and the bytes to keep. -/
def feed (kept portion : List UInt8) : List Char × List UInt8 :=
  let (ps, kept) := splitIncomplete (kept ++ portion)
  (ps.map Piece.shown, kept)

/-- Reads portions one after the other and the bytes kept back at the end: the texts passed on. -/
def feedAll (kept : List UInt8) : List (List UInt8) → List (List Char)
  | [] => [decodeLossy kept]
  | p :: ps => (feed kept p).1 :: feedAll (feed kept p).2 ps

end Conductor.Text.Utf8
