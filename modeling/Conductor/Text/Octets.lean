import Conductor.Text.Utf8

/-!
# Octets

A text for programs that know bytes only: every character stands for the byte that is its code. A
text of any characters becomes such octets by its UTF-8 bytes. Main statement: bytes are read back
from their octets.
-/

namespace Conductor.Text.Octets

/-- The octets of bytes. -/
def ofBytes (bytes : List UInt8) : List Char := bytes.map fun b => Char.ofNat b.toNat

/-- The bytes of octets. -/
def toBytes (octets : List Char) : List UInt8 := octets.map fun c => c.toNat.toUInt8

/-- The octets of a text. -/
def ofChars (s : List Char) : List Char := ofBytes (Utf8.encode s)

/-- The octets of a string. -/
def ofText (s : String) : List Char := ofChars s.toList

/-- The string that octets write, with replacement characters for bytes that begin none. -/
def toText (octets : List Char) : String := String.ofList (Utf8.decodeLossy (toBytes octets))

/-- The character of a byte has the byte as its code. -/
theorem toNat_ofNat_byte (b : UInt8) : (Char.ofNat b.toNat).toNat = b.toNat := by
  have hb : b.toNat < 256 := b.toNat_lt
  have hv : b.toNat.isValidChar := Or.inl (by omega)
  rw [Char.ofNat, dif_pos hv]
  unfold Char.ofNatAux Char.toNat
  simp only [UInt32.toNat_ofBitVec, BitVec.toNat_ofNatLT]

/-- Bytes are read back from their octets. -/
theorem toBytes_ofBytes (bytes : List UInt8) : toBytes (ofBytes bytes) = bytes := by
  induction bytes with
  | nil => rfl
  | cons b bs ih =>
    simp only [toBytes, ofBytes, List.map_cons, List.map_map] at ih ⊢
    rw [ih, toNat_ofNat_byte]
    simp

end Conductor.Text.Octets
