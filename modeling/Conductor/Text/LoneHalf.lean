/-!
# Lone halves of a pair

A text may name one half of a surrogate pair without the other. Such a half is no character: it
stands in a text as one of 2048 private characters kept for it, so that it is told apart from every
other character, shown by its number and refused where a proper text is asked for. Main statement:
every half is found again behind its character.
-/

namespace Conductor.Text.LoneHalf

/-- The first of the 2048 halves. -/
def firstUnit : Nat := 0xD800

/-- The character that stands for the first half. -/
def firstStandIn : Nat := 0x10F000

/-- How many halves there are. -/
def count : Nat := 2048

/-- Whether a code unit is a half of a pair. -/
def isUnit (unit : Nat) : Bool := firstUnit ≤ unit && unit < firstUnit + count

/-- The character that stands for a half. -/
def standIn (unit : Nat) : Char := Char.ofNat (firstStandIn + (unit - firstUnit))

/-- The half that a character stands for. -/
def unit? (c : Char) : Option Nat :=
  if firstStandIn ≤ c.toNat && c.toNat < firstStandIn + count then
    some (firstUnit + (c.toNat - firstStandIn))
  else none

/-- Whether a text holds a half. -/
def occursIn (s : String) : Bool := s.toList.any fun c => (unit? c).isSome

/-- The text with three replacement characters, one a byte, for each half. -/
def replaced (s : String) : String :=
  String.ofList (s.toList.flatMap fun c =>
    if (unit? c).isSome then List.replicate 3 (Char.ofNat 0xFFFD) else [c])

theorem isUnit_iff {unit : Nat} : isUnit unit = true ↔ 0xD800 ≤ unit ∧ unit < 0xE000 := by
  simp only [isUnit, Bool.and_eq_true, decide_eq_true_eq]
  exact Iff.rfl

theorem toNat_standIn {unit : Nat} (h : isUnit unit = true) :
    (standIn unit).toNat = firstStandIn + (unit - firstUnit) := by
  obtain ⟨hl, hu⟩ := isUnit_iff.mp h
  have hv : (firstStandIn + (unit - firstUnit)).isValidChar := by
    unfold firstStandIn firstUnit Nat.isValidChar
    omega
  rw [standIn, Char.ofNat, dif_pos hv]
  unfold Char.ofNatAux Char.toNat
  simp only [UInt32.toNat_ofBitVec, BitVec.toNat_ofNatLT]

/-- Every half is found again behind its character. -/
theorem unit?_standIn {unit : Nat} (h : isUnit unit = true) : unit? (standIn unit) = some unit := by
  obtain ⟨hl, hu⟩ := isUnit_iff.mp h
  have hc : firstStandIn ≤ (standIn unit).toNat
      ∧ (standIn unit).toNat < firstStandIn + count := by
    rw [toNat_standIn h]
    unfold firstUnit count
    omega
  have hv : firstUnit + ((standIn unit).toNat - firstStandIn) = unit := by
    rw [toNat_standIn h]
    unfold firstUnit
    omega
  simp [unit?, hc, hv]

end Conductor.Text.LoneHalf
