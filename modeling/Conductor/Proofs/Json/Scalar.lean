import Conductor.Json.Printer
import Conductor.Json.Reader

/-!
# Printed texts and integers are read back

A printed text is read up to its closing quote (`readText_textChars`), whatever follows, unless the
text holds half of a pair alone.  A printed integer is read up to the first character that belongs
to no number (`readNumber_toDigits`), unless it has too many digits.
-/

namespace Conductor.Json

open Text Number

/-! ### Texts -/

theorem hexValue?_digitChar : ∀ d < 16, hexValue? (Nat.digitChar d) = some d := by decide

/-- Four printed digits are read as their number. -/
theorem hexQuad?_hexDigits {n : Nat} (h : n < 65536) (rest : List Char) :
    hexQuad? (hexDigits 4 n ++ rest) = some (n, rest) := by
  have hd : hexDigits 4 n = [Nat.digitChar (n / 16 / 16 / 16 % 16),
      Nat.digitChar (n / 16 / 16 % 16), Nat.digitChar (n / 16 % 16), Nat.digitChar (n % 16)] := rfl
  have hv : ∀ m, hexValue? (Nat.digitChar (m % 16)) = some (m % 16) :=
    fun m => hexValue?_digitChar _ (Nat.mod_lt _ (by decide))
  rw [hd]
  show (do
    let a ← hexValue? (Nat.digitChar (n / 16 / 16 / 16 % 16))
    let b ← hexValue? (Nat.digitChar (n / 16 / 16 % 16))
    let c ← hexValue? (Nat.digitChar (n / 16 % 16))
    let d ← hexValue? (Nat.digitChar (n % 16))
    some (4096 * a + 256 * b + 16 * c + d, rest)) = some (n, rest)
  rw [hv, hv, hv, hv]
  show some (_, rest) = some (n, rest)
  congr 2
  omega

/-- A character that is written by its number is read as the character of the number. -/
theorem readText_number {cs rest : List Char} {unit : Nat} (h : hexQuad? cs = some (unit, rest))
    (fuel : Nat) : readText (fuel + 1) ('\\' :: 'u' :: cs) = (do
      let (c, rest) := joinUnits unit rest
      let (cs, rest) ← readText fuel rest
      .ok (c :: cs, rest)) := by
  rw [readText, h]

/-- A character that is no half of a pair is read back from its printed form. -/
theorem readText_textChar {c : Char} (hc : LoneHalf.unit? c = none) (fuel : Nat)
    (s : List Char) :
    readText (fuel + 1) (textChar c ++ s) = (do
      let (cs, rest) ← readText fuel s
      .ok (c :: cs, rest)) := by
  unfold textChar
  split
  · rfl
  · rfl
  · rfl
  · rfl
  · rfl
  · rfl
  · rfl
  · next h₁ h₂ h₃ h₄ h₅ h₆ h₇ =>
    split
    · next hlt =>
      -- A control character is written by its number, which is no half of a pair.
      have hjoin : joinUnits c.toNat s = (c, s) := by
        unfold joinUnits
        rw [if_neg (by simp; omega), if_neg, Char.ofNat_toNat]
        rw [LoneHalf.isUnit_iff]
        omega
      show readText (fuel + 1) ('\\' :: 'u' :: (hexDigits 4 c.toNat ++ s)) = _
      rw [readText_number (hexQuad?_hexDigits (by omega) s)]
      dsimp only
      rw [hjoin]
    · next hge =>
      rw [hc]
      show readText (fuel + 1) (c :: s) = _
      rw [readText]
      · have hplain : ¬ (c.toNat < 0x20 || decide (c = '\\')) = true := by
          rw [Bool.or_eq_true, decide_eq_true_eq, decide_eq_true_eq]
          rintro (h | h)
          · exact hge h
          · exact h₂ h
        rw [if_neg hplain]
      · exact h₁
      · exact fun _ h _ => h₂ h
      · exact fun _ _ h _ => h₂ h

/-- A text is read up to its closing quote. -/
theorem readText_flatMap {cs : List Char} (hcs : ∀ c ∈ cs, LoneHalf.unit? c = none) {fuel : Nat}
    (hf : cs.length < fuel) (rest : List Char) :
    readText fuel (cs.flatMap textChar ++ '"' :: rest) = .ok (cs, rest) := by
  induction cs generalizing fuel with
  | nil =>
    obtain ⟨fuel, rfl⟩ := Nat.exists_eq_add_one.mpr hf
    rfl
  | cons c cs ih =>
    obtain ⟨fuel, rfl⟩ := Nat.exists_eq_add_one.mpr (Nat.zero_lt_of_lt hf)
    rw [List.flatMap_cons, List.append_assoc, readText_textChar (hcs c (List.mem_cons_self ..)),
      ih (fun x hx => hcs x (List.mem_cons_of_mem _ hx)) (Nat.lt_of_succ_lt_succ hf)]
    rfl

theorem length_le_flatMap_textChar (cs : List Char) : cs.length ≤ (cs.flatMap textChar).length := by
  induction cs with
  | nil => exact Nat.le_refl _
  | cons c cs ih =>
    have hpos : 1 ≤ (textChar c).length := by
      unfold textChar
      split
      case h_8 =>
        split
        · exact Nat.le_add_left 1 _
        · split <;> exact Nat.le_add_left 1 _
      all_goals exact Nat.le_add_left 1 _
    rw [List.flatMap_cons, List.length_append, List.length_cons]
    omega

/-- The part of a printed text behind its opening quote. -/
theorem readText_textChars {s : String} (hs : LoneHalf.occursIn s = false) {rest tail : List Char}
    (ht : textChars s ++ rest = '"' :: tail) :
    readText (tail.length + 1) tail = .ok (s.toList, rest) := by
  have htail : tail = s.toList.flatMap textChar ++ '"' :: rest := by
    have := (List.cons.inj ht).2
    rw [← this]
    exact List.append_assoc ..
  have hcs : ∀ c ∈ s.toList, LoneHalf.unit? c = none := by
    intro c hc
    unfold LoneHalf.occursIn at hs
    rw [List.any_eq_false] at hs
    exact Option.not_isSome_iff_eq_none.mp (hs c hc)
  rw [htail]
  refine readText_flatMap hcs ?_ rest
  have := length_le_flatMap_textChar s.toList
  rw [List.length_append, List.length_cons]
  omega

/-! ### Integers -/

/-- The text begins with nothing that would go on with a number. -/
def EndsNumber (s : List Char) : Prop :=
  ∀ c ∈ s.head?, isDigit c = false ∧ c ≠ '.' ∧ c ≠ 'e' ∧ c ≠ 'E'

theorem endsNumber_comma (s : List Char) : EndsNumber (',' :: s) := by
  intro c hc
  cases hc
  decide

theorem endsNumber_newLine (level : Nat) (s : List Char) : EndsNumber (newLine level ++ s) := by
  intro c hc
  cases hc
  decide

theorem isDigit_of_mem_toDigits {n : Nat} {c : Char} (h : c ∈ Nat.toDigits 10 n) :
    isDigit c = true := by
  have hc : c.isDigit = true := Nat.isDigit_of_mem_toDigits (by decide) (by decide) h
  have hb : '0' ≤ c ∧ c ≤ '9' := by
    have := Char.isDigit_iff_toNat.mp hc
    exact this
  simp [isDigit, hb.1, hb.2]

theorem digitsValue_toDigits (n : Nat) : digitsValue (Nat.toDigits 10 n) = n := by
  have h := Nat.ofDigitChars_ten_toDigits (n := n)
  rwa [Nat.ofDigitChars_eq_foldl] at h

theorem takeWhile_digits {ds rest : List Char} (hd : ∀ c ∈ ds, isDigit c = true)
    (hr : EndsNumber rest) :
    (ds ++ rest).takeWhile isDigit = ds ∧ (ds ++ rest).dropWhile isDigit = rest := by
  have hstop : rest.takeWhile isDigit = [] ∧ rest.dropWhile isDigit = rest := by
    cases rest with
    | nil => exact ⟨rfl, rfl⟩
    | cons c rest =>
      have hc : isDigit c = false := (hr c rfl).1
      simp [hc]
  constructor
  · rw [List.takeWhile_append_of_pos hd, hstop.1, List.append_nil]
  · rw [List.dropWhile_append_of_pos hd, hstop.2]

theorem readFraction_of_endsNumber {s : List Char} (hs : EndsNumber s) :
    readFraction s = ([], s) := by
  unfold readFraction
  split
  · exact absurd rfl (hs '.' rfl).2.1
  · rfl

theorem readExponent_of_endsNumber {s : List Char} (hs : EndsNumber s) :
    readExponent s = (none, s) := by
  unfold readExponent
  cases s with
  | nil => rfl
  | cons c s =>
    obtain ⟨-, -, he, hE⟩ := hs c rfl
    dsimp only
    rw [if_neg (by simp [he, hE])]

/-- Only zero is printed with a zero in front. -/
theorem toDigits_eq_cons_zero {n : Nat} {cs : List Char} (h : Nat.toDigits 10 n = '0' :: cs) :
    n = 0 := by
  induction n using Nat.strongRecOn generalizing cs with
  | ind n ih =>
    rw [Nat.toDigits_eq_if (by decide)] at h
    split at h
    · next hlt =>
      have hd : ∀ d < 10, Nat.digitChar d = '0' → d = 0 := by decide
      exact hd n hlt (List.cons.inj h).1
    · next hge =>
      -- The digits in front are those of a smaller number that is not zero.
      obtain ⟨d, ds, hds⟩ :=
        List.exists_cons_of_ne_nil (Nat.toDigits_ne_nil (n := n / 10) (b := 10))
      rw [hds] at h
      obtain ⟨rfl, -⟩ := List.cons.inj h
      have := ih (n / 10) (by omega) hds
      omega

/-- A printed number without too many digits is read back, with the sign that stood before it. -/
theorem readNumber_toDigits (negative : Bool) {n : Nat}
    (hn : (Nat.toDigits 10 n).length ≤ maxDigits) {rest : List Char} (hr : EndsNumber rest) :
    readNumber negative (Nat.toDigits 10 n ++ rest) =
      .ok (.int (if negative then -(n : Int) else n), rest) := by
  obtain ⟨c, cs, hds⟩ := List.exists_cons_of_ne_nil (Nat.toDigits_ne_nil (n := n) (b := 10))
  have hdigits : ∀ x ∈ Nat.toDigits 10 n, isDigit x = true := fun x hx => isDigit_of_mem_toDigits hx
  have hwhole : (if c = '0' then (['0'], cs ++ rest)
      else ((c :: (cs ++ rest)).takeWhile isDigit, (c :: (cs ++ rest)).dropWhile isDigit))
      = (Nat.toDigits 10 n, rest) := by
    split
    · next hzero =>
      subst hzero
      have hn := toDigits_eq_cons_zero hds
      subst hn
      obtain ⟨-, rfl⟩ := List.cons.inj hds
      rfl
    · obtain ⟨htake, hdrop⟩ := takeWhile_digits hdigits hr
      rw [← List.cons_append, ← hds, htake, hdrop]
  have hc : isDigit c = true := hdigits c (by simp [hds])
  conv => lhs; rw [hds]
  rw [List.cons_append, readNumber, hc, if_neg (by decide), hwhole]
  dsimp only
  rw [readFraction_of_endsNumber hr]
  dsimp only
  rw [readExponent_of_endsNumber hr]
  dsimp only
  rw [if_pos (by rfl), if_neg (Nat.not_lt_of_le hn), digitsValue_toDigits]

end Conductor.Json
