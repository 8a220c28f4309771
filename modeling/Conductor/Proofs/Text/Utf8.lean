import Conductor.Text.Utf8

/-!
# Encoded texts are read back

Main statement: decoding the bytes of a text yields the text (`decode_encode`).  A character takes
one to four bytes; in each case the first one announces how many follow and between which bounds the
second one lies, and the bits of all put the character together again.

Bytes that are read in portions yield the text that they yield as a whole (`flatten_feedAll`): a
piece stays as it is whatever follows it, unless it is cut off by the end of the bytes, and then it
is kept back (`pieces_append`).
-/

namespace Conductor.Text.Utf8

/-- A byte within the bounds adds its six bits. -/
theorem follow_byte (taken : List UInt8) (bits following : Nat) {low high : UInt8} {n : Nat}
    (rest : List UInt8) (hn : n < 256) (hl : low.toNat ≤ n) (hh : n ≤ high.toNat) :
    follow taken bits low high (following + 1) (UInt8.ofNat n :: rest) =
      follow (UInt8.ofNat n :: taken) (bits * 64 + (n - 0x80)) 0x80 0xBF following rest := by
  have hlow : low ≤ UInt8.ofNat n := by
    rw [UInt8.le_iff_toNat_le, UInt8.toNat_ofNat_of_lt' hn]
    exact hl
  have hhigh : UInt8.ofNat n ≤ high := by
    rw [UInt8.le_iff_toNat_le, UInt8.toNat_ofNat_of_lt' hn]
    exact hh
  rw [follow, if_pos (by simp [hlow, hhigh]), UInt8.toNat_ofNat_of_lt' hn]

/-- The bytes after the second one have the widest bounds. -/
theorem follow_tail (taken : List UInt8) (bits following : Nat) {n : Nat} (rest : List UInt8)
    (hn : n < 64) :
    follow taken bits 0x80 0xBF (following + 1) (UInt8.ofNat (n + 0x80) :: rest) =
      follow (UInt8.ofNat (n + 0x80) :: taken) (bits * 64 + n) 0x80 0xBF following rest := by
  have hl : (0x80 : UInt8).toNat ≤ n + 0x80 := Nat.le_add_left _ _
  have hh : n + 0x80 ≤ (0xBF : UInt8).toNat := by
    show n + 0x80 ≤ 0xBF
    omega
  rw [follow_byte taken bits following rest (by omega) hl hh, Nat.add_sub_cancel]

/-! ### First bytes -/

section

variable {n : Nat}

theorem lt_ofNat_iff {k : UInt8} (hn : n < 256) : UInt8.ofNat n < k ↔ n < k.toNat := by
  rw [UInt8.lt_iff_toNat_lt, UInt8.toNat_ofNat_of_lt' hn]

theorem ofNat_eq_iff {k : UInt8} (hn : n < 256) : UInt8.ofNat n = k ↔ n = k.toNat := by
  rw [← UInt8.toNat_inj, UInt8.toNat_ofNat_of_lt' hn]

theorem piece_one (rest : List UInt8) (hn : n < 0x80) :
    piece (UInt8.ofNat n) rest = (.char (Char.ofNat n), rest) := by
  have hb : n < 256 := by omega
  have h : UInt8.ofNat n < 0x80 := (lt_ofNat_iff hb).mpr hn
  rw [piece, if_pos h, UInt8.toNat_ofNat_of_lt' hb]

theorem piece_of_lead {l : Lead} (rest : List UInt8) (hn : 0x80 ≤ n) (hb : n < 256)
    (hl : lead? (UInt8.ofNat n) = some l) :
    piece (UInt8.ofNat n) rest =
      follow [UInt8.ofNat n] l.bits l.low l.high l.following rest := by
  have h : ¬ UInt8.ofNat n < 0x80 := by
    rw [lt_ofNat_iff hb]
    exact Nat.not_lt_of_le hn
  rw [piece, if_neg h, hl]

theorem lead?_two (hl : 0xC2 ≤ n) (hh : n < 0xE0) :
    lead? (UInt8.ofNat n) = some ⟨1, 0x80, 0xBF, n - 0xC0⟩ := by
  have hn : n < 256 := by omega
  rw [lead?, if_neg (by rw [lt_ofNat_iff hn]; exact Nat.not_lt_of_le hl),
    if_pos (by rw [lt_ofNat_iff hn]; exact hh), UInt8.toNat_ofNat_of_lt' hn]

theorem lead?_three (hl : 0xE0 ≤ n) (hh : n < 0xF0) :
    ∃ low high, lead? (UInt8.ofNat n) = some ⟨2, low, high, n - 0xE0⟩ ∧
      low.toNat = (if n = 0xE0 then 0xA0 else 0x80) ∧
      high.toNat = (if n = 0xED then 0x9F else 0xBF) := by
  have hn : n < 256 := by omega
  rw [lead?, if_neg (by rw [lt_ofNat_iff hn]; show ¬ n < 0xC2; omega),
    if_neg (by rw [lt_ofNat_iff hn]; exact Nat.not_lt_of_le hl)]
  by_cases h₀ : n = 0xE0
  · subst h₀
    exact ⟨0xA0, 0xBF, rfl, rfl, rfl⟩
  · rw [if_neg (by rw [ofNat_eq_iff hn]; exact h₀)]
    -- The lead byte of the halves of a pair has a tighter upper bound.
    by_cases h₁ : n = 0xED
    · subst h₁
      exact ⟨0x80, 0x9F, rfl, rfl, rfl⟩
    · rw [if_neg (by rw [ofNat_eq_iff hn]; exact h₁),
        if_pos (by rw [lt_ofNat_iff hn]; exact hh), UInt8.toNat_ofNat_of_lt' hn, if_neg h₀,
        if_neg h₁]
      exact ⟨0x80, 0xBF, rfl, rfl, rfl⟩

theorem lead?_four (hl : 0xF0 ≤ n) (hh : n ≤ 0xF4) :
    ∃ low high, lead? (UInt8.ofNat n) = some ⟨3, low, high, n - 0xF0⟩ ∧
      low.toNat = (if n = 0xF0 then 0x90 else 0x80) ∧
      high.toNat = (if n = 0xF4 then 0x8F else 0xBF) := by
  obtain rfl | rfl | rfl | rfl | rfl : n = 0xF0 ∨ n = 0xF1 ∨ n = 0xF2 ∨ n = 0xF3 ∨ n = 0xF4 := by
    omega
  · exact ⟨0x90, 0xBF, rfl, rfl, rfl⟩
  · exact ⟨0x80, 0xBF, rfl, rfl, rfl⟩
  · exact ⟨0x80, 0xBF, rfl, rfl, rfl⟩
  · exact ⟨0x80, 0xBF, rfl, rfl, rfl⟩
  · exact ⟨0x80, 0x8F, rfl, rfl, rfl⟩

/-! ### Characters -/

theorem piece_two (rest : List UInt8) (hl : 0x80 ≤ n) (hh : n ≤ 0x7FF) :
    piece (UInt8.ofNat (n / 64 % 0x20 + 0xC0)) (UInt8.ofNat (n % 0x40 + 0x80) :: rest) =
      (.char (Char.ofNat n), rest) := by
  rw [piece_of_lead _ (by omega) (by omega) (lead?_two (by omega) (by omega))]
  dsimp only
  have hbits : (n / 64 % 0x20 + 0xC0 - 0xC0) * 64 + n % 0x40 = n := by omega
  rw [follow_tail _ _ 0 _ (by omega), follow, hbits]

theorem piece_three (rest : List UInt8) (hl : 0x800 ≤ n) (hh : n ≤ 0xFFFF)
    (hs : n < 0xD800 ∨ 0xDFFF < n) :
    piece (UInt8.ofNat (n / 4096 % 0x10 + 0xE0))
      (UInt8.ofNat (n / 64 % 0x40 + 0x80) :: UInt8.ofNat (n % 0x40 + 0x80) :: rest) =
      (.char (Char.ofNat n), rest) := by
  obtain ⟨low, high, hlead, hlow, hhigh⟩ :=
    lead?_three (n := n / 4096 % 0x10 + 0xE0) (by omega) (by omega)
  have hlow' : low.toNat ≤ n / 64 % 0x40 + 0x80 := by
    rw [hlow]
    split <;> omega
  have hhigh' : n / 64 % 0x40 + 0x80 ≤ high.toNat := by
    rw [hhigh]
    split <;> omega
  have hbits : ((n / 4096 % 0x10 + 0xE0 - 0xE0) * 64 + (n / 64 % 0x40 + 0x80 - 0x80)) * 64
      + n % 0x40 = n := by omega
  rw [piece_of_lead _ (by omega) (by omega) hlead]
  dsimp only
  rw [follow_byte _ _ 1 _ (by omega) hlow' hhigh', follow_tail _ _ 0 _ (by omega), follow, hbits]

theorem piece_four (rest : List UInt8) (hl : 0x10000 ≤ n) (hh : n < 0x110000) :
    piece (UInt8.ofNat (n / 262144 % 0x08 + 0xF0))
      (UInt8.ofNat (n / 4096 % 0x40 + 0x80) :: UInt8.ofNat (n / 64 % 0x40 + 0x80) ::
        UInt8.ofNat (n % 0x40 + 0x80) :: rest) =
      (.char (Char.ofNat n), rest) := by
  obtain ⟨low, high, hlead, hlow, hhigh⟩ :=
    lead?_four (n := n / 262144 % 0x08 + 0xF0) (by omega) (by omega)
  have hlow' : low.toNat ≤ n / 4096 % 0x40 + 0x80 := by
    rw [hlow]
    split <;> omega
  have hhigh' : n / 4096 % 0x40 + 0x80 ≤ high.toNat := by
    rw [hhigh]
    split <;> omega
  have hbits : (((n / 262144 % 0x08 + 0xF0 - 0xF0) * 64 + (n / 4096 % 0x40 + 0x80 - 0x80)) * 64
      + n / 64 % 0x40) * 64 + n % 0x40 = n := by omega
  rw [piece_of_lead _ (by omega) (by omega) hlead]
  dsimp only
  rw [follow_byte _ _ 2 _ (by omega) hlow' hhigh', follow_tail _ _ 1 _ (by omega),
    follow_tail _ _ 0 _ (by omega), follow, hbits]

end

/-- The bytes of a character are read as the character, whatever follows them. -/
theorem pieces_encodeChar (c : Char) (rest : List UInt8) :
    pieces (encodeChar c ++ rest) = .char c :: pieces rest := by
  have hc : Char.ofNat c.val.toNat = c := Char.ofNat_toNat c
  have hvalid : c.val.toNat < 0xD800 ∨ 0xDFFF < c.val.toNat ∧ c.val.toNat < 0x110000 := c.valid
  have hpiece : ∃ b tail, encodeChar c = b :: tail ∧ piece b (tail ++ rest) = (.char c, rest) := by
    unfold encodeChar String.utf8EncodeChar
    dsimp only
    generalize c.val.toNat = n at hc hvalid
    rw [← hc]
    -- One case for each length, in the order in which the encoder asks for it.
    split
    · exact ⟨_, _, rfl, piece_one rest (by omega)⟩
    · split
      · exact ⟨_, _, rfl, piece_two rest (by omega) (by omega)⟩
      · split
        · exact ⟨_, _, rfl, piece_three rest (by omega) (by omega) (by omega)⟩
        · exact ⟨_, _, rfl, piece_four rest (by omega) (by omega)⟩
  obtain ⟨b, tail, he, hp⟩ := hpiece
  rw [he, List.cons_append, pieces, hp]

/-! ### Texts -/

theorem pieces_encode (s : List Char) : pieces (encode s) = s.map Piece.char := by
  induction s with
  | nil => simp [encode, pieces]
  | cons c cs ih =>
    show pieces (encodeChar c ++ encode cs) = _
    rw [pieces_encodeChar, ih]
    rfl

theorem strict_map_char (offset : Nat) (s : List Char) :
    strict offset (s.map Piece.char) = .ok s := by
  induction s generalizing offset with
  | nil => rfl
  | cons c cs ih =>
    show (strict _ (cs.map Piece.char) >>= fun cs => .ok (c :: cs)) = _
    rw [ih]
    rfl

/-- The bytes of a text are decoded to the text. -/
theorem decode_encode (s : List Char) : decode (encode s) = .ok s := by
  unfold decode
  rw [pieces_encode, strict_map_char]

/-! ### Portions -/

/-- A piece that is cut off by the end of the bytes. -/
def Piece.IsCutOff : Piece → Prop
  | bad _ .truncated => True
  | _ => False

/-- What follows a byte is found whatever comes behind it, or it is cut off by the end. -/
theorem follow_append (taken : List UInt8) (bits : Nat) (low high : UInt8) (n : Nat)
    (rest : List UInt8) :
    (¬(follow taken bits low high n rest).1.IsCutOff ∧ ∀ more,
      follow taken bits low high n (rest ++ more) =
        ((follow taken bits low high n rest).1, (follow taken bits low high n rest).2 ++ more)) ∨
    follow taken bits low high n rest = (.bad (taken.reverse ++ rest) .truncated, []) := by
  induction n generalizing taken bits low high rest with
  | zero =>
    refine .inl ⟨?_, fun more => ?_⟩
    · rw [follow]
      exact id
    · rw [follow, follow]
  | succ n ih =>
    cases rest with
    | nil => exact .inr (by rw [follow, List.append_nil])
    | cons b rest =>
      simp only [List.cons_append, follow]
      split
      · rcases ih (b :: taken) (bits * 64 + (b.toNat - 0x80)) 0x80 0xBF rest with h | h
        · exact .inl h
        · refine .inr ?_
          rw [h, List.reverse_cons, List.append_assoc, List.singleton_append]
      · exact .inl ⟨id, fun more => rfl⟩

theorem piece_append (b : UInt8) (rest : List UInt8) :
    (¬(piece b rest).1.IsCutOff ∧
      ∀ more, piece b (rest ++ more) = ((piece b rest).1, (piece b rest).2 ++ more)) ∨
    piece b rest = (.bad (b :: rest) .truncated, []) := by
  unfold piece
  split
  · exact .inl ⟨id, fun more => rfl⟩
  · split
    · exact .inl ⟨id, fun more => rfl⟩
    · exact follow_append ..

/-- A piece that is not cut off is not kept back. -/
theorem splitIncomplete_of_pieces {s rest : List UInt8} {p : Piece} (hp : ¬p.IsCutOff)
    (h : pieces s = p :: pieces rest) :
    splitIncomplete s = (p :: (splitIncomplete rest).1, (splitIncomplete rest).2) := by
  unfold splitIncomplete
  dsimp only
  rw [h]
  cases hrest : (pieces rest).getLast? with
  | none =>
    rw [List.getLast?_eq_none_iff] at hrest
    rw [hrest, List.getLast?_singleton]
    split
    · next hlast =>
      cases hlast
      exact absurd trivial hp
    · rfl
  | some last =>
    have hne : pieces rest ≠ [] := by
      intro hnil
      rw [hnil] at hrest
      cases hrest
    have hlast : (p :: pieces rest).getLast? = some last := by
      rw [List.getLast?_cons, hrest]
      rfl
    rw [hlast, List.dropLast_cons_of_ne_nil hne]
    split <;> rfl

/-- The pieces of bytes are those of a first part, up to what it keeps back, and those of the
rest. -/
theorem pieces_append (s more : List UInt8) :
    pieces (s ++ more) = (splitIncomplete s).1 ++ pieces ((splitIncomplete s).2 ++ more) := by
  induction hn : s.length using Nat.strongRecOn generalizing s with
  | ind n ih =>
  cases s with
  | nil => simp [splitIncomplete, pieces]
  | cons b rest =>
    have hpieces : pieces (b :: rest) = (piece b rest).1 :: pieces (piece b rest).2 := by
      rw [pieces]
    rcases piece_append b rest with ⟨hp, happend⟩ | hcut
    · have hlt : (piece b rest).2.length < n := by
        have hle := length_piece b rest
        rw [← hn, List.length_cons]
        omega
      rw [splitIncomplete_of_pieces hp hpieces, List.cons_append, pieces, happend,
        ih _ hlt _ rfl, List.cons_append]
    · -- The whole first part is one piece that is cut off.
      rw [hcut, pieces] at hpieces
      have hkept : splitIncomplete (b :: rest) = ([], b :: rest) := by
        unfold splitIncomplete
        dsimp only
        rw [hpieces]
        rfl
      rw [hkept]
      rfl

/-- A portion passes on the text of its bytes, up to those that it keeps back. -/
theorem decodeLossy_append (kept portion more : List UInt8) :
    decodeLossy (kept ++ portion ++ more) =
      (feed kept portion).1 ++ decodeLossy ((feed kept portion).2 ++ more) := by
  unfold decodeLossy feed
  rw [pieces_append, List.map_append]

/-- Portions pass on the text of all their bytes, wherever they are cut. -/
theorem flatten_feedAll (kept : List UInt8) (portions : List (List UInt8)) :
    (feedAll kept portions).flatten = decodeLossy (kept ++ portions.flatten) := by
  induction portions generalizing kept with
  | nil => rw [feedAll, List.flatten_singleton, List.flatten_nil, List.append_nil]
  | cons portion portions ih =>
    rw [feedAll, List.flatten_cons, List.flatten_cons, ih, ← List.append_assoc, decodeLossy_append]

end Conductor.Text.Utf8
