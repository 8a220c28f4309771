import Conductor.Proofs.Entries
import Conductor.Proofs.Json.Scalar
import Conductor.Schema.Record
import Mathlib.Data.List.TakeWhile
import Mathlib.Data.Nat.Digits.Defs

/-!
# Integers that were read can be written

An integer has a limit on its digits both where it is read and where it is written.  Whatever way a
value or a checked integer takes, the limit that it has passed in reading is enough for writing it:
no integer in a JSON value that was read has too many digits (`short_of_read`), and none that passes
the check of an integer, be it written as a number or as a text (`Short.integer`).

The induction is on the fuel of the reader and goes through its three functions at once
(`short_of_readers`): a value is put together from values that were read with less fuel.
-/

namespace Conductor

open Text Schema Number

/-- The integer can be written. -/
def Fits (n : Int) : Prop := (Nat.toDigits 10 n.natAbs).length ≤ maxDigits

theorem Fits.neg {n : Int} (h : Fits n) : Fits (-n) := by
  unfold Fits
  rwa [Int.natAbs_neg]

theorem Fits.ite_neg {n : Int} (h : Fits n) (negative : Bool) : Fits (if negative then -n else n) := by
  cases negative with
  | true => exact h.neg
  | false => exact h

theorem fits_of_natAbs_lt {n : Int} (h : n.natAbs < 10 ^ maxDigits) : Fits n :=
  Nat.toDigits_length 10 n.natAbs maxDigits (by decide) h

namespace Json

/-- No integer in the value has too many digits. -/
inductive Short : Json → Prop
  | null : Short .null
  | bool (b : Bool) : Short (.bool b)
  | int {n : Int} (h : Fits n) : Short (.int n)
  | real (x : Binary64) : Short (.real x)
  | str (s : String) : Short (.str s)
  | arr {items : List Json} (h : ∀ v ∈ items, Short v) : Short (.arr items)
  | obj {members : List (String × Json)} (h : ∀ m ∈ members, Short m.2) : Short (.obj members)

variable {fuel depth : Nat} {s rest : List Char} {v : Json}

/-! ### Digits -/

theorem digitsValue_lt {ds : List Char} (h : ∀ c ∈ ds, isDigit c = true) :
    digitsValue ds < 10 ^ ds.length := by
  have hstep : ∀ (ds : List Char), (∀ c ∈ ds, isDigit c = true) → ∀ n k, n < 10 ^ k →
      ds.foldl (fun n d => 10 * n + (d.toNat - '0'.toNat)) n < 10 ^ (k + ds.length) := by
    intro ds
    induction ds with
    | nil => exact fun _ n k hn => hn
    | cons d ds ih =>
      intro hds n k hn
      obtain ⟨hd, hds⟩ := List.forall_mem_cons.mp hds
      have hd : d.toNat - '0'.toNat < 10 := by
        have hle : d.toNat ≤ '9'.toNat := by
          simp only [isDigit, Bool.and_eq_true, decide_eq_true_eq] at hd
          exact hd.2
        have h0 : '0'.toNat = 48 := rfl
        have h9 : '9'.toNat = 57 := rfl
        omega
      have hlt : 10 * n + (d.toNat - '0'.toNat) < 10 ^ (k + 1) := by
        rw [pow_succ]
        omega
      rw [List.foldl_cons, List.length_cons, Nat.add_comm ds.length 1, ← Nat.add_assoc]
      exact ih hds _ (k + 1) hlt
  have := hstep ds h 0 0 (by decide)
  rwa [Nat.zero_add] at this

/-- The number that not too many digits write can be written. -/
theorem fits_digitsValue {ds : List Char} (h : ∀ c ∈ ds, isDigit c = true)
    (hlen : ds.length ≤ maxDigits) : Fits (digitsValue ds) := by
  refine fits_of_natAbs_lt (lt_of_lt_of_le (digitsValue_lt h) ?_)
  exact Nat.pow_le_pow_right (by decide) hlen

/-! ### Values -/

theorem short_of_readNumber {negative : Bool} (h : readNumber negative s = .ok (v, rest)) :
    Short v := by
  unfold readNumber at h
  split at h
  · cases h
  · next c cs =>
    split at h
    · cases h
    · -- Before the fraction stands a zero, or all the digits.
      have hwhole : ∀ d ∈ (if c = '0' then (['0'], cs)
          else ((c :: cs).takeWhile isDigit, (c :: cs).dropWhile isDigit)).1, isDigit d = true := by
        split
        · exact List.forall_mem_singleton.mpr rfl
        · exact fun d hd => List.mem_takeWhile_imp hd
      generalize (if c = '0' then (['0'], cs)
        else ((c :: cs).takeWhile isDigit, (c :: cs).dropWhile isDigit)) = front at h hwhole
      dsimp only at h
      split at h
      · split at h
        · cases h
        · next hlen =>
          cases h
          exact .int ((fits_digitsValue hwhole (Nat.le_of_not_lt hlen)).ite_neg negative)
      · cases h
        exact .real _

theorem short_of_keyword? (h : keyword? s = some (v, rest)) : Short v := by
  have hall : ∀ k ∈ keywords, Short k.2 := by
    intro k hk
    simp only [keywords, List.mem_cons, List.not_mem_nil, or_false] at hk
    rcases hk with rfl | rfl | rfl | rfl | rfl | rfl
    · exact .null
    · exact .bool _
    · exact .bool _
    · exact .real _
    · exact .real _
    · exact .real _
  unfold keyword? at h
  obtain ⟨k, hk, hv⟩ := List.exists_of_findSome?_eq_some h
  rw [Option.ite_none_right_eq_some] at hv
  obtain ⟨-, hv⟩ := hv
  cases hv
  exact hall k hk

theorem short_put {members : List (String × Json)} {name : String}
    (h : ∀ m ∈ members, Short m.2) (hv : Short v) : ∀ m ∈ put members name v, Short m.2 := by
  induction members with
  | nil =>
    rw [put]
    exact List.forall_mem_singleton.mpr hv
  | cons m members ih =>
    obtain ⟨hm, hms⟩ := List.forall_mem_cons.mp h
    rw [put]
    split
    · exact List.forall_mem_cons.mpr ⟨hv, hms⟩
    · exact List.forall_mem_cons.mpr ⟨hm, ih hms⟩

theorem short_ofMembers {members : List (String × Json)} (h : ∀ m ∈ members, Short m.2) :
    Short (ofMembers members) := by
  refine .obj ?_
  have hfold : ∀ ms : List (String × Json), (∀ m ∈ ms, Short m.2) →
      ∀ m ∈ members.foldl (fun ms m => put ms m.1 m.2) ms, Short m.2 := by
    induction members with
    | nil => exact fun _ hms => hms
    | cons m members ih =>
      obtain ⟨hm, hmembers⟩ := List.forall_mem_cons.mp h
      exact fun ms hms => ih hmembers _ (short_put hms hm)
  exact hfold [] (List.forall_mem_nil _)

/-- What the three readers read holds no integer with too many digits. -/
structure ShortReaders (fuel : Nat) : Prop where
  value : ∀ {depth s v rest}, readValue fuel depth s = .ok (v, rest) → Short v
  items : ∀ {depth s vs rest}, readItems fuel depth s = .ok (vs, rest) → ∀ v ∈ vs, Short v
  members : ∀ {depth s ms rest}, readMembers fuel depth s = .ok (ms, rest) → ∀ m ∈ ms, Short m.2

theorem ShortReaders.readValue_succ (ih : ShortReaders fuel)
    (h : readValue (fuel + 1) depth s = .ok (v, rest)) : Short v := by
  unfold readValue at h
  split at h
  · obtain ⟨_, -, h⟩ := exists_of_bind_eq_ok h
    cases h
    exact .str _
  · split at h
    · cases h
    · split at h
      · cases h
        exact .arr (List.forall_mem_nil _)
      · obtain ⟨_, hitems, h⟩ := exists_of_bind_eq_ok h
        cases h
        exact .arr (ih.items hitems)
  · split at h
    · cases h
    · split at h
      · cases h
        exact .obj (List.forall_mem_nil _)
      · obtain ⟨_, hmembers, h⟩ := exists_of_bind_eq_ok h
        cases h
        exact short_ofMembers (ih.members hmembers)
  · split at h
    · next hword =>
      cases h
      exact short_of_keyword? hword
    · split at h
      · exact short_of_readNumber h
      · exact short_of_readNumber h

theorem ShortReaders.readItems_succ (ih : ShortReaders fuel) {vs : List Json}
    (h : readItems (fuel + 1) depth s = .ok (vs, rest)) : ∀ v ∈ vs, Short v := by
  rw [readItems] at h
  obtain ⟨_, hvalue, h⟩ := exists_of_bind_eq_ok h
  dsimp only at h
  split at h
  · obtain ⟨_, hitems, h⟩ := exists_of_bind_eq_ok h
    cases h
    exact List.forall_mem_cons.mpr ⟨ih.value hvalue, ih.items hitems⟩
  · cases h
    exact List.forall_mem_singleton.mpr (ih.value hvalue)
  · cases h

theorem ShortReaders.readMembers_succ (ih : ShortReaders fuel) {ms : List (String × Json)}
    (h : readMembers (fuel + 1) depth s = .ok (ms, rest)) : ∀ m ∈ ms, Short m.2 := by
  unfold readMembers at h
  split at h
  · obtain ⟨_, -, h⟩ := exists_of_bind_eq_ok h
    dsimp only at h
    split at h
    · obtain ⟨_, hvalue, h⟩ := exists_of_bind_eq_ok h
      split at h
      · obtain ⟨_, hmembers, h⟩ := exists_of_bind_eq_ok h
        cases h
        exact List.forall_mem_cons.mpr ⟨ih.value hvalue, ih.members hmembers⟩
      · cases h
        exact List.forall_mem_singleton.mpr (ih.value hvalue)
      · cases h
    · cases h
  · cases h

theorem short_of_readers (fuel : Nat) : ShortReaders fuel := by
  induction fuel with
  | zero =>
    constructor
    · intro depth s v rest h
      rw [readValue] at h
      cases h
    · intro depth s vs rest h
      rw [readItems] at h
      cases h
    · intro depth s ms rest h
      rw [readMembers] at h
      cases h
  | succ fuel ih => exact ⟨ih.readValue_succ, ih.readItems_succ, ih.readMembers_succ⟩

/-- No integer in a value that was read has too many digits. -/
theorem short_of_read {text : String} (h : read text = .ok v) : Short v := by
  unfold read readChars at h
  obtain ⟨_, hvalue, h⟩ := exists_of_bind_eq_ok h
  dsimp only at h
  split at h <;> cases h
  exact (short_of_readers _).value hvalue

end Json

/-! ### Checked integers -/

namespace Schema

variable {s : List Char} {n : Int} {v : Json}

theorem fits_of_plainInteger (h : plainInteger s = .ok n) : Fits n := by
  unfold plainInteger at h
  split at h
  next negative ds _ =>
    split at h
    · cases h
    · next hds =>
      split at h
      · cases h
      · next hlen =>
        cases h
        simp only [Bool.or_eq_true, not_or, Bool.not_eq_true', Bool.not_eq_false,
          List.all_eq_true] at hds
        exact (Json.fits_digitsValue hds.1.2 (Nat.le_of_not_lt hlen)).ite_neg negative

theorem fits_of_integerOfText (h : integerOfText s = .ok n) : Fits n := by
  unfold integerOfText at h
  split at h
  · next hs =>
    cases h
    exact fits_of_plainInteger hs
  · cases h
  · split at h
    · cases h
    · split at h
      · next ht =>
        cases h
        exact fits_of_plainInteger ht
      · cases h

theorem fits_of_integerOfNumber {x : Binary64} (h : integerOfNumber x = .ok n) : Fits n := by
  have hword : wordLimit < 10 ^ maxDigits :=
    lt_of_lt_of_le (b := 10 ^ 19) (by decide) (Nat.pow_le_pow_right (by decide) (by decide))
  unfold integerOfNumber at h
  split at h
  · cases h
  · split at h
    · split at h <;> cases h
      exact fits_of_natAbs_lt (lt_trans ‹_› hword)
    · cases h

/-- An integer that passes the check can be written. -/
theorem fits_of_integer (hv : v.Short) (h : integer v = .ok n) : Fits n := by
  cases hv with
  | null => cases h
  | bool b =>
    have hone : (if b then 1 else 0 : Int).natAbs ≤ 1 := by cases b <;> decide
    cases h
    exact fits_of_natAbs_lt (hone.trans_lt (Nat.one_lt_pow (by decide) (by decide)))
  | int hn =>
    cases h
    exact hn
  | real x => exact fits_of_integerOfNumber h
  | str s =>
    rw [integer, whole] at h
    split at h
    · cases h
    · exact fits_of_integerOfText h
  | arr _ => cases h
  | obj _ => cases h

theorem forall_mem_of_all_itemsFrom {α : Type} {check : Json → Checked α} {P : α → Prop}
    {items : List Json} {as : List α} {index : Nat}
    (hP : ∀ v ∈ items, ∀ a, check v = .ok a → P a)
    (h : Checked.all (itemsFrom check index items) = .ok as) : ∀ a ∈ as, P a := by
  induction items generalizing index as with
  | nil =>
    cases h
    exact List.forall_mem_nil _
  | cons v items ih =>
    obtain ⟨hv, hitems⟩ := List.forall_mem_cons.mp hP
    rw [itemsFrom, Checked.all] at h
    obtain ⟨_, as', hmap, has', rfl⟩ := Checked.ap_eq_ok_iff.mp h
    cases hc : check v with
    | bad issues =>
      rw [hc] at hmap
      cases hmap
    | ok a =>
      rw [hc] at hmap
      cases hmap
      exact List.forall_mem_cons.mpr ⟨hv a hc, ih hitems has'⟩

/-- The integers of a list that passes the check can be written. -/
theorem fits_of_list_integer {ns : List Int} (hv : v.Short) (h : list integer v = .ok ns) :
    ∀ n ∈ ns, Fits n := by
  cases hv with
  | arr hitems =>
    exact forall_mem_of_all_itemsFrom (fun v hv n => fits_of_integer (hitems v hv)) h
  | _ => cases h

theorem exists_mem_of_find? {f : FieldName} {members : List (String × Json)} {name : String}
    (h : f.find? members = some (name, v)) : ∃ m ∈ members, m.2 = v := by
  have hmember : ∀ name, Json.member? members name = some v → ∃ m ∈ members, m.2 = v := by
    intro name hname
    unfold Json.member? at hname
    obtain ⟨m, hm, rfl⟩ := Option.map_eq_some_iff.mp hname
    exact ⟨m, List.mem_of_find?_eq_some hm, rfl⟩
  unfold FieldName.find? at h
  split at h
  · next hfirst =>
    cases h
    exact hmember _ hfirst
  · obtain ⟨u, hother, he⟩ := Option.map_eq_some_iff.mp h
    cases he
    exact hmember _ hother

/-- The integers of a field that passes the check can be written. -/
theorem fits_of_fieldOr {f : FieldName} {members : List (String × Json)} {ns : List Int}
    (hm : ∀ m ∈ members, m.2.Short) (h : fieldOr members f [] (list integer) = .ok ns) :
    ∀ n ∈ ns, Fits n := by
  unfold fieldOr at h
  split at h
  · next name v hv =>
    obtain ⟨m, hmem, rfl⟩ := exists_mem_of_find? hv
    cases hlist : list integer m.2 with
    | ok ms =>
      rw [hlist] at h
      cases h
      exact fits_of_list_integer (hm m hmem) hlist
    | bad issues =>
      rw [hlist] at h
      cases h
  · cases h
    exact List.forall_mem_nil _

end Schema

end Conductor
