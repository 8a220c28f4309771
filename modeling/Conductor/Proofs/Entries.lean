import Mathlib.Data.List.Forall2
import Mathlib.Data.List.Nodup

/-!
# Lists that are handled entry by entry

A list is read entry by entry iff each entry is (`mapM_eq_ok_iff`), and it is not read iff its first
entry that is not read is at fault (`mapM_eq_error_iff`).  What is related entry by entry has a
partner for each entry, on either side (`exists_of_forall₂`, `forall_of_forall₂`).
-/

namespace Conductor

variable {α β ε : Type} {R : α → β → Prop} {xs : List α} {ys : List β}

/-- What is related entry by entry has a partner for each entry. -/
theorem exists_of_forall₂ (h : List.Forall₂ R xs ys) : ∀ x ∈ xs, ∃ y ∈ ys, R x y := by
  induction h with
  | nil => exact List.forall_mem_nil _
  | cons hxy _ ih =>
    refine List.forall_mem_cons.mpr ⟨⟨_, List.mem_cons_self .., hxy⟩, fun x hx => ?_⟩
    obtain ⟨y, hy, hr⟩ := ih x hx
    exact ⟨y, List.mem_cons_of_mem _ hy, hr⟩

/-- What all partners of the entries of one list have, the entries of the other list have. -/
theorem forall_of_forall₂ {Q : β → Prop} (h : List.Forall₂ R xs ys)
    (hQ : ∀ x ∈ xs, ∀ y, R x y → Q y) : ∀ y ∈ ys, Q y := by
  intro y hy
  obtain ⟨x, hx, hr⟩ := exists_of_forall₂ h.flip y hy
  exact hQ x hx y hr

/-- Entries that each have a partner are related entry by entry to a list of partners. -/
theorem exists_forall₂ (h : ∀ x ∈ xs, ∃ y, R x y) : ∃ ys, List.Forall₂ R xs ys := by
  induction xs with
  | nil => exact ⟨[], .nil⟩
  | cons x xs ih =>
    obtain ⟨⟨y, hy⟩, hxs⟩ := List.forall_mem_cons.mp h
    obtain ⟨ys, hys⟩ := ih hxs
    exact ⟨y :: ys, .cons hy hys⟩

/-- The partners of two lists stand behind one another as the lists do. -/
theorem exists_append_of_forall₂ {xs' : List α} (h : List.Forall₂ R (xs ++ xs') ys) :
    ∃ as bs, ys = as ++ bs ∧ List.Forall₂ R xs as ∧ List.Forall₂ R xs' bs :=
  ⟨ys.take xs.length, ys.drop xs.length, (List.take_append_drop _ _).symm,
    (List.forall₂_take_append _ _ _ h.flip).flip, (List.forall₂_drop_append _ _ _ h.flip).flip⟩

/-- Two entries are mapped to the same iff the mapped list has duplicates. -/
theorem not_nodup_map_iff {g : α → β} :
    ¬(xs.map g).Nodup ↔ ∃ x y, [x, y].Sublist xs ∧ g x = g y := by
  rw [List.nodup_iff_sublist]
  push Not
  constructor
  · rintro ⟨b, hb⟩
    obtain ⟨pair, hpair, hmap⟩ := List.sublist_map_iff.mp hb
    obtain ⟨x, y, rfl⟩ : ∃ x y, pair = [x, y] := by
      have hlength := congrArg List.length hmap
      rw [List.length_map] at hlength
      exact List.length_eq_two.mp hlength.symm
    obtain ⟨hx, hy⟩ : b = g x ∧ b = g y := by simpa using hmap
    exact ⟨x, y, hpair, hx.symm.trans hy⟩
  · rintro ⟨x, y, hxy, h⟩
    refine ⟨g x, ?_⟩
    have hmap := hxy.map g
    rwa [List.map_cons, List.map_singleton, ← h] at hmap

theorem map_eq_ok_iff {g : α → β} {x : Except ε α} {y : β} :
    x.map g = .ok y ↔ ∃ a, x = .ok a ∧ g a = y := by
  cases x <;> simp [Except.map]

theorem map_eq_error_iff {g : α → β} {x : Except ε α} {e : ε} :
    x.map g = .error e ↔ x = .error e := by
  cases x <;> simp [Except.map]

variable {g : α → Except ε β}

theorem exists_of_bind_eq_ok {x : Except ε α} {y : β} (h : (x >>= g) = .ok y) :
    ∃ a, x = .ok a ∧ g a = .ok y := by
  cases x with
  | error e => cases h
  | ok a => exact ⟨a, rfl, h⟩

theorem bind_eq_error_iff {x : Except ε α} {e : ε} :
    (x >>= g) = .error e ↔ x = .error e ∨ ∃ a, x = .ok a ∧ g a = .error e := by
  cases x with
  | error e' =>
    constructor
    · rintro ⟨⟩
      exact .inl rfl
    · rintro (h | ⟨a, h, -⟩)
      · cases h
        rfl
      · cases h
  | ok a =>
    constructor
    · intro h
      exact .inr ⟨a, rfl, h⟩
    · rintro (h | ⟨a', h, hg⟩)
      · cases h
      · cases h
        exact hg

/-- A list is read entry by entry iff each entry is. -/
theorem mapM_eq_ok_iff : xs.mapM g = .ok ys ↔ List.Forall₂ (fun x y => g x = .ok y) xs ys := by
  induction xs generalizing ys with
  | nil => cases ys <;> simp [pure, Except.pure]
  | cons x xs ih =>
    rw [List.mapM_cons]
    cases hx : g x with
    | error e => cases ys <;> simp [hx, bind, Except.bind]
    | ok y =>
      cases hxs : xs.mapM g with
      | error e =>
        have hnone : ∀ ys, ¬ List.Forall₂ (fun x y => g x = .ok y) xs ys := by
          intro ys h
          rw [← ih, hxs] at h
          cases h
        cases ys <;> simp [hx, hnone, bind, Except.bind]
      | ok ys' =>
        have hys : ∀ ys, List.Forall₂ (fun x y => g x = .ok y) xs ys ↔ ys' = ys := by
          intro ys
          rw [← ih, hxs, Except.ok.injEq]
        cases ys <;> simp [hx, hys, bind, Except.bind, pure, Except.pure]

/-- What is read from a list entry by entry is read from an entry of it. -/
theorem exists_of_mapM_eq_ok (h : xs.mapM g = .ok ys) : ∀ y ∈ ys, ∃ x ∈ xs, g x = .ok y :=
  exists_of_forall₂ (mapM_eq_ok_iff.mp h).flip

/-- What every step of a fold keeps, a fold that comes to an end keeps. -/
theorem foldlM_preserves {σ : Type} (P : σ → Prop) {f : σ → α → Except ε σ}
    (hf : ∀ {s x s'}, f s x = .ok s' → P s → P s') {s s' : σ} (h : xs.foldlM f s = .ok s')
    (hs : P s) : P s' := by
  induction xs generalizing s with
  | nil =>
    cases h
    exact hs
  | cons x xs ih =>
    rw [List.foldlM_cons] at h
    obtain ⟨t, ht, h⟩ := exists_of_bind_eq_ok h
    exact ih h (hf ht hs)

/-! ### The first entry that fails -/

/-- Entries are good up to one that is bad. -/
inductive GoodUntil (Good Bad : α → Prop) : List α → Prop
  | here {x : α} {xs : List α} (hx : Bad x) : GoodUntil Good Bad (x :: xs)
  | later {x : α} {xs : List α} (hx : Good x) (hxs : GoodUntil Good Bad xs) :
    GoodUntil Good Bad (x :: xs)

theorem goodUntil_cons_iff {Good Bad : α → Prop} {x : α} :
    GoodUntil Good Bad (x :: xs) ↔ Bad x ∨ Good x ∧ GoodUntil Good Bad xs := by
  constructor
  · intro h
    cases h with
    | here hx => exact .inl hx
    | later hx hxs => exact .inr ⟨hx, hxs⟩
  · rintro (hx | ⟨hx, hxs⟩)
    · exact .here hx
    · exact .later hx hxs

theorem GoodUntil.congr {Good Good' Bad Bad' : α → Prop} (hgood : ∀ x, Good x ↔ Good' x)
    (hbad : ∀ x, Bad x ↔ Bad' x) : GoodUntil Good Bad xs ↔ GoodUntil Good' Bad' xs := by
  obtain rfl : Good = Good' := funext fun x => propext (hgood x)
  obtain rfl : Bad = Bad' := funext fun x => propext (hbad x)
  exact Iff.rfl

theorem GoodUntil.exists_mem {Good Bad : α → Prop} (h : GoodUntil Good Bad xs) :
    ∃ x ∈ xs, Bad x := by
  induction h with
  | here hx => exact ⟨_, List.mem_cons_self .., hx⟩
  | later _ _ ih => exact List.exists_mem_cons_of_exists ih

/-- A list is not read iff its first entry that is not read is the fault's. -/
theorem mapM_eq_error_iff {e : ε} : xs.mapM g = .error e ↔
    GoodUntil (fun x => ∃ y, g x = .ok y) (fun x => g x = .error e) xs := by
  induction xs with
  | nil => exact iff_of_false nofun nofun
  | cons x xs ih =>
    -- Once the other entries are read, nothing fails.
    have hrest : ∀ y, (xs.mapM g >>= fun ys => pure (y :: ys)) = .error e ↔
        xs.mapM g = .error e := by
      intro y
      rw [bind_eq_error_iff]
      exact or_iff_left fun ⟨_, _, h⟩ => nomatch h
    rw [List.mapM_cons, bind_eq_error_iff, goodUntil_cons_iff, ← ih]
    simp only [hrest, exists_and_right]

/-- A list that is not read has an entry that is not. -/
theorem exists_of_mapM_eq_error {e : ε} (h : xs.mapM g = .error e) : ∃ x ∈ xs, g x = .error e :=
  (mapM_eq_error_iff.mp h).exists_mem

/-- What is done for each entry in turn is done iff it is for each. -/
theorem forM_eq_ok_iff {g : α → Except ε PUnit} :
    xs.forM g = .ok () ↔ ∀ x ∈ xs, g x = .ok () := by
  induction xs with
  | nil => exact iff_of_true rfl (List.forall_mem_nil _)
  | cons x xs ih =>
    change (g x >>= fun _ => xs.forM g) = _ ↔ _
    rw [List.forall_mem_cons, ← ih]
    cases hx : g x with
    | error e => exact iff_of_false nofun fun h => nomatch h.1
    | ok u => exact ⟨fun h => ⟨rfl, h⟩, fun h => h.2⟩

theorem forM_eq_error_iff {g : α → Except ε PUnit} {e : ε} : xs.forM g = .error e ↔
    GoodUntil (fun x => g x = .ok ()) (fun x => g x = .error e) xs := by
  induction xs with
  | nil => exact iff_of_false nofun nofun
  | cons x xs ih =>
    change (g x >>= fun _ => xs.forM g) = _ ↔ _
    rw [bind_eq_error_iff, goodUntil_cons_iff, ← ih]
    exact or_congr Iff.rfl ⟨fun ⟨_, hx, hxs⟩ => ⟨hx, hxs⟩, fun ⟨hx, hxs⟩ => ⟨_, hx, hxs⟩⟩

end Conductor
