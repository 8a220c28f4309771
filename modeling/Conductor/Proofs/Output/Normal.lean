import Conductor.Output.Normal
import Conductor.Proofs.Text.Pieces
import Mathlib.Data.List.Forall2
import Mathlib.Data.List.Infix
import Mathlib.Data.List.TakeWhile
import Mathlib.Tactic.IntervalCases

/-!
# The normal form of an output

Three rules make the normal form of a text, one after the other: each CRLF becomes a line feed
(`TurnsCrlf`), of every line only what follows its last carriage return stays (`LinesShow`), and
every run of line feeds is shortened to two (`Shortens`).  Main statement: they lead from a text to
its normal form and nowhere else, the normal form has no carriage return and no three line feeds in
a row, and the texts without these are the ones that stay as they are (`normal_settles`), so a
normal form is its own.

Each rule is said as a relation and met by the function that carries it out (`turnsCrlf_iff`,
`linesShow_iff`, `shortens_iff`).  How many line feeds have just been written is the invariant of
the last one: `squeeze k` acts on a text as it does on the text with `k` line feeds in front.
-/

namespace Conductor.Output

open Text

/-- Each CRLF is turned into a line feed, and nothing else is changed. -/
inductive TurnsCrlf : List Char → List Char → Prop
  | nil : TurnsCrlf [] []
  | lineEnd {s t : List Char} (h : TurnsCrlf s t) : TurnsCrlf ('\r' :: '\n' :: s) ('\n' :: t)
  | other {c : Char} {s t : List Char} (hc : c = '\r' → s.head? ≠ some '\n')
    (h : TurnsCrlf s t) : TurnsCrlf (c :: s) (c :: t)

/-- A line shows what follows its last carriage return. -/
inductive Shows : List Char → List Char → Prop
  | whole {line : List Char} (h : '\r' ∉ line) : Shows line line
  | overwritten {before shown : List Char} (h : '\r' ∉ shown) :
    Shows (before ++ '\r' :: shown) shown

/-- Each line of a text gives way to what it shows. -/
def LinesShow (s t : List Char) : Prop :=
  ∃ ls shown, ls ≠ [] ∧ (∀ line ∈ ls, '\n' ∉ line) ∧ s = joinLines ls ∧
    List.Forall₂ Shows ls shown ∧ t = joinLines shown

/-- Each run of three or more line feeds is shortened to two. -/
inductive Shortens : List Char → List Char → Prop
  | nil : Shortens [] []
  | run {n : Nat} {s t : List Char} (hn : 0 < n) (hs : s.head? ≠ some '\n') (h : Shortens s t) :
    Shortens (List.replicate n '\n' ++ s) (List.replicate (min n 2) '\n' ++ t)
  | other {c : Char} {s t : List Char} (hc : c ≠ '\n') (h : Shortens s t) :
    Shortens (c :: s) (c :: t)

/-- The three rules lead from one text to another. -/
def Normalizes (s t : String) : Prop :=
  ∃ u v, TurnsCrlf s.toList u ∧ LinesShow u v ∧ Shortens v t.toList

/-- Three line feeds in a row. -/
def threeFeeds : List Char := ['\n', '\n', '\n']

/-- The text has no carriage return and no three line feeds in a row. -/
structure Settled (s : String) : Prop where
  noReturn : '\r' ∉ s.toList
  noThreeFeeds : ¬threeFeeds <:+: s.toList

variable {c : Char} {s t line shown : List Char} {n k : Nat}

/-! ### Line ends -/

theorem crlfToLf_cons (hc : c = '\r' → s.head? ≠ some '\n') :
    crlfToLf (c :: s) = c :: crlfToLf s := by
  refine crlfToLf.eq_3 _ _ fun cs hr hs => hc hr ?_
  rw [hs]
  rfl

theorem turnsCrlf_iff : TurnsCrlf s t ↔ t = crlfToLf s := by
  constructor
  · intro h
    induction h with
    | nil => rfl
    | lineEnd _ ih => rw [crlfToLf, ih]
    | other hc _ ih => rw [crlfToLf_cons hc, ih]
  · rintro rfl
    fun_induction crlfToLf s with
    | case1 => exact .nil
    | case2 s ih => exact .lineEnd ih
    | case3 c s hc ih =>
      refine .other (fun hr hs => ?_) ih
      obtain ⟨cs, rfl⟩ := List.head?_eq_some_iff.mp hs
      exact hc cs hr rfl

theorem crlfToLf_of_not_mem (h : '\r' ∉ s) : crlfToLf s = s := by
  induction s with
  | nil => rfl
  | cons c s ih =>
    rw [List.mem_cons, not_or] at h
    rw [crlfToLf_cons fun hc => absurd hc.symm h.1, ih h.2]

/-! ### Overwritten lines -/

theorem afterLastReturn_append (h : '\r' ∉ shown) (before : List Char) :
    afterLastReturn (before ++ '\r' :: shown) = shown := by
  have hrev : (before ++ '\r' :: shown).reverse = shown.reverse ++ '\r' :: before.reverse := by
    simp
  unfold afterLastReturn
  rw [hrev, takeWhile_append_stop (decide_ne_of_not_mem (by simpa using h)) (by simp),
    List.reverse_reverse]

theorem afterLastReturn_of_not_mem (h : '\r' ∉ line) : afterLastReturn line = line := by
  unfold afterLastReturn
  rw [List.takeWhile_eq_self_iff.mpr (decide_ne_of_not_mem (by simpa using h)),
    List.reverse_reverse]

theorem shows_iff : Shows line shown ↔ shown = afterLastReturn line := by
  constructor
  · intro h
    cases h with
    | whole h => exact (afterLastReturn_of_not_mem h).symm
    | overwritten h => exact (afterLastReturn_append h _).symm
  · rintro rfl
    -- What is left of the last return is looked for from the end of the line.
    have hsplit := List.takeWhile_append_dropWhile (p := (· ≠ '\r')) (l := line.reverse)
    cases hd : line.reverse.dropWhile (· ≠ '\r') with
    | nil =>
      rw [hd, List.append_nil] at hsplit
      have hself : afterLastReturn line = line := by
        rw [afterLastReturn, hsplit, List.reverse_reverse]
      have hfree := return_not_mem_afterLastReturn line
      rw [hself] at hfree ⊢
      exact .whole hfree
    | cons c before =>
      obtain rfl : c = '\r' := by simpa using head_dropWhile_not hd
      have hline : line = before.reverse ++ '\r' :: afterLastReturn line :=
        calc line = (line.reverse.takeWhile (· ≠ '\r') ++ '\r' :: before).reverse := by
              rw [← hd, hsplit, List.reverse_reverse]
          _ = before.reverse ++ '\r' :: afterLastReturn line := by simp [afterLastReturn]
      have h : Shows (before.reverse ++ '\r' :: afterLastReturn line) (afterLastReturn line) :=
        .overwritten (return_not_mem_afterLastReturn line)
      rwa [← hline] at h

theorem forall₂_shows_iff {ls shown : List (List Char)} :
    List.Forall₂ Shows ls shown ↔ shown = ls.map afterLastReturn := by
  have hshows : Shows = fun line shown => afterLastReturn line = shown := by
    funext line shown
    exact propext (shows_iff.trans eq_comm)
  rw [hshows, ← List.forall₂_map_left_iff (R := Eq), List.forall₂_eq_eq_eq, eq_comm]

theorem linesShow_iff : LinesShow s t ↔ t = joinLines ((lines s).map afterLastReturn) := by
  constructor
  · rintro ⟨ls, shown, hne, hfree, rfl, hshows, rfl⟩
    have hlines : lines (joinLines ls) = ls := by
      refine splitBy_intercalate (by decide) hne fun line hline c hc => ?_
      have hnot : c ≠ '\n' := fun e => hfree line hline (e ▸ hc)
      simpa using hnot
    rw [hlines, forall₂_shows_iff.mp hshows]
  · rintro rfl
    refine ⟨lines s, _, splitBy_ne_nil _ s, fun line hline hmem => ?_, (joinLines_lines s).symm,
      forall₂_shows_iff.mpr rfl, rfl⟩
    exact absurd (mem_of_mem_splitBy hline hmem).2 (by decide)

/-- Lines without carriage returns show all that they hold. -/
theorem map_afterLastReturn_lines (h : '\r' ∉ s) : (lines s).map afterLastReturn = lines s := by
  refine (List.map_congr_left fun line hline => ?_).trans (List.map_id _)
  exact afterLastReturn_of_not_mem fun hmem => h (mem_of_mem_splitBy hline hmem).1

/-! ### Runs of line feeds -/

theorem replicate_append_cons (k : Nat) (s : List Char) :
    List.replicate k '\n' ++ '\n' :: s = List.replicate (k + 1) '\n' ++ s := by
  simp [List.replicate_succ']

theorem squeeze_of_head?_ne (hs : s.head? ≠ some '\n') (k : Nat) : squeeze k s = squeeze 0 s := by
  cases s with
  | nil => rfl
  | cons c s =>
    have hc : c ≠ '\n' := fun e => hs (congrArg some e)
    rw [squeeze, if_neg hc, squeeze, if_neg hc]

/-- Of a run, as many line feeds are written as there is room for behind those just written. -/
theorem squeeze_replicate_append (hs : s.head? ≠ some '\n') (n k : Nat) :
    squeeze k (List.replicate n '\n' ++ s) =
      List.replicate (min n (2 - k)) '\n' ++ squeeze 0 s := by
  induction n generalizing k with
  | zero => simpa using squeeze_of_head?_ne hs k
  | succ n ih =>
    rw [List.replicate_succ, List.cons_append, squeeze, if_pos rfl]
    by_cases hk : k < 2
    · have hroom : min (n + 1) (2 - k) = min n (2 - (k + 1)) + 1 := by omega
      rw [if_pos hk, ih, hroom, List.replicate_succ, List.cons_append]
    · have hroom : min (n + 1) (2 - k) = min n (2 - k) := by omega
      rw [if_neg hk, ih, hroom]

theorem shortens_squeeze (s : List Char) (n : Nat) :
    Shortens (List.replicate n '\n' ++ s) (squeeze 0 (List.replicate n '\n' ++ s)) := by
  -- The run in front of `s` takes in the line feeds that `s` begins with.
  induction s generalizing n with
  | nil =>
    rw [squeeze_replicate_append (by simp)]
    cases n with
    | zero => exact .nil
    | succ n => exact .run n.succ_pos (by simp) .nil
  | cons c s ih =>
    by_cases hc : c = '\n'
    · subst hc
      rw [replicate_append_cons]
      exact ih (n + 1)
    · have hrest : Shortens (c :: s) (squeeze 0 (c :: s)) := by
        rw [squeeze, if_neg hc]
        exact .other hc (ih 0)
      cases n with
      | zero => exact hrest
      | succ n =>
        have hhead : (c :: s).head? ≠ some '\n' := by simpa using hc
        rw [squeeze_replicate_append hhead]
        exact .run n.succ_pos hhead hrest

theorem shortens_iff : Shortens s t ↔ t = squeeze 0 s := by
  constructor
  · intro h
    induction h with
    | nil => rfl
    | run _ hs _ ih => rw [squeeze_replicate_append hs, ih]
    | other hc _ ih => rw [squeeze, if_neg hc, ih]
  · rintro rfl
    exact shortens_squeeze s 0

/-- A run of three line feeds does not reach over another character. -/
theorem threeFeeds_infix_append_cons (hc : c ≠ '\n') (hk : k ≤ 2) :
    threeFeeds <:+: List.replicate k '\n' ++ c :: s ↔ threeFeeds <:+: s := by
  unfold threeFeeds
  interval_cases k <;> simp [List.infix_cons_iff, List.cons_prefix_cons, Ne.symm hc]

theorem not_threeFeeds_infix_squeeze (hk : k ≤ 2) (s : List Char) :
    ¬threeFeeds <:+: List.replicate k '\n' ++ squeeze k s := by
  induction s generalizing k with
  | nil =>
    intro h
    have hlength := h.length_le
    simp [threeFeeds, squeeze] at hlength
    omega
  | cons c s ih =>
    rw [squeeze]
    by_cases hc : c = '\n'
    · rw [if_pos hc]
      by_cases hlt : k < 2
      · rw [if_pos hlt, hc, replicate_append_cons]
        exact ih hlt
      · rw [if_neg hlt]
        exact ih hk
    · rw [if_neg hc, threeFeeds_infix_append_cons hc hk]
      exact ih (Nat.zero_le 2)

theorem squeeze_of_not_infix (hk : k ≤ 2)
    (h : ¬threeFeeds <:+: List.replicate k '\n' ++ s) : squeeze k s = s := by
  induction s generalizing k with
  | nil => rfl
  | cons c s ih =>
    rw [squeeze]
    by_cases hc : c = '\n'
    · subst hc
      have hlt : k < 2 := by
        by_contra hge
        obtain rfl : k = 2 := by omega
        exact h ⟨[], s, rfl⟩
      rw [replicate_append_cons] at h
      rw [if_pos rfl, if_pos hlt, ih hlt h]
    · rw [threeFeeds_infix_append_cons hc hk] at h
      rw [if_neg hc, ih (Nat.zero_le 2) h]

/-! ### The normal form -/

theorem normalizes_iff {s t : String} : Normalizes s t ↔ t = normal s := by
  have htext : t = normal s ↔ t.toList = normalChars s.toList := by
    rw [normal, ← String.toList_inj, String.toList_ofList]
  rw [htext]
  constructor
  · rintro ⟨u, v, hu, hv, ht⟩
    rw [shortens_iff.mp ht, linesShow_iff.mp hv, turnsCrlf_iff.mp hu, normalChars]
  · exact fun h => ⟨_, _, turnsCrlf_iff.mpr rfl, linesShow_iff.mpr rfl, shortens_iff.mpr h⟩

theorem settled_normal (s : String) : Settled (normal s) := by
  unfold normal
  refine ⟨?_, ?_⟩
  · rw [String.toList_ofList]
    exact return_not_mem_normalChars _
  · rw [String.toList_ofList]
    exact not_threeFeeds_infix_squeeze (k := 0) (Nat.zero_le 2) _

theorem Settled.normal_eq {s : String} (h : Settled s) : normal s = s := by
  unfold normal normalChars
  have hfeeds : squeeze 0 s.toList = s.toList :=
    squeeze_of_not_infix (Nat.zero_le 2) h.noThreeFeeds
  rw [crlfToLf_of_not_mem h.noReturn, map_afterLastReturn_lines h.noReturn, joinLines_lines, hfeeds,
    String.ofList_toList]

/-- The rules lead from a text to its normal form alone, in which nothing is overwritten and no two
lines in a row are blank; a text with neither stays as it is, and so does a normal form. -/
theorem normal_settles (s : String) :
    (∀ t, Normalizes s t ↔ t = normal s) ∧ Settled (normal s) ∧
      normal (normal s) = normal s ∧ (normal s = s ↔ Settled s) := by
  refine ⟨fun t => normalizes_iff, settled_normal s, (settled_normal s).normal_eq, ?_, ?_⟩
  · intro h
    rw [← h]
    exact settled_normal s
  · exact Settled.normal_eq

/-- A progress line that is overwritten twice, a line that ends in CR CRLF, and blank lines. -/
example : normal "10%\r50%\rdone\r\r\n\n\n\nend\r" = "\n\n" := by decide +kernel

end Conductor.Output
