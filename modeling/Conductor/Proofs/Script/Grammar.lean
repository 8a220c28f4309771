import Conductor.Proofs.Entries
import Conductor.Script.Reader

/-!
# The grammar of scripts

A segment is closed when a scan of it from its start ends outside quotes and option lists and meets
no `&` outside them (`Closed`).  A script is segments that are joined by `&` to stages, and these by
`&&` (`joined`).  Main statement: a text is read as a plan iff it is the join of closed segments
each of which writes its task of the plan, and there is no other way to take it apart
(`read_iff_decomposes`).

Cutting a text gives closed segments whose join it is (`cut_of_split`).  Conversely a closed segment
is cut off as a whole, whatever follows it (`split_append`), so the segments that a text is the join
of are found again (`foundAgain`).  They must not be empty: three `&` in a row could else be cut in
two ways.
-/

namespace Conductor.Script

open Text

/-! ### Closed segments -/

/-- What is open at a place: a quote, an option list, or a quote in an option list. -/
structure Opened where
  quote : Option Char := none
  options : Bool := false
  deriving DecidableEq, Repr

/-- What is open after a character. -/
def Opened.next (o : Opened) (c : Char) : Opened :=
  match o.quote with
  | some q => if c = q then { o with quote := none } else o
  | none =>
    if isQuote c then { o with quote := some c }
    else if c = '[' then { o with options := true }
    else if c = ']' then { o with options := false }
    else o

/-- A scan that begins where something is open ends where nothing is, and meets no `&` there. -/
def ClosesFrom (o : Opened) : List Char → Prop
  | [] => o = {}
  | c :: cs => (c = '&' → o ≠ {}) ∧ ClosesFrom (o.next c) cs

/-- Whether a scan ends where nothing is open is found by scanning. -/
def decideClosesFrom (o : Opened) : (s : List Char) → Decidable (ClosesFrom o s)
  | [] => inferInstanceAs (Decidable (o = {}))
  | c :: cs =>
    have := decideClosesFrom (o.next c) cs
    inferInstanceAs (Decidable ((c = '&' → o ≠ {}) ∧ ClosesFrom (o.next c) cs))

instance (o : Opened) (s : List Char) : Decidable (ClosesFrom o s) := decideClosesFrom o s

/-- A segment that a scan from its start finds closed. -/
abbrev Closed (s : List Char) : Prop := ClosesFrom {} s

/-- The script of segments. -/
def joined (stages : List (List (List Char))) : List Char :=
  ['&', '&'].intercalate (stages.map ['&'].intercalate)

/-- A segment writes a task, wherever it stands. -/
def Writes (segment : List Char) (t : Task) : Prop :=
  ∀ offset, Segment.task ⟨offset, segment⟩ = .ok t

/-- A text is the join of closed segments that are not blank and write tasks. -/
structure Decomposes (s : List Char) (stages : List (List (List Char))) : Prop where
  stages_ne : stages ≠ []
  stage_ne : ∀ stage ∈ stages, stage ≠ []
  closed : ∀ stage ∈ stages, ∀ segment ∈ stage, Closed segment
  not_blank : ∀ stage ∈ stages, ∀ segment ∈ stage, allBlank segment = false
  writes : ∀ stage ∈ stages, ∀ segment ∈ stage, ∃ t, Writes segment t
  eq_joined : s = joined stages

variable {scan : Scan} {offset : Nat} {c : Char} {cs s : List Char} {first segment : List Char}
  {more : List (List Char)} {rest stages : List (List (List Char))} {cut : List (List Segment)}

/-! ### Joining -/

theorem joined_last (segment : List Char) : joined [[segment]] = segment := by
  simp [joined]

theorem joined_task (first second : List Char) (more : List (List Char))
    (rest : List (List (List Char))) :
    joined ((first :: second :: more) :: rest) =
      first ++ '&' :: joined ((second :: more) :: rest) := by
  cases rest <;> simp [joined]

theorem joined_stage (first : List Char) (stage : List (List Char))
    (rest : List (List (List Char))) :
    joined ([first] :: stage :: rest) = first ++ '&' :: '&' :: joined (stage :: rest) := by
  simp [joined]

theorem joined_push (c : Char) (first : List Char) (more : List (List Char))
    (rest : List (List (List Char))) :
    joined (((c :: first) :: more) :: rest) = c :: joined ((first :: more) :: rest) := by
  cases more with
  | cons second more => rw [joined_task, joined_task, List.cons_append]
  | nil =>
    cases rest with
    | cons stage rest => rw [joined_stage, joined_stage, List.cons_append]
    | nil => rw [joined_last, joined_last]

/-! ### Scanning -/

namespace Scan

/-- What is open, without where it was opened. -/
def opened (scan : Scan) : Opened := ⟨scan.quote.map Prod.fst, scan.bracket.isSome⟩

/-- What is open as a quote was opened by a quote character. -/
def Proper (scan : Scan) : Prop := ∀ q ∈ scan.quote, isQuote q.1 = true

theorem opened_eq_iff : scan.opened = {} ↔ scan = {} := by
  obtain ⟨quote, bracket⟩ := scan
  cases quote <;> cases bracket <;> simp [opened]

theorem isOpen_eq_false_iff : scan.isOpen = false ↔ scan ≠ {} := by
  obtain ⟨quote, bracket⟩ := scan
  cases quote <;> cases bracket <;> simp [isOpen]

theorem opened_next (scan : Scan) (offset : Nat) (c : Char) :
    (scan.next offset c).opened = scan.opened.next c := by
  obtain ⟨quote, bracket⟩ := scan
  cases quote with
  | some q =>
    simp only [next, opened, Opened.next, Option.map_some]
    split <;> rfl
  | none =>
    simp only [next, opened, Opened.next, Option.map_none]
    split
    · rfl
    · split
      · rfl
      · split <;> rfl

theorem proper_start : Proper {} := by
  rintro q ⟨⟩

theorem Proper.next (h : scan.Proper) (offset : Nat) (c : Char) : (scan.next offset c).Proper := by
  obtain ⟨quote, bracket⟩ := scan
  cases quote with
  | some q =>
    simp only [Scan.next]
    split
    · rintro q ⟨⟩
    · exact h
  | none =>
    simp only [Scan.next]
    split
    · next hc =>
      intro q hq
      cases hq
      exact hc
    · split
      · exact h
      · split
        · exact h
        · exact h

/-- An `&` changes nothing of what is open. -/
theorem Proper.next_ampersand (h : scan.Proper) (offset : Nat) : scan.next offset '&' = scan := by
  obtain ⟨quote, bracket⟩ := scan
  cases quote with
  | none => rfl
  | some q =>
    have hq : '&' ≠ q.1 := by
      intro he
      have := h q rfl
      rw [← he] at this
      cases this
    simp [Scan.next, hq]

end Scan

/-! ### Cutting, character by character -/

/-- A character that begins no pair of `&`. -/
theorem split_single (scan : Scan) (offset : Nat) (h : ∀ cs', c = '&' → cs ≠ '&' :: cs') :
    split scan offset (c :: cs) =
      if c = '&' ∧ scan = {} then (split scan (offset + 1) cs).map (newSegment offset)
      else (split (scan.next offset c) (offset + 1) cs).map (pushFront offset c) := by
  rw [split.eq_3 scan offset c cs fun cs' hc hcs => h cs' hc hcs]
  by_cases hcut : c = '&' ∧ scan = {}
  · obtain ⟨rfl, rfl⟩ := hcut
    show (do
      let stages ← split {} (offset + 1) cs
      .ok (newSegment offset stages)) = _
    cases split {} (offset + 1) cs <;> rfl
  · have hplain : (decide (c = '&') && scan.isOpen) = false := by
      by_cases hc : c = '&'
      · rw [Scan.isOpen_eq_false_iff.mpr fun hs => hcut ⟨hc, hs⟩, Bool.and_false]
      · rw [decide_eq_false hc, Bool.false_and]
    rw [hplain, if_neg Bool.false_ne_true, if_neg hcut]
    cases split (scan.next offset c) (offset + 1) cs <;> rfl

theorem split_ampersand (hs : scan.Proper) (ho : scan ≠ {}) (offset : Nat) (cs : List Char) :
    split scan offset ('&' :: cs) = (split scan (offset + 1) cs).map (pushFront offset '&') := by
  induction cs generalizing offset with
  | nil => rw [split_single _ _ (by simp), if_neg fun h => ho h.2, hs.next_ampersand]
  | cons c cs ih =>
    by_cases hc : c = '&'
    · subst hc
      rw [ih (offset + 1), split, Scan.isOpen_eq_false_iff.mpr ho, if_neg Bool.false_ne_true]
      cases split scan (offset + 2) cs <;> rfl
    · rw [split_single _ _ (by simp [hc]), if_neg fun h => ho h.2, hs.next_ampersand]

/-- A character that does not cut goes to the front of the first segment. -/
theorem split_cons (hs : scan.Proper) (hc : c = '&' → scan ≠ {}) (offset : Nat) (cs : List Char) :
    split scan offset (c :: cs) =
      (split (scan.next offset c) (offset + 1) cs).map (pushFront offset c) := by
  by_cases he : c = '&'
  · subst he
    rw [split_ampersand hs (hc rfl), hs.next_ampersand]
  · rw [split_single _ _ fun _ h => absurd h he, if_neg fun h => he h.1]

theorem split_task (offset : Nat) (h : ∀ cs', cs ≠ '&' :: cs') :
    split {} offset ('&' :: cs) = (split {} (offset + 1) cs).map (newSegment offset) := by
  rw [split_single _ _ fun cs' _ => h cs', if_pos ⟨rfl, rfl⟩]

theorem split_stage (offset : Nat) (cs : List Char) :
    split {} offset ('&' :: '&' :: cs) =
      (split {} (offset + 2) cs).map ([⟨offset, []⟩] :: ·) := by
  rw [split]
  show (do
    let stages ← split {} (offset + 2) cs
    .ok ([Segment.mk offset []] :: stages)) = _
  cases split {} (offset + 2) cs <;> rfl

/-- What is left of a text where nothing more follows. -/
theorem split_nil (offset : Nat) :
    split scan offset [] = .ok cut ↔ scan = {} ∧ cut = [[⟨offset, []⟩]] := by
  obtain ⟨quote, bracket⟩ := scan
  cases quote with
  | some q => simp [split]
  | none => cases bracket <;> simp [split, eq_comm]

/-! ### Cutting takes a text apart -/

/-- The texts of segments. -/
def texts (cut : List (List Segment)) : List (List (List Char)) := cut.map (·.map Segment.text)

theorem texts_pushFront (h : texts cut = (first :: more) :: rest) (offset : Nat) (c : Char) :
    texts (pushFront offset c cut) = ((c :: first) :: more) :: rest := by
  match cut, h with
  | (segment :: segments) :: cut, h =>
    cases h
    rfl

theorem texts_newSegment (h : texts cut = (first :: more) :: rest) (offset : Nat) :
    texts (newSegment offset cut) = ([] :: first :: more) :: rest := by
  match cut, h with
  | (segment :: segments) :: cut, h =>
    cases h
    rfl

/-- Segments of which the first one closes what is open at a place and all others are closed; no
stage is empty. -/
def CloseFrom (o : Opened) : List (List (List Char)) → Prop
  | (first :: more) :: rest =>
    ClosesFrom o first ∧ (∀ segment ∈ more, Closed segment) ∧
      ∀ stage ∈ rest, stage ≠ [] ∧ ∀ segment ∈ stage, Closed segment
  | _ => False

theorem CloseFrom.exists_cons {o : Opened} (h : CloseFrom o stages) :
    ∃ first more rest, stages = (first :: more) :: rest := by
  match stages, h with
  | (first :: more) :: rest, _ => exact ⟨first, more, rest, rfl⟩

theorem CloseFrom.push {o : Opened} (hc : c = '&' → o ≠ {})
    (h : CloseFrom (o.next c) ((first :: more) :: rest)) :
    CloseFrom o (((c :: first) :: more) :: rest) :=
  ⟨⟨hc, h.1⟩, h.2⟩

theorem CloseFrom.task (h : CloseFrom {} ((first :: more) :: rest)) :
    CloseFrom {} (([] :: first :: more) :: rest) :=
  ⟨rfl, List.forall_mem_cons.mpr ⟨h.1, h.2.1⟩, h.2.2⟩

theorem CloseFrom.stage (h : CloseFrom {} ((first :: more) :: rest)) :
    CloseFrom {} ([[]] :: (first :: more) :: rest) :=
  ⟨rfl, List.forall_mem_nil _, List.forall_mem_cons.mpr
    ⟨⟨List.cons_ne_nil _ _, List.forall_mem_cons.mpr ⟨h.1, h.2.1⟩⟩, h.2.2⟩⟩

/-- Cutting takes a text apart into segments that close what is open, one after the other. -/
theorem cut_of_split (hs : scan.Proper) (h : split scan offset s = .ok cut) :
    CloseFrom scan.opened (texts cut) ∧ s = joined (texts cut) := by
  -- The induction is on the length, since two characters go at once where a stage ends.
  induction hn : s.length using Nat.strongRecOn generalizing s scan offset cut with
  | ind n ih =>
  match s with
  | [] =>
    obtain ⟨rfl, rfl⟩ := (split_nil offset).mp h
    exact ⟨⟨rfl, List.forall_mem_nil _, List.forall_mem_nil _⟩, (joined_last []).symm⟩
  | c :: cs =>
    by_cases hcut : c = '&' → scan ≠ {}
    · rw [split_cons hs hcut] at h
      obtain ⟨cut', hcut', rfl⟩ := map_eq_ok_iff.mp h
      obtain ⟨hclose, hjoin⟩ := ih cs.length (by simp [← hn]) (hs.next offset c) hcut' rfl
      obtain ⟨first, more, rest, ht⟩ := hclose.exists_cons
      rw [ht] at hclose hjoin
      -- The character goes to the front of the first segment.
      rw [texts_pushFront ht, joined_push, ← hjoin]
      rw [Scan.opened_next] at hclose
      exact ⟨hclose.push fun hc => mt Scan.opened_eq_iff.mp (hcut hc), rfl⟩
    · obtain ⟨rfl, rfl⟩ : c = '&' ∧ scan = {} := by simpa using hcut
      by_cases hpair : ∃ cs', cs = '&' :: cs'
      · obtain ⟨cs', rfl⟩ := hpair
        rw [split_stage] at h
        obtain ⟨cut', hcut', rfl⟩ := map_eq_ok_iff.mp h
        have hlt : cs'.length < n := by
          rw [← hn, List.length_cons, List.length_cons]
          omega
        obtain ⟨hclose, hjoin⟩ := ih cs'.length hlt hs hcut' rfl
        obtain ⟨first, more, rest, ht⟩ := hclose.exists_cons
        rw [ht] at hclose hjoin
        -- An empty segment ends the stage, and the rest begins the next one.
        show CloseFrom {} ([[]] :: texts cut') ∧ _ = joined ([[]] :: texts cut')
        rw [ht, joined_stage, ← hjoin]
        exact ⟨CloseFrom.stage hclose, rfl⟩
      · rw [split_task offset fun cs' h => hpair ⟨cs', h⟩] at h
        obtain ⟨cut', hcut', rfl⟩ := map_eq_ok_iff.mp h
        obtain ⟨hclose, hjoin⟩ := ih cs.length (by simp [← hn]) hs hcut' rfl
        obtain ⟨first, more, rest, ht⟩ := hclose.exists_cons
        rw [ht] at hclose hjoin
        -- An empty segment ends the task.
        rw [texts_newSegment ht, joined_task, ← hjoin]
        exact ⟨CloseFrom.task hclose, rfl⟩

/-! ### Segments are found again -/

/-- A segment that closes what is open is cut off as a whole, whatever the rest is cut into. -/
theorem split_append (hs : scan.Proper) (hfirst : ClosesFrom scan.opened first)
    (hrest : ∀ offset, ∃ cut, split {} offset s = .ok cut ∧
      texts cut = (segment :: more) :: rest) (offset : Nat) :
    ∃ cut, split scan offset (first ++ s) = .ok cut ∧
      texts cut = ((first ++ segment) :: more) :: rest := by
  induction first generalizing scan offset with
  | nil =>
    -- Nothing is open any more, so the rest is cut as from its own start.
    obtain rfl := Scan.opened_eq_iff.mp hfirst
    exact hrest offset
  | cons c first ih =>
    obtain ⟨hc, hfirst⟩ := hfirst
    rw [← Scan.opened_next scan offset c] at hfirst
    obtain ⟨cut, hcut, ht⟩ := ih (hs.next offset c) hfirst (offset + 1)
    refine ⟨pushFront offset c cut, ?_, texts_pushFront ht offset c⟩
    rw [List.cons_append, split_cons hs fun h => mt Scan.opened_eq_iff.mpr (hc h), hcut]
    rfl

/-- The text that is the join of segments is cut into them, wherever it stands. -/
def FoundAgain (stages : List (List (List Char))) : Prop :=
  ∀ offset, ∃ cut, split {} offset (joined stages) = .ok cut ∧ texts cut = stages

theorem foundAgain_last (h : Closed first) : FoundAgain [[first]] := by
  intro offset
  have hnil : ∀ offset, ∃ cut, split {} offset [] = .ok cut ∧ texts cut = [[[]]] :=
    fun offset => ⟨_, (split_nil offset).mpr ⟨rfl, rfl⟩, rfl⟩
  have hfirst := split_append Scan.proper_start h hnil offset
  rw [joined_last]
  rwa [List.append_nil] at hfirst

theorem FoundAgain.task (h : Closed first) (hs : Closed segment) (hne : segment ≠ [])
    (hrest : FoundAgain ((segment :: more) :: rest)) :
    FoundAgain ((first :: segment :: more) :: rest) := by
  intro offset
  have hcut : ∀ offset, ∃ cut,
      split {} offset ('&' :: joined ((segment :: more) :: rest)) = .ok cut ∧
        texts cut = ([] :: segment :: more) :: rest := by
    intro offset
    obtain ⟨cut, hcut, ht⟩ := hrest (offset + 1)
    refine ⟨newSegment offset cut, ?_, texts_newSegment ht offset⟩
    rw [split_task offset, hcut]
    · rfl
    · -- The next segment is not empty and closed, so what follows the `&` is no second one.
      match segment, hne with
      | c :: segment, _ =>
        rw [joined_push]
        rintro cs ⟨⟩
        exact hs.1 rfl rfl
  have hfirst := split_append Scan.proper_start h hcut offset
  rw [joined_task]
  rwa [List.append_nil] at hfirst

theorem FoundAgain.stage (h : Closed first) (hrest : FoundAgain ((segment :: more) :: rest)) :
    FoundAgain ([first] :: (segment :: more) :: rest) := by
  intro offset
  have hcut : ∀ offset, ∃ cut,
      split {} offset ('&' :: '&' :: joined ((segment :: more) :: rest)) = .ok cut ∧
        texts cut = [[]] :: (segment :: more) :: rest := by
    intro offset
    obtain ⟨cut, hcut, ht⟩ := hrest (offset + 2)
    refine ⟨[⟨offset, []⟩] :: cut, ?_, ?_⟩
    · rw [split_stage, hcut]
      rfl
    · rw [← ht]
      rfl
  have hfirst := split_append Scan.proper_start h hcut offset
  rw [joined_stage]
  rwa [List.append_nil] at hfirst

/-- Closed segments that are not empty are found again in the text that is their join. -/
theorem foundAgain (hfirst : ∀ segment ∈ first :: more, Closed segment ∧ segment ≠ [])
    (hrest : ∀ stage ∈ rest, stage ≠ [] ∧ ∀ segment ∈ stage, Closed segment ∧ segment ≠ []) :
    FoundAgain ((first :: more) :: rest) := by
  induction rest generalizing first more with
  | nil =>
    induction more generalizing first with
    | nil => exact foundAgain_last (hfirst first (List.mem_cons_self ..)).1
    | cons second more ih =>
      obtain ⟨hclosed, hsecond⟩ := List.forall_mem_cons.mp hfirst
      obtain ⟨hs, hne⟩ := hsecond second (List.mem_cons_self ..)
      exact .task hclosed.1 hs hne (ih hsecond)
  | cons stage rest ihrest =>
    obtain ⟨hstage, hrest'⟩ := List.forall_mem_cons.mp hrest
    induction more generalizing first with
    | nil =>
      match stage, hstage with
      | second :: others, hstage =>
        exact .stage (hfirst first (List.mem_cons_self ..)).1 (ihrest hstage.2 hrest')
    | cons second more ih =>
      obtain ⟨hclosed, hsecond⟩ := List.forall_mem_cons.mp hfirst
      obtain ⟨hs, hne⟩ := hsecond second (List.mem_cons_self ..)
      exact .task hclosed.1 hs hne (ih hsecond)

/-! ### Tasks and stages -/

theorem task_eq_ok_iff {segment : Segment} {t : Task} :
    segment.task = .ok t ↔ taskOf (trim segment.text) = .ok t := by
  unfold Segment.task
  cases taskOf (trim segment.text) <;> simp

theorem writes_iff {t : Task} : Writes segment t ↔ taskOf (trim segment) = .ok t :=
  ⟨fun h => task_eq_ok_iff.mp (h 0), fun h _ => task_eq_ok_iff.mpr h⟩

/-- A segment that writes a task is not blank. -/
theorem Writes.not_blank {t : Task} (h : Writes segment t) : allBlank segment = false := by
  by_contra hb
  have htrim : trim segment = [] := trim_eq_nil_iff.mpr (by simpa using hb)
  have htask := writes_iff.mp h
  rw [htrim] at htask
  cases htask

theorem stageOf_eq_ok_iff {segments : List Segment} {stage : Stage} :
    stageOf segments = .ok stage ↔
      List.Forall₂ (fun segment t => segment.task = .ok t) segments stage := by
  rw [← mapM_eq_ok_iff]
  match segments with
  | [] => exact Iff.rfl
  | _ :: _ :: _ => exact Iff.rfl
  | [segment] =>
    rw [List.mapM_cons, List.mapM_nil, stageOf]
    cases hb : allBlank segment.text with
    | false => exact Iff.rfl
    | true =>
      have hnone : ∀ t, segment.task ≠ .ok t := by
        intro t ht
        have hw := Writes.not_blank (writes_iff.mpr (task_eq_ok_iff.mp ht))
        rw [hb] at hw
        cases hw
      cases ht : segment.task with
      | ok t => exact absurd ht (hnone t)
      | error e =>
        rw [if_pos rfl]
        constructor
        · rintro ⟨⟩
        · rintro ⟨⟩

/-- The tasks of segments are those that their texts write. -/
theorem forall₂_writes_iff {plan : Plan} :
    List.Forall₂ (List.Forall₂ fun segment t => segment.task = .ok t) cut plan ↔
      List.Forall₂ (List.Forall₂ Writes) (texts cut) plan := by
  unfold texts
  rw [List.forall₂_map_left_iff]
  refine Iff.of_eq (congrArg (fun R => List.Forall₂ R cut plan) ?_)
  funext segments stage
  rw [List.forall₂_map_left_iff]
  simp only [writes_iff, task_eq_ok_iff]

/-- A text is read iff it is not blank and the stages into which it is cut are. -/
theorem readChars_eq_ok_iff {plan : Plan} :
    readChars s = .ok plan ↔ allBlank s = false ∧ ∃ cut, split {} 0 s = .ok cut ∧
      List.Forall₂ (List.Forall₂ Writes) (texts cut) plan := by
  unfold readChars segments
  cases allBlank s with
  | true => simp
  | false =>
    rw [if_neg Bool.false_ne_true]
    cases split {} 0 s with
    | error e => simp [bind, Except.bind]
    | ok cut =>
      show cut.mapM stageOf = .ok plan ↔ _
      simp only [mapM_eq_ok_iff, stageOf_eq_ok_iff, forall₂_writes_iff, true_and,
        Except.ok.injEq, exists_eq_left']

/-! ### Reading -/

theorem exists_joined_eq (first : List Char) (more : List (List Char))
    (rest : List (List (List Char))) :
    ∃ behind, joined ((first :: more) :: rest) = first ++ behind := by
  cases more with
  | cons second more => exact ⟨_, joined_task first second more rest⟩
  | nil =>
    cases rest with
    | cons stage rest => exact ⟨_, joined_stage first stage rest⟩
    | nil => exact ⟨[], by rw [joined_last, List.append_nil]⟩

theorem exists_writes_of_forall₂ {plan : Plan}
    (h : List.Forall₂ (List.Forall₂ Writes) stages plan) :
    ∀ stage ∈ stages, ∀ segment ∈ stage, ∃ t, Writes segment t := by
  intro stage hs segment hseg
  obtain ⟨tasks, -, hstage⟩ := exists_of_forall₂ h stage hs
  obtain ⟨t, -, ht⟩ := exists_of_forall₂ hstage segment hseg
  exact ⟨t, ht⟩

/-- Closed segments that write tasks are cut apart again, and their join is not blank. -/
theorem Decomposes.foundAgain (h : Decomposes s stages) :
    allBlank s = false ∧ ∃ cut, split {} 0 s = .ok cut ∧ texts cut = stages := by
  have hsegments : ∀ stage ∈ stages, stage ≠ [] ∧
      ∀ segment ∈ stage, Closed segment ∧ segment ≠ [] := by
    refine fun stage hs => ⟨h.stage_ne stage hs, fun segment hseg => ?_⟩
    refine ⟨h.closed stage hs segment hseg, ?_⟩
    rintro rfl
    cases h.not_blank stage hs [] hseg
  rw [h.eq_joined]
  match stages, h.stages_ne, hsegments with
  | [] :: rest, _, hsegments => exact absurd rfl (hsegments [] (List.mem_cons_self ..)).1
  | (first :: more) :: rest, _, hsegments =>
    have hblank := h.not_blank _ (List.mem_cons_self ..) first (List.mem_cons_self ..)
    obtain ⟨hstage, hrest⟩ := List.forall_mem_cons.mp hsegments
    refine ⟨?_, Script.foundAgain hstage.2 hrest 0⟩
    obtain ⟨behind, hjoin⟩ := exists_joined_eq first more rest
    rw [hjoin]
    unfold allBlank at hblank ⊢
    rw [List.all_append, hblank, Bool.false_and]

/-- A text that is the join of segments is read as the tasks that they write. -/
theorem Decomposes.readChars_eq_ok {plan : Plan} (h : Decomposes s stages)
    (hw : List.Forall₂ (List.Forall₂ Writes) stages plan) : readChars s = .ok plan := by
  obtain ⟨hblank, cut, hcut, rfl⟩ := h.foundAgain
  exact readChars_eq_ok_iff.mpr ⟨hblank, cut, hcut, hw⟩

/-- A text that is read is the join of the segments of its tasks. -/
theorem exists_decomposes {plan : Plan} (h : readChars s = .ok plan) :
    ∃ stages, Decomposes s stages ∧ List.Forall₂ (List.Forall₂ Writes) stages plan := by
  obtain ⟨-, cut, hcut, hw⟩ := readChars_eq_ok_iff.mp h
  obtain ⟨hclose, hjoin⟩ := cut_of_split Scan.proper_start hcut
  obtain ⟨first, more, rest, ht⟩ := hclose.exists_cons
  rw [ht] at hclose hjoin hw
  have hclosed : ∀ stage ∈ (first :: more) :: rest,
      stage ≠ [] ∧ ∀ segment ∈ stage, Closed segment :=
    List.forall_mem_cons.mpr ⟨⟨List.cons_ne_nil _ _,
      List.forall_mem_cons.mpr ⟨hclose.1, hclose.2.1⟩⟩, hclose.2.2⟩
  have hwrites := exists_writes_of_forall₂ hw
  refine ⟨_, ⟨List.cons_ne_nil _ _, fun stage hs => (hclosed stage hs).1,
    fun stage hs => (hclosed stage hs).2, fun stage hs segment hseg => ?_, hwrites, hjoin⟩, hw⟩
  obtain ⟨t, ht⟩ := hwrites stage hs segment hseg
  exact ht.not_blank

/-- A text is read as a plan iff it is the join of closed segments that write the tasks of the
plan, each its own.  There is at most one way to take a text apart so, and where there is none, the
text is malformed. -/
theorem read_iff_decomposes (text : String) :
    (∀ plan, read text = .ok plan ↔ ∃ stages, Decomposes text.toList stages ∧
      List.Forall₂ (List.Forall₂ Writes) stages plan) ∧
    (∀ stages stages', Decomposes text.toList stages → Decomposes text.toList stages' →
      stages = stages') ∧
    ((¬ ∃ stages, Decomposes text.toList stages) ↔ ∃ e, read text = .error e) := by
  have hread : ∀ plan, read text = .ok plan ↔ ∃ stages, Decomposes text.toList stages ∧
      List.Forall₂ (List.Forall₂ Writes) stages plan := by
    refine fun plan => ⟨exists_decomposes, ?_⟩
    rintro ⟨stages, h, hw⟩
    exact h.readChars_eq_ok hw
  refine ⟨hread, fun stages stages' h h' => ?_, ?_⟩
  · obtain ⟨-, cut, hcut, rfl⟩ := h.foundAgain
    obtain ⟨-, cut', hcut', rfl⟩ := h'.foundAgain
    rw [Except.ok.inj (hcut.symm.trans hcut')]
  · constructor
    · intro hnone
      cases hr : read text with
      | error e => exact ⟨e, rfl⟩
      | ok plan =>
        obtain ⟨stages, h, -⟩ := (hread plan).mp hr
        exact absurd ⟨stages, h⟩ hnone
    · rintro ⟨e, he⟩ ⟨stages, h⟩
      obtain ⟨plan, hw⟩ := exists_forall₂ fun stage hs => exists_forall₂ (h.writes stage hs)
      have hok := (hread plan).mpr ⟨stages, h, hw⟩
      rw [he] at hok
      cases hok

/-- A script in which an operator stands in a quote and another one in an option list. -/
def sideBySide : String := "plan 'draft & sketch' & code[input:a&&b] && review"

/-- The segments of the script. -/
def sideBySideSegments : List (List (List Char)) :=
  [["plan 'draft & sketch' ".toList, " code[input:a&&b] ".toList], [" review".toList]]

/-- The plan of the script. -/
def sideBySidePlan : Plan :=
  [[{ name := "plan", argument := "draft & sketch" }, { name := "code", inputFiles := ["a&&b"] }],
    [{ name := "review" }]]

/-- Operators in quotes and option lists take nothing apart. -/
theorem sideBySide_read :
    Decomposes sideBySide.toList sideBySideSegments ∧ read sideBySide = .ok sideBySidePlan ∧
      ∀ stages, Decomposes sideBySide.toList stages → stages = sideBySideSegments := by
  have hw : List.Forall₂ (List.Forall₂ Writes) sideBySideSegments sideBySidePlan :=
    .cons (.cons (writes_iff.mpr (by decide +kernel))
      (.cons (writes_iff.mpr (by decide +kernel)) .nil))
      (.cons (.cons (writes_iff.mpr (by decide +kernel)) .nil) .nil)
  have h : Decomposes sideBySide.toList sideBySideSegments :=
    ⟨by decide, by decide, by decide +kernel, by decide +kernel, exists_writes_of_forall₂ hw,
      by decide +kernel⟩
  obtain ⟨hiff, hunique, -⟩ := read_iff_decomposes sideBySide
  exact ⟨h, (hiff _).mpr ⟨_, h, hw⟩, fun stages h' => hunique stages _ h' h⟩

end Conductor.Script
