import Conductor.Proofs.Script.Grammar
import Conductor.Proofs.Text.Pieces

/-!
# Where faults of scripts are reported

A script that is not blank and cannot be read is reported with an offset, and the offset points at
the fault (`PointsAt`).

Where a quote or an option list is not closed, cutting keeps the place of the last one opened: no
such quote stands behind the quote, and no closing bracket outside quotes behind the bracket
(`Tracks`).  Every other script is cut into segments that stand one behind the other, with one or
two `&` between them (`Placed`).  They are read from the first one on, so all segments before the one
at fault write tasks (`Reached`).  A blank one is reported at its start, and any other at its first
character that is not blank.

Main statement: `points_at_fault`.
-/

namespace Conductor.Script

open Text

/-! ### What is pointed at -/

/-- What is open behind a text at the start of a script. -/
def openBehind (s : List Char) : Opened := s.foldl Opened.next {}

/-- A quote opened outside quotes, with no such quote behind it. -/
structure UnclosedQuote (before : List Char) (q : Char) (after : List Char) : Prop where
  quote : isQuote q = true
  outside : (openBehind before).quote = none
  never : q ∉ after

/-- A bracket opened outside quotes, with no closing one outside quotes behind it. -/
structure UnclosedOptions (before after : List Char) : Prop where
  outside : (openBehind before).quote = none
  never : ∀ inside rest, after = inside ++ ']' :: rest →
    (openBehind (before ++ '[' :: inside)).quote ≠ none

/-- The rest of a script behind segments that write tasks and their operators; `fresh` says whether
a stage begins there.  An `&` alone is none of a pair. -/
inductive Reached (text : List Char) : (fresh : Bool) → (before rest : List Char) → Prop
  | start : Reached text true [] text
  | task {fresh : Bool} {before segment rest : List Char} {t : Task}
    (h : Reached text fresh before (segment ++ '&' :: rest)) (hclosed : Closed segment)
    (hwrites : Writes segment t) (hsingle : ∀ rest', rest ≠ '&' :: rest') :
    Reached text false (before ++ segment ++ ['&']) rest
  | stage {fresh : Bool} {before segment rest : List Char} {t : Task}
    (h : Reached text fresh before (segment ++ '&' :: '&' :: rest)) (hclosed : Closed segment)
    (hwrites : Writes segment t) : Reached text true (before ++ segment ++ ['&', '&']) rest

/-- What follows a segment: nothing, or an operator. -/
def EndsSegment (after : List Char) : Prop := after = [] ∨ ∃ rest, after = '&' :: rest

/-- What follows a stage: nothing, or a pair of `&`. -/
def EndsStage (after : List Char) : Prop := after = [] ∨ ∃ rest, after = '&' :: '&' :: rest

/-- A fault within a segment that is not blank. -/
def SyntaxFault.isOfTask : SyntaxFault → Bool
  | missingName | invalidTask _ | textAfterArgument | invalidOption _ | unknownOption _
  | invalidTail _ => true
  | _ => false

/-- An offset points at a fault of a script. -/
inductive PointsAt (text : List Char) : SyntaxFault → Nat → Prop
  | unterminatedQuote {before after : List Char} {q : Char} (h : UnclosedQuote before q after)
    (htext : text = before ++ q :: after) : PointsAt text .unterminatedQuote before.length
  | unterminatedOptions {before after : List Char} (h : UnclosedOptions before after)
    (htext : text = before ++ '[' :: after) : PointsAt text .unterminatedOptions before.length
  | emptyStage {before segment after : List Char} (h : Reached text true before (segment ++ after))
    (hends : EndsStage after) (hblank : allBlank segment = true) :
    PointsAt text .emptyStage before.length
  | emptyTask {fresh : Bool} {before segment after : List Char}
    (h : Reached text fresh before (segment ++ after)) (hends : EndsSegment after)
    (hshared : fresh = false ∨ ¬EndsStage after) (hblank : allBlank segment = true) :
    PointsAt text .emptyTask before.length
  | task {fresh : Bool} {before blanks more after : List Char} {c : Char} {fault : SyntaxFault}
    (h : Reached text fresh before (blanks ++ c :: more ++ after)) (hends : EndsSegment after)
    (hclosed : Closed (blanks ++ c :: more)) (hblanks : allBlank blanks = true)
    (hc : isBlank c = false) (hfault : fault.isOfTask = true)
    (htask : taskOf (trim (blanks ++ c :: more)) = .error fault) :
    PointsAt text fault (before.length + blanks.length)

variable {scan : Scan} {offset : Nat} {c : Char} {before after rest s text : List Char}
  {cut : List (List Segment)} {e : SyntaxError} {fault : SyntaxFault} {fresh : Bool}

/-! ### Quotes and option lists that are not closed -/

theorem openBehind_concat (s : List Char) (c : Char) :
    openBehind (s ++ [c]) = (openBehind s).next c := by
  unfold openBehind
  rw [List.foldl_append, List.foldl_cons, List.foldl_nil]

/-- What cutting keeps of the text before a place: what is open there, and the places at which a
quote and an option list were opened that nothing has closed. -/
structure Tracks (scan : Scan) (before : List Char) : Prop where
  opened : scan.opened = openBehind before
  quote : ∀ q p, scan.quote = some (q, p) →
    ∃ b a, before = b ++ q :: a ∧ p = b.length ∧ UnclosedQuote b q a
  options : ∀ p, scan.bracket = some p →
    ∃ b a, before = b ++ '[' :: a ∧ p = b.length ∧ UnclosedOptions b a

theorem tracks_start : Tracks {} [] := ⟨rfl, nofun, nofun⟩

theorem UnclosedQuote.push {q : Char} (h : UnclosedQuote before q after) (hc : c ≠ q) :
    UnclosedQuote before q (after ++ [c]) :=
  ⟨h.quote, h.outside, by simpa [h.never] using Ne.symm hc⟩

theorem UnclosedOptions.push (h : UnclosedOptions before after)
    (hc : c = ']' → (openBehind (before ++ '[' :: after)).quote ≠ none) :
    UnclosedOptions before (after ++ [c]) := by
  refine ⟨h.outside, fun inside rest heq => ?_⟩
  rcases rest.eq_nil_or_concat with rfl | ⟨rest, d, rfl⟩
  · obtain ⟨rfl, hlast⟩ := List.append_inj' heq rfl
    exact hc (List.singleton_inj.mp hlast)
  · rw [List.concat_eq_append, ← List.cons_append, ← List.append_assoc] at heq
    exact h.never inside rest (List.append_inj' heq rfl).1

namespace Tracks

theorem proper (h : Tracks scan before) : scan.Proper := by
  rintro ⟨q, p⟩ hq
  obtain ⟨b, a, -, -, hunclosed⟩ := h.quote q p hq
  exact hunclosed.quote

theorem quote_eq (h : Tracks scan before) : (openBehind before).quote = scan.quote.map Prod.fst := by
  rw [← h.opened]
  rfl

/-- One more character keeps the places in step. -/
theorem next (h : Tracks scan before) (c : Char) :
    Tracks (scan.next before.length c) (before ++ [c]) := by
  have hopened : (scan.next before.length c).opened = openBehind (before ++ [c]) := by
    rw [Scan.opened_next, openBehind_concat, h.opened]
  -- An option list that stays open is behind the character too, which closes it only outside quotes.
  have hoptions : ∀ p, scan.bracket = some p → (c = ']' → scan.quote ≠ none) →
      ∃ b a, before ++ [c] = b ++ '[' :: a ∧ p = b.length ∧ UnclosedOptions b a := by
    intro p hp hc
    obtain ⟨b, a, hbefore, hlength, hunclosed⟩ := h.options p hp
    refine ⟨b, a ++ [c], by rw [hbefore, List.append_assoc, List.cons_append], hlength, ?_⟩
    refine hunclosed.push fun he => ?_
    rw [← hbefore, h.quote_eq]
    simpa using hc he
  refine ⟨hopened, ?_, ?_⟩
  · intro q p hq
    unfold Scan.next at hq
    split at hq
    · next q' p' hquote =>
      split at hq
      · cases hq
      · next hc =>
        rw [hquote] at hq
        cases hq
        obtain ⟨b, a, hbefore, hlength, hunclosed⟩ := h.quote q p hquote
        exact ⟨b, a ++ [c], by rw [hbefore, List.append_assoc, List.cons_append], hlength,
          hunclosed.push hc⟩
    · next hquote =>
      have houtside : (openBehind before).quote = none := by rw [h.quote_eq, hquote]; rfl
      split at hq
      · next hc =>
        cases hq
        exact ⟨before, [], rfl, rfl, hc, houtside, List.not_mem_nil⟩
      · split at hq
        · cases hquote.symm.trans hq
        · split at hq <;> cases hquote.symm.trans hq
  · intro p hp
    unfold Scan.next at hp
    split at hp
    · next q' p' hquote =>
      have hsome : scan.quote ≠ none := by simp [hquote]
      split at hp
      · exact hoptions p hp fun _ => hsome
      · exact hoptions p hp fun _ => hsome
    · next hquote =>
      have houtside : (openBehind before).quote = none := by rw [h.quote_eq, hquote]; rfl
      split at hp
      · next hc =>
        refine hoptions p hp ?_
        rintro rfl
        cases hc
      · split at hp
        · next hc =>
          cases hp
          exact ⟨before, [], by rw [hc], rfl, houtside, fun inside rest h => by simp at h⟩
        · split at hp
          · cases hp
          · next hc => exact hoptions p hp fun h => absurd h hc

/-- Nothing is open behind an `&` where nothing is open before it. -/
theorem ampersand (h : Tracks {} before) : Tracks {} (before ++ ['&']) := by
  have hnext := h.next '&'
  rwa [Scan.proper_start.next_ampersand] at hnext

end Tracks

/-- A text that cannot be cut leaves something open at its end. -/
theorem exists_tracks_of_split (h : Tracks scan before)
    (hs : split scan before.length s = .error e) :
    ∃ scan', Tracks scan' (before ++ s) ∧ split scan' (before ++ s).length [] = .error e := by
  -- By the length of the rest, since a pair of `&` is cut off in one step.
  induction hn : s.length using Nat.strongRecOn generalizing s scan before with
  | ind n ih =>
  match s with
  | [] =>
    rw [List.append_nil]
    exact ⟨scan, h, hs⟩
  | c :: cs =>
    by_cases hcut : c = '&' → scan ≠ {}
    · rw [split_cons h.proper hcut, map_eq_error_iff] at hs
      have hrest := ih cs.length (by simp [← hn]) (h.next c) (by simpa using hs) rfl
      rwa [List.append_assoc] at hrest
    · obtain ⟨rfl, rfl⟩ : c = '&' ∧ scan = {} := by simpa using hcut
      by_cases hpair : ∃ cs', cs = '&' :: cs'
      · obtain ⟨cs', rfl⟩ := hpair
        rw [split_stage, map_eq_error_iff] at hs
        have hrest := ih cs'.length (by simp only [← hn, List.length_cons]; omega)
          h.ampersand.ampersand (by simpa using hs) rfl
        rwa [List.append_assoc, List.append_assoc] at hrest
      · rw [split_task _ fun cs' h => hpair ⟨cs', h⟩, map_eq_error_iff] at hs
        have hrest := ih cs.length (by simp [← hn]) h.ampersand (by simpa using hs) rfl
        rwa [List.append_assoc] at hrest

/-- A text that cannot be cut is reported where the last quote or option list was opened. -/
theorem pointsAt_of_split (h : split {} 0 text = .error e) :
    ∃ p, e.position = some p ∧ PointsAt text e.fault p := by
  obtain ⟨scan, htracks, hend⟩ := exists_tracks_of_split tracks_start h
  rw [List.nil_append] at htracks
  unfold split at hend
  split at hend
  · next q p hquote =>
    cases hend
    obtain ⟨b, a, htext, rfl, hunclosed⟩ := htracks.quote q p hquote
    exact ⟨_, rfl, .unterminatedQuote hunclosed htext⟩
  · split at hend
    · next p hbracket =>
      cases hend
      obtain ⟨b, a, htext, rfl, hunclosed⟩ := htracks.options p hbracket
      exact ⟨_, rfl, .unterminatedOptions hunclosed htext⟩
    · cases hend

/-! ### Segments and their places -/

/-- Segments stand one behind the other from an offset on, each closed and with an operator behind
it; the first one closes what is open at its start. -/
inductive Placed : Opened → Nat → List Char → List (List Segment) → Prop
  | last {o : Opened} {offset : Nat} {segment : List Char} (hclosed : ClosesFrom o segment) :
    Placed o offset segment [[⟨offset, segment⟩]]
  | task {o : Opened} {offset : Nat} {segment rest : List Char} {stage : List Segment}
    {more : List (List Segment)} (hclosed : ClosesFrom o segment)
    (hsingle : ∀ rest', rest ≠ '&' :: rest')
    (h : Placed {} (offset + segment.length + 1) rest (stage :: more)) :
    Placed o offset (segment ++ '&' :: rest) ((⟨offset, segment⟩ :: stage) :: more)
  | stage {o : Opened} {offset : Nat} {segment rest : List Char} {cut : List (List Segment)}
    (hclosed : ClosesFrom o segment) (h : Placed {} (offset + segment.length + 2) rest cut) :
    Placed o offset (segment ++ '&' :: '&' :: rest) ([⟨offset, segment⟩] :: cut)

theorem Placed.exists_cons {o : Opened} (h : Placed o offset s cut) :
    ∃ segment stage more, cut = (segment :: stage) :: more := by
  cases h with
  | last => exact ⟨_, _, _, rfl⟩
  | task => exact ⟨_, _, _, rfl⟩
  | stage => exact ⟨_, _, _, rfl⟩

/-- A character that does not cut belongs to the segment behind it. -/
theorem Placed.push {o : Opened} (hc : c = '&' → o ≠ {})
    (h : Placed (o.next c) (offset + 1) s cut) :
    Placed o offset (c :: s) (pushFront offset c cut) := by
  generalize hm : offset + 1 = m at h
  cases h with
  | last hclosed => exact .last ⟨hc, hclosed⟩
  | @task _ _ segment rest stage more hclosed hsingle h =>
    have hoffset : m + segment.length + 1 = offset + (c :: segment).length + 1 := by
      rw [List.length_cons]
      omega
    rw [hoffset] at h
    have hcons : ClosesFrom o (c :: segment) := ⟨hc, hclosed⟩
    exact Placed.task hcons hsingle h
  | @stage _ _ segment rest cut hclosed h =>
    have hoffset : m + segment.length + 2 = offset + (c :: segment).length + 2 := by
      rw [List.length_cons]
      omega
    rw [hoffset] at h
    have hcons : ClosesFrom o (c :: segment) := ⟨hc, hclosed⟩
    exact Placed.stage hcons h

theorem closesFrom_nil : ClosesFrom {} [] := rfl

/-- Cutting finds the place of each segment. -/
theorem placed_of_split (hs : scan.Proper) (h : split scan offset s = .ok cut) :
    Placed scan.opened offset s cut := by
  induction hn : s.length using Nat.strongRecOn generalizing s scan offset cut with
  | ind n ih =>
  match s with
  | [] =>
    obtain ⟨rfl, rfl⟩ := (split_nil offset).mp h
    exact .last rfl
  | c :: cs =>
    by_cases hcut : c = '&' → scan ≠ {}
    · rw [split_cons hs hcut] at h
      obtain ⟨cut', hcut', rfl⟩ := map_eq_ok_iff.mp h
      have hrest := ih cs.length (by simp [← hn]) (hs.next offset c) hcut' rfl
      rw [Scan.opened_next] at hrest
      exact hrest.push fun hc => mt Scan.opened_eq_iff.mp (hcut hc)
    · obtain ⟨rfl, rfl⟩ : c = '&' ∧ scan = {} := by simpa using hcut
      by_cases hpair : ∃ cs', cs = '&' :: cs'
      · obtain ⟨cs', rfl⟩ := hpair
        rw [split_stage] at h
        obtain ⟨cut', hcut', rfl⟩ := map_eq_ok_iff.mp h
        have hlt : cs'.length < n := by
          rw [← hn, List.length_cons, List.length_cons]
          omega
        exact Placed.stage closesFrom_nil (ih cs'.length hlt hs hcut' rfl)
      · have hsingle : ∀ cs', cs ≠ '&' :: cs' := fun cs' h => hpair ⟨cs', h⟩
        rw [split_task offset hsingle] at h
        obtain ⟨cut', hcut', rfl⟩ := map_eq_ok_iff.mp h
        have hrest := ih cs.length (by simp [← hn]) hs hcut' rfl
        obtain ⟨segment, stage, more, rfl⟩ := hrest.exists_cons
        exact Placed.task closesFrom_nil hsingle hrest

/-! ### The segment at fault -/

theorem Reached.eq_append (h : Reached text fresh before rest) : text = before ++ rest := by
  induction h with
  | start => rfl
  | task _ _ _ _ ih => simpa using ih
  | stage _ _ _ ih => simpa using ih

theorem isOfTask_of_argument? (h : argument? s = .error fault) : fault.isOfTask = true := by
  unfold argument? at h
  dsimp only at h
  split at h
  · cases h
  · split at h
    · cases h
    · split at h <;> cases h
      rfl

theorem isOfTask_of_options? (h : options? s = .error fault) : fault.isOfTask = true := by
  obtain ⟨part, -, hpart⟩ := exists_of_mapM_eq_error h
  unfold keyValue? at hpart
  split at hpart
  · dsimp only at hpart
    split at hpart <;> cases hpart
    rfl
  · cases hpart
    rfl

theorem isOfTask_of_applyOption {t : Task} {option : List Char × List Char}
    (h : applyOption t option = .error fault) : fault.isOfTask = true := by
  unfold applyOption at h
  dsimp only at h
  split at h
  · cases h
  · split at h
    · split at h <;> cases h
      rfl
    · split at h <;> cases h
      rfl

theorem isOfTask_of_foldlM {t : Task} {options : List (List Char × List Char)}
    (h : options.foldlM applyOption t = .error fault) : fault.isOfTask = true := by
  induction options generalizing t with
  | nil => cases h
  | cons option options ih =>
    rw [List.foldlM_cons] at h
    rcases bind_eq_error_iff.mp h with h | ⟨t', -, h⟩
    · exact isOfTask_of_applyOption h
    · exact ih h

/-- What is wrong with a text that is no task is within it. -/
theorem isOfTask_of_taskOf (hne : s ≠ []) (h : taskOf s = .error fault) :
    fault.isOfTask = true := by
  unfold taskOf at h
  split at h
  · exact absurd rfl hne
  · split at h
    · cases h
      rfl
    · split at h
      · cases h
        rfl
      · rcases bind_eq_error_iff.mp h with h | ⟨argument, -, h⟩
        · exact isOfTask_of_argument? h
        · rcases bind_eq_error_iff.mp h with h | ⟨options, -, h⟩
          · exact isOfTask_of_options? h
          · exact isOfTask_of_foldlM h

theorem exists_blanks (hs : allBlank s = false) : ∃ blanks c more, s = blanks ++ c :: more ∧
    allBlank blanks = true ∧ isBlank c = false ∧ trimStart s = c :: more := by
  cases hd : trimStart s with
  | nil =>
    rw [trimStart_eq_nil_iff.mp hd] at hs
    cases hs
  | cons c more =>
    refine ⟨s.takeWhile isBlank, c, more, ?_, List.all_takeWhile, head_dropWhile_not hd, rfl⟩
    rw [← hd, trimStart, List.takeWhile_append_dropWhile]

/-- A segment that writes no task is reported where it begins, behind its blanks. -/
theorem pointsAt_of_task (hreached : Reached text fresh before (s ++ after)) (hclosed : Closed s)
    (hends : EndsSegment after) (hshared : allBlank s = true → fresh = false ∨ ¬EndsStage after)
    (h : Segment.task ⟨before.length, s⟩ = .error e) :
    ∃ p, e.position = some p ∧ PointsAt text e.fault p := by
  unfold Segment.task at h
  dsimp only at h
  cases htask : taskOf (trim s) with
  | ok t =>
    rw [htask] at h
    cases h
  | error fault =>
    rw [htask] at h
    cases h
    cases hblank : allBlank s with
    | true =>
      rw [trim_eq_nil_iff.mpr hblank] at htask
      cases htask
      exact ⟨_, rfl, .emptyTask hreached hends (hshared hblank) hblank⟩
    | false =>
      obtain ⟨blanks, c, more, rfl, hblanks, hc, htrim⟩ := exists_blanks hblank
      have hne : trim (blanks ++ c :: more) ≠ [] := by
        rw [ne_eq, trim_eq_nil_iff, hblank]
        exact Bool.false_ne_true
      refine ⟨before.length + blanks.length, ?_,
        .task hreached hends hclosed hblanks hc (isOfTask_of_taskOf hne htask) htask⟩
      rw [htrim]
      simp

/-- What is read of the stage at a place: a whole one where it begins, else its other tasks. -/
def tasksOf (fresh : Bool) (segments : List Segment) : Except SyntaxError Stage :=
  if fresh then stageOf segments else segments.mapM Segment.task

theorem tasksOf_cons_cons (fresh : Bool) (first second : Segment) (more : List Segment) :
    tasksOf fresh (first :: second :: more) = (first :: second :: more).mapM Segment.task := by
  cases fresh <;> rfl

theorem tasksOf_eq_ok_iff {segments : List Segment} {tasks : Stage} :
    tasksOf fresh segments = .ok tasks ↔
      List.Forall₂ (fun segment t => segment.task = .ok t) segments tasks := by
  cases fresh with
  | true => exact stageOf_eq_ok_iff
  | false => exact mapM_eq_ok_iff

/-- A segment behind which its stage ends. -/
theorem pointsAt_of_single (hreached : Reached text fresh before (s ++ after)) (hclosed : Closed s)
    (hends : EndsStage after) (h : tasksOf fresh [⟨before.length, s⟩] = .error e) :
    ∃ p, e.position = some p ∧ PointsAt text e.fault p := by
  have hsegment : EndsSegment after := hends.imp id fun ⟨rest, h⟩ => ⟨'&' :: rest, h⟩
  cases fresh with
  | false =>
    obtain ⟨segment, hmem, htask⟩ := exists_of_mapM_eq_error h
    obtain rfl := List.mem_singleton.mp hmem
    exact pointsAt_of_task hreached hclosed hsegment (fun _ => .inl rfl) htask
  | true =>
    rw [tasksOf, if_pos rfl, stageOf] at h
    split at h
    · next hblank =>
      cases h
      exact ⟨_, rfl, .emptyStage hreached hends hblank⟩
    · next hblank =>
      rcases bind_eq_error_iff.mp h with htask | ⟨_, -, hpure⟩
      · exact pointsAt_of_task hreached hclosed hsegment (fun hb => absurd hb hblank) htask
      · cases hpure

/-- Segments that are read from a place on are reported at the first one that writes no task. -/
theorem pointsAt_of_placed {o : Opened} (hplaced : Placed o offset rest cut) (ho : o = {})
    (hoffset : offset = before.length) (hreached : Reached text fresh before rest)
    {stage : List Segment} {more : List (List Segment)} (hcut : cut = stage :: more)
    (h : tasksOf fresh stage = .error e ∨
      (∃ tasks, tasksOf fresh stage = .ok tasks) ∧ more.mapM stageOf = .error e) :
    ∃ p, e.position = some p ∧ PointsAt text e.fault p := by
  -- The induction is on how the segments stand; what has been read so far is in `Reached`.
  induction hplaced generalizing before fresh stage more with
  | @last _ _ segment hclosed =>
    subst ho hoffset
    obtain ⟨rfl, rfl⟩ := List.cons.inj hcut
    rw [← List.append_nil segment] at hreached
    rcases h with h | ⟨-, h⟩
    · exact pointsAt_of_single hreached hclosed (.inl rfl) h
    · cases h
  | @task _ _ segment rest others more' hclosed hsingle hrest ih =>
    subst ho hoffset
    obtain ⟨rfl, rfl⟩ := List.cons.inj hcut
    have hlength : before.length + segment.length + 1 = (before ++ segment ++ ['&']).length := by
      rw [List.length_append, List.length_append, List.length_singleton]
    have hshared : ¬EndsStage ('&' :: rest) := by
      rintro (h | ⟨rest', h⟩)
      · cases h
      · exact hsingle rest' (List.cons.inj h).2
    obtain ⟨second, others, more', hothers⟩ := hrest.exists_cons
    obtain ⟨rfl, rfl⟩ := List.cons.inj hothers
    rw [tasksOf_cons_cons] at h
    -- What follows the segment is read as the rest of its stage.
    have hfollows : ∀ t, Segment.task ⟨before.length, segment⟩ = .ok t →
        (tasksOf false (second :: others) = .error e ∨
          (∃ tasks, tasksOf false (second :: others) = .ok tasks) ∧
            more'.mapM stageOf = .error e) →
        ∃ p, e.position = some p ∧ PointsAt text e.fault p := fun t ht h =>
      ih rfl hlength (.task hreached hclosed (writes_iff.mpr (task_eq_ok_iff.mp ht)) hsingle) rfl h
    rcases h with h | ⟨⟨tasks, h⟩, hmore⟩
    · rw [mapM_eq_error_iff, goodUntil_cons_iff, ← mapM_eq_error_iff] at h
      rcases h with htask | ⟨⟨t, ht⟩, h⟩
      · exact pointsAt_of_task hreached hclosed (.inr ⟨rest, rfl⟩) (fun _ => .inr hshared) htask
      · exact hfollows t ht (.inl h)
    · rw [mapM_eq_ok_iff] at h
      cases h with
      | cons ht htasks => exact hfollows _ ht (.inr ⟨⟨_, mapM_eq_ok_iff.mpr htasks⟩, hmore⟩)
  | @stage _ _ segment rest cut hclosed hrest ih =>
    subst ho hoffset
    obtain ⟨rfl, rfl⟩ := List.cons.inj hcut
    have hlength : before.length + segment.length + 2 =
        (before ++ segment ++ ['&', '&']).length := by
      rw [List.length_append, List.length_append]
      rfl
    rcases h with h | ⟨⟨tasks, h⟩, hmore⟩
    · exact pointsAt_of_single hreached hclosed (.inr ⟨rest, rfl⟩) h
    · obtain ⟨first, others, more, rfl⟩ := hrest.exists_cons
      rw [mapM_eq_error_iff, goodUntil_cons_iff, ← mapM_eq_error_iff] at hmore
      cases tasksOf_eq_ok_iff.mp h with
      | cons ht _ =>
        exact ih rfl hlength (.stage hreached hclosed (writes_iff.mpr (task_eq_ok_iff.mp ht))) rfl
          hmore

theorem PointsAt.le_length {p : Nat} (h : PointsAt text fault p) : p ≤ text.length := by
  cases h with
  | unterminatedQuote _ htext => simp [htext]
  | unterminatedOptions _ htext => simp [htext]
  | emptyStage h => simp [h.eq_append]
  | emptyTask h => simp [h.eq_append]
  | task h =>
    rw [h.eq_append]
    simp only [List.length_append]
    omega

/-- A script that is not blank and cannot be read is reported with an offset in it that points at
the fault. -/
theorem points_at_fault (text : String) (hblank : isBlankText text = false)
    (h : read text = .error e) :
    ∃ p ≤ text.length, e.position = some p ∧ PointsAt text.toList e.fault p := by
  have hpoints : ∃ p, e.position = some p ∧ PointsAt text.toList e.fault p := by
    change readChars text.toList = .error e at h
    unfold readChars at h
    rw [if_neg (by rw [← isBlankText, hblank]; exact Bool.false_ne_true)] at h
    rcases bind_eq_error_iff.mp h with h | ⟨cut, hcut, h⟩
    · exact pointsAt_of_split h
    · have hplaced := placed_of_split Scan.proper_start hcut
      obtain ⟨first, others, more, rfl⟩ := hplaced.exists_cons
      rw [mapM_eq_error_iff, goodUntil_cons_iff, ← mapM_eq_error_iff] at h
      exact pointsAt_of_placed hplaced rfl rfl .start rfl h
  obtain ⟨p, hposition, hp⟩ := hpoints
  refine ⟨p, ?_, hposition, hp⟩
  rw [← String.length_toList]
  exact hp.le_length

/-- A script whose second stage begins with a task that asks for no number of lines. -/
def endless : String := "plan 'draft & sketch' && code[tail:all] & review 'it"

/-- The script with its last quote closed. -/
def endlessClosed : String := "plan 'draft & sketch' && code[tail:all] & review 'it'"

/-- The open quote is reported before anything is read; once it is closed, the task is, behind the
blank that its segment begins with. -/
theorem endless_pointed :
    (read endless = .error ⟨.unterminatedQuote, some 49⟩ ∧
      PointsAt endless.toList .unterminatedQuote 49) ∧
    read endlessClosed = .error ⟨.invalidTail "all", some 25⟩ ∧
      PointsAt endlessClosed.toList (.invalidTail "all") 25 := by
  have hopen : read endless = .error ⟨.unterminatedQuote, some 49⟩ := by decide +kernel
  have hclosed : read endlessClosed = .error ⟨.invalidTail "all", some 25⟩ := by decide +kernel
  obtain ⟨p, -, hp, hquote⟩ := points_at_fault endless (by decide +kernel) hopen
  obtain ⟨p', -, hp', htail⟩ := points_at_fault endlessClosed (by decide +kernel) hclosed
  cases hp
  cases hp'
  exact ⟨⟨hopen, hquote⟩, hclosed, htail⟩

end Conductor.Script
