import Conductor.Proofs.Run.Call
import Conductor.Proofs.State.Record
import Conductor.Proofs.State.Signals
import Conductor.Proofs.Workflow.Trail
import Mathlib.Data.List.Basic

/-!
# The record of a run says which steps finished

The two sets that a run keeps, in the cursor and in the tracking file, are compared with what has
happened (`Tells`): the steps that have returned, and those whose last start was not followed by a
success.  Main statement: whenever an agent is called and whenever the run ends, both the file and
the cursor tell what has happened, and no triggered step changes them (`record_tells`).

A transition starts a step, records one or leaves the sets alone (`Takes.marks`).  Cursor and file
are written by different parts of the first two, and they lag behind by the step that has returned
and is not yet recorded (`heeded`).  The file is there from the first start on; before it no step is
executed, since nothing is queued (`Accounts`).
-/

namespace Conductor.Workflow

open Act Progress

variable {f : Workflow} {w w' w₀ : World} {s s' : State} {n : Point} {trail : List Point}
  {p q : Progress} {i : Int} {path : Path}

/-! ### What has happened -/

/-- The step at an index is about to be executed. -/
def Starts (i : Int) (n : Point) : Prop :=
  ∃ (index : Nat) (step run : Step) (identity : String),
    n.2.phase = .attempt index step run identity ∧ (index : Int) = i

/-- The step at an index has returned. -/
def Returns (i : Int) (n : Point) : Prop :=
  ∃ (index : Nat) (step : Step) (output : String),
    n.2.phase = .returned index step output ∧ (index : Int) = i

/-- The last start of a step, in the run or else before it, was not followed by its success. -/
def Unfinished (earlier : List Int) (i : Int) (trail : List Point) : Prop :=
  (∃ since n older, trail = since ++ n :: older ∧ Starts i n ∧
      ∀ x ∈ since, ¬ Starts i x ∧ ¬ Returns i x) ∨
    (i ∈ earlier ∧ ∀ x ∈ trail, ¬ Starts i x ∧ ¬ Returns i x)

/-- Two sets tell what has happened in a run since an earlier record. -/
structure Tells (p : Progress) (trail : List Point) (completed notCompleted : List Int) : Prop where
  completed_iff : ∀ i, i ∈ completed ↔ i ∈ p.completed ∨ ∃ n ∈ trail, Returns i n
  notCompleted_iff : ∀ i, i ∈ notCompleted ↔ Unfinished p.notCompleted i trail

theorem not_returns_of_starts (h : Starts i n) (j : Int) : ¬ Returns j n := by
  obtain ⟨index, step, run, identity, hn, -⟩ := h
  rintro ⟨index', step', output, hn', -⟩
  rw [hn] at hn'
  cases hn'

theorem unfinished_of_starts {earlier : List Int} (h : Starts i n) (trail : List Point) :
    Unfinished earlier i (n :: trail) :=
  .inl ⟨[], n, trail, rfl, h, List.forall_mem_nil _⟩

theorem not_unfinished_of_returns {earlier : List Int} (h : Returns i n) (trail : List Point) :
    ¬ Unfinished earlier i (n :: trail) := by
  rintro (⟨since, x, older, heq, hx, hsince⟩ | ⟨-, hall⟩)
  · cases since with
    | nil =>
      obtain ⟨rfl, -⟩ := List.cons.inj heq
      exact not_returns_of_starts hx i h
    | cons y since =>
      obtain ⟨rfl, -⟩ := List.cons.inj heq
      exact (hsince n (List.mem_cons_self ..)).2 h
  · exact (hall n (List.mem_cons_self ..)).2 h

/-- A point that neither starts a step nor finds it returned changes nothing for it. -/
theorem unfinished_cons_iff {earlier : List Int} (hs : ¬ Starts i n) (hr : ¬ Returns i n)
    (trail : List Point) : Unfinished earlier i (n :: trail) ↔ Unfinished earlier i trail := by
  constructor
  · rintro (⟨since, x, older, heq, hx, hsince⟩ | ⟨he, hall⟩)
    · cases since with
      | nil =>
        obtain ⟨rfl, -⟩ := List.cons.inj heq
        exact absurd hx hs
      | cons y since =>
        obtain ⟨rfl, rfl⟩ := List.cons.inj heq
        exact .inl ⟨since, x, older, rfl, hx, fun z hz => hsince z (List.mem_cons_of_mem _ hz)⟩
    · exact .inr ⟨he, fun z hz => hall z (List.mem_cons_of_mem _ hz)⟩
  · rintro (⟨since, x, older, rfl, hx, hsince⟩ | ⟨he, hall⟩)
    · exact .inl ⟨n :: since, x, older, rfl, hx, List.forall_mem_cons.mpr ⟨⟨hs, hr⟩, hsince⟩⟩
    · exact .inr ⟨he, List.forall_mem_cons.mpr ⟨⟨hs, hr⟩, hall⟩⟩

/-! ### What a point adds -/

variable {completed notCompleted completed' notCompleted' : List Int}

/-- Before the run its record tells what has happened. -/
theorem tells_nil (p : Progress) : Tells p [] p.completed p.notCompleted where
  completed_iff i := by simp
  notCompleted_iff i := by simp [Unfinished]

/-- A point at which nothing starts or returns leaves the sets as they are. -/
theorem Tells.cons (h : Tells p trail completed notCompleted) (hs : ∀ i, ¬ Starts i n)
    (hr : ∀ i, ¬ Returns i n) : Tells p (n :: trail) completed notCompleted where
  completed_iff i := by
    rw [h.completed_iff, List.exists_mem_cons_iff, or_iff_right (hr i)]
  notCompleted_iff i := by
    rw [h.notCompleted_iff, unfinished_cons_iff (hs i) (hr i)]

/-- A step that starts joins the unfinished ones. -/
theorem Tells.cons_started {index : Nat} {step run : Step} {identity : String}
    (h : Tells p trail completed notCompleted) (hn : n.2.phase = .attempt index step run identity)
    (hset : ∀ i, i ∈ notCompleted' ↔ i ∈ notCompleted ∨ i = index) :
    Tells p (n :: trail) completed notCompleted' where
  completed_iff i := by
    have hr : ¬ Returns i n := not_returns_of_starts ⟨index, step, run, identity, hn, rfl⟩ i
    rw [h.completed_iff, List.exists_mem_cons_iff, or_iff_right hr]
  notCompleted_iff i := by
    rw [hset, h.notCompleted_iff]
    by_cases hi : i = index
    · subst hi
      exact iff_of_true (.inr rfl)
        (unfinished_of_starts ⟨index, step, run, identity, hn, rfl⟩ trail)
    · have hs : ¬ Starts i n := by
        rintro ⟨index', step', run', identity', hn', rfl⟩
        rw [hn] at hn'
        cases hn'
        exact hi rfl
      have hr : ¬ Returns i n := not_returns_of_starts ⟨index, step, run, identity, hn, rfl⟩ i
      rw [or_iff_left hi, unfinished_cons_iff hs hr]

/-- A step that has returned joins the finished ones and leaves the others. -/
theorem Tells.cons_returned {index : Nat} {step : Step} {output : String}
    (h : Tells p trail completed notCompleted) (hn : n.2.phase = .returned index step output)
    (hc : ∀ i, i ∈ completed' ↔ i ∈ completed ∨ i = index)
    (hset : ∀ i, i ∈ notCompleted' ↔ i ∈ notCompleted ∧ i ≠ index) :
    Tells p (n :: trail) completed' notCompleted' where
  completed_iff i := by
    have hr : Returns i n ↔ i = index := by
      constructor
      · rintro ⟨index', step', output', hn', rfl⟩
        rw [hn] at hn'
        cases hn'
        rfl
      · rintro rfl
        exact ⟨index, step, output, hn, rfl⟩
    rw [hc, h.completed_iff, List.exists_mem_cons_iff, hr, or_assoc, or_comm (a := i = index)]
  notCompleted_iff i := by
    rw [hset, h.notCompleted_iff]
    by_cases hi : i = index
    · subst hi
      exact iff_of_false (fun h => h.2 rfl)
        (not_unfinished_of_returns ⟨index, step, output, hn, rfl⟩ trail)
    · have hs : ¬ Starts i n := by
        rintro ⟨index', step', run', identity', hn', -⟩
        rw [hn] at hn'
        cases hn'
      have hr : ¬ Returns i n := by
        rintro ⟨index', step', output', hn', rfl⟩
        rw [hn] at hn'
        cases hn'
        exact hi rfl
      rw [and_iff_left hi, unfinished_cons_iff hs hr]

/-! ### What a transition does to the sets -/

/-- A turn that neither records the start nor the end of a step: it changes the world by executions
and by reading signals at most. -/
def Quiet (f : Workflow) (w w' : World) : Prop :=
  ∀ P : World → Prop, LogFree P → (∀ w box, P w → P { w with mailbox := box }) →
    (∀ run identity, Keeps P (f.shop.execute run identity none)) → P w → P w'

theorem quiet_withLog (f : Workflow) (w : World) (log : Array Record) : Quiet f w (w.withLog log) :=
  fun _ hlog _ _ hw => hlog w log hw

theorem Quiet.withLog (h : Quiet f w w') (log : Array Record) : Quiet f w (w'.withLog log) :=
  fun P hlog hbox hx hw => hlog w' log (h P hlog hbox hx hw)

theorem quiet_of_execute {run : Step} {identity : String} {r : Except Fault String}
    (h : (f.shop.execute run identity none).exec w = (r, w')) : Quiet f w w' := by
  intro P _ _ hx hw
  have := hx run identity w hw
  rwa [h] at this

theorem quiet_of_readSafely {r : Except Fault (Option Signal)}
    (h : (f.signals.readSafely f.shop.dir).exec w = (r, w')) : Quiet f w w' := by
  intro P hlog hbox _ hw
  obtain ⟨log, hl⟩ := SignalWay.exec_readSafely f.signals f.shop.dir w
  rw [hl] at h
  obtain ⟨-, rfl⟩ := Prod.mk.inj h
  exact hlog _ log (hbox w _ hw)

theorem Quiet.trans {w'' : World} (h : Quiet f w w') (h' : Quiet f w' w'') : Quiet f w w'' :=
  fun P hlog hbox hx hw => h' P hlog hbox hx (h P hlog hbox hx hw)

/-- The step at an index starts. -/
structure Starting (f : Workflow) (w : World) (s s' : State) (w' : World) (index : Nat) : Prop where
  head : s.phase = .head
  attempt : ∃ step run identity, s'.phase = .attempt index step run identity
  completed : s'.cursor.completed = s.cursor.completed
  notCompleted : s'.cursor.notCompleted = insertNew s.cursor.notCompleted (index : Int)
  exec : ∃ log, (f.recordStarted index).exec (w.withLog log) = (.ok (), w')

/-- The step at an index is recorded as done. -/
structure Recording (f : Workflow) (w : World) (s s' : State) (w' : World) (index : Nat) :
    Prop where
  returned : ∃ step output, s.phase = .returned index step output
  recorded : ∃ step output, s'.phase = .recorded index step output
  completed : s'.cursor.completed = insertNew s.cursor.completed (index : Int)
  notCompleted : s'.cursor.notCompleted = eraseAll s.cursor.notCompleted (index : Int)
  exec : (f.recordCompleted index).exec w = (.ok (), w')

/-- The sets stay as they are. Where nothing is queued at the head, nothing is executed. -/
structure Passing (f : Workflow) (w : World) (s s' : State) (w' : World) : Prop where
  notReturned : ∀ index step output, s.phase ≠ .returned index step output
  notAttempt : ∀ index step run identity, s'.phase ≠ .attempt index step run identity
  completed : s'.cursor.completed = s.cursor.completed
  notCompleted : s'.cursor.notCompleted = s.cursor.notCompleted
  quiet : Quiet f w w'
  idle : s.phase = .head → s.cursor.pending = [] →
    s'.phase = .head ∧ s'.cursor.pending = [] ∧ ∃ log, w' = w.withLog log

/-- A transition starts a step, records one or leaves the sets as they are. -/
theorem Takes.marks (h : Takes f w s (.next s') w') :
    (∃ index, Starting f w s s' w' index) ∨ (∃ index, Recording f w s s' w' index) ∨
      Passing f w s s' w' := by
  cases h with
  | takenUp hw hp ht =>
    obtain ⟨rest, hpending, rfl⟩ := Cursor.pop_eq_some hp
    refine .inr (.inr ⟨by simp, by simp, rfl, rfl, quiet_withLog _ _ _, fun _ hnone => ?_⟩)
    dsimp only at hnone
    rw [hpending] at hnone
    cases hnone
  | passed hw hp hs hc =>
    exact .inr (.inr ⟨by simp, by simp, rfl, rfl, quiet_withLog _ _ _,
      fun _ _ => ⟨rfl, hp, _, rfl⟩⟩)
  | started hw hp hs hc hr hx => exact .inl ⟨_, rfl, ⟨_, _, _, rfl⟩, rfl, rfl, _, hx⟩
  | executed hx =>
    exact .inr (.inr ⟨by simp, by simp, rfl, rfl, quiet_of_execute hx, by simp⟩)
  | tolerated ht hx hr =>
    exact .inr (.inr ⟨by simp, by simp, rfl, rfl,
      ((quiet_of_execute hx).withLog _).trans (quiet_of_readSafely hr), by simp⟩)
  | recorded hx => exact .inr (.inl ⟨_, ⟨_, _, rfl⟩, ⟨_, _, rfl⟩, rfl, rfl, hx⟩)
  | loopedBack hr hv hl hd =>
    exact .inr (.inr ⟨by simp, by simp, rfl, rfl, (quiet_of_readSafely hr).withLog _, by simp⟩)
  | wentOn hr hv hl =>
    exact .inr (.inr ⟨by simp, by simp, completed_settled .., notCompleted_settled ..,
      (quiet_of_readSafely hr).withLog _, by simp⟩)
  | triggeredExecuted hx =>
    exact .inr (.inr ⟨by simp, by simp, rfl, rfl, quiet_of_execute hx, by simp⟩)
  | triggeredTolerated ht hx =>
    exact .inr (.inr ⟨by simp, by simp, rfl, rfl, (quiet_of_execute hx).withLog _, by simp⟩)
  | handedBack hr ha =>
    exact .inr (.inr ⟨by simp, by simp, rfl, rfl, (quiet_of_readSafely hr).withLog _, by simp⟩)

/-- A turn that ends the run records nothing. -/
theorem Takes.quiet_of_done {o : Outcome} (h : Takes f w s (.done o) w') :
    (∀ index step output, s.phase ≠ .returned index step output) ∧ Quiet f w w' ∧
      (s.phase = .head → ∃ log, w' = w.withLog log) := by
  cases h with
  | cancelled hw => exact ⟨by simp, quiet_withLog _ _ _, fun _ => ⟨_, rfl⟩⟩
  | unknownTarget hw hp ht => exact ⟨by simp, quiet_withLog _ _ _, fun _ => ⟨_, rfl⟩⟩
  | completed hw hp hs => exact ⟨by simp, quiet_withLog _ _ _, fun _ => ⟨_, rfl⟩⟩
  | unknownFallback hw hp hs hc hr => exact ⟨by simp, quiet_withLog _ _ _, fun _ => ⟨_, rfl⟩⟩
  | callCancelled hx => exact ⟨by simp, (quiet_of_execute hx).withLog _, by simp⟩
  | failed ht hx => exact ⟨by simp, (quiet_of_execute hx).withLog _, by simp⟩
  | stopped hr hv => exact ⟨by simp, (quiet_of_readSafely hr).withLog _, by simp⟩
  | triggeredCancelled hx => exact ⟨by simp, (quiet_of_execute hx).withLog _, by simp⟩
  | triggeredFailed ht hx => exact ⟨by simp, (quiet_of_execute hx).withLog _, by simp⟩
  | triggeredStopped hr ha => exact ⟨by simp, (quiet_of_readSafely hr).withLog _, by simp⟩

/-! ### Cursor and file along a run -/

/-- The points that cursor and file have taken account of where a run stands at a point: a step that
has just returned is not recorded yet. -/
def heeded (n : Point) (trail : List Point) : List Point :=
  match n.2.phase with
  | .returned .. => trail
  | _ => n :: trail

theorem heeded_of_ne (h : ∀ index step output, n.2.phase ≠ .returned index step output)
    (trail : List Point) : heeded n trail = n :: trail := by
  unfold heeded
  split
  · next hn => exact absurd hn (h _ _ _)
  · rfl

theorem heeded_of_returned {index : Nat} {step : Step} {output : String}
    (h : n.2.phase = .returned index step output) (trail : List Point) :
    heeded n trail = trail := by
  unfold heeded
  rw [h]

/-- Where no step starts, what has been taken account of grows by nothing that counts. -/
theorem Tells.heeded (h : Tells p trail completed notCompleted)
    (hn : ∀ index step run identity, n.2.phase ≠ .attempt index step run identity) :
    Tells p (heeded n trail) completed notCompleted := by
  unfold Workflow.heeded
  split
  · exact h
  · next hr =>
    refine h.cons ?_ ?_
    · rintro i ⟨index, step, run, identity, hp, -⟩
      exact hn index step run identity hp
    · rintro i ⟨index, step, output, hp, -⟩
      exact hr index step output hp

/-- Cursor and file tell what they have taken account of. Before the file is there, nothing is
queued. -/
structure Accounts (path : Path) (p : Progress) (w₀ w : World) (s : State) (past : List Point) :
    Prop where
  cwd : w.cwd = w₀.cwd
  now : w.now = w₀.now
  cursor : Tells p past s.cursor.completed s.cursor.notCompleted
  file : ∃ q, stored w.store w.cwd path = .ok q ∧ Tells p past q.completed q.notCompleted
  isFile : (∃ bytes, w.store.readBytes w.cwd path = .ok bytes) ∨
    s.phase = .head ∧ s.cursor.pending = []

/-- A quiet turn leaves a file alone that agents leave alone. -/
theorem Quiet.readBytes {bytes : List UInt8} (h : Quiet f w w')
    (ha : f.shop.LeavesAlone w.cwd path) (hb : w.store.readBytes w.cwd path = .ok bytes) :
    w'.cwd = w.cwd ∧ w'.now = w.now ∧ w'.store.readBytes w.cwd path = .ok bytes :=
  h _ (fun _ _ hw => hw) (fun _ _ hw => hw)
    (fun run identity => Workshop.keeps_execute (ha.keptByCalls w.now bytes) run identity none)
    ⟨rfl, rfl, hb⟩

/-- What the file tells does not change in a quiet turn. -/
theorem Quiet.stored_eq {bytes : List UInt8} (h : Quiet f w w')
    (ha : f.shop.LeavesAlone w.cwd path) (hb : w.store.readBytes w.cwd path = .ok bytes) :
    stored w'.store w'.cwd path = stored w.store w.cwd path := by
  obtain ⟨hcwd, -, hb'⟩ := h.readBytes ha hb
  rw [hcwd]
  exact stored_congr hb hb'

/-- Recording changes neither the directory nor the clock. -/
theorem place_of_recordStarted {index : Nat} {u : Unit}
    (h : (f.recordStarted index).exec w = (.ok u, w')) : w'.cwd = w.cwd ∧ w'.now = w.now := by
  have hkeeps : Keeps (fun v => v.cwd = w.cwd ∧ v.now = w.now) (f.recordStarted index) :=
    Workflow.keeps_recordStarted (fun _ _ _ _ hv _ => hv) (fun _ _ _ _ _ hv _ => hv)
      (fun _ _ hv => hv) _
  have := hkeeps w ⟨rfl, rfl⟩
  rwa [h] at this

theorem place_of_recordCompleted {index : Nat} {u : Unit}
    (h : (f.recordCompleted index).exec w = (.ok u, w')) : w'.cwd = w.cwd ∧ w'.now = w.now := by
  have hkeeps : Keeps (fun v => v.cwd = w.cwd ∧ v.now = w.now) (f.recordCompleted index) :=
    Workflow.keeps_recordCompleted (fun _ _ _ _ hv _ => hv) (fun _ _ _ _ _ hv _ => hv)
      (fun _ _ hv => hv) _
  have := hkeeps w ⟨rfl, rfl⟩
  rwa [h] at this

theorem Starting.accounts {index : Nat} (h : Starting f w s s' w' index)
    (hf : f.tracking = some path) (hnow : w₀.now.InCalendar)
    (hacc : Accounts path p w₀ w s (heeded (w, s) trail)) :
    Accounts path p w₀ w' s' (heeded (w', s') ((w, s) :: trail)) := by
  obtain ⟨step, run, identity, hphase⟩ := h.attempt
  obtain ⟨log, hx⟩ := h.exec
  have hplace := place_of_recordStarted hx
  rw [heeded_of_ne (by simp [h.head])] at hacc
  rw [heeded_of_ne (by simp [hphase])]
  unfold recordStarted at hx
  rw [hf] at hx
  obtain ⟨q, hq, hfile⟩ := inFile_of_recordStarted (w := w.withLog log) (hacc.now ▸ hnow) hx
  obtain ⟨q', hq', htells⟩ := hacc.file
  obtain rfl : q = q' := Except.ok.inj (hq.symm.trans hq')
  refine ⟨hplace.1.trans hacc.cwd, hplace.2.trans hacc.now, ?_, ?_, .inl hfile.isFile⟩
  · rw [h.completed, h.notCompleted]
    exact hacc.cursor.cons_started hphase fun i => Cursor.mem_insertNew
  · exact ⟨_, hfile.stored_eq, htells.cons_started hphase fun i => mem_notCompleted_markStarted⟩

theorem Recording.accounts {index : Nat} (h : Recording f w s s' w' index)
    (hf : f.tracking = some path) (hnow : w₀.now.InCalendar)
    (hacc : Accounts path p w₀ w s (heeded (w, s) trail)) :
    Accounts path p w₀ w' s' (heeded (w', s') ((w, s) :: trail)) := by
  obtain ⟨step, output, hreturned⟩ := h.returned
  obtain ⟨step', output', hrecorded⟩ := h.recorded
  have hx := h.exec
  have hplace := place_of_recordCompleted hx
  -- Two points are taken account of at once: the return, which had been put off, and this one.
  have hquiet : (∀ i, ¬ Starts i (w', s')) ∧ ∀ i, ¬ Returns i (w', s') := by
    constructor
    · rintro i ⟨_, _, _, _, hp, -⟩
      rw [hrecorded] at hp
      cases hp
    · rintro i ⟨_, _, _, hp, -⟩
      rw [hrecorded] at hp
      cases hp
  rw [heeded_of_returned hreturned] at hacc
  rw [heeded_of_ne (by simp [hrecorded])]
  unfold recordCompleted at hx
  rw [hf] at hx
  obtain ⟨q, hq, hfile⟩ := inFile_of_recordCompleted (hacc.now ▸ hnow) hx
  obtain ⟨q', hq', htells⟩ := hacc.file
  obtain rfl : q = q' := Except.ok.inj (hq.symm.trans hq')
  refine ⟨hplace.1.trans hacc.cwd, hplace.2.trans hacc.now, ?_, ?_, .inl hfile.isFile⟩
  · rw [h.completed, h.notCompleted]
    exact (hacc.cursor.cons_returned hreturned (fun i => Cursor.mem_insertNew)
      fun i => Cursor.mem_eraseAll).cons hquiet.1 hquiet.2
  · exact ⟨_, hfile.stored_eq, (htells.cons_returned hreturned
      (fun i => mem_completed_markCompleted) fun i => mem_notCompleted_markCompleted).cons
        hquiet.1 hquiet.2⟩

theorem Passing.accounts (h : Passing f w s s' w') (ha : f.shop.LeavesAlone w₀.cwd path)
    (hacc : Accounts path p w₀ w s (heeded (w, s) trail)) :
    Accounts path p w₀ w' s' (heeded (w', s') ((w, s) :: trail)) := by
  rw [heeded_of_ne h.notReturned] at hacc
  obtain ⟨q, hq, htells⟩ := hacc.file
  have hcursor : Tells p (heeded (w', s') ((w, s) :: trail)) s'.cursor.completed
      s'.cursor.notCompleted := by
    rw [h.completed, h.notCompleted]
    exact hacc.cursor.heeded h.notAttempt
  have hfile : Tells p (heeded (w', s') ((w, s) :: trail)) q.completed q.notCompleted :=
    htells.heeded h.notAttempt
  -- What an execution leaves alone is a file that is there, so before the first start the argument
  -- is that nothing is executed.
  rcases hacc.isFile with ⟨bytes, hb⟩ | ⟨hhead, hpending⟩
  · rw [← hacc.cwd] at ha
    obtain ⟨hcwd, hnow, hb'⟩ := h.quiet.readBytes ha hb
    refine ⟨hcwd.trans hacc.cwd, hnow.trans hacc.now, hcursor, ⟨q, ?_, hfile⟩, .inl ⟨bytes, ?_⟩⟩
    · rw [h.quiet.stored_eq ha hb, hq]
    · rw [hcwd, hb']
  · obtain ⟨hhead', hpending', log, rfl⟩ := h.idle hhead hpending
    exact ⟨hacc.cwd, hacc.now, hcursor, ⟨q, hq, hfile⟩, .inr ⟨hhead', hpending'⟩⟩

/-! ### What the record says -/

/-- The agent call that the next turn makes, if it makes one. -/
def call? (f : Workflow) (s : State) : Option (Act String) :=
  match s.phase with
  | .attempt _ _ run identity => some (f.shop.execute run identity none)
  | .triggered id step => some (f.shop.execute step id none)
  | _ => none

/-- What is kept in the file at a path and in a cursor tells what has happened. -/
def TellsInFileAndCursor (p : Progress) (path : Path) (trail : List Point) (w : World)
    (c : Cursor) : Prop :=
  ∃ q, stored w.store w.cwd path = .ok q ∧ Tells p trail q.completed q.notCompleted ∧
    Tells p trail c.completed c.notCompleted

/-- Away from the head of a round the file is there. -/
theorem Accounts.exists_bytes {past : List Point} (h : Accounts path p w₀ w s past)
    (hs : s.phase ≠ .head) : ∃ bytes, w.store.readBytes w.cwd path = .ok bytes :=
  h.isFile.resolve_right fun hidle => hs hidle.1

theorem exec_of_call? {a : Act String} (h : f.call? s = some a) :
    (∀ index step output, s.phase ≠ .returned index step output) ∧ s.phase ≠ .head ∧
      ∃ run identity, a = f.shop.execute run identity none := by
  obtain ⟨c, ms, ph⟩ := s
  cases ph with
  | attempt index step run identity =>
    exact ⟨by simp, by simp, run, identity, (Option.some.inj h).symm⟩
  | triggered id step => exact ⟨by simp, by simp, step, id, (Option.some.inj h).symm⟩
  | _ => cases h

section

variable (hf : f.tracking = some path) (ha : f.shop.LeavesAlone w₀.cwd path)
  (hnow : w₀.now.InCalendar) (hp : stored w₀.store w₀.cwd path = .ok p)

include hf ha hnow hp

/-- Wherever a run stands, cursor and file tell what they have taken account of. -/
theorem Trail.accounts (ht : Trail f w₀ ((w, s) :: trail)) :
    Accounts path p w₀ w s (heeded (w, s) trail) := by
  induction trail generalizing w s with
  | nil =>
    cases ht with
    | start h =>
      -- The cursor begins with the sets of the file.
      obtain ⟨p', log, hp', rfl, rfl⟩ := start_spec h
      unfold remembered at hp'
      rw [hf] at hp'
      obtain rfl : p' = p := Except.ok.inj (hp'.symm.trans hp)
      have htells : Tells p' (heeded (w₀.withLog log, ⟨Cursor.initial p'.completed p'.notCompleted,
          [], .head⟩) []) p'.completed p'.notCompleted :=
        (tells_nil p').heeded (by simp)
      exact ⟨rfl, rfl, htells, ⟨p', hp, htells⟩, .inr ⟨rfl, rfl⟩⟩
  | cons n trail ih =>
    cases ht with
    | next ht h =>
      have hacc := ih ht
      rcases (takes_of_turn h).marks with ⟨index, hstart⟩ | ⟨index, hrecord⟩ | hpass
      · exact hstart.accounts hf hnow hacc
      · exact hrecord.accounts hf hnow hacc
      · exact hpass.accounts ha hacc

theorem tells_of_call (ht : Trail f w₀ ((w, s) :: trail)) {a : Act String}
    (hcall : f.call? s = some a) :
    TellsInFileAndCursor p path ((w, s) :: trail) w s.cursor ∧
      stored (a.exec w).2.store (a.exec w).2.cwd path = stored w.store w.cwd path := by
  obtain ⟨hreturned, hhead, run, identity, rfl⟩ := exec_of_call? hcall
  have hacc := Trail.accounts hf ha hnow hp ht
  rw [heeded_of_ne hreturned] at hacc
  obtain ⟨q, hq, htells⟩ := hacc.file
  obtain ⟨bytes, hb⟩ := hacc.exists_bytes hhead
  have hquiet : Quiet f w ((f.shop.execute run identity none).exec w).2 :=
    fun P _ _ hx hw => hx run identity w hw
  exact ⟨⟨q, hq, htells, hacc.cursor⟩, hquiet.stored_eq (hacc.cwd.symm ▸ ha) hb⟩

theorem tells_of_ends {o : Outcome} (he : Ends f w₀ (n :: trail) o w) :
    TellsInFileAndCursor p path (n :: trail) w n.2.cursor := by
  cases he with
  | @intro v s _ _ _ ht h =>
    obtain ⟨hreturned, hquiet, hidle⟩ := (takes_of_turn h).quiet_of_done
    have hacc := Trail.accounts hf ha hnow hp ht
    rw [heeded_of_ne hreturned] at hacc
    obtain ⟨q, hq, htells⟩ := hacc.file
    refine ⟨q, ?_, htells, hacc.cursor⟩
    rcases hacc.isFile with ⟨bytes, hb⟩ | ⟨hhead, -⟩
    · rw [hquiet.stored_eq (hacc.cwd.symm ▸ ha) hb, hq]
    · obtain ⟨log, rfl⟩ := hidle hhead
      exact hq

theorem tells_of_run {o : Outcome} (hrun : f.run.exec w₀ = (.ok o, w)) :
    ∃ n trail, Ends f w₀ (n :: trail) o w ∧
      TellsInFileAndCursor p path (n :: trail) w n.2.cursor := by
  obtain ⟨points, he⟩ := ends_of_run hrun
  cases points with
  | nil => cases he
  | cons n trail => exact ⟨n, trail, he, tells_of_ends hf ha hnow hp he⟩

/-- A triggered step changes neither the sets of the cursor nor the file. -/
theorem sets_of_triggered (ht : Trail f w₀ ((w', s') :: (w, s) :: trail)) {id : String}
    {step : Step} (hs : s.phase = .triggered id step ∨ s.phase = .handedBack id step) :
    s'.cursor.completed = s.cursor.completed ∧ s'.cursor.notCompleted = s.cursor.notCompleted ∧
      stored w'.store w'.cwd path = stored w.store w.cwd path := by
  have hacc := Trail.accounts hf ha hnow hp ht.tail
  cases ht with
  | next ht h =>
    rcases (takes_of_turn h).marks with ⟨index, hstart⟩ | ⟨index, hrecord⟩ | hpass
    · have hhead := hstart.head
      rcases hs with hs | hs <;> rw [hs] at hhead <;> cases hhead
    · obtain ⟨step, output, hreturned⟩ := hrecord.returned
      rcases hs with hs | hs <;> rw [hs] at hreturned <;> cases hreturned
    · have hhead : s.phase ≠ .head := by
        rcases hs with hs | hs <;> rw [hs] <;> exact fun h => Phase.noConfusion h
      obtain ⟨bytes, hb⟩ := hacc.exists_bytes hhead
      exact ⟨hpass.completed, hpass.notCompleted,
        hpass.quiet.stored_eq (hacc.cwd.symm ▸ ha) hb⟩

end

/-- Whenever an agent is called and whenever the run ends, the file and the cursor both tell which
steps have returned and which were started last without success, and neither a call nor a triggered
step changes what they tell.  Nothing but the run writes the file, and the clock shows a year of
four digits. -/
theorem record_tells (hf : f.tracking = some path) (ha : f.shop.LeavesAlone w₀.cwd path)
    (hnow : w₀.now.InCalendar) (hp : stored w₀.store w₀.cwd path = .ok p) :
    (∀ {w s trail a}, Trail f w₀ ((w, s) :: trail) → f.call? s = some a →
      TellsInFileAndCursor p path ((w, s) :: trail) w s.cursor ∧
        stored (a.exec w).2.store (a.exec w).2.cwd path = stored w.store w.cwd path) ∧
    (∀ {n trail o w}, Ends f w₀ (n :: trail) o w →
      TellsInFileAndCursor p path (n :: trail) w n.2.cursor) ∧
    (∀ {o w}, f.run.exec w₀ = (.ok o, w) → ∃ n trail, Ends f w₀ (n :: trail) o w ∧
      TellsInFileAndCursor p path (n :: trail) w n.2.cursor) ∧
    ∀ {w' s' w s trail id step}, Trail f w₀ ((w', s') :: (w, s) :: trail) →
      s.phase = .triggered id step ∨ s.phase = .handedBack id step →
      s'.cursor.completed = s.cursor.completed ∧ s'.cursor.notCompleted = s.cursor.notCompleted ∧
        stored w'.store w'.cwd path = stored w.store w.cwd path :=
  ⟨fun ht hcall => tells_of_call hf ha hnow hp ht hcall,
    fun he => tells_of_ends hf ha hnow hp he,
    fun hrun => tells_of_run hf ha hnow hp hrun,
    fun ht hs => sets_of_triggered hf ha hnow hp ht hs⟩

/-- The file in which a workflow keeps its progress. -/
def recordPath : Path := ⟨.slash, ["work", "tracking.json"]⟩

/-- A single step, which fails. -/
def failing : Workflow :=
  { steps := [{ agentId := "draft", agentName := "Draft", promptPath := "draft.md" }]
    shop :=
      { engine := fun w _ => { store := w.store, result := .error (.failed { message := "boom" }) }
        dir := ⟨.slash, ["work"]⟩
        stateDir := ⟨.none, ["state"]⟩
        loader := fun _ _ _ => .ok "prompt" }
    signals := .mailbox
    tracking := some recordPath }

theorem leavesAlone_failing (cwd : Path) : failing.shop.LeavesAlone cwd recordPath where
  engine _ _ _ _ h := h
  registry r hr := by cases hr

/-- The step that failed is on record as unfinished when the run has ended. -/
theorem failing_record_tells :
    failing.tracking = some recordPath ∧
      failing.shop.LeavesAlone (default : World).cwd recordPath ∧
      (default : World).now.InCalendar ∧
      stored (default : World).store (default : World).cwd recordPath = .ok {} ∧
      ∃ n trail o w q, Ends failing default (n :: trail) o w ∧
        stored w.store w.cwd recordPath = .ok q ∧ 0 ∈ q.notCompleted ∧
        0 ∈ n.2.cursor.notCompleted := by
  have hnow : (default : World).now.InCalendar := by decide
  have hp : stored (default : World).store (default : World).cwd recordPath = .ok {} := by
    decide +kernel
  have ht : Trail failing default (failing.points default 1) :=
    trail_points (List.ne_nil_of_length_pos (by decide +kernel))
  have hphase : ((failing.points default 1).getD 0 default).2.phase =
      .attempt 0 (failing.steps.getD 0 default) (failing.steps.getD 0 default) "draft" := by
    decide +kernel
  have hdone : ((failing.turn ((failing.points default 1).getD 0 default).2).exec
      ((failing.points default 1).getD 0 default).1).1 = .ok (.done (aborted "boom" [])) := by
    decide +kernel
  obtain ⟨⟨w, s⟩, trail, hs⟩ := List.exists_cons_of_ne_nil ht.ne_nil
  rw [hs] at ht hphase hdone
  have he : Ends failing default ((w, s) :: trail) (aborted "boom" [])
      ((failing.turn s).exec w).2 := .intro ht (Prod.ext hdone rfl)
  have hall := record_tells rfl (leavesAlone_failing (default : World).cwd) hnow hp
  obtain ⟨q, hq, htells, hcursor⟩ := hall.2.1 he
  have hstarts : Starts 0 (w, s) := ⟨0, _, _, _, hphase, rfl⟩
  exact ⟨rfl, leavesAlone_failing _, hnow, hp, (w, s), trail, _, _, q, he, hq,
    (htells.notCompleted_iff 0).mpr (unfinished_of_starts hstarts trail),
    (hcursor.notCompleted_iff 0).mpr (unfinished_of_starts hstarts trail)⟩

end Conductor.Workflow
