import Conductor.Proofs.Run.Cancellation
import Conductor.Proofs.Workflow.Onward
import Conductor.Session

/-!
# Records that are acted on once

A record in the signal file is left in place, so what keeps a run from acting on it twice is the
version of the file that has been seen.  While the file stays at a version, what has been seen of it
stays so from turn to turn (`seen_of_turn`) and over all runs of a session, and no turn acts on it
any more.

Main statement: of all turns in the runs of one session at most one acts on a version of the file,
and no later run of the session stops because of it (`Sittings.acts_once`).  A session that starts
has seen nothing, so a checkpoint that is still there stops the next run once more
(`not_stopsOnce_leaving`).
-/

namespace Conductor

open Act SignalWay

namespace SignalWay

variable {path : Path} {v v' : Version} {w w' : World} {signal : Signal} {text : String}

/-- The file at a path stands at a version. -/
def Stands (path : Path) (v : Version) (w : World) : Prop :=
  path.hasNul = false ∧ ∃ place content,
    w.store.stat w.cwd path = .ok (place, .file content v.modified) ∧
      Store.textOf content = .ok v.text

/-- The version of the file at a path has been seen. -/
def Seen (path : Path) (v : Version) (w : World) : Prop :=
  Mailbox.valueAt? w.mailbox.seen path = some v

theorem Stands.congr (h : Stands path v w) (hstore : w'.store = w.store) (hcwd : w'.cwd = w.cwd) :
    Stands path v w' := by
  unfold Stands
  rw [hstore, hcwd]
  exact h

theorem Seen.of_seen_eq (h : Seen path v w) (hw : w'.mailbox.seen = w.mailbox.seen) :
    Seen path v w' := by
  unfold Seen
  rw [hw]
  exact h

/-- A version that has been looked at has been seen. -/
theorem seen_notice (b : Mailbox) (path : Path) (v : Version) :
    Mailbox.valueAt? (b.notice path v).2.seen path = some v := by
  unfold Mailbox.notice
  split
  · next h => exact h
  · exact Mailbox.valueAt?_setValue_self ..

/-- Looking at a file that stands at a version leaves that seen. -/
theorem seen_lookAtFile (h : Stands path v w) :
    Mailbox.valueAt? (lookAtFile path w.store w.cwd w.mailbox).2.seen path = some v := by
  obtain ⟨hp, place, content, hs, hc⟩ := h
  have hlook : (lookAtFile path w.store w.cwd w.mailbox).2 = (w.mailbox.notice path v).2 := by
    simp [lookAtFile, hp, hs, readText_of_textOf hp hs hc]
  rw [hlook]
  exact seen_notice ..

/-- A version that has been seen tells nothing more. -/
theorem not_tells_of_seen (h : Stands path v w) (hseen : Seen path v w) :
    ¬ Tells path w signal := by
  rintro ⟨text, ⟨-, place', content', modified, hs', hc', hnew⟩, -⟩
  obtain ⟨-, place, content, hs, hc⟩ := h
  cases hs.symm.trans hs'
  cases hc.symm.trans hc'
  exact hnew hseen

end SignalWay

namespace Workflow

variable {f : Workflow} {w w' w₀ : World} {s : State} {stateDir dir : Path} {v : Version}
  {r : Except Fault Turn} {step : Step} {p q : Point} {newer older trail : List Point}

/-! ### What a turn leaves seen -/

theorem seen_receive {α : Type} (w : World) (identity : String) (reply : Reply α) :
    (w.receive identity reply).mailbox.seen = w.mailbox.seen := by
  show (reply.published.foldl (fun b p => b.post p.1 p.2) w.mailbox).seen = w.mailbox.seen
  generalize w.mailbox = b
  induction reply.published generalizing b with
  | nil => rfl
  | cons p ps ih => exact ih (b.post p.1 p.2)

/-- A call looks at no signal. -/
theorem keptByCalls_seen (shop : Workshop) (seen : List (Path × Version)) :
    shop.KeptByCalls fun w => w.mailbox.seen = seen where
  log _ _ h := h
  calls _ _ h := h
  nextRun _ _ h := h
  directory _ _ _ h _ := h
  registry _ _ _ _ _ h _ := h
  reply w call identity h := (seen_receive w identity (shop.engine w call)).trans h

theorem seen_execute {run : Step} {identity : String} {result : Except Fault String}
    (h : (f.shop.execute run identity none).exec w = (result, w')) :
    w'.mailbox.seen = w.mailbox.seen := by
  have hkept := Workshop.keeps_execute (keptByCalls_seen f.shop w.mailbox.seen) run identity none
    w rfl
  rwa [h] at hkept

/-- Reading the signal file changes only what has been seen, and notes. -/
theorem exec_readSafely_file (hf : f.signals = .file stateDir) (w : World) :
    ∃ log, ((f.signals.readSafely f.shop.dir).exec w).2 =
      { w with mailbox := (lookAtFile (signalFile stateDir f.shop.dir) w.store w.cwd
        w.mailbox).2 }.withLog log := by
  rw [hf]
  obtain ⟨log, h⟩ := exec_readSafely (.file stateDir) f.shop.dir w
  exact ⟨log, congrArg Prod.snd h⟩

/-- After reading the signal file, the version at which it stands has been seen. -/
theorem seen_readSafely (hf : f.signals = .file stateDir)
    (hs : Stands (signalFile stateDir f.shop.dir) v w) :
    Seen (signalFile stateDir f.shop.dir) v ((f.signals.readSafely f.shop.dir).exec w).2 := by
  obtain ⟨log, h⟩ := exec_readSafely_file hf w
  rw [h]
  exact seen_lookAtFile hs

/-- What is read before the file stands at a version leaves that seen. -/
theorem seen_of_readSafely (hf : f.signals = .file stateDir)
    (hs : Stands (signalFile stateDir f.shop.dir) v
      ((f.signals.readSafely f.shop.dir).exec w).2) :
    Seen (signalFile stateDir f.shop.dir) v ((f.signals.readSafely f.shop.dir).exec w).2 := by
  obtain ⟨log, h⟩ := exec_readSafely_file hf w
  refine seen_readSafely hf (hs.congr ?_ ?_)
  · rw [h]
    rfl
  · rw [h]
    rfl

theorem seen_excuse {owner run : Step} {identity : String} {c : CallFailure}
    (hf : f.signals = .file stateDir) (hs : s.phase.executes? = some (owner, run, identity))
    (h : (f.excuse s owner c).exec w = (r, w'))
    (hstands : Stands (signalFile stateDir f.shop.dir) v w')
    (hseen : Seen (signalFile stateDir f.shop.dir) v w) :
    Seen (signalFile stateDir f.shop.dir) v w' := by
  obtain ⟨cursor, ms, phase⟩ := s
  cases phase with
  | attempt index _ _ _ =>
    -- The signal of a failed step is read and dropped; after a triggered one nothing is read.
    unfold excuse at h
    dsimp only at h
    unfold note at h
    rw [exec_note_bind, exec_bind] at h
    have hw : ∃ log, w' = ((f.signals.readSafely f.shop.dir).exec (w.withLog log)).2 := by
      split at h
      · next hr => exact ⟨_, (Prod.mk.inj h).2.symm.trans (congrArg Prod.snd hr).symm⟩
      · next hr => exact ⟨_, (Prod.mk.inj h).2.symm.trans (congrArg Prod.snd hr).symm⟩
    obtain ⟨log, rfl⟩ := hw
    exact seen_of_readSafely hf hstands
  | triggered _ _ =>
    unfold excuse at h
    dsimp only at h
    unfold note at h
    rw [exec_note_bind] at h
    cases h
    exact hseen
  | _ => cases hs

theorem seen_goOnAfter {owner run : Step} {identity : String} {result : Except Fault String}
    (hf : f.signals = .file stateDir) (hs : s.phase.executes? = some (owner, run, identity))
    (h : (f.goOnAfter s owner result).exec w = (r, w'))
    (hstands : Stands (signalFile stateDir f.shop.dir) v w')
    (hseen : Seen (signalFile stateDir f.shop.dir) v w) :
    Seen (signalFile stateDir f.shop.dir) v w' := by
  have haborted : ∀ reason, (abort reason s.messages).exec w = (r, w') →
      Seen (signalFile stateDir f.shop.dir) v w' := by
    intro reason h
    obtain ⟨log, ha⟩ := exec_abort reason s.messages w
    cases h.symm.trans ha
    exact hseen
  unfold goOnAfter at h
  split at h
  · cases h
    exact hseen
  · exact haborted _ h
  · split at h
    · exact seen_excuse hf hs h hstands hseen
    · exact haborted _ h
  · cases h
    exact hseen

/-- A turn after which the file stands at a version that was seen leaves it seen. -/
theorem seen_of_turn (hf : f.signals = .file stateDir) (h : (f.turn s).exec w = (r, w'))
    (hstands : Stands (signalFile stateDir f.shop.dir) v w')
    (hseen : Seen (signalFile stateDir f.shop.dir) v w) :
    Seen (signalFile stateDir f.shop.dir) v w' := by
  have hexecutes : ∀ {owner run identity}, s.phase.executes? = some (owner, run, identity) →
      Seen (signalFile stateDir f.shop.dir) v w' := by
    intro owner run identity hs
    rw [exec_turn_of_executes hs] at h
    exact seen_goOnAfter hf hs h hstands (hseen.of_seen_eq (seen_execute rfl))
  have hjudges : ∀ {step}, s.phase.judged? = some step →
      Seen (signalFile stateDir f.shop.dir) v w' := by
    intro step hs
    obtain ⟨log, rfl⟩ := snd_exec_turn_of_judged hs h
    exact seen_of_readSafely hf hstands
  -- All other turns keep records or move on, and look at no signal.
  have hrecords : ∀ {a : Act Unit} {t : Turn} {u : World}, u.mailbox.seen = w.mailbox.seen →
      Keeps (fun u => u.mailbox.seen = w.mailbox.seen) a →
      (a >>= fun _ => pure t : Act Turn).exec u = (r, w') →
      Seen (signalFile stateDir f.shop.dir) v w' := by
    intro a t u hu ha hx
    have hkept := (ha.bind fun _ => Keeps.pure t) u hu
    rw [hx] at hkept
    exact hseen.of_seen_eq hkept
  cases hs : s.phase with
  | head =>
    rcases exec_turn_of_head (f := f) hs w with ⟨t, log, hx⟩ | ⟨step, run, identity, log, hx⟩
    · cases h.symm.trans hx
      exact hseen
    · refine hrecords (u := w.withLog log) rfl ?_ (hx.symm.trans h)
      exact keeps_recordStarted (fun _ _ _ _ hu _ => hu) (fun _ _ _ _ _ hu _ => hu)
        (fun _ _ hu => hu) _
  | attempt index step run identity => exact hexecutes (by rw [hs]; rfl)
  | returned index step output =>
    refine hrecords (u := w) rfl ?_ ((exec_turn_of_returned hs w).symm.trans h)
    exact keeps_recordCompleted (fun _ _ _ _ hu _ => hu) (fun _ _ _ _ _ hu _ => hu)
      (fun _ _ hu => hu) _
  | recorded index step output => exact hjudges (by rw [hs]; rfl)
  | triggered target step => exact hexecutes (by rw [hs]; rfl)
  | handedBack target step => exact hjudges (by rw [hs]; rfl)

/-! ### What a turn acts on -/

/-- The next turn at a point acts on a version of the signal file: it judges a step by the signal
that the file tells. -/
structure ActsOn (path : Path) (v : Version) (n : Point) : Prop where
  judges : ∃ step, n.2.phase.judged? = some step
  stands : Stands path v n.1
  tells : ∃ signal, SignalWay.Tells path n.1 signal

theorem not_actsOn_of_seen {path : Path} (h : Seen path v p.1) : ¬ ActsOn path v p := by
  rintro ⟨-, hstands, signal, htells⟩
  exact not_tells_of_seen hstands h htells

/-- A version that is acted on in a turn has been seen after it. -/
theorem ActsOn.seen (hf : f.signals = .file stateDir)
    (h : ActsOn (signalFile stateDir f.shop.dir) v (w, s)) (hx : (f.turn s).exec w = (r, w')) :
    Seen (signalFile stateDir f.shop.dir) v w' := by
  obtain ⟨step, hs⟩ := h.judges
  obtain ⟨log, rfl⟩ := snd_exec_turn_of_judged hs hx
  exact seen_readSafely hf h.stands

/-- The version is no news at a point: it has been seen, or the next turn acts on it. -/
def Settles (path : Path) (v : Version) (n : Point) : Prop := Seen path v n.1 ∨ ActsOn path v n

theorem Settles.seen (hf : f.signals = .file stateDir)
    (h : Settles (signalFile stateDir f.shop.dir) v (w, s)) (hx : (f.turn s).exec w = (r, w'))
    (hstands : Stands (signalFile stateDir f.shop.dir) v w') :
    Seen (signalFile stateDir f.shop.dir) v w' :=
  h.elim (seen_of_turn hf hx hstands) fun hacts => hacts.seen hf hx

/-! ### One run -/

theorem Trail.seen (hf : f.signals = .file stateDir) (ht : Trail f w₀ (newer ++ p :: older))
    (hp : Settles (signalFile stateDir f.shop.dir) v p)
    (hstands : ∀ q ∈ newer, Stands (signalFile stateDir f.shop.dir) v q.1) :
    ∀ q ∈ newer, Seen (signalFile stateDir f.shop.dir) v q.1 := by
  induction newer with
  | nil => exact List.forall_mem_nil _
  | cons q newer ih =>
    obtain ⟨hq, hstands⟩ := List.forall_mem_cons.mp hstands
    have hold : Trail f w₀ (newer ++ p :: older) := by
      cases newer <;> exact ht.tail
    have hseen := ih hold hstands
    refine List.forall_mem_cons.mpr ⟨?_, hseen⟩
    -- The turn before the newest point leaves the version seen.
    cases newer with
    | nil =>
      cases ht with
      | next _ hx => exact hp.seen hf hx hq
    | cons n newer =>
      cases ht with
      | next _ hx => exact seen_of_turn hf hx hq (hseen _ (List.mem_cons_self ..))

/-- In a run, a version that is no news at a point has been seen at all later ones and at the
end. -/
theorem Course.seen {result : Except Fault Outcome} (hf : f.signals = .file stateDir)
    (h : f.Course w₀ (newer ++ p :: older) result w) (hended : result ≠ .error .endless)
    (hp : Settles (signalFile stateDir f.shop.dir) v p)
    (hstands : ∀ q ∈ newer, Stands (signalFile stateDir f.shop.dir) v q.1)
    (hw : Stands (signalFile stateDir f.shop.dir) v w) :
    (∀ q ∈ newer, Seen (signalFile stateDir f.shop.dir) v q.1) ∧
      Seen (signalFile stateDir f.shop.dir) v w := by
  cases newer with
  | nil =>
    obtain ⟨-, t, hx⟩ := h.turn_last hended
    exact ⟨List.forall_mem_nil _, hp.seen hf hx hw⟩
  | cons q newer =>
    obtain ⟨ht, t, hx⟩ := h.turn_last hended
    have hseen := ht.seen hf hp hstands
    exact ⟨hseen, seen_of_turn hf hx hw (hseen q (List.mem_cons_self ..))⟩

/-- In a run that begins when a version has been seen, it stays seen to the end. -/
theorem Course.seen_of_before {result : Except Fault Outcome} (hf : f.signals = .file stateDir)
    (h : f.Course w₀ trail result w) (hended : result ≠ .error .endless)
    (hseen : Seen (signalFile stateDir f.shop.dir) v w₀)
    (hstands : ∀ q ∈ trail, Stands (signalFile stateDir f.shop.dir) v q.1)
    (hw : Stands (signalFile stateDir f.shop.dir) v w) :
    (∀ q ∈ trail, Seen (signalFile stateDir f.shop.dir) v q.1) ∧
      Seen (signalFile stateDir f.shop.dir) v w := by
  have hstarted : ∀ {r u}, f.start.exec w₀ = (r, u) →
      Seen (signalFile stateDir f.shop.dir) v u := by
    intro r u hx
    have hkept := keeps_start (P := fun u => u.mailbox.seen = w₀.mailbox.seen) (fun _ _ hu => hu) f
      w₀ rfl
    rw [hx] at hkept
    exact hseen.of_seen_eq hkept
  cases trail with
  | nil =>
    refine ⟨List.forall_mem_nil _, ?_⟩
    cases h with
    | unstarted hx => exact hstarted hx
    | ended h => cases h
  | cons n older =>
    -- The first point of the trail is that in which the run has started.
    obtain ⟨newer, first, hsplit⟩ : ∃ newer first, n :: older = newer ++ [first] :=
      ⟨_, _, (List.dropLast_append_getLast (List.cons_ne_nil n older)).symm⟩
    have hfirst : Seen (signalFile stateDir f.shop.dir) v first.1 := by
      have ht := (h.turn_last hended).1
      rw [hsplit] at ht
      cases ht.drop newer with
      | start hx => exact hstarted hx
    rw [hsplit] at h hstands ⊢
    obtain ⟨hnewer, hend⟩ := h.seen hf hended (.inl hfirst)
      (fun q hq => hstands q (List.mem_append_left _ hq)) hw
    refine ⟨fun q hq => ?_, hend⟩
    rcases List.mem_append.mp hq with hq | hq
    · exact hnewer q hq
    · rw [List.mem_singleton.mp hq]
      exact hfirst

/-- A run that was stopped has acted on the signal file in its last turn. -/
theorem Course.actsOn_of_stopped {o : Outcome} (hf : f.signals = .file stateDir)
    (h : f.Course w₀ trail (.ok o) w) (ho : o.status = .stopped)
    (hstands : ∀ q ∈ trail, Stands (signalFile stateDir f.shop.dir) v q.1) :
    ∃ q ∈ trail, ActsOn (signalFile stateDir f.shop.dir) v q := by
  cases h with
  | ended h =>
    obtain @⟨u, s, older, o, w, ht, hx⟩ := h
    refine ⟨(u, s), List.mem_cons_self .., ?_⟩
    have hjudged : ∃ step, s.phase.judged? = some step := by
      cases takes_of_turn hx with
      | stopped => exact ⟨_, rfl⟩
      | triggeredStopped => exact ⟨_, rfl⟩
      | _ => cases ho
    obtain ⟨step, hs⟩ := hjudged
    obtain ⟨signal, hread, -, -⟩ := (turn_done_iff hs).mp (congrArg Prod.fst hx)
    rw [hf] at hread
    exact ⟨⟨step, hs⟩, hstands _ (List.mem_cons_self ..), signal, readSafely_eq_some_iff.mp hread⟩

/-! ### All runs of a session -/

/-- A run of a session: the world in which it begins, the points that it goes through, the newest
first, its result and the world that it leaves. -/
structure Sitting where
  flow : Workflow
  before : World
  trail : List Point
  result : Except Fault Outcome
  after : World

/-- The runs of one session in a working directory, the newest first.  Between two runs anything may
happen to the files, but what has been seen of the signal file stays so. -/
inductive Sittings (way : SignalWay) (dir : Path) : List Sitting → Prop
  | nil : Sittings way dir []
  | cons {r runs} (h : Sittings way dir runs)
    (hcourse : r.flow.Course r.before r.trail r.result r.after)
    (hended : r.result ≠ .error .endless) (hway : r.flow.signals = way)
    (hdir : r.flow.shop.dir = dir)
    (hseen : ∀ last ∈ runs.head?, r.before.mailbox.seen = last.after.mailbox.seen) :
    Sittings way dir (r :: runs)

/-- The file is not rewritten in a run: it stands at a version at all points and at the end. -/
def Sitting.StandsAt (path : Path) (v : Version) (r : Sitting) : Prop :=
  (∀ q ∈ r.trail, Stands path v q.1) ∧ Stands path v r.after

theorem Sittings.drop {way : SignalWay} {later runs : List Sitting}
    (h : Sittings way dir (later ++ runs)) : Sittings way dir runs := by
  induction later with
  | nil => exact h
  | cons r later ih =>
    cases h with
    | cons h => exact ih h

/-- What has been seen after a run has been seen throughout all later ones. -/
theorem Sittings.seen {later earlier : List Sitting} {r : Sitting}
    (h : Sittings (.file stateDir) dir (later ++ r :: earlier))
    (hr : Seen (signalFile stateDir dir) v r.after)
    (hlater : ∀ run ∈ later, run.StandsAt (signalFile stateDir dir) v) :
    ∀ run ∈ later, (∀ q ∈ run.trail, Seen (signalFile stateDir dir) v q.1) ∧
      Seen (signalFile stateDir dir) v run.after := by
  induction later with
  | nil => exact List.forall_mem_nil _
  | cons run later ih =>
    obtain ⟨⟨hstands, hafter⟩, hlater⟩ := List.forall_mem_cons.mp hlater
    cases h with
    | cons h hcourse hended hway hdir hseen =>
      have hrest := ih h hlater
      have hbefore : Seen (signalFile stateDir dir) v run.before := by
        cases later with
        | nil => exact hr.of_seen_eq (hseen r rfl)
        | cons last later =>
          exact (hrest last (List.mem_cons_self ..)).2.of_seen_eq (hseen last rfl)
      subst hdir
      exact List.forall_mem_cons.mpr
        ⟨hcourse.seen_of_before hway hended hbefore hstands hafter, hrest⟩

theorem Sittings.of_mem {way : SignalWay} {runs : List Sitting} (h : Sittings way dir runs)
    {run : Sitting} (hrun : run ∈ runs) :
    run.flow.Course run.before run.trail run.result run.after ∧ run.flow.signals = way ∧
      run.flow.shop.dir = dir := by
  induction h with
  | nil => cases hrun
  | cons h hcourse hended hway hdir hseen ih =>
    rcases List.mem_cons.mp hrun with rfl | hrun
    · exact ⟨hcourse, hway, hdir⟩
    · exact ih hrun

/-- A version of the signal file that a turn acts on, and that is not written again, is acted on by
no later turn of any run of the session, and no later run stops. -/
theorem Sittings.acts_once {later earlier : List Sitting} {r : Sitting}
    (h : Sittings (.file stateDir) dir (later ++ r :: earlier)) (hr : r.trail = newer ++ p :: older)
    (hacts : ActsOn (signalFile stateDir dir) v p)
    (hstands : ∀ q ∈ newer, Stands (signalFile stateDir dir) v q.1)
    (hafter : Stands (signalFile stateDir dir) v r.after)
    (hlater : ∀ run ∈ later, run.StandsAt (signalFile stateDir dir) v) :
    (∀ q ∈ newer, ¬ ActsOn (signalFile stateDir dir) v q) ∧
      ∀ run ∈ later, (∀ q ∈ run.trail, ¬ ActsOn (signalFile stateDir dir) v q) ∧
        ∀ o, run.result = .ok o → o.status ≠ .stopped := by
  have hfirst : (∀ q ∈ newer, Seen (signalFile stateDir dir) v q.1) ∧
      Seen (signalFile stateDir dir) v r.after := by
    cases h.drop with
    | cons _ hcourse hended hway hdir =>
      subst hdir
      rw [hr] at hcourse
      exact hcourse.seen hway hended (.inr hacts) hstands hafter
  refine ⟨fun q hq => not_actsOn_of_seen (hfirst.1 q hq), fun run hrun => ?_⟩
  have hnone : ∀ q ∈ run.trail, ¬ ActsOn (signalFile stateDir dir) v q :=
    fun q hq => not_actsOn_of_seen ((h.seen hfirst.2 hlater run hrun).1 q hq)
  refine ⟨hnone, fun o ho hstopped => ?_⟩
  obtain ⟨hcourse, hway, rfl⟩ := h.of_mem (List.mem_append_left _ hrun)
  rw [ho] at hcourse
  obtain ⟨q, hq, hq'⟩ := hcourse.actsOn_of_stopped hway hstopped (hlater run hrun).1
  exact hnone q hq hq'

/-! ### A checkpoint that is left -/

theorem course_of_points {turns : Nat} {o : Outcome} (hs : f.points w₀ turns ≠ [])
    (ho : ((f.turn ((f.points w₀ turns).getD 0 default).2).exec
      ((f.points w₀ turns).getD 0 default).1).1 = .ok (.done o)) :
    f.Course w₀ (f.points w₀ turns) (.ok o)
      ((f.turn ((f.points w₀ turns).getD 0 default).2).exec
        ((f.points w₀ turns).getD 0 default).1).2 := by
  have ht := trail_points hs
  obtain ⟨last, older, hp⟩ := List.exists_cons_of_ne_nil hs
  rw [hp] at ht ho ⊢
  exact .ended (.intro ht (Prod.ext ho rfl))

/-- A signal file with a checkpoint. -/
def leftText : String := "\x7b\"action\": \"checkpoint\"\x7d"

/-- A step whose agent leaves a checkpoint in the signal file, unless there is a file. -/
def leaving : Workflow :=
  { noting with
    shop := { noting.shop with
      engine := fun w _ =>
        { store := if w.store.holds w.cwd noteSignal then w.store
            else (w.store.writeText w.cwd noteSignal leftText).toOption.getD w.store
          result := .ok "done" } } }

/-- A directory in which the agent can leave its checkpoint. -/
def quietWorld : World :=
  { store :=
      { entries :=
          [(["work"], .directory), (["work", "state"], .directory),
           (["work", "state", "memory"], .directory)]
        clock := 1 }
    cwd := ⟨.slash, []⟩ }

/-- The checkpoint as the agent leaves it. -/
def leftVersion : Version := ⟨1, leftText⟩

theorem stands_left (h : w.store.stat w.cwd noteSignal = .ok
    (["work", "state", "memory", "behavior.json"], .file (Text.Utf8.encodeText leftText) 1)) :
    Stands noteSignal leftVersion w :=
  ⟨by decide, _, _, h, Store.textOf_encodeText (by decide)⟩

/-- Runs a workflow in a session of its own. -/
def runAnew (session : Session) (f : Workflow) : Act Outcome := do
  session.start
  f.run

/-- A checkpoint that has stopped a run does not stop the next one, in a session of its own, unless
it is written again. -/
def StopsOnce (session : Session) (f : Workflow) (path : Path) (w₀ : World) : Prop :=
  ∀ o w o' w' v, (runAnew session f).exec w₀ = (.ok o, w) → o.status = .stopped →
    Stands path v w → (runAnew session f).exec w = (.ok o', w') → Stands path v w' →
    o'.status ≠ .stopped

/-- A session that takes signals from the file. -/
def leavingSession : Session :=
  { settings := { stateDir := ⟨.none, ["state"]⟩ }
    engine := leaving.shop.engine
    signals := leaving.signals }

/-- The world that the first run of an agent leaves. -/
def leftOnce : World := ((runAnew leavingSession leaving).exec quietWorld).2

/-- The world that the second one leaves. -/
def leftTwice : World := ((runAnew leavingSession leaving).exec leftOnce).2

theorem not_stopsOnce_leaving : ¬ StopsOnce leavingSession leaving noteSignal quietWorld := by
  intro h
  have hfirst : ((runAnew leavingSession leaving).exec quietWorld).1 =
      .ok (stopped noteStep none []) := by decide +kernel
  have hsecond : ((runAnew leavingSession leaving).exec leftOnce).1 =
      .ok (stopped noteStep none []) := by decide +kernel
  have hstands : Stands noteSignal leftVersion leftOnce := stands_left (by decide +kernel)
  have hkept : Stands noteSignal leftVersion leftTwice := stands_left (by decide +kernel)
  exact h _ _ _ _ _ (Prod.ext hfirst rfl) rfl hstands (Prod.ext hsecond rfl) hkept rfl

/-- The run of the agent that ends after some turns. -/
def leavingSitting (w₀ : World) (turns : Nat) (o : Outcome) : Sitting :=
  let last := (leaving.points w₀ turns).getD 0 default
  { flow := leaving
    before := w₀
    trail := leaving.points w₀ turns
    result := .ok o
    after := ((leaving.turn last.2).exec last.1).2 }

/-- The run that the checkpoint stops. -/
def firstSitting : Sitting := leavingSitting quietWorld 3 (stopped noteStep none [])

/-- The next run of the session. -/
def secondSitting : Sitting := leavingSitting firstSitting.after 4 ⟨.completed, none, []⟩

theorem points_leaving_ne_nil (w₀ : World) (turns : Nat) : leaving.points w₀ turns ≠ [] :=
  points_ne_nil rfl turns

theorem Sittings.leaving {runs : List Sitting} {turns : Nat} {o : Outcome}
    (h : Sittings leaving.signals leaving.shop.dir runs)
    (ho : ((leaving.turn ((leaving.points w₀ turns).getD 0 default).2).exec
      ((leaving.points w₀ turns).getD 0 default).1).1 = .ok (.done o))
    (hseen : ∀ last ∈ runs.head?, w₀.mailbox.seen = last.after.mailbox.seen) :
    Sittings leaving.signals leaving.shop.dir (leavingSitting w₀ turns o :: runs) :=
  .cons h (course_of_points (points_leaving_ne_nil w₀ turns) ho) nofun rfl rfl hseen

theorem sittings_leaving :
    Sittings leaving.signals leaving.shop.dir [secondSitting, firstSitting] := by
  have hfirst : Sittings leaving.signals leaving.shop.dir [firstSitting] :=
    Sittings.nil.leaving (by decide +kernel) fun _ hlast => absurd hlast (Option.not_mem_none _)
  refine hfirst.leaving (by decide +kernel) fun last hlast => ?_
  rw [← Option.some.inj hlast]

/-- In one session the checkpoint stops the first run only. -/
theorem leaving_acts_once :
    ∃ p older, firstSitting.trail = p :: older ∧ ActsOn noteSignal leftVersion p ∧
      Stands noteSignal leftVersion firstSitting.after ∧
      secondSitting.StandsAt noteSignal leftVersion ∧
      (∀ q ∈ secondSitting.trail, ¬ ActsOn noteSignal leftVersion q) ∧
      secondSitting.result = .ok ⟨.completed, none, []⟩ := by
  obtain ⟨p, older, hp⟩ := List.exists_cons_of_ne_nil (points_leaving_ne_nil quietWorld 3)
  have hhead : (leaving.points quietWorld 3).getD 0 default = p := by
    rw [hp]
    rfl
  have hacts : ActsOn noteSignal leftVersion p := by
    rw [← hhead]
    refine ⟨⟨noteStep, by decide +kernel⟩, stands_left (by decide +kernel),
      ⟨.checkpoint, none, none⟩, ?_⟩
    exact readSafely_eq_some_iff.mp (by decide +kernel)
  have hafter : Stands noteSignal leftVersion firstSitting.after := stands_left (by decide +kernel)
  have hstands : secondSitting.StandsAt noteSignal leftVersion := by
    have hall : ∀ q ∈ secondSitting.trail, q.1.store.stat q.1.cwd noteSignal =
        .ok (["work", "state", "memory", "behavior.json"],
          .file (Text.Utf8.encodeText leftText) 1) := by decide +kernel
    exact ⟨fun q hq => stands_left (hall q hq), stands_left (by decide +kernel)⟩
  have hruns : Sittings leaving.signals leaving.shop.dir ([secondSitting] ++ firstSitting :: []) :=
    sittings_leaving
  have hlast : firstSitting.trail = [] ++ p :: older := hp
  obtain ⟨-, hlater⟩ := Sittings.acts_once hruns hlast hacts (List.forall_mem_nil _) hafter
    (List.forall_mem_singleton.mpr hstands)
  exact ⟨p, older, hp, hacts, hafter, hstands, (hlater _ (List.mem_singleton_self _)).1, rfl⟩

end Workflow

end Conductor
