import Conductor.Proofs.State.Signals
import Conductor.Proofs.Workflow.Trail

/-!
# Whose signal a step is judged by

Signals wait in one place for all steps.  A turn that ends an execution in the main sequence reads
what waits there, and so does one that takes a triggered step back, so that the next execution finds
nothing.  Only a triggered step whose failure is tolerated is not read after (`LeftBehind`).  Hence
a signal waits when an execution begins iff such a step has left it, with nothing but passed
positions in between (`unread_iff_leftBehind`), and the signal that a step is judged by was
published while it was executed unless it was left so (`judged_by_own_signal`).
-/

namespace Conductor.Workflow

open Act SignalWay

variable {f : Workflow} {w w' w₀ : World} {s s' : State} {n : Point} {trail : List Point}
  {signal : Signal}

/-- The signal that waits to be read. -/
def unread? (f : Workflow) (w : World) : Option Signal := f.signals.unread? f.shop.dir w

/-- Signals are published by executions alone: recording progress publishes and takes none. -/
def PublishedByCalls (f : Workflow) : Prop :=
  ∀ index w w',
    (f.recordStarted index).exec w = (.ok (), w') ∨
      (f.recordCompleted index).exec w = (.ok (), w') →
    f.unread? w' = f.unread? w

/-- A triggered step whose failure was tolerated has left a signal, and nothing was executed
since. -/
def LeftBehind (f : Workflow) (trail : List Point) (signal : Signal) : Prop :=
  ∃ since r older id step e w', trail = since ++ r :: older ∧ (∀ x ∈ since, x.2.phase = .head) ∧
    r.2.phase = .triggered id step ∧ step.tolerant = true ∧
    (f.shop.execute step id none).exec r.1 = (.error (.failed e), w') ∧
    f.unread? w' = some signal

/-- A state at which the next turn chooses what to execute or executes it. -/
def Fresh (s : State) : Prop :=
  match s.phase with
  | .head => True
  | .attempt .. => True
  | .triggered .. => True
  | _ => False

theorem unread?_withLog (f : Workflow) (w : World) (log : Array Record) :
    f.unread? (w.withLog log) = f.unread? w := SignalWay.unread?_withLog ..

/-! ### What is left behind -/

theorem not_leftBehind_nil : ¬ LeftBehind f [] signal := by
  rintro ⟨since, r, older, id, step, e, w', h, -⟩
  cases since <;> cases h

theorem leftBehind_cons_head (hn : n.2.phase = .head) :
    LeftBehind f (n :: trail) signal ↔ LeftBehind f trail signal := by
  constructor
  · rintro ⟨since, r, older, id, step, e, w', h, hs, hr, hrest⟩
    cases since with
    | nil =>
      obtain ⟨rfl, rfl⟩ := List.cons.inj h
      rw [hn] at hr
      cases hr
    | cons x since =>
      obtain ⟨rfl, rfl⟩ := List.cons.inj h
      exact ⟨since, r, older, id, step, e, w', rfl,
        fun x hx => hs x (List.mem_cons_of_mem _ hx), hr, hrest⟩
  · rintro ⟨since, r, older, id, step, e, w', rfl, hs, hrest⟩
    exact ⟨n :: since, r, older, id, step, e, w', rfl, List.forall_mem_cons.mpr ⟨hn, hs⟩, hrest⟩

theorem leftBehind_cons_triggered {id : String} {step : Step} {e : CallFailure}
    (hn : n.2.phase = .triggered id step) (ht : step.tolerant = true)
    (hx : (f.shop.execute step id none).exec n.1 = (.error (.failed e), w')) :
    LeftBehind f (n :: trail) signal ↔ f.unread? w' = some signal := by
  constructor
  · rintro ⟨since, r, older, id', step', e', v, h, hs, hr, -, hx', hv⟩
    cases since with
    | nil =>
      obtain ⟨rfl, rfl⟩ := List.cons.inj h
      rw [hn] at hr
      cases hr
      cases hx.symm.trans hx'
      exact hv
    | cons x since =>
      obtain ⟨rfl, -⟩ := List.cons.inj h
      have hhead := hs n (List.mem_cons_self ..)
      rw [hn] at hhead
      cases hhead
  · intro hv
    exact ⟨[], n, trail, id, step, e, w', rfl, List.forall_mem_nil _, hn, ht, hx, hv⟩

/-- Behind any other execution nothing is left. -/
theorem not_leftBehind_cons (hh : n.2.phase ≠ .head)
    (ht : ∀ id step, n.2.phase ≠ .triggered id step) : ¬ LeftBehind f (n :: trail) signal := by
  rintro ⟨since, r, older, id, step, e, w', h, hs, hr, -⟩
  cases since with
  | nil =>
    obtain ⟨rfl, rfl⟩ := List.cons.inj h
    exact ht id step hr
  | cons x since =>
    obtain ⟨rfl, -⟩ := List.cons.inj h
    exact hh (hs n (List.mem_cons_self ..))

/-! ### What waits when an execution begins -/

theorem unread_iff_of_read {P : Prop} (hr : f.unread? w = none) (hP : ¬ P) :
    f.unread? w = some signal ↔ P := by
  rw [hr]
  exact iff_of_false (Option.some_ne_none signal).symm hP

/-- What one transition to a fresh state does to the signal that waits. -/
theorem Takes.unread_iff_leftBehind (hq : PublishedByCalls f)
    (h : Takes f w s (.next s') w') (hs' : Fresh s')
    (ih : Fresh s → (f.unread? w = some signal ↔ LeftBehind f trail signal)) :
    f.unread? w' = some signal ↔ LeftBehind f ((w, s) :: trail) signal := by
  -- Behind a head what waited still waits.  Any other turn that leads to a fresh state has read the
  -- signal, but for the one that tolerates the failure of a triggered step.
  cases h with
  | takenUp =>
    rw [unread?_withLog, leftBehind_cons_head rfl]
    exact ih trivial
  | passed =>
    rw [unread?_withLog, leftBehind_cons_head rfl]
    exact ih trivial
  | started _ _ _ _ _ hx =>
    rw [hq _ _ _ (.inl hx), unread?_withLog, leftBehind_cons_head rfl]
    exact ih trivial
  | executed => cases hs'
  | tolerated _ _ hr =>
    exact unread_iff_of_read (unread?_of_readSafely hr).2
      (not_leftBehind_cons Phase.noConfusion fun _ _ => Phase.noConfusion)
  | recorded => cases hs'
  | loopedBack hr =>
    rw [unread?_withLog]
    exact unread_iff_of_read (unread?_of_readSafely hr).2
      (not_leftBehind_cons Phase.noConfusion fun _ _ => Phase.noConfusion)
  | wentOn hr =>
    rw [unread?_withLog]
    exact unread_iff_of_read (unread?_of_readSafely hr).2
      (not_leftBehind_cons Phase.noConfusion fun _ _ => Phase.noConfusion)
  | triggeredExecuted => cases hs'
  | triggeredTolerated ht hx =>
    rw [unread?_withLog, leftBehind_cons_triggered rfl ht hx]
  | handedBack hr =>
    rw [unread?_withLog]
    exact unread_iff_of_read (unread?_of_readSafely hr).2
      (not_leftBehind_cons Phase.noConfusion fun _ _ => Phase.noConfusion)

/-- When an execution begins, a signal waits iff a triggered step whose failure was tolerated has
left it. -/
theorem unread_iff_leftBehind (hq : PublishedByCalls f) (h₀ : f.unread? w₀ = none)
    (ht : Trail f w₀ (n :: trail)) (hn : Fresh n.2) (signal : Signal) :
    f.unread? n.1 = some signal ↔ LeftBehind f trail signal := by
  induction trail generalizing n with
  | nil =>
    cases ht with
    | start hstart =>
      obtain ⟨p, log, -, rfl, -⟩ := start_spec hstart
      rw [unread?_withLog]
      exact unread_iff_of_read h₀ not_leftBehind_nil
  | cons m trail ih =>
    cases ht with
    | next ht hturn =>
      have hm := ih ht
      dsimp only at hn hm ⊢
      exact (takes_of_turn hturn).unread_iff_leftBehind hq hn hm

/-! ### The signal a step is judged by -/

/-- A mailbox is not touched when progress is recorded. -/
theorem publishedByCalls_of_mailbox (h : f.signals = .mailbox) : PublishedByCalls f := by
  intro index w w' hrec
  have hkeeps : w'.mailbox = w.mailbox := by
    rcases hrec with hrec | hrec
    · have := keeps_recordStarted (f := f) (P := fun v => v.mailbox = w.mailbox)
        (fun _ _ _ _ hv _ => hv) (fun _ _ _ _ _ hv _ => hv) (fun _ _ hv => hv) index w rfl
      rwa [hrec] at this
    · have := keeps_recordCompleted (f := f) (P := fun v => v.mailbox = w.mailbox)
        (fun _ _ _ _ hv _ => hv) (fun _ _ _ _ _ hv _ => hv) (fun _ _ hv => hv) index w rfl
      rwa [hrec] at this
  unfold unread?
  rw [h]
  exact unread?_mailbox_congr hkeeps

/-- A step is judged after it was executed and recorded. -/
theorem Trail.judged {e : Point} {index : Nat} {step : Step} {output : String}
    (ht : Trail f w₀ (e :: trail)) (he : e.2.phase = .recorded index step output) :
    ∃ b n older run identity, trail = b :: n :: older ∧
      n.2.phase = .attempt index step run identity ∧
      (f.shop.execute run identity none).exec n.1 = (.ok output, b.1) ∧
      (f.recordCompleted index).exec b.1 = (.ok (), e.1) := by
  cases ht with
  | start hs =>
    obtain ⟨p, log, -, -, rfl⟩ := start_spec hs
    cases he
  | @next w s _ _ trail ht hturn =>
    have h := takes_of_turn hturn
    cases h with
    | recorded hrec =>
      cases he
      -- The point before is the return of the step, which only its execution leads to.
      cases ht with
      | start hs =>
        obtain ⟨p, log, -, -, hs⟩ := start_spec hs
        cases hs
      | next ht hturn =>
        have h := takes_of_turn hturn
        cases h with
        | executed hx => exact ⟨_, _, _, _, _, rfl, rfl, hx, hrec⟩
    | _ => cases he

/-! ### A signal that is left behind -/

/-- No step is judged by a signal that waited when it began. -/
def JudgedByOwnSignals (f : Workflow) (w₀ : World) : Prop :=
  ∀ e b n older index step output, Trail f w₀ (e :: b :: n :: older) →
    e.2.phase = .recorded index step output →
    ∀ signal, f.unread? e.1 = some signal → f.unread? n.1 ≠ some signal

/-- The step that comes after a triggered one. -/
def codeStep : Step := { agentId := "code", agentName := "Code", promptPath := "code.md" }

/-- A dispatcher triggers a fix, which publishes a checkpoint and fails; the failure is tolerated.
The code that comes next publishes nothing. -/
def handOff : Workflow :=
  { steps :=
      [{ agentId := "dispatch", agentName := "Dispatch", promptPath := "dispatch.md"
         behavior := some (.trigger (some "fix")) },
       codeStep,
       { agentId := "fix", agentName := "Fix", promptPath := "fix.md", tolerant := true }]
    shop :=
      { engine := fun w call =>
          if call.agentId = "dispatch" then
            { store := w.store, published := [(⟨.slash, ["work"]⟩, ⟨.trigger, none, none⟩)]
              result := .ok "go" }
          else if call.agentId = "fix" then
            { store := w.store
              published := [(⟨.slash, ["work"]⟩, ⟨.checkpoint, some "left behind", none⟩)]
              result := .error (.failed { message := "boom" }) }
          else { store := w.store, result := .ok "done" }
        dir := ⟨.slash, ["work"]⟩
        stateDir := ⟨.none, ["state"]⟩
        loader := fun _ _ _ => .ok "prompt" }
    signals := .mailbox }

/-- A run of the hand-off up to the judgement of the code. -/
def handOffTrail : List Point := handOff.points default 9

theorem trail_handOffTrail : Trail handOff default handOffTrail :=
  trail_points (List.ne_nil_of_length_pos (by decide +kernel))

theorem phase_handOffTrail :
    (handOffTrail.getD 0 default).2.phase = .recorded 1 codeStep "done" := by decide +kernel

theorem unread?_default_handOff : handOff.unread? default = none := by decide +kernel

/-- The code is judged by the checkpoint of the fix. -/
theorem not_judgedByOwnSignals_handOff :
    PublishedByCalls handOff ∧ handOff.unread? default = none ∧
      ¬ JudgedByOwnSignals handOff default := by
  refine ⟨publishedByCalls_of_mailbox rfl, unread?_default_handOff, fun h => ?_⟩
  have ht := trail_handOffTrail
  have he := phase_handOffTrail
  have hend : handOff.unread? (handOffTrail.getD 0 default).1
      = some ⟨.checkpoint, some "left behind", none⟩ := by decide +kernel
  have hstart : handOff.unread? (handOffTrail.getD 2 default).1
      = some ⟨.checkpoint, some "left behind", none⟩ := by decide +kernel
  obtain ⟨e, rest, hs⟩ := List.exists_cons_of_ne_nil ht.ne_nil
  rw [hs] at ht he hend hstart
  obtain ⟨b, n, older, run, identity, rfl, -⟩ := ht.judged he
  exact h e b n older 1 codeStep "done" ht he _ hend hstart

/-- The signal that a step of the main sequence is judged by is the one that waited when its
execution returned.  When it began, a signal waited iff a triggered step whose failure was tolerated
had left it; in all other cases the signal was published in between. -/
theorem judged_by_own_signal (hq : PublishedByCalls f) (h₀ : f.unread? w₀ = none) {e : Point}
    {index : Nat} {step : Step} {output : String} (ht : Trail f w₀ (e :: trail))
    (he : e.2.phase = .recorded index step output) :
    ∃ b n older run identity, trail = b :: n :: older ∧
      n.2.phase = .attempt index step run identity ∧
      (f.shop.execute run identity none).exec n.1 = (.ok output, b.1) ∧
      (∀ signal w', (f.signals.readSafely f.shop.dir).exec e.1 = (.ok signal, w') →
        signal = f.unread? b.1) ∧
      (∀ signal, f.unread? n.1 = some signal ↔ LeftBehind f older signal) := by
  obtain ⟨b, n, older, run, identity, rfl, hn, hx, hrec⟩ := ht.judged he
  refine ⟨b, n, older, run, identity, rfl, hn, hx, ?_, ?_⟩
  · intro signal w' hr
    exact (unread?_of_readSafely hr).1.trans (hq index _ _ (.inr hrec))
  · have hfresh : Fresh n.2 := by
      unfold Fresh
      rw [hn]
      trivial
    exact fun signal => unread_iff_leftBehind hq h₀ ht.tail.tail hfresh signal

/-- The checkpoint of the fix waits when the code begins. -/
theorem handOff_judged :
    PublishedByCalls handOff ∧ handOff.unread? default = none ∧
      Trail handOff default handOffTrail ∧
      ∃ e b n older, handOffTrail = e :: b :: n :: older ∧
        e.2.phase = .recorded 1 codeStep "done" ∧
        LeftBehind handOff older ⟨.checkpoint, some "left behind", none⟩ := by
  have hq : PublishedByCalls handOff := publishedByCalls_of_mailbox rfl
  have ht := trail_handOffTrail
  have he := phase_handOffTrail
  have hstart : handOff.unread? (handOffTrail.getD 2 default).1
      = some ⟨.checkpoint, some "left behind", none⟩ := by decide +kernel
  refine ⟨hq, unread?_default_handOff, ht, ?_⟩
  obtain ⟨e, rest, hs⟩ := List.exists_cons_of_ne_nil ht.ne_nil
  rw [hs] at ht he hstart ⊢
  obtain ⟨b, n, older, run, identity, rfl, -, -, -, hleft⟩ :=
    judged_by_own_signal hq unread?_default_handOff ht he
  exact ⟨e, b, n, older, rfl, he, (hleft _).mp hstart⟩

end Conductor.Workflow
