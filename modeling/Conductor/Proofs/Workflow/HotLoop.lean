import Conductor.Proofs.Verdict
import Conductor.Proofs.Workflow.Trail

/-!
# Which loop is hot

A run has one place for a hot loop, and every loop step that decides writes it: with its own skip
set when it steps back, with nothing when it is left.  So the hot loop is the one that decided last,
as long as the cursor has not passed it (`hot_of_newest`), whatever other loops have stepped back
and not been left.  A loop's skip set therefore holds until the loop is passed exactly as long as no
other loop step decides in between (`skips_until_disturbed`); from there on only the steps of that
other loop are passed over.
-/

namespace Conductor.Workflow

open Cursor

/-- A state in which the loop step at a position decides. -/
def Decides (s : State) (anchor : Nat) (l : LoopBehavior) : Prop :=
  ∃ step output, s.phase = .recorded anchor step output ∧ step.activeLoop? = some l

/-- A state in which some loop step decides. -/
def Deciding (s : State) : Prop := ∃ anchor l, Decides s anchor l

/-- The hot loop has not been passed. -/
def Warm (c : Cursor) : Prop := ∀ h, c.hot = some h → c.index ≤ h.anchor

/-- The cursor has not passed a position at any point of a part of a trail. -/
def StaysWithin (anchor : Nat) (trail : List Point) : Prop :=
  ∀ p ∈ trail, p.2.cursor.index ≤ anchor

instance (anchor : Nat) (trail : List Point) : Decidable (StaysWithin anchor trail) :=
  inferInstanceAs (Decidable (∀ p ∈ trail, p.2.cursor.index ≤ anchor))

/-- What is left of a hot loop at a position: it cools down where it is passed. -/
def cooled (hot : Option HotLoop) (index : Nat) : Option HotLoop :=
  hot.filter fun h => decide (index ≤ h.anchor)

variable {f : Workflow} {w w' w₀ : World} {s s' : State} {c : Cursor}

theorem cooled_advance (c : Cursor) :
    c.advance.hot = cooled c.hot (c.index + 1) := by
  show Option.filter _ _ = Option.filter _ _
  congr 1
  funext h
  by_cases hle : c.index + 1 ≤ h.anchor
  · rw [decide_eq_true hle, decide_eq_false (by omega)]
    rfl
  · rw [decide_eq_false hle, decide_eq_true (by omega)]
    rfl

theorem cooled_eq_self (h : Warm c) : cooled c.hot c.index = c.hot := by
  unfold cooled
  cases hc : c.hot with
  | none => rfl
  | some x => simp [h x hc]

theorem warm_of_cooled {hot : Option HotLoop} (h : c.hot = cooled hot c.index) : Warm c := by
  intro x hx
  rw [hx] at h
  have := (Option.filter_eq_some_iff.mp h.symm).2
  simpa using this

/-! ### What one transition does -/

/-- A transition in which no loop decides lets the hot loop cool down where it is passed. -/
theorem Takes.hot_of_not_deciding (h : Takes f w s (.next s') w') (hw : Warm s.cursor)
    (hd : ¬ Deciding s) : s'.cursor.hot = cooled s.cursor.hot s'.cursor.index := by
  have hself := (cooled_eq_self hw).symm
  cases h with
  | takenUp _ hp _ =>
    obtain ⟨rest, -, rfl⟩ := pop_eq_some hp
    exact hself
  | @passed c => exact cooled_advance c
  | started => exact hself
  | executed => exact hself
  | @tolerated c _ _ _ step => exact cooled_advance (c.release step.agentId)
  | recorded => exact hself
  | loopedBack _ _ hl _ =>
    obtain ⟨l, ha, -⟩ := activeLoop?_of_evaluate hl
    exact absurd ⟨_, l, _, _, rfl, ha⟩ hd
  | @wentOn c _ _ index step output signal _ _ hv _ =>
    have hnone : (verdict c step index output signal).loop.isSome = false := by
      cases ha : step.activeLoop? with
      | none => exact (isSome_loop_evaluate step output signal _ hv).trans (by rw [ha]; rfl)
      | some l => exact absurd ⟨_, l, _, _, rfl, ha⟩ hd
    show (settled c step index _).hot = cooled c.hot (settled c step index _).index
    rw [hot_settled, hnone, if_neg Bool.false_ne_true, index_settled]
    exact cooled_advance c
  | triggeredExecuted => exact hself
  | triggeredTolerated => exact hself
  | handedBack => exact hself

/-- A loop step that decides takes the place of the hot loop: with its own skip set when it steps
back, with nothing when it is left. -/
theorem Takes.hot_of_decides {anchor : Nat} {l : LoopBehavior} (h : Takes f w s (.next s') w')
    (hp : f.Placed s) (hd : Decides s anchor l) :
    s'.cursor.hot = if s'.cursor.index ≤ anchor then some ⟨anchor, l.skip⟩ else none := by
  obtain ⟨step, output, hphase, ha⟩ := hd
  cases h with
  | @loopedBack c _ _ _ _ _ _ d _ _ _ hl hr =>
    cases hphase
    obtain ⟨hi, -⟩ := hp
    change anchor = c.index at hi
    subst hi
    obtain ⟨l', ha', hb, hskip, -⟩ := activeLoop?_of_evaluate hl
    cases ha.symm.trans ha'
    have hle := index_loopBack_le c (d := d) (loopKey step c.index) (by omega)
    rw [if_pos (by exact hle), ← hskip]
    rfl
  | @wentOn c _ _ _ _ _ signal _ _ hv _ =>
    cases hphase
    obtain ⟨hi, -⟩ := hp
    change anchor = c.index at hi
    subst hi
    have hsome : (verdict c step c.index output signal).loop.isSome = true :=
      (isSome_loop_evaluate step output signal _ hv).trans (by rw [ha]; rfl)
    show (settled c step c.index _).hot
      = if (settled c step c.index _).index ≤ c.index then some ⟨c.index, l.skip⟩ else none
    rw [hot_settled, hsome, if_pos rfl, index_settled, if_neg (by omega)]
  | _ => cases hphase

theorem Takes.warm (h : Takes f w s (.next s') w') (hp : f.Placed s) (hw : Warm s.cursor) :
    Warm s'.cursor := by
  by_cases hd : Deciding s
  · obtain ⟨anchor, l, hd⟩ := hd
    have hhot := h.hot_of_decides hp hd
    intro x hx
    rw [hhot] at hx
    split at hx
    · next hle =>
      cases hx
      exact hle
    · cases hx
  · exact warm_of_cooled (h.hot_of_not_deciding hw hd)

/-! ### Which loop is hot -/

theorem Trail.warm {trail : List Point} (ht : Trail f w₀ trail) :
    ∀ p ∈ trail, Warm p.2.cursor := by
  have h : ∀ p ∈ trail, f.Placed p.2 ∧ Warm p.2.cursor :=
    Trail.forall_state (P := fun s => f.Placed s ∧ Warm s.cursor) (fun _ _ => ⟨trivial, nofun⟩)
      (fun hs h => ⟨h.placed hs.1, h.warm hs.1 hs.2⟩) ht
  exact fun p hp => (h p hp).2

theorem staysWithin_cons {anchor : Nat} {p : Point} {trail : List Point} :
    StaysWithin anchor (p :: trail) ↔ p.2.cursor.index ≤ anchor ∧ StaysWithin anchor trail :=
  List.forall_mem_cons

/-- The hot loop is the one that decided last, as long as the cursor has not passed it since. -/
theorem hot_of_newest {n r : Point} {newer older : List Point} {anchor : Nat} {l : LoopBehavior}
    (ht : Trail f w₀ (n :: (newer ++ r :: older))) (hr : Decides r.2 anchor l)
    (hn : ∀ x ∈ newer, ¬ Deciding x.2) :
    n.2.cursor.hot =
      if StaysWithin anchor (n :: newer) then some ⟨anchor, l.skip⟩ else none := by
  induction newer generalizing n with
  | nil =>
    have hp := ht.tail.placed r (List.mem_cons_self ..)
    rw [ht.takes.hot_of_decides hp hr]
    simp [StaysWithin]
  | cons m newer ih =>
    have hm := ht.tail.warm m (List.mem_cons_self ..)
    rw [ht.takes.hot_of_not_deciding hm (hn m (List.mem_cons_self ..)),
      ih ht.tail fun x hx => hn x (List.mem_cons_of_mem _ hx)]
    by_cases hall : StaysWithin anchor (m :: newer)
    · rw [if_pos hall]
      by_cases hle : n.2.cursor.index ≤ anchor
      · rw [if_pos (staysWithin_cons.mpr ⟨hle, hall⟩)]
        simp [cooled, hle]
      · rw [if_neg fun h => hle (staysWithin_cons.mp h).1]
        have hlt := Nat.lt_of_not_le hle
        simp [cooled, hlt]
    · rw [if_neg hall, if_neg fun h => hall (staysWithin_cons.mp h).2]
      rfl

/-- A step that is attempted is not in the skip set of the hot loop. -/
theorem Trail.not_skipped {n : Point} {trail : List Point} {index : Nat} {step run : Step}
    {identity : String} (ht : Trail f w₀ (n :: trail))
    (hn : n.2.phase = .attempt index step run identity) (h : HotLoop)
    (hot : n.2.cursor.hot = some h) : step.agentId ∉ h.skip := by
  cases ht with
  | start hs =>
    obtain ⟨p, log, -, -, rfl⟩ := start_spec hs
    cases hn
  | next _ hturn =>
    have htakes := takes_of_turn hturn
    cases htakes with
    | started _ _ _ hskip _ _ =>
      cases hn
      intro hmem
      unfold skipCause? at hskip
      split at hskip
      · cases hskip
      · change Cursor.hot _ = some h at hot
        simp only [markStarted] at hot
        rw [hot] at hskip
        simp [hmem] at hskip
    | _ => cases hn

/-- Of the points at which a loop step decides, one is the newest. -/
theorem exists_newest_deciding {trail : List Point} (h : ∃ x ∈ trail, Deciding x.2) :
    ∃ newer r older, trail = newer ++ r :: older ∧ Deciding r.2 ∧
      ∀ x ∈ newer, ¬ Deciding x.2 := by
  induction trail with
  | nil =>
    obtain ⟨x, hx, -⟩ := h
    cases hx
  | cons p trail ih =>
    by_cases hp : Deciding p.2
    · refine ⟨[], p, trail, rfl, hp, ?_⟩
      intro x hx
      cases hx
    · obtain ⟨x, hx, hd⟩ := h
      have hx : x ∈ trail := by
        rcases List.mem_cons.mp hx with rfl | hx
        · exact absurd hd hp
        · exact hx
      obtain ⟨newer, r, older, rfl, hr, hn⟩ := ih ⟨x, hx, hd⟩
      exact ⟨p :: newer, r, older, rfl, hr, List.forall_mem_cons.mpr ⟨hp, hn⟩⟩

/-! ### Overlapping loops -/

/-- However other loops decide, no step of a loop's skip set is attempted from the moment it steps
back until the cursor passes it. -/
def Suppresses (f : Workflow) (w₀ : World) : Prop :=
  ∀ n since p earlier anchor l, Trail f w₀ (n :: (since ++ p :: earlier)) →
    Decides p.2 anchor l → StaysWithin anchor (n :: since) →
    ∀ index step run identity, n.2.phase = .attempt index step run identity →
      step.agentId ∉ l.skip

/-- The loop of a review that is made once more without a new draft. -/
def reviewLoop : LoopBehavior :=
  ⟨2, "AGAIN", some 1, ["draft"], Nat.two_pos, fun _ h => Option.some.inj h ▸ Nat.one_pos⟩

/-- The step of a review. -/
def reviewStep : Step :=
  { agentId := "review", agentName := "Review", promptPath := "review.md"
    behavior := some (.loop reviewLoop) }

/-- A draft that a review leads back to, with a check before it that is a loop too and asks for no
repetition. -/
def draftStep : Step := { agentId := "draft", agentName := "Draft", promptPath := "draft.md" }

/-- Where there is no limit, there is none that is not positive. -/
theorem unlimited_pos : ∀ m, (none : Option Nat) = some m → 0 < m :=
  fun m h => absurd h.symm (Option.some_ne_none m)

/-- A review leads back over a draft that it skips and over another loop. -/
def overlapping : Workflow :=
  { steps :=
      [{ agentId := "lint", agentName := "Lint", promptPath := "lint.md"
         behavior := some (.loop ⟨1, "LINT_AGAIN", none, [], Nat.one_pos, unlimited_pos⟩) },
       draftStep, reviewStep]
    shop :=
      { engine := fun w _ => { store := w.store, result := .ok "AGAIN" }
        dir := ⟨.slash, ["work"]⟩
        stateDir := ⟨.none, ["state"]⟩
        loader := fun _ _ _ => .ok "prompt" }
    signals := .mailbox }

/-- A run of the overlapping loops up to the second check. -/
def secondCheck : List Point := overlapping.points default 13

/-- A run of the overlapping loops up to the second draft. -/
def secondDraft : List Point := overlapping.points default 17

theorem trail_secondCheck : Trail overlapping default secondCheck :=
  trail_points (List.ne_nil_of_length_pos (by decide +kernel))

theorem trail_secondDraft : Trail overlapping default secondDraft :=
  trail_points (List.ne_nil_of_length_pos (by decide +kernel))

/-- From the moment a loop steps back until the cursor passes it, its skip set is in force exactly
as long as no other loop step decides, and as long no step of the set is attempted.  Once another
loop step has decided, the set in force is that of the loop that decided last, or none where that
was left. -/
theorem skips_until_disturbed {n p : Point} {since earlier : List Point} {anchor : Nat}
    {l : LoopBehavior} (ht : Trail f w₀ (n :: (since ++ p :: earlier)))
    (hp : Decides p.2 anchor l) (hw : StaysWithin anchor (n :: since))
    (hlast : ∀ x ∈ since, ∀ k, ¬ Decides x.2 anchor k) :
    (n.2.cursor.hot = some ⟨anchor, l.skip⟩ ↔ ∀ x ∈ since, ¬ Deciding x.2) ∧
    ((∀ x ∈ since, ¬ Deciding x.2) →
      ∀ index step run identity, n.2.phase = .attempt index step run identity →
        step.agentId ∉ l.skip) ∧
    (∀ newer r older other k, since = newer ++ r :: older → Decides r.2 other k →
      (∀ x ∈ newer, ¬ Deciding x.2) →
      n.2.cursor.hot =
        if StaysWithin other (n :: newer) then some ⟨other, k.skip⟩ else none) := by
  have hundisturbed : (∀ x ∈ since, ¬ Deciding x.2) → n.2.cursor.hot = some ⟨anchor, l.skip⟩ := by
    intro hn
    have hot := hot_of_newest ht hp hn
    rwa [if_pos hw] at hot
  have hother : ∀ newer r older other k, since = newer ++ r :: older → Decides r.2 other k →
      (∀ x ∈ newer, ¬ Deciding x.2) → n.2.cursor.hot =
        if StaysWithin other (n :: newer) then some ⟨other, k.skip⟩ else none := by
    rintro newer r older other k rfl hr hn
    rw [List.append_assoc, List.cons_append] at ht
    exact hot_of_newest ht hr hn
  refine ⟨⟨fun hot => ?_, hundisturbed⟩, fun hn index step run identity hphase => ?_, hother⟩
  · intro x hx hd
    obtain ⟨newer, r, older, rfl, ⟨other, k, hr⟩, hn⟩ := exists_newest_deciding ⟨x, hx, hd⟩
    -- The loop that decided last is another one and has taken the place.
    rw [hother newer r older other k rfl hr hn] at hot
    split at hot
    · have hanchor : other = anchor := congrArg HotLoop.anchor (Option.some.inj hot)
      rw [hanchor] at hr
      exact hlast r (by simp) k hr
    · cases hot
  · exact ht.not_skipped hphase _ (hundisturbed hn)

/-- When the check is attempted again, no loop has decided since the review stepped back. -/
theorem secondCheck_skips :
    Decides (secondCheck.getD 2 default).2 2 reviewLoop ∧
      StaysWithin 2 (secondCheck.getD 0 default :: (secondCheck.drop 1).take 1) ∧
      (∀ x ∈ (secondCheck.drop 1).take 1, ¬ Deciding x.2) ∧
      (secondCheck.getD 0 default).2.cursor.hot = some ⟨2, ["draft"]⟩ := by
  have ht := trail_secondCheck
  rw [eq_cons_append_cons secondCheck 1 default (by decide +kernel)] at ht
  have hp : Decides (secondCheck.getD 2 default).2 2 reviewLoop :=
    ⟨reviewStep, "AGAIN", by decide +kernel, by decide +kernel⟩
  have hwithin : StaysWithin 2 (secondCheck.getD 0 default :: (secondCheck.drop 1).take 1) := by
    decide +kernel
  have hhead : ∀ x ∈ (secondCheck.drop 1).take 1, x.2.phase = .head := by decide +kernel
  have hn : ∀ x ∈ (secondCheck.drop 1).take 1, ¬ Deciding x.2 := by
    rintro x hx ⟨_, _, _, _, hphase, -⟩
    rw [hhead x hx] at hphase
    cases hphase
  have hlast : ∀ x ∈ (secondCheck.drop 1).take 1, ∀ k, ¬ Decides x.2 2 k :=
    fun x hx k hk => hn x hx ⟨2, k, hk⟩
  exact ⟨hp, hwithin, hn, (skips_until_disturbed ht hp hwithin hlast).1.mpr hn⟩

/-- The other loop does not step back, which ends the skipping: the draft is attempted while the
review leads back over it. -/
theorem not_suppresses_overlapping : ¬ Suppresses overlapping default := by
  intro h
  have ht := trail_secondDraft
  rw [eq_cons_append_cons secondDraft 5 default (by decide +kernel)] at ht
  have hdecides : Decides (secondDraft.getD 6 default).2 2 reviewLoop :=
    ⟨reviewStep, "AGAIN", by decide +kernel, by decide +kernel⟩
  have hwithin : StaysWithin 2 (secondDraft.getD 0 default ::
      (secondDraft.drop 1).take 5) := by decide +kernel
  have hattempt : (secondDraft.getD 0 default).2.phase
      = .attempt 1 draftStep draftStep "draft" := by decide +kernel
  exact h _ _ _ _ 2 reviewLoop ht hdecides hwithin _ _ _ _ hattempt (by decide +kernel)

end Conductor.Workflow
