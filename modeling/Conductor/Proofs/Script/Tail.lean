import Conductor.Proofs.Run.Failure
import Conductor.Proofs.Script.Course
import Conductor.Proofs.Script.Task
import Conductor.Proofs.Text.Pieces
import Mathlib.Data.List.DropRight

/-!
# The limit on a task's output

A text whose lines are all ended by a line feed has an empty piece behind the last one
(`lines_terminated`), and the limit on a task's output counts it.  So a limit of `n` keeps the last
`n - 1` of such lines (`keepTail_terminated`).

What an agent answers is followed through the run of a script.  A task that was answered is done in
its next move (`followsAnswer_of_finish`) and stays as it is; a turn leaves it in its stage or lists
its result at its place among those of the script (`AnsweredAt.next`).  So it comes to the result
that its answer makes (`Course.comesTo`), whatever the schedule, the other tasks and their agents
are like, unless the end of its call cannot be put on record.

Main statement: with a limit of `n` a task comes to the last `n - 1` of the lines it was answered
with (`tail_keeps_one_less`), where its limit asks for `n` (`not_keeps_last_lines`).
-/

namespace Conductor

open Act Text

namespace Output

/-- Lines, each of them ended by a line feed. -/
def terminated (ls : List String) : String := String.ofList (ls.flatMap fun l => l.toList ++ ['\n'])

variable {ls : List String} {n : Nat}

/-- Behind the last line stands an empty piece. -/
theorem lines_terminated (hls : ∀ l ∈ ls, '\n' ∉ l.toList) :
    lines (terminated ls).toList = ls.map String.toList ++ [[]] := by
  unfold terminated lines
  rw [String.toList_ofList]
  induction ls with
  | nil => rfl
  | cons l ls ih =>
    obtain ⟨hl, hls⟩ := List.forall_mem_cons.mp hls
    rw [List.flatMap_cons, List.append_assoc, List.singleton_append, splitBy_append_cons (by rfl),
      splitBy_of_neg, ih hls]
    · rfl
    · intro c hc
      exact beq_eq_false_iff_ne.mpr fun h => hl (h ▸ hc)

theorem keepTail_terminated (hls : ∀ l ∈ ls, '\n' ∉ l.toList) (hn : 0 < n) :
    keepTail (terminated ls) (some (n : Int)) =
      (terminated (ls.rtake (n - 1)), if n ≤ ls.length then some (n : Int) else none) := by
  obtain ⟨m, rfl⟩ := Nat.exists_eq_add_one.mpr hn
  have hlast : ∀ l ∈ ls.rtake m, '\n' ∉ l.toList := fun l hl => hls l (List.mem_of_mem_drop hl)
  have hlength : (lines (terminated ls).toList).length = ls.length + 1 := by
    rw [lines_terminated hls, List.length_append, List.length_map, List.length_singleton]
  unfold keepTail
  dsimp only
  rw [if_neg (by omega), hlength]
  by_cases hle : m + 1 ≤ ls.length
  · have hkept : (lines (terminated ls).toList).rtake (m + 1) =
        lines (terminated (ls.rtake m)).toList := by
      rw [lines_terminated hls, lines_terminated hlast, List.rtake_concat_succ, List.rtake,
        List.rtake, List.map_drop, List.length_map]
    rw [if_neg (by omega), if_pos (by omega), if_pos hle, Int.toNat_natCast, ← hlength]
    change (String.ofList (joinLines ((lines (terminated ls).toList).rtake (m + 1))), _) = _
    rw [hkept, joinLines_lines, String.ofList_toList]
    rfl
  · have hall : ls.rtake m = ls := by
      rw [List.rtake, Nat.sub_eq_zero_of_le (by omega), List.drop_zero]
    rw [if_pos (by omega), if_neg hle, Nat.add_sub_cancel, hall]

end Output

namespace Script

open Output

/-- At a point of a run the agent of the task at a place of the script answers with a text. -/
inductive AnswersAt (setup : Setup) (place : Nat) (t : Task) (text : String) : Point → Prop
  | intro {w : World} {parentId : Option String} {number : Nat} {before : List TaskResult}
    {runs : List TaskRun} {i : Nat} {moves : List Nat} {ahead : List Stage} {call : Call}
    {runId : Option String} (hplace : before.length + i = place)
    (hrun : runs[i]? = some ⟨t, .running call runId⟩)
    (hanswer : (setup.shop.engine w call.invocation).result = .ok text) :
    AnswersAt setup place t text (w, ⟨parentId, number, before, .atWork runs (i :: moves), ahead⟩)

/-- At a point of a run no move of a stage is left, and the task at a place of the script has
ended. -/
inductive EndsAt (place : Nat) (t : Task) (r : Except Fault TaskResult) : Point → Prop
  | intro {w : World} {parentId : Option String} {number : Nat} {before : List TaskResult}
    {runs : List TaskRun} {i : Nat} {ahead : List Stage} (hplace : before.length + i = place)
    (hrun : runs[i]? = some ⟨t, .done r⟩) :
    EndsAt place t r (w, ⟨parentId, number, before, .atWork runs [], ahead⟩)

/-- A task ends with a result, which stands at its place among those of the script if the script
has any; or the end of its call cannot be put on record, and the script has no results. -/
def ComesTo (setup : Setup) (trail : List Point) (ended : Except Fault Result) (place : Nat)
    (t : Task) (r : TaskResult) : Prop :=
  ((∃ p ∈ trail, EndsAt place t (.ok r) p) ∧
    ∀ result, ended = .ok result → result.results[place]? = some r) ∨
  setup.shop.registry ≠ none ∧ ∃ e, e.isOfFiles = true ∧
    (∃ p ∈ trail, EndsAt place t (.error e) p) ∧ ∀ result, ended ≠ .ok result

/-- The phases of a task that was answered with a text. -/
inductive FollowsAnswer (shop : Workshop) (t : Task) (text : String) : TaskPhase → Prop
  | answered (call : Call) (runId : Option String) :
    FollowsAnswer shop t text (.answered call runId (.ok text))
  | done : FollowsAnswer shop t text (.done (.ok (resultBy t (.ok text))))
  | broken {e : Fault} (hregistry : shop.registry ≠ none) (he : e.isOfFiles = true) :
    FollowsAnswer shop t text (.done (.error e))

/-- What has become, at a point of a run, of a task that was answered with a text: it is in the
stage at work, or its result is among those of the stages before. -/
inductive AnsweredAt (setup : Setup) (place : Nat) (t : Task) (text : String)
    (trail : List Point) : State → Prop
  | atWork {parentId : Option String} {number : Nat} {before : List TaskResult}
    {runs : List TaskRun} {i : Nat} {moves : List Nat} {ahead : List Stage} {phase : TaskPhase}
    (hplace : before.length + i = place) (hrun : runs[i]? = some ⟨t, phase⟩)
    (hphase : FollowsAnswer setup.shop t text phase) :
    AnsweredAt setup place t text trail ⟨parentId, number, before, .atWork runs moves, ahead⟩
  | listed {s : State} (hends : ∃ p ∈ trail, EndsAt place t (.ok (resultBy t (.ok text))) p)
    (hlisted : s.results[place]? = some (resultBy t (.ok text))) :
    AnsweredAt setup place t text trail s

variable {setup : Setup} {plan : Plan} {w₀ w w' : World} {s s' : State} {trail : List Point}
  {parentId : Option String} {place : Nat} {t : Task} {text : String} {shop : Workshop}
  {runs runs' : List TaskRun} {i k : Nat} {phase phase' : TaskPhase} {n : Nat} {ls : List String}

/-! ### Moves after the answer -/

/-- A task that was answered is done in its next move, unless the end of its call cannot be put on
record. -/
theorem followsAnswer_of_finish (shop : Workshop) (t : Task) (text : String)
    (parentId : Option String) (call : Call) (runId : Option String) (w : World) :
    ∃ phase w', ((⟨t, .answered call runId (.ok text)⟩ : TaskRun).move shop parentId).exec w =
      (.ok phase, w') ∧ FollowsAnswer shop t text phase := by
  change ∃ phase w', (Act.attempt (shop.finish call runId (.ok text)) >>= settled t).exec w = _ ∧ _
  rcases hx : (shop.finish call runId (.ok text)).exec w with ⟨(e | output), w₁⟩
  · have herror : ((shop.recordEnd runId (.ok text)).exec w).1 = .error e := by
      rcases Workshop.finish_eq_error_iff.mp (congrArg Prod.fst hx) with he | ⟨_, _, he⟩
      · exact he
      · cases he
    have hfiles := shop.faultsIn_recordEnd runId (.ok text) w e herror
    have hregistry : shop.registry ≠ none := by
      intro hnone
      unfold Workshop.recordEnd at herror
      rw [hnone] at herror
      cases herror
    refine ⟨.done (.error e), w₁, ?_, .broken hregistry hfiles⟩
    rw [exec_bind_of_ok (exec_attempt_of_eq hx)]
    cases e <;> first | rfl | cases hfiles
  · have hsame : output = text := by
      rw [Workshop.finish_eq] at hx
      obtain ⟨_, _, -, hx⟩ := exec_bind_eq_ok_iff.mp hx
      obtain ⟨_, _, hlift, hx⟩ := exec_bind_eq_ok_iff.mp hx
      cases hlift
      cases hx
      rfl
    subst hsame
    obtain ⟨log, hsettled⟩ := exec_settled t (.ok output) w₁ (by nofun)
    exact ⟨_, _, (exec_bind_of_ok (exec_attempt_of_eq hx)).trans hsettled, .done⟩

/-- A move at a position leaves a task as it is, or it is the move of that task. -/
theorem getElem?_of_exec_moveAt {r : TaskRun} {workers : Nat} (hk : runs[k]? = some r)
    (h : (moveAt shop parentId workers runs i).exec w = (.ok runs', w')) :
    runs'[k]? = some r ∨ i = k ∧ ∃ phase, (r.move shop parentId).exec w = (.ok phase, w') ∧
      runs'[k]? = some { r with phase := phase } := by
  unfold moveAt at h
  split at h
  · split at h
    · cases h
      exact .inl hk
    · next a hi =>
      obtain ⟨phase, w₁, hmove, hset⟩ := exec_bind_eq_ok_iff.mp h
      cases hset
      by_cases hik : i = k
      · subst hik
        cases hi.symm.trans hk
        exact .inr ⟨rfl, phase, hmove,
          List.getElem?_set_self (List.getElem?_eq_some_iff.mp hi).1⟩
      · exact .inl ((List.getElem?_set_ne hik).trans hk)
  · cases h
    exact .inl hk

/-- The call of a task at work is answered when it is its turn. -/
theorem exec_moveAt_running {call : Call} {runId : Option String} {workers : Nat}
    (hi : runs[i]? = some ⟨t, .running call runId⟩)
    (h : (moveAt shop parentId workers runs i).exec w = (.ok runs', w')) :
    runs'[i]? = some ⟨t, .answered call runId (shop.engine w call.invocation).result⟩ := by
  have hmay : mayMove workers runs i = true := by
    unfold mayMove
    rw [hi]
    rfl
  unfold moveAt at h
  rw [if_pos hmay, hi] at h
  cases h
  exact List.getElem?_set_self (List.getElem?_eq_some_iff.mp hi).1

/-- A task that was answered comes to its end and stays there. -/
theorem FollowsAnswer.of_exec_moveAt {workers : Nat} (hphase : FollowsAnswer shop t text phase)
    (hk : runs[k]? = some ⟨t, phase⟩)
    (h : (moveAt shop parentId workers runs i).exec w = (.ok runs', w')) :
    ∃ phase', runs'[k]? = some ⟨t, phase'⟩ ∧ FollowsAnswer shop t text phase' := by
  rcases getElem?_of_exec_moveAt hk h with hsame | ⟨-, phase', hmove, hk'⟩
  · exact ⟨phase, hsame, hphase⟩
  · refine ⟨phase', hk', ?_⟩
    cases hphase with
    | answered call runId =>
      obtain ⟨_, _, hfinish, hnext⟩ := followsAnswer_of_finish shop t text parentId call runId w
      cases hfinish.symm.trans hmove
      exact hnext
    | done =>
      cases hmove
      exact .done
    | broken hregistry he =>
      cases hmove
      exact .broken hregistry he

/-! ### The end of a stage -/

/-- The results of tasks that are done stand in the order of the tasks. -/
theorem forall₂_of_results {rs : List TaskResult} (hdone : ∀ r ∈ runs, r.phase.movesLeft = 0)
    (h : results runs = .ok rs) :
    List.Forall₂ (fun r x => r.phase = .done (.ok x)) runs rs := by
  induction runs generalizing rs with
  | nil =>
    cases h
    exact .nil
  | cons r runs ih =>
    obtain ⟨hr, hruns⟩ := List.forall_mem_cons.mp hdone
    obtain ⟨ended, hphase⟩ : ∃ ended, r.phase = .done ended := by
      cases hp : r.phase <;> rw [hp] at hr <;> first | exact ⟨_, rfl⟩ | cases hr
    have hresult : r.phase.result? = some ended := by rw [hphase]; rfl
    unfold results at h
    rw [List.filterMap_cons_some (f := fun r : TaskRun => r.phase.result?) hresult,
      mapM_eq_ok_iff] at h
    cases h with
    | cons hx hrest =>
      obtain rfl : ended = .ok _ := hx
      exact .cons hphase (ih hruns (mapM_eq_ok_iff.mpr hrest))

theorem getElem?_of_results {rs : List TaskResult} {r : Except Fault TaskResult}
    (hdone : ∀ r ∈ runs, r.phase.movesLeft = 0) (h : results runs = .ok rs)
    (hk : runs[k]? = some ⟨t, .done r⟩) : ∃ x, r = .ok x ∧ rs[k]? = some x := by
  obtain ⟨hlt, hrun⟩ := List.getElem?_eq_some_iff.mp hk
  have hall := forall₂_of_results hdone h
  have hlt' : k < rs.length := hall.length_eq ▸ hlt
  have hphase := hall.get hlt hlt'
  rw [List.get_eq_getElem, List.get_eq_getElem, hrun] at hphase
  exact ⟨rs[k], TaskPhase.done.inj hphase, List.getElem?_eq_getElem hlt'⟩

/-- A task that was answered is done when its stage is left. -/
theorem FollowsAnswer.endsAt {number : Nat} {before : List TaskResult} {ahead : List Stage}
    (hphase : FollowsAnswer shop t text phase) (hrun : runs[i]? = some ⟨t, phase⟩)
    (hdone : ∀ r ∈ runs, r.phase.movesLeft = 0) (w : World) :
    EndsAt (before.length + i) t (.ok (resultBy t (.ok text)))
        (w, ⟨parentId, number, before, .atWork runs [], ahead⟩) ∨
    ∃ e, EndsAt (before.length + i) t (.error e)
        (w, ⟨parentId, number, before, .atWork runs [], ahead⟩) ∧
      shop.registry ≠ none ∧ e.isOfFiles = true := by
  cases hphase with
  | answered call runId =>
    have hzero := hdone _ (List.mem_of_getElem? hrun)
    cases hzero
  | done => exact .inl (.intro rfl hrun)
  | broken hregistry he => exact .inr ⟨_, .intro rfl hrun, hregistry, he⟩

/-- Where a stage has results, an answered task is done with its own, at its place among those of
the script. -/
theorem FollowsAnswer.listed {number : Nat} {before : List TaskResult} {ahead : List Stage}
    {rs : List TaskResult} (hphase : FollowsAnswer shop t text phase)
    (hrun : runs[i]? = some ⟨t, phase⟩) (hdone : ∀ r ∈ runs, r.phase.movesLeft = 0)
    (hrs : results runs = .ok rs) (w : World) :
    EndsAt (before.length + i) t (.ok (resultBy t (.ok text)))
        (w, ⟨parentId, number, before, .atWork runs [], ahead⟩) ∧
      (before ++ rs)[before.length + i]? = some (resultBy t (.ok text)) := by
  have hown : phase = .done (.ok (resultBy t (.ok text))) := by
    cases hphase with
    | answered call runId =>
      have hzero := hdone _ (List.mem_of_getElem? hrun)
      cases hzero
    | done => rfl
    | broken =>
      -- A stage in which a task has no result has none.
      obtain ⟨x, hx, -⟩ := getElem?_of_results hdone hrs hrun
      cases hx
  subst hown
  obtain ⟨x, hx, hlisted⟩ := getElem?_of_results hdone hrs hrun
  cases hx
  rw [List.getElem?_append_right (Nat.le_add_right ..), Nat.add_sub_cancel_left]
  exact ⟨.intro rfl hrun, hlisted⟩

/-! ### The rest of the run -/

/-- After the answer the next point of the run has it. -/
theorem AnswersAt.next {p : Point} (ha : AnswersAt setup place t text p) (hp : p = (w, s))
    (hturn : (turn setup plan.length s).exec w = (.ok (.next s'), w')) :
    AnsweredAt setup place t text ((w', s') :: trail) s' := by
  cases ha with
  | intro hplace hrun hanswer =>
    cases hp
    cases takes_of_turn hturn with
    | moved hmove =>
      refine .atWork hplace (exec_moveAt_running hrun hmove) ?_
      rw [hanswer]
      exact .answered _ _

/-- A turn leaves an answered task in its stage or lists its result. -/
theorem AnsweredAt.next (hworkers : 0 < setup.workers)
    (ht : Trail setup plan w₀ ((w, s) :: trail))
    (h : AnsweredAt setup place t text ((w, s) :: trail) s)
    (hturn : (turn setup plan.length s).exec w = (.ok (.next s'), w')) :
    AnsweredAt setup place t text ((w', s') :: (w, s) :: trail) s' := by
  have htakes := takes_of_turn hturn
  cases h with
  | listed hends hlisted =>
    refine .listed (List.exists_mem_cons_of_exists hends) ?_
    cases htakes with
    | left hrs he =>
      exact (List.getElem?_append_left (List.getElem?_eq_some_iff.mp hlisted).1).trans hlisted
    | _ => exact hlisted
  | atWork hplace hrun hphase =>
    subst hplace
    cases htakes with
    | moved hmove =>
      obtain ⟨phase', hrun', hphase'⟩ := hphase.of_exec_moveAt hrun hmove
      exact .atWork rfl hrun' hphase'
    | left hrs _ =>
      obtain ⟨hends, hlisted⟩ := hphase.listed hrun (ht.all_done hworkers rfl) hrs w
      exact .listed ⟨_, List.mem_cons_of_mem _ (List.mem_cons_self ..), hends⟩ hlisted

/-- At the newest point of a run a task that ever was answered still is. -/
theorem Trail.answeredAt (hworkers : 0 < setup.workers)
    (h : Trail setup plan w₀ ((w, s) :: trail))
    (ha : ∃ p ∈ (w, s) :: trail, AnswersAt setup place t text p) :
    AnswersAt setup place t text (w, s) ∨
      AnsweredAt setup place t text ((w, s) :: trail) s := by
  generalize hpoints : (w, s) :: trail = points at h ha
  induction h generalizing w s trail with
  | start _ =>
    cases hpoints
    obtain ⟨p, hp, ha⟩ := ha
    rw [List.mem_singleton.mp hp] at ha
    exact .inl ha
  | next ht hturn ih =>
    cases hpoints
    obtain ⟨p, hp, ha⟩ := ha
    rcases List.mem_cons.mp hp with rfl | hp
    · exact .inl ha
    · rcases ih rfl ⟨p, hp, ha⟩ with hnow | hbefore
      · exact .inr (hnow.next rfl hturn)
      · exact .inr (hbefore.next hworkers ht hturn)

/-- The turn in which an agent answers is not the last one. -/
theorem AnswersAt.exists_next {p : Point} {x : Except Fault Turn}
    (ha : AnswersAt setup place t text p) (hp : p = (w, s))
    (hturn : (turn setup plan.length s).exec w = (x, w')) : ∃ s', x = .ok (.next s') := by
  cases ha
  cases hp
  cases takes_of_turn hturn
  exact ⟨_, rfl⟩

/-- The last turn finds a task that was answered at its end. -/
theorem AnsweredAt.comesTo {ended : Except Fault Result} (hworkers : 0 < setup.workers)
    (ht : Trail setup plan w₀ ((w, s) :: trail))
    (h : AnsweredAt setup place t text ((w, s) :: trail) s)
    (hturn : (turn setup plan.length s).exec w = (ended.map Turn.done, w')) :
    ComesTo setup ((w, s) :: trail) ended place t (resultBy t (.ok text)) := by
  generalize hx : ended.map Turn.done = x at hturn
  have htakes := takes_of_turn hturn
  cases h with
  | listed hends hlisted =>
    refine .inl ⟨hends, ?_⟩
    rintro result rfl
    cases htakes with
    | completed | cancelled _ =>
      cases hx
      exact hlisted
    | ended _ _ =>
      cases hx
      exact (List.getElem?_append_left (List.getElem?_eq_some_iff.mp hlisted).1).trans hlisted
    | _ => cases hx
  | @atWork _ _ before runs i _ _ _ hplace hrun hphase =>
    subst hplace
    cases htakes with
    | broken hrs =>
      cases ended with
      | ok result => cases hx
      | error e' =>
        have hdone := ht.all_done hworkers rfl
        rcases hphase.endsAt hrun hdone w with hends | ⟨e, hends, hregistry, he⟩
        · exact .inl ⟨⟨_, List.mem_cons_self .., hends⟩, nofun⟩
        · exact .inr ⟨hregistry, e, he, ⟨_, List.mem_cons_self .., hends⟩, nofun⟩
    | ended hrs _ =>
      obtain ⟨hends, hlisted⟩ := hphase.listed hrun (ht.all_done hworkers rfl) hrs w
      refine .inl ⟨⟨_, List.mem_cons_self .., hends⟩, ?_⟩
      rintro result rfl
      cases hx
      exact hlisted
    | _ => cases ended <;> cases hx

/-- A task that was answered has come to its result where the run stops. -/
theorem Stops.comesTo {last : Option String} {ended : Except Fault Result}
    (hworkers : 0 < setup.workers) (h : Stops setup plan w₀ trail last ended w)
    (ha : ∃ p ∈ trail, AnswersAt setup place t text p) :
    ComesTo setup trail ended place t (resultBy t (.ok text)) := by
  obtain ⟨w₁, s, past, rfl, ht, hturn⟩ : ∃ w₁ s past, trail = (w₁, s) :: past ∧
      Trail setup plan w₀ ((w₁, s) :: past) ∧
      (turn setup plan.length s).exec w₁ = (ended.map Turn.done, w) := by
    cases h with
    | done ht hturn | failed ht hturn => exact ⟨_, _, _, rfl, ht, hturn⟩
  rcases ht.answeredAt hworkers ha with hnow | hanswered
  · obtain ⟨s', hs'⟩ := hnow.exists_next rfl hturn
    cases ended <;> cases hs'
  · exact hanswered.comesTo hworkers ht hturn

/-- A task that was answered comes to the result that its answer makes. -/
theorem Course.comesTo {ended : Except Fault Result} (hworkers : 0 < setup.workers)
    (h : Course setup plan w₀ trail ended w)
    (ha : ∃ p ∈ trail, AnswersAt setup place t text p) :
    ComesTo setup trail ended place t (resultBy t (.ok text)) := by
  cases h with
  | unopened _ =>
    obtain ⟨p, hp, -⟩ := ha
    cases hp
  | closed hs hclosing =>
    -- What is put on record at the end adds no results.
    rcases hs.comesTo hworkers ha with ⟨hends, hlisted⟩ | ⟨hregistry, e, he, hends, hnone⟩
    · refine .inl ⟨hends, ?_⟩
      rintro result rfl
      exact hlisted result (closing_eq_ok hclosing)
    · refine .inr ⟨hregistry, e, he, hends, ?_⟩
      rintro result rfl
      exact hnone result (closing_eq_ok hclosing)

/-! ### The limit -/

/-- What becomes of a task with a limit `n` whose agent answered with terminated lines. -/
def tailed (t : Task) (n : Nat) (ls : List String) : TaskResult where
  name := t.name
  success := true
  output := terminated (ls.rtake (n - 1))
  tailApplied := if n ≤ ls.length then some (n : Int) else none

theorem resultBy_terminated (ht : t.tail = some n) (hn : 0 < n) (hls : ∀ l ∈ ls, '\n' ∉ l.toList) :
    resultBy t (.ok (terminated ls)) = tailed t n ls := by
  have hkept := keepTail_terminated hls hn
  unfold resultBy tailed
  rw [ht]
  change TaskResult.mk t.name true (keepTail (terminated ls) (some (n : Int))).1 none false
    (keepTail (terminated ls) (some (n : Int))).2 = _
  rw [hkept]

/-- A task with a limit `n` whose agent answers with terminated lines keeps the last `n - 1` of
them, since the line that the last line feed begins counts as one; the limit is noted where there
are at least `n` lines. -/
theorem tail_keeps_one_less {text : String} (hread : read text = .ok plan)
    (hworkers : 0 < setup.workers) (w₀ : World) :
    (∃ trail, Course setup plan w₀ trail ((run setup text).exec w₀).1
      ((run setup text).exec w₀).2) ∧
    ∀ trail ended w, Course setup plan w₀ trail ended w →
      ∀ place t n ls, t.tail = some n → 0 < n → (∀ l ∈ ls, '\n' ∉ l.toList) →
        (∃ p ∈ trail, AnswersAt setup place t (terminated ls) p) →
        ComesTo setup trail ended place t (tailed t n ls) := by
  refine ⟨?_, fun trail ended w hc place t n ls ht hn hls ha => ?_⟩
  · rw [exec_run_of_read hread]
    exact exists_course setup plan w₀
  · rw [← resultBy_terminated ht hn hls]
    exact hc.comesTo hworkers ha

/-! ### A listing -/

/-- Agents that answer every call with a text. -/
def listingSetup (text : String) : Setup where
  shop :=
    { engine := fun w _ => { store := w.store, result := .ok text }
      dir := ⟨.slash, ["work"]⟩
      stateDir := ⟨.none, ["state"]⟩ }
  workers := 1

/-- A task with a limit. -/
def listingTask (n : Nat) : Task := { name := "a", argument := "go", tail := some n }

/-- The agent's answer is part of the run of this task. -/
theorem exists_course_listing (text : String) (n : Nat) :
    ∃ trail w, Course (listingSetup text) [[listingTask n]] default trail
        (.ok ⟨{ status := .completed }, [resultBy (listingTask n) (.ok text)]⟩) w ∧
      ∃ p ∈ trail, AnswersAt (listingSetup text) 0 (listingTask n) text p := by
  have hstart : Trail (listingSetup text) [[listingTask n]] default _ := .start rfl
  have hbegun := Trail.next hstart rfl
  have hprepared := Trail.next hbegun rfl
  have hentered := Trail.next hprepared rfl
  have hanswered := Trail.next hentered rfl
  -- What is noted depends on the limit, so the last move is not worked out.
  obtain ⟨log, hsettled⟩ := exec_settled (listingTask n) (.ok text) _ (by nofun)
  have hdone := Trail.next hanswered (exec_bind_of_ok (exec_bind_of_ok
    ((exec_bind_of_ok (exec_attempt_of_eq rfl)).trans hsettled)))
  have hleft := Trail.next hdone rfl
  exact ⟨_, _, .closed (.done hleft rfl) rfl, _, .tail _ (.tail _ (.tail _ (.head _))),
    .intro rfl rfl rfl⟩

/-- Of three lines a limit of two keeps one. -/
theorem listing_keeps_one_less :
    read "a[tail:2] 'go'" = .ok [[listingTask 2]] ∧
    tailed (listingTask 2) 2 ["one", "two", "three"] =
      { name := "a", success := true, output := "three\n", tailApplied := some 2 } ∧
    ∃ trail ended w, Course (listingSetup (terminated ["one", "two", "three"])) [[listingTask 2]]
        default trail ended w ∧
      (∃ p ∈ trail, AnswersAt (listingSetup (terminated ["one", "two", "three"])) 0 (listingTask 2)
        (terminated ["one", "two", "three"]) p) ∧
      ComesTo (listingSetup (terminated ["one", "two", "three"])) trail ended 0 (listingTask 2)
        (tailed (listingTask 2) 2 ["one", "two", "three"]) := by
  have hread : read "a[tail:2] 'go'" = .ok [[listingTask 2]] := by decide +kernel
  obtain ⟨trail, w, hc, ha⟩ := exists_course_listing (terminated ["one", "two", "three"]) 2
  refine ⟨hread, by decide +kernel, trail, _, w, hc, ha, ?_⟩
  exact (tail_keeps_one_less hread (by decide) default).2 trail _ w hc 0 (listingTask 2) 2 _ rfl
    (by decide) (by decide) ha

/-- The result that the limit of a task asks for: its last `n` lines, and the limit where there are
more. -/
def asAsked (t : Task) (n : Nat) (ls : List String) : TaskResult where
  name := t.name
  success := true
  output := terminated (ls.rtake n)
  tailApplied := if n < ls.length then some (n : Int) else none

/-- A limit of one keeps nothing of one line. -/
theorem not_keeps_last_lines :
    read "a[tail:1] 'go'" = .ok [[listingTask 1]] ∧
    ((run (listingSetup "one\n") "a[tail:1] 'go'").exec default).1 = .ok
      ⟨{ status := .completed },
        [{ name := "a", success := true, output := "", tailApplied := some 1 }]⟩ ∧
    asAsked (listingTask 1) 1 ["one"] = { name := "a", success := true, output := "one\n" } ∧
    ∃ trail ended w, Course (listingSetup "one\n") [[listingTask 1]] default trail ended w ∧
      (∃ p ∈ trail, AnswersAt (listingSetup "one\n") 0 (listingTask 1) (terminated ["one"]) p) ∧
      ¬ComesTo (listingSetup "one\n") trail ended 0 (listingTask 1)
        (asAsked (listingTask 1) 1 ["one"]) := by
  have htext : terminated ["one"] = "one\n" := by decide +kernel
  obtain ⟨trail, w, hc, ha⟩ := exists_course_listing "one\n" 1
  refine ⟨by decide +kernel, by decide +kernel, by decide +kernel, trail, _, w, hc, htext ▸ ha, ?_⟩
  rintro (⟨-, hresult⟩ | ⟨hregistry, -⟩)
  · have hlisted := Option.some.inj (hresult _ rfl)
    exact absurd hlisted (by decide +kernel)
  · exact hregistry rfl

end Script

end Conductor
