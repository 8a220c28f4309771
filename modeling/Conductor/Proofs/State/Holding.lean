import Conductor.Proofs.State.Registry
import Mathlib.Data.List.Nodup

/-!
# The records that a registry holds

A registry holds the records of its file, and none where no file stands (`Registry.Holds`).  One law
for each of its two operations: a run that starts is put behind the records that are held, or the
start fails and they stay (`inFile_of_start_of_holds`, `Holds.of_start_fault`), and the end of a run
goes to the first record of its id, if there is one (`exec_finish_of_holds`).

Main statements: the books of a run are kept by both operations (`Booked.opened`, `Booked.closed`).
Behind the former records stand those that have been added, each under an id of its own, and those
that are still pending can be finished.
-/

namespace Conductor

open Act Text

namespace Store

variable {s s' : Store} {base path other : Path} {content : List UInt8}

/-- No file stands at the place that a path leads to. -/
def LacksFile (s : Store) (base path : Path) : Prop :=
  ∀ bytes modified, s.at? (Path.resolve base path).names ≠ some (.file bytes modified)

theorem LacksFile.readBytes_ne (h : s.LacksFile base path) (bytes : List UInt8) :
    s.readBytes base path ≠ .ok bytes := by
  intro hb
  obtain ⟨place, modified, hl, hf⟩ := readBytes_eq_ok_iff.mp hb
  rw [← names_resolve_of_locate hl] at hf
  exact h bytes modified hf

/-- Every file of the other store is there. -/
def FilesFrom (s s' : Store) : Prop :=
  ∀ p bytes modified, s'.at? p = some (.file bytes modified) → s.at? p = some (.file bytes modified)

theorem filesFrom_makeDirectory (h : s.makeDirectory base path = .ok s') : s.FilesFrom s' := by
  unfold makeDirectory at h
  cases hl : s.locate base path with
  | error cause =>
    rw [hl] at h
    cases h
  | ok place =>
    rw [hl] at h
    simp only [bind, Except.bind] at h
    split at h
    · cases h
    · next hnone =>
      cases h
      intro p bytes modified hp
      -- A directory stands at the new place, and elsewhere what stood there before.
      by_cases hne : p = place
      · have hroot : place ≠ [] := by
          rintro rfl
          cases hnone
        rw [hne, at?_putNode_self s hroot] at hp
        cases hp
      · rwa [at?_putNode_of_ne s hne] at hp

/-- Making directories puts a file nowhere. -/
theorem filesFrom_ensureDirectory (h : s.ensureDirectory base path = .ok s') : s.FilesFrom s' :=
  rel_of_ensureUpTo (fun _ _ _ _ hp => hp) filesFrom_makeDirectory
    (fun h h' p bytes modified hp => h p bytes modified (h' p bytes modified hp)) h

theorem LacksFile.ensureDirectory (h : s.LacksFile base path)
    (hs : s.ensureDirectory base other = .ok s') : s'.LacksFile base path :=
  fun bytes modified hp => h bytes modified (filesFrom_ensureDirectory hs _ _ _ hp)

theorem LacksFile.writeBytes (h : s.LacksFile base path)
    (hs : s.writeBytes base other content = .ok s')
    (hne : Path.resolve base other ≠ Path.resolve base path) : s'.LacksFile base path := by
  intro bytes modified hp
  rw [at?_writeBytes hs] at hp
  · exact h bytes modified hp
  · intro ho
    apply hne
    have hnames := names_resolve_of_locate ho
    unfold Path.resolve at hnames ⊢
    exact congrArg (Path.mk .slash) hnames

end Store

namespace Registry

variable {path : Path} {rs rs' : List RunRecord} {r : RunRecord} {w w' : World} {id : String}
  {state : RunState} {error : Option String} {agentId name : String} {parentId : Option String}

/-- The records that a registry holds: those of its file, and none where no file stands. -/
inductive Holds (path : Path) (w : World) : List RunRecord → Prop
  | file {rs : List RunRecord} (h : FoundIn path rs w) : Holds path w rs
  | none (h : w.store.LacksFile w.cwd path) : Holds path w []

theorem holds_of_inFile (h : InFile path rs w) : Holds path w rs := .file h.foundIn

/-! ### What keeps the records -/

/-- The records are held while the text of the file stays and no file comes to stand where none
stood. -/
theorem Holds.congr (h : Holds path w rs) (hcwd : w'.cwd = w.cwd)
    (hread : ∀ t, w.store.readText w.cwd path = .ok t → w'.store.readText w.cwd path = .ok t)
    (hlacks : w.store.LacksFile w.cwd path → w'.store.LacksFile w.cwd path) :
    Holds path w' rs := by
  cases h with
  | file h =>
    obtain ⟨t, ht, hrs⟩ := h.text
    refine .file ⟨h.names_ne_nil, t, ?_, hrs⟩
    rw [hcwd]
    exact hread t ht
  | none h =>
    refine .none ?_
    rw [hcwd]
    exact hlacks h

theorem Holds.of_files (h : Holds path w rs) (hstore : w'.store = w.store) (hcwd : w'.cwd = w.cwd) :
    Holds path w' rs :=
  h.congr hcwd (fun _ ht => by rwa [hstore]) fun hl => by rwa [hstore]

theorem Holds.ensureDirectory {dir : Path} {s : Store} (h : Holds path w rs)
    (hs : w.store.ensureDirectory w.cwd dir = .ok s) : Holds path { w with store := s } rs :=
  h.congr rfl (fun _ => Store.readText_ensureDirectory hs) fun hl => hl.ensureDirectory hs

theorem Holds.writeText {other : Path} {text : String} {s : Store} (h : Holds path w rs)
    (hs : w.store.writeText w.cwd other text = .ok s)
    (hne : Path.resolve w.cwd other ≠ Path.resolve w.cwd path) :
    Holds path { w with store := s } rs :=
  h.congr rfl (fun _ => Store.readText_writeText_of_ne hs hne)
    fun hl => hl.writeBytes (Store.writeBytes_of_writeText hs) hne

theorem Holds.proper (h : Holds path w rs) : ∀ r ∈ rs, r.Proper := by
  cases h with
  | file h => exact h.proper
  | none h => exact fun r hr => nomatch hr

/-- What is loaded are the records that are held. -/
theorem Holds.eq_of_load (h : Holds path w rs) (hl : (load path).exec w = (.ok rs', w')) :
    rs' = rs := by
  cases h with
  | file h =>
    rw [exec_load h] at hl
    cases hl
    rfl
  | none hlacks =>
    unfold load at hl
    rw [exec_bind, exec_holds] at hl
    cases hheld : w.store.held w.cwd path with
    | error e =>
      rw [hheld] at hl
      cases hl
    | ok there =>
      rw [hheld] at hl
      cases there with
      | false =>
        cases hl
        rfl
      | true =>
        dsimp only at hl
        rw [Bool.not_true, if_neg Bool.false_ne_true, exec_bind, exec_readText] at hl
        -- Something stands there, but no file, so there is no text.
        cases hread : w.store.readText w.cwd path with
        | ok text =>
          obtain ⟨-, bytes, hb⟩ := Store.exists_readBytes_of_readText hread
          exact absurd hb (hlacks.readBytes_ne bytes)
        | error e =>
          rw [hread] at hl
          cases e <;> cases hl

/-! ### A run starts -/

/-- A run that is put on record stands behind the records that were held. -/
theorem inFile_of_start_of_holds (h : Holds path w rs)
    (hr : (started agentId name parentId w).Proper)
    (hs : (start path agentId name parentId).exec w = (.ok r, w')) :
    r = started agentId name parentId w ∧ InFile path (rs ++ [r]) w' ∧
      ∃ s, w' = { w with store := s, nextRun := w.nextRun + 1 } := by
  have hsame := snd_exec_load path w
  rcases hload : (load path).exec w with ⟨e | rs', w₁⟩
  · unfold start at hs
    rw [exec_bind, hload] at hs
    cases hs
  · rw [hload] at hsame
    obtain rfl : w₁ = w := hsame
    obtain rfl := h.eq_of_load hload
    rw [exec_start_of_load hload] at hs
    obtain ⟨_, w₂, hsave, hs⟩ := exec_bind_eq_ok_iff.mp hs
    obtain ⟨hr', rfl⟩ := Prod.mk.inj hs
    obtain rfl := Except.ok.inj hr'
    obtain ⟨hfile, s₁, s₂, -, -, rfl⟩ :=
      inFile_of_save (proper_concat (proper_of_load hload) hr) hsave
    exact ⟨rfl, hfile, s₂, rfl⟩

/-- Where the start of a run ends in a fault, the records that were held stay. -/
theorem Holds.of_start_fault {e : Fault} (h : Holds path w rs)
    (hs : (start path agentId name parentId).exec w = (.error e, w')) :
    Holds path w' rs ∧
      ∃ s n, w.nextRun ≤ n ∧ w' = { w with store := s, nextRun := n } := by
  have hsame := snd_exec_load path w
  rcases hload : (load path).exec w with ⟨e' | rs', w₁⟩
  · unfold start at hs
    rw [exec_bind, hload] at hs
    rw [hload] at hsame
    cases hs
    obtain rfl : w' = w := hsame
    exact ⟨h, w'.store, w'.nextRun, Nat.le_refl _, rfl⟩
  · rw [hload] at hsame
    obtain rfl : w₁ = w := hsame
    rw [exec_start_of_load hload, exec_bind] at hs
    have hnext : Holds path { w₁ with nextRun := w₁.nextRun + 1 } rs := h.of_files rfl rfl
    unfold save Act.saveText at hs
    split at hs
    · cases hs
    · next hsave =>
      cases hs
      rw [exec_bind] at hsave
      split at hsave
      · next hdir =>
        -- The directory has been made, and nothing was written.
        obtain ⟨s, hs, rfl⟩ := eq_ok_of_ensureDirectory hdir
        obtain rfl := eq_of_checked_fault hsave
        exact ⟨hnext.ensureDirectory hs, s, _, Nat.le_succ _, rfl⟩
      · next hdir =>
        cases hsave
        obtain rfl := eq_of_checked_fault hdir
        exact ⟨hnext, _, _, Nat.le_succ _, rfl⟩

/-- Where a file holds the records no start ends in a fault. -/
theorem start_ne_fault {e : Fault} (h : FoundIn path rs w) :
    (start path agentId name parentId).exec w ≠ (.error e, w') := by
  intro hs
  have hnext : FoundIn path rs { w with nextRun := w.nextRun + 1 } := ⟨h.names_ne_nil, h.text⟩
  obtain ⟨s, -, hsave⟩ := exec_save hnext (rs ++ [started agentId name parentId w])
  rw [exec_start_of_load (exec_load h), exec_bind_of_ok hsave] at hs
  cases hs

/-! ### Fresh ids -/

/-- The number that hexadecimal digits write. -/
def numberOf (cs : List Char) : Nat :=
  cs.foldl (fun n c => 16 * n + if c.isDigit then c.toNat - 48 else c.toNat - 87) 0

theorem numberOf_concat_digitChar (cs : List Char) {d : Nat} (hd : d < 16) :
    numberOf (cs ++ [Nat.digitChar d]) = 16 * numberOf cs + d := by
  have hdigits : ∀ d < 16, (if (Nat.digitChar d).isDigit then (Nat.digitChar d).toNat - 48
      else (Nat.digitChar d).toNat - 87) = d := by decide
  unfold numberOf
  rw [List.foldl_concat, hdigits d hd]

theorem numberOf_zeros (k : Nat) (cs : List Char) :
    numberOf (List.replicate k '0' ++ cs) = numberOf cs := by
  induction k with
  | zero => rfl
  | succ k ih => exact ih

theorem numberOf_toDigits (n : Nat) : numberOf (Nat.toDigits 16 n) = n := by
  induction n using Nat.strongRecOn with
  | ind n ih =>
    rw [Nat.toDigits_eq_if (by decide)]
    split
    · next hlt => exact (numberOf_concat_digitChar [] hlt).trans (Nat.zero_add n)
    · rw [numberOf_concat_digitChar _ (Nat.mod_lt n (by decide)), ih (n / 16) (by omega)]
      omega

/-- Runs of different numbers have different ids. -/
theorem runId_injective {m n : Nat} (h : runId m = runId n) : m = n := by
  have hnumber : ∀ k, numberOf (runId k).toList = k := by
    intro k
    unfold runId
    rw [String.toList_ofList, numberOf_zeros, numberOf_toDigits]
  rw [← hnumber m, h, hnumber n]

/-- No record has the id of a run that is still to start. -/
def Fresh (rs : List RunRecord) (w : World) : Prop :=
  ∀ r ∈ rs, ∀ n, w.nextRun ≤ n → r.runId ≠ runId n

theorem Fresh.mono (h : Fresh rs w) (hn : w.nextRun ≤ w'.nextRun) : Fresh rs w' :=
  fun r hr n hle => h r hr n (Nat.le_trans hn hle)

theorem Fresh.concat (h : Fresh rs w) (hn : w'.nextRun = w.nextRun + 1)
    (hr : r.runId = runId w.nextRun) : Fresh (rs ++ [r]) w' := by
  intro a ha n hle
  rw [hn] at hle
  rcases List.mem_append.mp ha with ha | ha
  · exact h a ha n (Nat.le_of_succ_le hle)
  · rw [List.mem_singleton.mp ha, hr]
    exact fun he => absurd (runId_injective he) (Nat.ne_of_lt hle)

/-! ### A run ends -/

/-- The end of a run goes to the first record of its id. -/
theorem finished?_append {time : String} {earlier later : List RunRecord} (hr : r.runId = id)
    (he : ∀ a ∈ earlier, a.runId ≠ id) :
    finished? id state error time (earlier ++ r :: later) =
      some (earlier ++ r.ended state error time :: later, r.ended state error time) := by
  induction earlier with
  | nil => rw [List.nil_append, List.nil_append, finished?, if_pos hr]
  | cons a earlier ih =>
    rw [List.cons_append, finished?, if_neg (he a (List.mem_cons_self ..)),
      ih fun b hb => he b (List.mem_cons_of_mem _ hb)]
    rfl

/-- The end of a run that has a record is put on record without a fault. -/
theorem exec_finish_of_holds (h : Holds path w rs) (hid : ∃ r ∈ rs, r.runId = id)
    (state : RunState) (error : Option String) :
    ∃ rs' r s, finished? id state error w.now.offsetText rs = some (rs', r) ∧
      (finish path id state error).exec w = (.ok r, { w with store := s }) ∧
      ((∀ s ∈ error, LoneHalf.occursIn s = false) → InFile path rs' { w with store := s }) := by
  cases h with
  | file h =>
    obtain ⟨rs', r, s, hf, -, hx, hfile⟩ := exec_finish_of_foundIn h hid state error
    exact ⟨rs', r, s, hf, hx, hfile⟩
  | none h =>
    obtain ⟨r, hr, -⟩ := hid
    cases hr

/-! ### Books -/

/-- The record, ended if it is that of a run. -/
def endedIf (id : String) (state : RunState) (error : Option String) (time : String)
    (r : RunRecord) : RunRecord :=
  if r.runId = id then r.ended state error time else r

@[simp]
theorem runId_endedIf (id : String) (state : RunState) (error : Option String) (time : String)
    (r : RunRecord) : (endedIf id state error time r).runId = r.runId := by
  unfold endedIf
  split <;> rfl

theorem map_endedIf_of_not_mem {time : String} (h : id ∉ rs.map (·.runId)) :
    rs.map (endedIf id state error time) = rs := by
  refine (List.map_congr_left fun a ha => ?_).trans (List.map_id rs)
  have hne : a.runId ≠ id := fun he => h (he ▸ List.mem_map_of_mem ha)
  exact if_neg hne

/-- The books of a run: behind the former records stand those that have been added, each under an id
of its own, and those of some runs are still pending. -/
structure Booked (path : Path) (former added : List RunRecord) (pending : List String)
    (w : World) : Prop where
  holds : Holds path w (former ++ added)
  /-- Before the first run has been put on record the file need not be there. -/
  inFile : pending ≠ [] → InFile path (former ++ added) w
  fresh : Fresh (former ++ added) w
  apart : ∀ r ∈ former, ∀ a ∈ added, r.runId ≠ a.runId
  nodup : (added.map (·.runId)).Nodup
  listed : ∀ id ∈ pending, ∃ r ∈ added, r.runId = id
  once : pending.Nodup

variable {former added : List RunRecord} {pending pending' : List String}

theorem booked_nil (h : Holds path w former) (hf : Fresh former w) :
    Booked path former [] [] w where
  holds := by rwa [List.append_nil]
  inFile hne := absurd rfl hne
  fresh := by rwa [List.append_nil]
  apart _ _ _ ha := nomatch ha
  nodup := .nil
  listed _ hid := nomatch hid
  once := .nil

theorem Booked.perm (h : Booked path former added pending w) (hp : pending'.Perm pending) :
    Booked path former added pending' w where
  holds := h.holds
  inFile hne := h.inFile fun hnil => hne (by rwa [hnil, List.perm_nil] at hp)
  fresh := h.fresh
  apart := h.apart
  nodup := h.nodup
  listed id hid := h.listed id (hp.mem_iff.mp hid)
  once := hp.nodup_iff.mpr h.once

/-- What keeps the records that are held and the file, once it is there, keeps the books. -/
theorem Booked.congr (h : Booked path former added pending w)
    (hholds : Holds path w' (former ++ added))
    (hfile : InFile path (former ++ added) w → InFile path (former ++ added) w')
    (hnext : w.nextRun ≤ w'.nextRun) : Booked path former added pending w' :=
  ⟨hholds, fun hne => hfile (h.inFile hne), h.fresh.mono hnext, h.apart, h.nodup, h.listed, h.once⟩

theorem Booked.of_files (h : Booked path former added pending w) (hstore : w'.store = w.store)
    (hcwd : w'.cwd = w.cwd) (hnext : w'.nextRun = w.nextRun) :
    Booked path former added pending w' :=
  h.congr (h.holds.of_files hstore hcwd) (fun hf => hf.congr hcwd (by rw [hstore]))
    (Nat.le_of_eq hnext.symm)

theorem Booked.ensureDirectory {dir : Path} {s : Store} (h : Booked path former added pending w)
    (hs : w.store.ensureDirectory w.cwd dir = .ok s) :
    Booked path former added pending { w with store := s } :=
  h.congr (h.holds.ensureDirectory hs)
    (fun hf => hf.congr rfl ((Store.readBytes_ensureDirectory hs hf.bytes).trans hf.bytes.symm))
    (Nat.le_refl _)

theorem Booked.writeText {other : Path} {text : String} {s : Store}
    (h : Booked path former added pending w)
    (hs : w.store.writeText w.cwd other text = .ok s)
    (hne : Path.resolve w.cwd other ≠ Path.resolve w.cwd path) :
    Booked path former added pending { w with store := s } :=
  h.congr (h.holds.writeText hs hne)
    (fun hf => hf.congr rfl ((Store.readBytes_writeBytes_of_ne (Store.writeBytes_of_writeText hs)
      hne hf.bytes).trans hf.bytes.symm))
    (Nat.le_refl _)

/-- A run that is put on record is pending under a fresh id. -/
theorem Booked.opened (h : Booked path former added pending w)
    (hr : (started agentId name parentId w).Proper)
    (hs : (start path agentId name parentId).exec w = (.ok r, w')) :
    r = started agentId name parentId w ∧
      Booked path former (added ++ [r]) (r.runId :: pending) w' ∧
      ∃ s, w' = { w with store := s, nextRun := w.nextRun + 1 } := by
  obtain ⟨rfl, hfile, s, rfl⟩ := inFile_of_start_of_holds h.holds hr hs
  rw [List.append_assoc] at hfile
  -- The new id is fresh, so it is none of those there are.
  have hnew : ∀ a ∈ former ++ added, a.runId ≠ runId w.nextRun :=
    fun a ha => h.fresh a ha w.nextRun (Nat.le_refl _)
  refine ⟨rfl, ⟨holds_of_inFile hfile, fun _ => hfile, ?_, ?_, ?_, ?_, ?_⟩, s, rfl⟩
  · rw [← List.append_assoc]
    exact h.fresh.concat rfl rfl
  · intro b hb a ha
    rcases List.mem_append.mp ha with ha | ha
    · exact h.apart b hb a ha
    · rw [List.mem_singleton.mp ha]
      exact hnew b (List.mem_append_left _ hb)
  · rw [List.map_append, List.map_singleton]
    refine List.nodup_append.mpr ⟨h.nodup, List.nodup_singleton _, ?_⟩
    intro id hid id' hid'
    obtain ⟨a, ha, rfl⟩ := List.mem_map.mp hid
    rw [List.mem_singleton.mp hid']
    exact hnew a (List.mem_append_right _ ha)
  · intro id hid
    rcases List.mem_cons.mp hid with rfl | hid
    · exact ⟨_, List.mem_append_right _ (List.mem_singleton_self _), rfl⟩
    · obtain ⟨a, ha, hid⟩ := h.listed id hid
      exact ⟨a, List.mem_append_left _ ha, hid⟩
  · refine List.nodup_cons.mpr ⟨fun hmem => ?_, h.once⟩
    obtain ⟨a, ha, hid⟩ := h.listed _ hmem
    exact hnew a (List.mem_append_right _ ha) hid

/-- A start that ends in a fault leaves the books as they are. -/
theorem Booked.of_start_fault {e : Fault} (h : Booked path former added pending w)
    (hs : (Registry.start path agentId name parentId).exec w = (.error e, w')) :
    Booked path former added pending w' ∧ ∃ s n, w' = { w with store := s, nextRun := n } := by
  obtain ⟨hholds, s, n, hn, rfl⟩ := h.holds.of_start_fault hs
  refine ⟨⟨hholds, fun hne => ?_, h.fresh.mono hn, h.apart, h.nodup, h.listed, h.once⟩, s, n, rfl⟩
  exact absurd hs (start_ne_fault (h.inFile hne).foundIn)

/-- The one record of an id among the added ones is ended, and no other is changed. -/
theorem finished?_of_nodup (state : RunState) (error : Option String) (time : String)
    (hformer : ∀ r ∈ former, r.runId ≠ id)
    (hnodup : (added.map (·.runId)).Nodup) (hid : ∃ r ∈ added, r.runId = id) :
    ∃ r, finished? id state error time (former ++ added) =
      some (former ++ added.map (endedIf id state error time), r) := by
  obtain ⟨r, hr, hid⟩ := hid
  obtain ⟨earlier, later, rfl⟩ := List.append_of_mem hr
  rw [List.map_append, List.map_cons, List.nodup_middle, List.nodup_cons, List.mem_append,
    not_or, hid] at hnodup
  obtain ⟨⟨hearlier, hlater⟩, -⟩ := hnodup
  have hall : ∀ a ∈ former ++ earlier, a.runId ≠ id := by
    intro a ha
    rcases List.mem_append.mp ha with ha | ha
    · exact hformer a ha
    · exact fun he => hearlier (he ▸ List.mem_map_of_mem ha)
  refine ⟨r.ended state error time, ?_⟩
  rw [← List.append_assoc, finished?_append hid hall, List.map_append, List.map_cons,
    map_endedIf_of_not_mem hearlier, map_endedIf_of_not_mem hlater, List.append_assoc, endedIf,
    if_pos hid]

/-- A run that is pending is ended in its record, and no other record is changed. -/
theorem Booked.closed (h : Booked path former added (id :: pending) w) (state : RunState)
    (he : ∀ s ∈ error, LoneHalf.occursIn s = false) :
    ∃ r s, (finish path id state error).exec w = (.ok r, { w with store := s }) ∧
      Booked path former (added.map (endedIf id state error w.now.offsetText)) pending
        { w with store := s } := by
  have hlisted := h.listed id (List.mem_cons_self ..)
  have hformer : ∀ r ∈ former, r.runId ≠ id := by
    obtain ⟨a, ha, rfl⟩ := hlisted
    exact fun r hr => h.apart r hr a ha
  have hids : (added.map (endedIf id state error w.now.offsetText)).map (·.runId) =
      added.map (·.runId) := by
    rw [List.map_map]
    exact List.map_congr_left fun r _ => runId_endedIf ..
  have hknown : ∃ r ∈ former ++ added, r.runId = id := by
    obtain ⟨a, ha, hid⟩ := hlisted
    exact ⟨a, List.mem_append_right _ ha, hid⟩
  obtain ⟨rs', r, s, hf, hx, hfile⟩ := exec_finish_of_holds h.holds hknown state error
  obtain ⟨r', hf'⟩ :=
    finished?_of_nodup state error w.now.offsetText hformer h.nodup hlisted
  obtain ⟨rfl, rfl⟩ := Prod.mk.inj (Option.some.inj (hf.symm.trans hf'))
  -- No id has changed, and all that is left is about ids.
  refine ⟨r, s, hx, holds_of_inFile (hfile he), fun _ => hfile he, ?_, ?_, ?_, ?_, ?_⟩
  · intro a ha n hn
    rcases List.mem_append.mp ha with ha | ha
    · exact h.fresh a (List.mem_append_left _ ha) n hn
    · obtain ⟨b, hb, rfl⟩ := List.mem_map.mp ha
      rw [runId_endedIf]
      exact h.fresh b (List.mem_append_right _ hb) n hn
  · intro b hb a ha
    obtain ⟨c, hc, rfl⟩ := List.mem_map.mp ha
    rw [runId_endedIf]
    exact h.apart b hb c hc
  · rw [hids]
    exact h.nodup
  · intro id' hid'
    obtain ⟨a, ha, rfl⟩ := h.listed id' (List.mem_cons_of_mem _ hid')
    exact ⟨_, List.mem_map_of_mem ha, runId_endedIf ..⟩
  · exact (List.nodup_cons.mp h.once).2

end Registry

end Conductor
