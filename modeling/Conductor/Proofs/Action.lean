import Conductor.State.World

/-!
# How actions run

What each building block of an action does to a world, so that longer actions are opened step by
step: an action with a continuation yields a value iff both parts do (`exec_bind_eq_ok_iff`).

A property of worlds is kept by an action when it holds after it wherever it held before, whether
the action yields a value or a fault (`Keeps`).  Sequences keep what their parts keep
(`Keeps.bind`), and end in no fault in which none of their parts ends (`FaultsIn.bind`), given what
the earlier parts yield (`Yields`).
-/

namespace Conductor

/-- A world that may differ from `w` in what was logged. -/
def World.withLog (w : World) (log : Array Record) : World := { w with log := log }

/-- Whether a path leads to something; a name that is too long is a fault. -/
def Store.held (s : Store) (cwd path : Path) : Except Fault Bool :=
  if path.hasNul then .ok false
  else match s.stat cwd path with
    | .ok _ => .ok true
    | .error .nameTooLong => .error (.file ⟨.nameTooLong, path.toString⟩)
    | .error _ => .ok false

/-- A fault that comes from the files, from a text in one of them or from what cannot be put into a
text. -/
def Fault.isOfFiles : Fault → Bool
  | invalid .. | read _ | file _ | json .. | value _ | unknownRun _ => true
  | _ => false

theorem Fault.not_isOwn_of_isOfFiles {e : Fault} (h : e.isOfFiles = true) : e.isOwn = false := by
  cases e <;> first | rfl | cases h

theorem Fault.not_isUsage_of_not_isOwn {e : Fault} (h : e.isOwn = false) : e.isUsage = false := by
  cases e <;> first | rfl | cases h

namespace Act

variable {α β : Type}

theorem eq_ok_of_toOption {r : Except Fault α} {x : α} (h : r.toOption = some x) : r = .ok x := by
  cases r with
  | error e => cases h
  | ok y => exact congrArg Except.ok (Option.some.inj h)

/-! ### Running the building blocks -/

theorem exec_get (w : World) : (get : Act World).exec w = (.ok w, w) := rfl

theorem exec_note (rs : List Record) (w : World) :
    (note rs).exec w = (.ok (), w.withLog (rs.foldl Array.push w.log)) := rfl

theorem exec_attempt (a : Act α) (w : World) :
    (attempt a).exec w = (.ok (a.exec w).1, (a.exec w).2) := rfl

theorem exec_attempt_of_eq {a : Act α} {w w' : World} {r : Except Fault α}
    (h : a.exec w = (r, w')) : (attempt a).exec w = (.ok r, w') := by
  rw [exec_attempt, h]

theorem exec_lift (r : Except Fault α) (w : World) : (lift r).exec w = (r, w) := by
  cases r <;> rfl

theorem exec_bind (a : Act α) (g : α → Act β) (w : World) :
    (a >>= g).exec w = match a.exec w with
      | (.ok x, w) => (g x).exec w
      | (.error e, w) => (.error e, w) := by
  unfold exec
  rw [ExceptT.run_bind, StateT.run_bind]
  show (match a.run.run w with | (x, w) => _) = _
  rcases a.run.run w with ⟨(e | x), w⟩ <;> rfl

theorem exec_bind_of_ok {a : Act α} {g : α → Act β} {w w' : World} {x : α}
    (h : a.exec w = (.ok x, w')) : (a >>= g).exec w = (g x).exec w' := by
  rw [exec_bind, h]

theorem exec_map (f : α → β) (a : Act α) (w : World) :
    (f <$> a).exec w = ((a.exec w).1.map f, (a.exec w).2) := by
  rw [map_eq_pure_bind, exec_bind]
  rcases a.exec w with ⟨(e | x), w'⟩ <;> rfl

/-- An action with a continuation yields a value iff both parts do. -/
theorem exec_bind_eq_ok_iff {a : Act α} {g : α → Act β} {w w'' : World} {y : β} :
    (a >>= g).exec w = (.ok y, w'') ↔
      ∃ x w', a.exec w = (.ok x, w') ∧ (g x).exec w' = (.ok y, w'') := by
  rw [exec_bind]
  rcases a.exec w with ⟨(e | x), w'⟩
  · simp
  · simp only [Prod.mk.injEq, Except.ok.injEq]
    constructor
    · exact fun h => ⟨x, w', ⟨rfl, rfl⟩, h⟩
    · rintro ⟨_, _, ⟨rfl, rfl⟩, h⟩
      exact h

/-- An action with a continuation ends in a fault iff one of the parts does. -/
theorem exec_bind_eq_error_iff {a : Act α} {g : α → Act β} {w : World} {e : Fault} :
    ((a >>= g).exec w).1 = .error e ↔
      (a.exec w).1 = .error e ∨ ∃ x w', a.exec w = (.ok x, w') ∧ ((g x).exec w').1 = .error e := by
  rw [exec_bind]
  rcases a.exec w with ⟨(e' | x), w'⟩
  · simp
  · simp only [Prod.mk.injEq, Except.ok.injEq, reduceCtorEq, false_or]
    constructor
    · exact fun h => ⟨x, w', ⟨rfl, rfl⟩, h⟩
    · rintro ⟨_, _, ⟨rfl, rfl⟩, h⟩
      exact h

/-- Where an action and what follows it end in no fault, the action ends in none. -/
theorem exists_of_bind_ne_error {a : Act α} {g : α → Act β} {w : World}
    (h : ∀ e, ((a >>= g).exec w).1 ≠ .error e) : ∃ x w', a.exec w = (.ok x, w') := by
  rcases hx : a.exec w with ⟨(e | x), w'⟩
  · exact absurd (exec_bind_eq_error_iff.mpr (.inl (congrArg Prod.fst hx))) (h e)
  · exact ⟨x, w', rfl⟩

/-- A record that is noted changes nothing but the log. -/
theorem exec_note_bind (rs : List Record) (g : Unit → Act β) (w : World) :
    (note rs >>= g).exec w = (g ()).exec (w.withLog (rs.foldl Array.push w.log)) :=
  exec_bind_of_ok (exec_note rs w)

/-! ### Reading the store -/

theorem exec_holds (path : Path) (w : World) :
    (holds path).exec w = (w.store.held w.cwd path, w) := by
  unfold holds Store.held
  rw [exec_bind, exec_get]
  dsimp only
  split
  · rfl
  · cases w.store.stat w.cwd path with
    | ok _ => rfl
    | error cause => cases cause <;> rfl

theorem exec_readText (path : Path) (w : World) :
    (readText path).exec w = (.ok (w.store.readText w.cwd path), w) := rfl

/-! ### Changes of the store that succeed -/

theorem eq_ok_of_checkPath {path : Path} {u : Unit} {w w' : World}
    (h : (checkPath path).exec w = (.ok u, w')) : path.hasNul = false ∧ w' = w := by
  unfold checkPath at h
  cases hp : path.hasNul with
  | true =>
    rw [hp, if_pos rfl] at h
    cases h
  | false =>
    rw [hp, if_neg Bool.false_ne_true] at h
    cases h
    exact ⟨rfl, rfl⟩

theorem eq_ok_of_changeStore {m : World → Except FileError Store} {u : Unit} {w w' : World}
    (h : (changeStore m).exec w = (.ok u, w')) : ∃ s, m w = .ok s ∧ w' = { w with store := s } := by
  unfold changeStore at h
  rw [exec_bind, exec_get] at h
  dsimp only at h
  cases hm : m w with
  | ok s =>
    rw [hm] at h
    cases h
    exact ⟨s, rfl, rfl⟩
  | error e =>
    rw [hm] at h
    cases h

theorem eq_ok_of_ensureDirectory {path : Path} {u : Unit} {w w' : World}
    (h : (ensureDirectory path).exec w = (.ok u, w')) :
    ∃ s, w.store.ensureDirectory w.cwd path = .ok s ∧ w' = { w with store := s } := by
  unfold ensureDirectory at h
  obtain ⟨_, w₁, hcheck, hchange⟩ := exec_bind_eq_ok_iff.mp h
  obtain ⟨-, rfl⟩ := eq_ok_of_checkPath hcheck
  exact eq_ok_of_changeStore hchange

theorem eq_ok_of_writeText {path : Path} {text : String} {u : Unit} {w w' : World}
    (h : (writeText path text).exec w = (.ok u, w')) :
    path.hasNul = false ∧
      ∃ s, w.store.writeText w.cwd path text = .ok s ∧ w' = { w with store := s } := by
  unfold writeText at h
  obtain ⟨_, w₁, hcheck, hchange⟩ := exec_bind_eq_ok_iff.mp h
  obtain ⟨hnul, rfl⟩ := eq_ok_of_checkPath hcheck
  exact ⟨hnul, eq_ok_of_changeStore hchange⟩

theorem exec_checkPath {path : Path} (h : path.hasNul = false) (w : World) :
    (checkPath path).exec w = (.ok (), w) := by
  unfold checkPath
  rw [h, if_neg Bool.false_ne_true]
  rfl

theorem exec_changeStore {m : World → Except FileError Store} {w : World} {s : Store}
    (h : m w = .ok s) : (changeStore m).exec w = (.ok (), { w with store := s }) := by
  unfold changeStore
  rw [exec_bind, exec_get]
  dsimp only
  rw [h]
  rfl

/-- A directory is made in the store alone. -/
theorem exec_ensureDirectory {path : Path} {w : World} {s : Store} (hnul : path.hasNul = false)
    (h : w.store.ensureDirectory w.cwd path = .ok s) :
    (ensureDirectory path).exec w = (.ok (), { w with store := s }) := by
  unfold ensureDirectory
  rw [exec_bind_of_ok (exec_checkPath hnul w)]
  exact exec_changeStore h

/-- A text is written to the store alone. -/
theorem exec_writeText {path : Path} {text : String} {w : World} {s : Store}
    (hnul : path.hasNul = false) (h : w.store.writeText w.cwd path text = .ok s) :
    (writeText path text).exec w = (.ok (), { w with store := s }) := by
  unfold writeText
  rw [exec_bind_of_ok (exec_checkPath hnul w)]
  exact exec_changeStore h

/-! ### Changes of the store that fail -/

theorem eq_of_checkPath_fault {path : Path} {e : Fault} {w w' : World}
    (h : (checkPath path).exec w = (.error e, w')) : w' = w := by
  unfold checkPath at h
  split at h <;> cases h
  rfl

theorem eq_of_changeStore_fault {m : World → Except FileError Store} {e : Fault} {w w' : World}
    (h : (changeStore m).exec w = (.error e, w')) : w' = w := by
  unfold changeStore at h
  rw [exec_bind, exec_get] at h
  dsimp only at h
  cases hm : m w with
  | ok s =>
    rw [hm] at h
    cases h
  | error cause =>
    rw [hm] at h
    cases h
    rfl

/-- A checked change of the store that fails changes nothing. -/
theorem eq_of_checked_fault {path : Path} {m : World → Except FileError Store} {e : Fault}
    {w w' : World} (h : (do checkPath path; changeStore m : Act Unit).exec w = (.error e, w')) :
    w' = w := by
  rw [exec_bind] at h
  split at h
  · next hcheck =>
    obtain ⟨-, rfl⟩ := eq_ok_of_checkPath hcheck
    exact eq_of_changeStore_fault h
  · next hcheck =>
    cases h
    exact eq_of_checkPath_fault hcheck

/-! ### What is kept -/

/-- The action keeps a property of worlds, however it ends. -/
def Keeps (P : World → Prop) (a : Act α) : Prop := ∀ w, P w → P (a.exec w).2

/-- The property does not depend on what was logged. -/
def LogFree (P : World → Prop) : Prop := ∀ w log, P w → P (w.withLog log)

variable {P : World → Prop} {a : Act α} {g : α → Act β}

theorem Keeps.bind (ha : Keeps P a) (hg : ∀ x, Keeps P (g x)) : Keeps P (a >>= g) := by
  intro w hw
  have hw' := ha w hw
  rw [exec_bind]
  rcases h : a.exec w with ⟨(e | x), w'⟩
  · rwa [h] at hw'
  · rw [h] at hw'
    exact hg x w' hw'

theorem Keeps.pure (x : α) : Keeps P (pure x : Act α) := fun _ hw => hw

theorem Keeps.throw (e : Fault) : Keeps P (throw e : Act α) := fun _ hw => hw

theorem Keeps.get : Keeps P (get : Act World) := fun _ hw => hw

theorem Keeps.lift (r : Except Fault α) : Keeps P (lift r) := by
  intro w hw
  rwa [exec_lift]

theorem Keeps.attempt (ha : Keeps P a) : Keeps P (attempt a) := ha

theorem Keeps.note (hP : LogFree P) (rs : List Record) : Keeps P (note rs) := fun w hw => hP w _ hw

theorem Keeps.modify {m : World → World} (hm : ∀ w, P w → P (m w)) :
    Keeps P (modify m : Act PUnit) := hm

theorem Keeps.holds (path : Path) : Keeps P (holds path) := by
  intro w hw
  rwa [exec_holds]

theorem Keeps.readText (path : Path) : Keeps P (readText path) := fun _ hw => hw

theorem Keeps.checkPath (path : Path) : Keeps P (checkPath path) := by
  unfold Act.checkPath
  split
  · exact Keeps.throw _
  · exact Keeps.pure _

/-- An action that reads the world first keeps what its continuation keeps. -/
theorem Keeps.get_bind {k : World → Act β} (hk : ∀ w, P w → P ((k w).exec w).2) :
    Keeps P ((MonadState.get : Act World) >>= k) := by
  intro w hw
  rw [exec_bind, exec_get]
  exact hk w hw

/-- A change of the store keeps what holds of each store it leads to. -/
theorem Keeps.changeStore {m : World → Except FileError Store}
    (hm : ∀ w s, P w → m w = .ok s → P { w with store := s }) : Keeps P (changeStore m) := by
  refine Keeps.get_bind fun w hw => ?_
  cases h : m w with
  | ok s => exact hm w s hw h
  | error e => exact hw

theorem Keeps.ensureDirectory {path : Path}
    (hd : ∀ w s, P w → w.store.ensureDirectory w.cwd path = .ok s → P { w with store := s }) :
    Keeps P (ensureDirectory path) :=
  (Keeps.checkPath path).bind fun _ => Keeps.changeStore hd

theorem Keeps.writeText {path : Path} {text : String}
    (ht : ∀ w s, P w → w.store.writeText w.cwd path text = .ok s → P { w with store := s }) :
    Keeps P (writeText path text) :=
  (Keeps.checkPath path).bind fun _ => Keeps.changeStore ht

theorem Keeps.saveText {path : Path} {text : String}
    (hd : ∀ w s, P w → w.store.ensureDirectory w.cwd path.parent = .ok s → P { w with store := s })
    (ht : ∀ w s, P w → w.store.writeText w.cwd path text = .ok s → P { w with store := s }) :
    Keeps P (saveText path text) :=
  (Keeps.ensureDirectory hd).bind fun _ => Keeps.writeText ht

/-! ### Faults -/

/-- Every fault that the action can end in has a property. -/
def FaultsIn (Q : Fault → Prop) (a : Act α) : Prop := ∀ w e, (a.exec w).1 = .error e → Q e

variable {Q : Fault → Prop} {path : Path}

theorem FaultsIn.bind (ha : FaultsIn Q a) (hg : ∀ x, FaultsIn Q (g x)) : FaultsIn Q (a >>= g) := by
  intro w e h
  rcases exec_bind_eq_error_iff.mp h with h | ⟨x, w', -, h⟩
  · exact ha w e h
  · exact hg x w' e h

/-- An action that always yields a value ends in no fault. -/
theorem FaultsIn.of_ok {v : World → α} (h : ∀ w, (a.exec w).1 = .ok (v w)) : FaultsIn Q a := by
  intro w e he
  cases (h w).symm.trans he

theorem FaultsIn.mono {Q' : Fault → Prop} (ha : FaultsIn Q a) (h : ∀ e, Q e → Q' e) :
    FaultsIn Q' a :=
  fun w e he => h e (ha w e he)

theorem FaultsIn.pure (x : α) : FaultsIn Q (pure x : Act α) :=
  FaultsIn.of_ok (v := fun _ => x) fun _ => rfl

theorem FaultsIn.throw {e : Fault} (he : Q e) : FaultsIn Q (throw e : Act α) := by
  intro w e' h
  cases h
  exact he

theorem FaultsIn.get : FaultsIn Q (get : Act World) :=
  FaultsIn.of_ok (v := id) fun _ => rfl

theorem FaultsIn.modify (m : World → World) : FaultsIn Q (modify m : Act PUnit) :=
  FaultsIn.of_ok (v := fun _ => ⟨⟩) fun _ => rfl

theorem FaultsIn.note (rs : List Record) : FaultsIn Q (note rs) := FaultsIn.modify _

theorem FaultsIn.attempt (a : Act α) : FaultsIn Q (attempt a) :=
  FaultsIn.of_ok (v := fun w => (a.exec w).1) fun _ => rfl

theorem FaultsIn.readText (path : Path) : FaultsIn Q (readText path) :=
  FaultsIn.of_ok (v := fun w => w.store.readText w.cwd path) fun _ => rfl

theorem FaultsIn.lift {r : Except Fault α} (h : ∀ e, r = .error e → Q e) : FaultsIn Q (lift r) := by
  intro w e hr
  rw [exec_lift] at hr
  exact h e hr

theorem FaultsIn.holds (hfile : ∀ e, Q (.file e)) : FaultsIn Q (holds path) := by
  intro w e h
  rw [exec_holds] at h
  unfold Store.held at h
  split at h
  · cases h
  · split at h <;> cases h
    exact hfile _

theorem FaultsIn.checkPath (hnul : Q (.read .nul)) : FaultsIn Q (checkPath path) := by
  unfold Act.checkPath
  split
  · exact FaultsIn.throw hnul
  · exact FaultsIn.pure _

theorem FaultsIn.changeStore (hfile : ∀ e, Q (.file e)) (m : World → Except FileError Store) :
    FaultsIn Q (changeStore m) := by
  refine FaultsIn.get.bind fun w => ?_
  split
  · exact FaultsIn.modify _
  · exact FaultsIn.throw (hfile _)

theorem FaultsIn.ensureDirectory (hfile : ∀ e, Q (.file e)) (hnul : Q (.read .nul)) :
    FaultsIn Q (ensureDirectory path) :=
  (FaultsIn.checkPath hnul).bind fun _ => FaultsIn.changeStore hfile _

theorem FaultsIn.writeText (hfile : ∀ e, Q (.file e)) (hnul : Q (.read .nul)) (text : String) :
    FaultsIn Q (writeText path text) :=
  (FaultsIn.checkPath hnul).bind fun _ => FaultsIn.changeStore hfile _

theorem FaultsIn.saveText (hfile : ∀ e, Q (.file e)) (hnul : Q (.read .nul)) (text : String) :
    FaultsIn Q (saveText path text) :=
  (FaultsIn.ensureDirectory hfile hnul).bind fun _ => FaultsIn.writeText hfile hnul text

/-! ### Values -/

/-- Every value that the action can yield has a property. -/
def Yields (V : α → Prop) (a : Act α) : Prop := ∀ w x, (a.exec w).1 = .ok x → V x

variable {V : α → Prop} {U : β → Prop}

theorem Yields.bind (ha : Yields V a) (hg : ∀ x, V x → Yields U (g x)) : Yields U (a >>= g) := by
  intro w y h
  rw [exec_bind] at h
  split at h
  · next hx => exact hg _ (ha w _ (congrArg Prod.fst hx)) _ y h
  · cases h

theorem Yields.pure {x : α} (hx : V x) : Yields V (pure x : Act α) := by
  intro w y h
  cases h
  exact hx

theorem yields_true (a : Act α) : Yields (fun _ => True) a := fun _ _ _ => trivial

/-- A fault that is handed over as a value has what the faults of the action have. -/
theorem FaultsIn.yields_attempt (ha : FaultsIn Q a) :
    Yields (fun r => ∀ e, r = .error e → Q e) (Act.attempt a) := by
  intro w r h e he
  cases h
  exact ha w e he

theorem FaultsIn.bind_of_yields (ha : FaultsIn Q a) (hv : Yields V a)
    (hg : ∀ x, V x → FaultsIn Q (g x)) : FaultsIn Q (a >>= g) := by
  intro w e h
  rcases exec_bind_eq_error_iff.mp h with h | ⟨x, w', hx, h⟩
  · exact ha w e h
  · exact hg x (hv w x (congrArg Prod.fst hx)) w' e h

section Fold

variable {ι : Type} {f : α → ι → Act α}

theorem FaultsIn.foldlM (hf : ∀ x i, FaultsIn Q (f x i)) (is : List ι) (x : α) :
    FaultsIn Q (is.foldlM f x) := by
  induction is generalizing x with
  | nil => exact FaultsIn.pure x
  | cons i is ih =>
    rw [List.foldlM_cons]
    exact (hf x i).bind ih

theorem Yields.foldlM (hf : ∀ x i, V x → Yields V (f x i)) (is : List ι) {x : α} (hx : V x) :
    Yields V (is.foldlM f x) := by
  induction is generalizing x with
  | nil => exact Yields.pure hx
  | cons i is ih =>
    rw [List.foldlM_cons]
    exact (hf x i hx).bind fun _ => ih

end Fold

end Act

end Conductor
