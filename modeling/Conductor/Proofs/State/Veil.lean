import Conductor.Proofs.State.ProgressReading
import Conductor.Proofs.State.Signals
import Conductor.Run.Engine

/-!
# What a run does not look at

A run never looks at what has been logged, and of the record of progress it takes the steps and
leaves alone the flag that says whether to go on where the last run stopped.  A veil hides the
former and, where it is said to, the latter, in one file; behind it two worlds look the same
(`Veil.Worlds`).

Two actions agree behind a veil if they end alike in worlds that look the same, and leave worlds
that do (`Veil.Agree`); one that agrees with itself is blind (`Veil.Blind`).  Actions that agree one
by one agree in sequence (`Agree.bind`).  An action on the files is blind, since it asks what kind
of thing stands at a place (`Store.SameKinds`) or reads another file than the hidden one
(`Stores.stat_eq`).  Loading the hidden record does not give equal records, but saving what was made
of them gives files that look the same again; so recording a step is blind (`blind_recordStarted`,
`blind_recordCompleted`).
-/

namespace Conductor

open Act

/-- Two results that are the same error, or values that are related. -/
inductive Alike {ε α : Type} (R : α → α → Prop) : Except ε α → Except ε α → Prop
  | ok {x x' : α} (h : R x x') : Alike R (.ok x) (.ok x')
  | error (e : ε) : Alike R (.error e) (.error e)

section

variable {ε α : Type} {R : α → α → Prop} {r r' : Except ε α}

theorem Alike.cases (h : Alike R r r') :
    (∃ x x', r = .ok x ∧ r' = .ok x' ∧ R x x') ∨ ∃ e, r = .error e ∧ r' = .error e := by
  cases h with
  | ok h => exact .inl ⟨_, _, rfl, rfl, h⟩
  | error e => exact .inr ⟨e, rfl, rfl⟩

theorem alike_of_eq (h : r' = r) : Alike Eq r r' := by
  subst h
  cases r' with
  | ok x => exact .ok rfl
  | error e => exact .error e

theorem Alike.eq (h : Alike Eq r r') : r' = r := by
  cases h with
  | ok h => rw [h]
  | error e => rfl

end

/-! ### Stores with the same kinds of things -/

namespace Store

variable {s s' : Store} {place other : Place} {base path : Path}

theorem putNode_removeNode (s : Store) (place : Place) (node : Node) :
    (s.removeNode place).putNode place node = s.putNode place node := by
  unfold putNode removeNode
  rw [List.filter_filter]
  simp only [Bool.and_self]

theorem removeNode_putNode_of_ne (s : Store) (h : other ≠ place) (node : Node) :
    (s.putNode other node).removeNode place = (s.removeNode place).putNode other node := by
  unfold putNode removeNode
  rw [List.filter_cons, List.filter_filter, List.filter_filter, if_pos (by simpa using h)]
  simp only [Bool.and_comm]

theorem removeNode_putNode (s : Store) (place : Place) (node : Node) :
    (s.putNode place node).removeNode place = s.removeNode place := by
  unfold putNode removeNode
  rw [List.filter_cons, List.filter_filter, if_neg (by simp)]
  simp only [Bool.and_self]

theorem at?_removeNode_of_ne (s : Store) (h : other ≠ place) :
    (s.removeNode place).at? other = s.at? other := by
  rw [← at?_putNode_of_ne (s.removeNode place) h .directory, putNode_removeNode,
    at?_putNode_of_ne s h]

/-- The same stands at every place of both stores, up to what the files hold. -/
def SameKinds (s s' : Store) : Prop :=
  ∀ p, s'.at? p = s.at? p ∨ ∃ bytes modified bytes' modified',
    s.at? p = some (.file bytes modified) ∧ s'.at? p = some (.file bytes' modified')

theorem SameKinds.walk_eq (h : s.SameKinds s') (here : Place) (names : List String) :
    s'.walk here names = s.walk here names := by
  induction names generalizing here with
  | nil => rfl
  | cons n names ih =>
    unfold walk
    rcases h here with he | ⟨_, _, _, _, he, he'⟩
    · rw [he]
      simp only [ih]
    · rw [he, he']

theorem SameKinds.locate_eq (h : s.SameKinds s') (base path : Path) :
    s'.locate base path = s.locate base path := by
  unfold locate
  rw [h.walk_eq]

theorem SameKinds.held_eq (h : s.SameKinds s') (base path : Path) :
    s'.held base path = s.held base path := by
  unfold held stat
  rw [h.locate_eq]
  cases s.locate base path with
  | error cause => rfl
  | ok place =>
    rcases h place with he | ⟨_, _, _, _, he, he'⟩
    · simp only [bind, Except.bind, he]
    · simp only [bind, Except.bind, he, he']

theorem SameKinds.isDirectory_eq (h : s.SameKinds s') (base path : Path) :
    s'.isDirectory base path = s.isDirectory base path := by
  unfold isDirectory stat
  rw [h.locate_eq]
  cases s.locate base path with
  | error cause => rfl
  | ok place =>
    rcases h place with he | ⟨_, _, _, _, he, he'⟩
    · simp only [bind, Except.bind, he]
    · simp only [bind, Except.bind, he, he']

/-- The store after a file has been written at a moment of the clock. -/
def withFile (s : Store) (place : Place) (content : List UInt8) (modified : Int) : Store :=
  { s.putNode place (.file content modified) with clock := modified + 1 }

/-- Whether a file can be written, told by what stands at its place and above it. -/
def writable (node above : Option Node) : Except FileCause Unit :=
  match node, above with
  | some .directory, _ => .error .isDirectory
  | _, some .directory => .ok ()
  | _, some (.file ..) => .error .notDirectory
  | _, none => .error .missing

theorem writeBytes_eq (s : Store) (base path : Path) (content : List UInt8) :
    s.writeBytes base path content =
      match s.locate base path with
      | .error cause => .error cause
      | .ok place =>
        (writable (s.at? place) (s.at? place.dropLast)).map fun _ =>
          s.withFile place content s.clock := by
  unfold writeBytes
  cases s.locate base path with
  | error cause => rfl
  | ok place =>
    simp only [bind, Except.bind]
    generalize s.at? place = node
    generalize s.at? place.dropLast = above
    rcases node with _ | _ | _ <;> rcases above with _ | _ | _ <;> rfl

theorem ne_directory_of_writable {node above : Option Node} (h : writable node above = .ok ()) :
    node ≠ some .directory := by
  rintro rfl
  cases h

theorem SameKinds.writable_eq (h : s.SameKinds s') (place : Place) :
    writable (s'.at? place) (s'.at? place.dropLast) =
      writable (s.at? place) (s.at? place.dropLast) := by
  have habove : ∀ node node' : Option Node, (node' = node ∨ ∃ bytes modified bytes' modified',
      node = some (.file bytes modified) ∧ node' = some (.file bytes' modified')) →
      ∀ above, writable node' above = writable node above := by
    rintro node _ (rfl | ⟨_, _, _, _, rfl, rfl⟩) above
    · rfl
    · rcases above with _ | _ | _ <;> rfl
  have hbelow : ∀ node : Option Node,
      writable node (s'.at? place.dropLast) = writable node (s.at? place.dropLast) := by
    intro node
    rcases h place.dropLast with he | ⟨_, _, _, _, he, he'⟩
    · rw [he]
    · rw [he, he']
      rcases node with _ | _ | _ <;> rfl
  rw [habove _ _ (h place), hbelow]

end Store

/-! ### What a file that is there holds -/

namespace Store

variable {s : Store} {cwd path : Path}

/-- A path that leads to something leads to the place that its names resolve to. -/
theorem locate_of_held (h : s.held cwd path = .ok true) :
    path.hasNul = false ∧ s.locate cwd path = .ok (Path.resolve cwd path).names := by
  unfold held at h
  split at h
  · cases h
  · next hnul =>
    refine ⟨eq_false_of_ne_true hnul, ?_⟩
    unfold stat at h
    cases hl : s.locate cwd path with
    | error cause =>
      rw [hl] at h
      cases cause <;> cases h
    | ok place => rw [names_resolve_of_locate hl]

end Store

namespace Progress

variable {s : Store} {cwd path : Path} {bytes : List UInt8} {p : Progress}

theorem stored_of_recordIn? (hnul : path.hasNul = false) (hb : s.readBytes cwd path = .ok bytes)
    (hp : recordIn? bytes = some p) : stored s cwd path = .ok p := by
  obtain ⟨text, value, htext, hread, hcheck⟩ := exists_of_recordIn? hp
  have hfound : foundIn s cwd path = .ok (ofText text) :=
    foundIn_of_textOf (w := { store := s, cwd := cwd }) hnul hb htext
  have hrecord : ofText text = .record p := by
    unfold ofText
    rw [hread]
    dsimp only
    rw [hcheck]
  unfold stored
  rw [hfound, hrecord]

/-- Where no file is there, what is found depends on why. -/
theorem stored_congr_of_held {s' : Store} (h : s'.held cwd path = s.held cwd path)
    (hthere : s.held cwd path ≠ .ok true) : stored s' cwd path = stored s cwd path := by
  unfold stored foundIn
  rw [h]
  cases hheld : s.held cwd path with
  | error e => rfl
  | ok there =>
    cases there with
    | false => rfl
    | true => exact absurd hheld hthere

theorem occursIn_of_recordIn? (hp : recordIn? bytes = some p) :
    Text.LoneHalf.occursIn p.activeTemplate = false := by
  obtain ⟨_, _, -, -, hcheck⟩ := exists_of_recordIn? hp
  exact occursIn_of_check hcheck

/-- The bytes of a file with a record that is updated at a moment. -/
def written (p : Progress) (now : Moment) : List UInt8 :=
  Text.Utf8.encodeText (p.toJson now).document

/-- The record of a file is the one that has been written. -/
theorem recordIn?_written (hname : Text.LoneHalf.occursIn p.activeTemplate = false)
    (hn : Printable p) {now : Moment} (hnow : now.InCalendar) :
    recordIn? (p.written now) = some p :=
  (recordIn?_of_textOf (Store.textOf_encodeText (not_mem_document hname hn))).1 p
    (ofText_document hname hn hnow)

end Progress

/-! ### Veils -/

/-- What is hidden: what was logged and, where `hides` holds, the flag of the record in a file that
is looked at from a directory. -/
structure Veil where
  cwd : Path
  file : Path
  hides : Prop

namespace Veil

/-- The place of the file. -/
def place (v : Veil) : Place := (Path.resolve v.cwd v.file).names

/-- A path does not lead to the file with the hidden flag. -/
def Open (v : Veil) (path : Path) : Prop := v.hides → (Path.resolve v.cwd path).names ≠ v.place

/-- Two stores that look the same: they are, or only the hidden flag differs. -/
inductive Stores (v : Veil) : Store → Store → Prop
  | same (s : Store) : v.Stores s s
  | flag {s s' : Store} {bytes bytes' : List UInt8} {modified : Int} {p : Progress} {resume : Bool}
    (hides : v.hides) (hs : s.at? v.place = some (.file bytes modified))
    (hs' : s'.at? v.place = some (.file bytes' modified))
    (hp : Progress.recordIn? bytes = some p)
    (hp' : Progress.recordIn? bytes' = some { p with resume := resume })
    (others : s'.removeNode v.place = s.removeNode v.place) : v.Stores s s'

/-- Two worlds that look the same from the directory of the veil. -/
inductive Worlds (v : Veil) : World → World → Prop
  | mk {w : World} {store : Store} {log : Array Record} (cwd_eq : w.cwd = v.cwd)
    (stores : v.Stores w.store store) (calendar : v.hides → w.now.InCalendar) :
    v.Worlds w { w with store := store, log := log }

/-- Two records that look the same. -/
def Records (v : Veil) (p p' : Progress) : Prop :=
  p' = p ∨ v.hides ∧ Text.LoneHalf.occursIn p.activeTemplate = false ∧
    p' = { p with resume := p'.resume }

variable {v : Veil} {s s' : Store} {w w' : World} {path : Path} {place : Place}

/-! ### What stores that look the same have in common -/

theorem Stores.at?_eq (h : v.Stores s s') (hne : place ≠ v.place) : s'.at? place = s.at? place := by
  cases h with
  | same => rfl
  | flag _ _ _ _ _ others =>
    rw [← Store.at?_removeNode_of_ne s' hne, others, Store.at?_removeNode_of_ne s hne]

theorem Stores.eq_or_hides (h : v.Stores s s') : s' = s ∨ v.hides := by
  cases h with
  | same => exact .inl rfl
  | flag hides => exact .inr hides

theorem Stores.removeNode_eq (h : v.Stores s s') :
    s'.removeNode v.place = s.removeNode v.place := by
  cases h with
  | same => rfl
  | flag _ _ _ _ _ others => exact others

theorem Stores.clock_eq (h : v.Stores s s') : s'.clock = s.clock := by
  cases h with
  | same => rfl
  | flag _ _ _ _ _ others =>
    have hclock := congrArg Store.clock others
    exact hclock

theorem Stores.sameKinds (h : v.Stores s s') : s.SameKinds s' := by
  intro p
  by_cases hp : p = v.place
  · cases h with
    | same => exact .inl rfl
    | flag _ hs hs' =>
      rw [hp]
      exact .inr ⟨_, _, _, _, hs, hs'⟩
  · exact .inl (h.at?_eq hp)

/-- What an open path leads to is the same in both stores. -/
theorem Stores.stat_eq (h : v.Stores s s') (hopen : v.Open path) :
    s'.stat v.cwd path = s.stat v.cwd path := by
  rcases h.eq_or_hides with rfl | hides
  · rfl
  · unfold Store.stat
    rw [h.sameKinds.locate_eq]
    cases hl : s.locate v.cwd path with
    | error cause => rfl
    | ok place =>
      have hne : place ≠ v.place := by
        rw [← Store.names_resolve_of_locate hl]
        exact hopen hides
      simp only [bind, Except.bind, h.at?_eq hne]

theorem Stores.readText_eq (h : v.Stores s s') (hopen : v.Open path) :
    s'.readText v.cwd path = s.readText v.cwd path := by
  unfold Store.readText Store.readBytes
  rw [h.stat_eq hopen]

/-- Stores look the same when the same has been put at a place. -/
theorem Stores.putNode (h : v.Stores s s') (place : Place) (node : Node) (clock : Int) :
    v.Stores { s.putNode place node with clock := clock }
      { s'.putNode place node with clock := clock } := by
  cases h with
  | same => exact .same _
  | flag hides hs hs' hp hp' others =>
    by_cases hplace : place = v.place
    · have he : s'.putNode place node = s.putNode place node := by
        rw [hplace, ← Store.putNode_removeNode s', others, Store.putNode_removeNode]
      rw [he]
      exact .same _
    · have hne : v.place ≠ place := fun he => hplace he.symm
      refine .flag hides ((Store.at?_putNode_of_ne s hne _).trans hs)
        ((Store.at?_putNode_of_ne s' hne _).trans hs') hp hp' ?_
      have he : (s'.putNode place node).removeNode v.place =
          (s.putNode place node).removeNode v.place := by
        rw [Store.removeNode_putNode_of_ne _ hplace, Store.removeNode_putNode_of_ne _ hplace,
          others]
      exact congrArg (fun t : Store => { t with clock := clock }) he

/-! ### Changes of stores that look the same -/

section

variable {base : Path}

theorem Stores.makeDirectory (h : v.Stores s s') (base path : Path) :
    Alike v.Stores (s.makeDirectory base path) (s'.makeDirectory base path) := by
  unfold Store.makeDirectory
  rw [h.sameKinds.locate_eq]
  cases s.locate base path with
  | error cause => exact .error cause
  | ok place =>
    simp only [bind, Except.bind]
    rcases h.sameKinds place with he | ⟨_, _, _, _, he, he'⟩
    · rw [he]
      cases s.at? place with
      | none =>
        refine .ok ?_
        have hput := h.putNode place .directory s.clock
        nth_rewrite 2 [← h.clock_eq] at hput
        exact hput
      | some node => exact .error _
    · rw [he, he']
      exact .error _

theorem Stores.ensureOne (h : v.Stores s s') (base path : Path) :
    Alike v.Stores (s.ensureOne base path) (s'.ensureOne base path) := by
  unfold Store.ensureOne
  rw [h.sameKinds.isDirectory_eq]
  rcases (h.makeDirectory base path).cases with ⟨t, t', hx, hx', ht⟩ | ⟨cause, hx, hx'⟩
  · rw [hx, hx']
    exact .ok ht
  · rw [hx, hx']
    dsimp only
    split
    · exact .ok h
    · exact .error _

theorem Stores.ensureUpTo (h : v.Stores s s') (base : Path) (depth : Nat) (path : Path) :
    Alike v.Stores (s.ensureUpTo base depth path) (s'.ensureUpTo base depth path) := by
  induction depth generalizing path with
  | zero => exact h.ensureOne base path
  | succ depth ih =>
    unfold Store.ensureUpTo
    rcases (h.makeDirectory base path).cases with ⟨t, t', hx, hx', ht⟩ | ⟨cause, hx, hx'⟩
    · rw [hx, hx']
      exact h.ensureOne base path
    · rw [hx, hx']
      cases cause with
      | missing =>
        dsimp only
        split
        · exact .error _
        · rcases (ih path.parent).cases with ⟨t, t', hx, hx', ht⟩ | ⟨e, hx, hx'⟩
          · rw [hx, hx']
            exact ht.ensureOne base path
          · rw [hx, hx']
            exact .error e
      | _ => exact h.ensureOne base path

/-- What stands at the place of a path that is written, and the directory above it, are asked for
their kinds alone. -/
theorem Stores.writeBytes {content content' : List UInt8} (h : v.Stores s s')
    (hput : ∀ place, s.locate base path = .ok place → s.at? place ≠ some .directory →
      v.Stores (s.withFile place content s.clock) (s'.withFile place content' s'.clock)) :
    Alike v.Stores (s.writeBytes base path content) (s'.writeBytes base path content') := by
  rw [Store.writeBytes_eq, Store.writeBytes_eq, h.sameKinds.locate_eq]
  cases hl : s.locate base path with
  | error cause => exact .error cause
  | ok place =>
    dsimp only
    rw [h.sameKinds.writable_eq]
    cases hw : Store.writable (s.at? place) (s.at? place.dropLast) with
    | error cause => exact .error cause
    | ok _ => exact .ok (hput place hl (Store.ne_directory_of_writable hw))

theorem Stores.ensureDirectory (h : v.Stores s s') (base path : Path) :
    Alike v.Stores (s.ensureDirectory base path) (s'.ensureDirectory base path) :=
  h.ensureUpTo base path.names.length path

theorem Stores.writeText {text text' : String} (h : v.Stores s s')
    (hput : ∀ place, s.locate base path = .ok place → s.at? place ≠ some .directory →
      v.Stores (s.withFile place (Text.Utf8.encodeText text) s.clock)
        (s'.withFile place (Text.Utf8.encodeText text') s'.clock)) :
    Alike v.Stores (s.writeText base path text) (s'.writeText base path text') := by
  unfold Store.writeText
  rcases (h.writeBytes hput).cases with ⟨t, t', hx, hx', ht⟩ | ⟨cause, hx, hx'⟩
  · rw [hx, hx']
    exact .ok ht
  · rw [hx, hx']
    exact .error _

/-- Stores look the same when one text has been written to both, be it over the hidden flag. -/
theorem Stores.writeText_same (h : v.Stores s s') (base path : Path) (text : String) :
    Alike v.Stores (s.writeText base path text) (s'.writeText base path text) := by
  refine h.writeText fun place _ _ => ?_
  rw [h.clock_eq]
  exact h.putNode place _ _

end

/-! ### Actions that agree -/

variable {α β : Type} {V : α → α → Prop} {U : β → β → Prop} {a a' : Act α} {g g' : α → Act β}

/-- In two worlds the actions end alike and leave worlds that look the same. -/
def Match (v : Veil) (V : α → α → Prop) (a a' : Act α) (w w' : World) : Prop :=
  Alike V (a.exec w).1 (a'.exec w').1 ∧ v.Worlds (a.exec w).2 (a'.exec w').2

/-- In worlds that look the same the actions end alike, and leave worlds that do. -/
def Agree (v : Veil) (V : α → α → Prop) (a a' : Act α) : Prop :=
  ∀ w w', v.Worlds w w' → v.Match V a a' w w'

/-- The action does not tell worlds apart that look the same. -/
def Blind (v : Veil) (a : Act α) : Prop := v.Agree Eq a a

theorem Agree.bind (ha : v.Agree V a a') (hg : ∀ x x', V x x' → v.Agree U (g x) (g' x')) :
    v.Agree U (a >>= g) (a' >>= g') := by
  intro w w' hw
  have ha := ha w w' hw
  unfold Match at ha ⊢
  rw [exec_bind, exec_bind]
  generalize a.exec w = ended at ha ⊢
  generalize a'.exec w' = ended' at ha ⊢
  obtain ⟨r, w₁⟩ := ended
  obtain ⟨r', w₁'⟩ := ended'
  obtain ⟨hr, hw₁⟩ := ha
  cases hr with
  | ok hx => exact hg _ _ hx _ _ hw₁
  | error e => exact ⟨.error e, hw₁⟩

theorem Blind.bind (ha : v.Blind a) (hg : ∀ x, v.Blind (g x)) : v.Blind (a >>= g) :=
  Agree.bind ha fun x _ hx => hx ▸ hg x

/-- What comes after an action has to be blind only for the values that it can yield. -/
theorem Blind.bind_of_yields {P : α → Prop} (ha : v.Blind a) (hv : Yields P a)
    (hg : ∀ x, P x → v.Blind (g x)) : v.Blind (a >>= g) := by
  intro w w' hw
  have ha := ha w w' hw
  have hv := hv w
  unfold Match at ha ⊢
  rw [exec_bind, exec_bind]
  generalize a.exec w = ended at ha hv ⊢
  generalize a.exec w' = ended' at ha ⊢
  obtain ⟨r, w₁⟩ := ended
  obtain ⟨r', w₁'⟩ := ended'
  obtain ⟨hr, hw₁⟩ := ha
  cases hr with
  | @ok x _ hxx =>
    cases hxx
    exact hg x (hv x rfl) _ _ hw₁
  | error e => exact ⟨.error e, hw₁⟩

theorem Agree.get_bind {k k' : World → Act β}
    (hk : ∀ w w', v.Worlds w w' → v.Match U (k w) (k' w') w w') :
    v.Agree U ((get : Act World) >>= k) ((get : Act World) >>= k') := hk

theorem Agree.pure {x x' : α} (h : V x x') : v.Agree V (pure x) (pure x') :=
  fun _ _ hw => ⟨.ok h, hw⟩

theorem Blind.pure (x : α) : v.Blind (pure x : Act α) := Agree.pure rfl

theorem Agree.throw (e : Fault) : v.Agree V (throw e : Act α) (throw e) :=
  fun _ _ hw => ⟨.error e, hw⟩

theorem Blind.lift (r : Except Fault α) : v.Blind (lift r) := by
  cases r with
  | ok x => exact Blind.pure x
  | error e => exact Agree.throw e

theorem Blind.attempt (ha : v.Blind a) : v.Blind (attempt a) := by
  intro w w' hw
  obtain ⟨hr, hw₁⟩ := ha w w' hw
  exact ⟨.ok hr.eq.symm, hw₁⟩

/-- A change of worlds is blind that does not look at what is hidden. -/
theorem Blind.modify {m : World → World} (hm : ∀ w w', v.Worlds w w' → v.Worlds (m w) (m w')) :
    v.Blind (modify m : Act PUnit) :=
  fun w w' hw => ⟨.ok rfl, hm w w' hw⟩

theorem Worlds.calendar (hw : v.Worlds w w') : v.hides → w.now.InCalendar := by
  obtain ⟨-, -, hcalendar⟩ := hw
  exact hcalendar

theorem Worlds.now_eq (hw : v.Worlds w w') : w'.now = w.now := by
  obtain ⟨-, -, -⟩ := hw
  rfl

theorem Worlds.cancelled_eq (hw : v.Worlds w w') : w'.cancelled = w.cancelled := by
  obtain ⟨-, -, -⟩ := hw
  rfl

theorem Worlds.withLog (hw : v.Worlds w w') (log log' : Array Record) :
    v.Worlds (w.withLog log) (w'.withLog log') := by
  obtain ⟨hcwd, hs, hcalendar⟩ := hw
  exact .mk hcwd hs hcalendar

theorem Agree.note (rs rs' : List Record) : v.Agree Eq (note rs) (note rs') :=
  fun _ _ hw => ⟨.ok rfl, hw.withLog _ _⟩

theorem Blind.note (rs : List Record) : v.Blind (note rs) := Agree.note rs rs

/-! ### Actions on the files -/

theorem Blind.holds (path : Path) : v.Blind (holds path) := by
  rintro w _ ⟨hcwd, hs, hcalendar⟩
  unfold Match
  rw [exec_holds, exec_holds]
  exact ⟨alike_of_eq (hs.sameKinds.held_eq _ _), .mk hcwd hs hcalendar⟩

theorem Blind.readText (h : v.Open path) : v.Blind (readText path) := by
  rintro w _ ⟨hcwd, hs, hcalendar⟩
  refine ⟨.ok ?_, .mk hcwd hs hcalendar⟩
  rw [hcwd]
  exact (hs.readText_eq h).symm

theorem Blind.checkPath (path : Path) : v.Blind (checkPath path) := by
  unfold Act.checkPath
  split
  · exact Agree.throw _
  · exact Blind.pure _

theorem Agree.changeStore {m m' : World → Except FileError Store}
    (hm : ∀ w w', v.Worlds w w' → Alike v.Stores (m w) (m' w')) :
    v.Agree Eq (changeStore m) (changeStore m') := by
  refine Agree.get_bind fun w w' hw => ?_
  rcases (hm w w' hw).cases with ⟨s, s', hx, hx', hs⟩ | ⟨e, hx, hx'⟩
  · rw [hx, hx']
    obtain ⟨hcwd, -, hcalendar⟩ := hw
    exact ⟨.ok rfl, .mk hcwd hs hcalendar⟩
  · rw [hx, hx']
    exact ⟨.error _, hw⟩

theorem Blind.ensureDirectory (path : Path) : v.Blind (ensureDirectory path) :=
  (Blind.checkPath path).bind fun _ => Agree.changeStore fun w w' hw => by
    obtain ⟨-, hs, -⟩ := hw
    exact hs.ensureDirectory _ _

theorem Blind.writeText (path : Path) (text : String) : v.Blind (writeText path text) :=
  (Blind.checkPath path).bind fun _ => Agree.changeStore fun w w' hw => by
    obtain ⟨-, hs, -⟩ := hw
    exact hs.writeText_same _ _ _

theorem Blind.saveText (path : Path) (text : String) : v.Blind (saveText path text) :=
  (Blind.ensureDirectory _).bind fun _ => Blind.writeText path text

theorem Worlds.look_eq {way : SignalWay} {dir : Path}
    (h : ∀ stateDir, way = .file stateDir → v.Open (signalFile stateDir dir))
    (hw : v.Worlds w w') : way.look dir w' = way.look dir w := by
  obtain ⟨hcwd, hs, -⟩ := hw
  cases way with
  | mailbox => rfl
  | file stateDir =>
    have hopen := h stateDir rfl
    unfold SignalWay.look SignalWay.lookAtFile
    dsimp only
    rw [hcwd, hs.stat_eq hopen, hs.readText_eq hopen]

/-- Reading a signal is blind where the signals are not taken from the hidden file. -/
theorem Blind.readSafely {way : SignalWay} {dir : Path}
    (h : ∀ stateDir, way = .file stateDir → v.Open (signalFile stateDir dir)) :
    v.Blind (way.readSafely dir) := by
  intro w w' hw
  obtain ⟨log, hx⟩ := SignalWay.exec_readSafely way dir w
  obtain ⟨log', hx'⟩ := SignalWay.exec_readSafely way dir w'
  rw [hw.look_eq h] at hx'
  unfold Match
  rw [hx, hx']
  refine ⟨alike_of_eq rfl, Worlds.withLog ?_ log log'⟩
  obtain ⟨hcwd, hs, hcalendar⟩ := hw
  exact .mk hcwd hs hcalendar

/-! ### The hidden record -/

section

open Progress Text

variable {p p' : Progress}

theorem Records.completed_eq (h : v.Records p p') : p'.completed = p.completed := by
  rcases h with rfl | ⟨-, -, h⟩
  · rfl
  · rw [h]

theorem Records.notCompleted_eq (h : v.Records p p') : p'.notCompleted = p.notCompleted := by
  rcases h with rfl | ⟨-, -, h⟩
  · rfl
  · rw [h]

/-- Records look the same when their steps have been changed alike. -/
theorem Records.edit {p p' : Progress} (h : v.Records p p') (c : Change) (hc : c.step?.isSome) :
    v.Records (c.edit p) (c.edit p') := by
  rcases h with rfl | ⟨hides, hname, h⟩
  · exact .inl rfl
  · refine .inr ⟨hides, ?_, ?_⟩
    · cases c with
      | activate name => cases hc
      | _ => exact hname
    · rw [h]
      cases c with
      | activate name => cases hc
      | _ => rfl

/-- What stands in the hidden file looks the same. -/
theorem Stores.alike_stored (h : v.Stores s s') :
    Alike v.Records (stored s v.cwd v.file) (stored s' v.cwd v.file) := by
  have hrefl : ∀ r : Except Fault Progress, Alike v.Records r r := by
    rintro (e | p)
    · exact .error e
    · exact .ok (.inl rfl)
  have hheld := h.sameKinds.held_eq v.cwd v.file
  by_cases hthere : s.held v.cwd v.file = .ok true
  · obtain ⟨hnul, hl⟩ := Store.locate_of_held hthere
    have hl' := (h.sameKinds.locate_eq _ _).trans hl
    cases h with
    | same => exact hrefl _
    | flag hides hs hs' hp hp' =>
      rw [stored_of_recordIn? hnul (Store.readBytes_eq_ok_iff.mpr ⟨_, _, hl, hs⟩) hp,
        stored_of_recordIn? hnul (Store.readBytes_eq_ok_iff.mpr ⟨_, _, hl', hs'⟩) hp']
      exact .ok (.inr ⟨hides, occursIn_of_recordIn? hp, rfl⟩)
  · rw [stored_congr_of_held hheld hthere]
    exact hrefl _

/-- Loading gives records that look the same. -/
theorem agree_load (v : Veil) : v.Agree v.Records (load v.file) (load v.file) := by
  intro w w' hw
  obtain ⟨log, hx⟩ := exec_load v.file w
  obtain ⟨log', hx'⟩ := exec_load v.file w'
  unfold Match
  rw [hx, hx']
  refine ⟨?_, hw.withLog log log'⟩
  obtain ⟨hcwd, hs, -⟩ := hw
  dsimp only
  rw [hcwd]
  exact hs.alike_stored

/-- Files look the same that hold records which do. -/
theorem Stores.withRecord (hs : v.Stores s s') (h : v.Records p p') (hn : Printable p)
    {now : Moment} (hnow : v.hides → now.InCalendar) (hroot : v.place ≠ []) (clock : Int) :
    v.Stores (s.withFile v.place (p.written now) clock)
      (s'.withFile v.place (p'.written now) clock) := by
  rcases h with rfl | ⟨hides, hname, h⟩
  · exact hs.putNode _ _ _
  · have hp := recordIn?_written hname hn (hnow hides)
    have hp' : recordIn? (p'.written now) = some p' := by
      rw [h]
      exact recordIn?_written (p := { p with resume := p'.resume }) hname hn (hnow hides)
    refine .flag hides (Store.at?_putNode_self s hroot _)
      (Store.at?_putNode_self s' hroot _) hp (hp'.trans (congrArg some h)) ?_
    have hothers := (Store.removeNode_putNode s' v.place (.file (p'.written now) clock)).trans
      (hs.removeNode_eq.trans
        (Store.removeNode_putNode s v.place (.file (p.written now) clock)).symm)
    exact congrArg (fun t : Store => { t with clock := clock + 1 }) hothers

/-- Saving records that look the same gives files that do. -/
theorem agree_save (h : v.Records p p') : v.Agree Eq (save v.file p) (save v.file p') := by
  unfold save
  rw [h.completed_eq, h.notCompleted_eq]
  refine Agree.bind (Blind.ensureDirectory _) fun _ _ _ => ?_
  cases hhuge : (p.completed ++ p.notCompleted).any isHuge with
  | true => exact Agree.throw _
  | false =>
    have hn : Printable p := fun n hn => eq_false_of_ne_true (List.any_eq_false.mp hhuge n hn)
    have hwrite : ∀ now : Moment, (v.hides → now.InCalendar) →
        v.Agree Eq (writeText v.file (p.toJson now).document)
          (writeText v.file (p'.toJson now).document) := by
      refine fun now hnow => Agree.bind (Blind.checkPath _) fun _ _ _ => ?_
      refine Agree.changeStore fun w w' hw => ?_
      obtain ⟨hcwd, hs, -⟩ := hw
      refine hs.writeText fun place hl hdir => ?_
      have hplace : v.place = place := by
        rw [hcwd] at hl
        exact Store.names_resolve_of_locate hl
      subst hplace
      rw [hs.clock_eq]
      exact hs.withRecord h hn hnow (fun hroot => hdir (by rw [hroot]; rfl)) _
    refine Agree.get_bind fun w w' hw => ?_
    rw [hw.now_eq]
    exact hwrite w.now hw.calendar _ _ hw

theorem blind_recordStarted (v : Veil) (index : Int) : v.Blind (recordStarted v.file index) := by
  refine v.agree_load.bind fun p p' h => ?_
  rw [h.notCompleted_eq]
  split
  · exact Blind.pure _
  · exact agree_save (h.edit (.started index) rfl)

theorem blind_recordCompleted (v : Veil) (index : Int) :
    v.Blind (recordCompleted v.file index) := by
  refine v.agree_load.bind fun p p' h => ?_
  exact (agree_save (h.edit (.completed index) rfl)).bind fun _ _ _ => Blind.note _

end

end Veil

end Conductor
