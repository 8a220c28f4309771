import Conductor.Catalog.File
import Conductor.Proofs.Run.Failure
import Conductor.Template.File

/-!
# Catalogs and templates in files

A catalog and a template are read from a file in the same way: its text is JSON, and the value is
what the reader means by it.  Where a file holds none, the reader says so in a fault that lies in
what was given, except where the file cannot be read as a text at all or its JSON goes beyond what
can be decoded (`Document.Defect`).  Each file holds a document or has a defect
(`Document.holds_or_defect`), and loading tells which.
-/

namespace Conductor

open Act

/-- What comes of a request in which something is wrong: it is refused, it fails like anything
unforeseen, or the fault escapes. -/
inductive Handling where
  | refused
  | failed
  | escapes

/-- A fault is handled so by a command that it ends. -/
def Handling.Meets : Handling → Fault → Prop
  | refused, e => e.isUsage = true
  | failed, e => e.isUsage = false ∧ e.isHeld = false
  | escapes, _ => False

theorem Handling.eq_refused {k : Handling} {e : Fault} (h : k.Meets e) (he : e.isUsage = true) :
    k = .refused := by
  cases k with
  | refused => rfl
  | failed => cases h.1.symm.trans he
  | escapes => cases h

namespace Document

variable {α : Type} {meant : Json → Option α} {s : Store} {base path : Path} {x : α} {k : Handling}

/-- The file at a path holds a document. -/
def Holds (meant : Json → Option α) (s : Store) (base path : Path) (x : α) : Prop :=
  ∃ text v, s.readText base path = .ok text ∧ Json.read text = .ok v ∧ meant v = some x

/-- The ways in which the file at a path holds no document, each with what comes of it. -/
inductive Defect (meant : Json → Option α) (s : Store) (base path : Path) : Handling → Prop
  | missing {e} (h : s.readText base path = .error (.file e)) (he : e.cause = .missing) :
    Defect meant s base path .refused
  | malformed {text n} (h : s.readText base path = .ok text)
    (hj : Json.read text = .error (.malformed n)) : Defect meant s base path .refused
  | rejected {text v} (h : s.readText base path = .ok text) (hj : Json.read text = .ok v)
    (hv : meant v = none) : Defect meant s base path .refused
  /-- It is not UTF-8, or there is another reason why it cannot be read. -/
  | unreadable {e} (h : s.readText base path = .error e)
    (he : ∀ f, e = .file f → f.cause ≠ .missing) : Defect meant s base path .failed
  /-- An integer is too long, or values are nested too deeply. -/
  | overrun {text e} (h : s.readText base path = .ok text) (hj : Json.read text = .error e)
    (he : ∀ n, e ≠ .malformed n) : Defect meant s base path .failed

theorem holds_or_defect (meant : Json → Option α) (s : Store) (base path : Path) :
    (∃ x, Holds meant s base path x) ∨ ∃ k, Defect meant s base path k := by
  cases h : s.readText base path with
  | error e =>
    by_cases he : ∃ f, e = .file f ∧ f.cause = .missing
    · obtain ⟨f, rfl, hf⟩ := he
      exact .inr ⟨_, .missing h hf⟩
    · exact .inr ⟨_, .unreadable h fun f hf hcause => he ⟨f, hf, hcause⟩⟩
  | ok text =>
    cases hj : Json.read text with
    | error e =>
      cases e with
      | malformed n => exact .inr ⟨_, .malformed h hj⟩
      | _ => exact .inr ⟨_, .overrun h hj nofun⟩
    | ok v =>
      cases hv : meant v with
      | none => exact .inr ⟨_, .rejected h hj hv⟩
      | some x => exact .inl ⟨x, text, v, h, hj, hv⟩

/-- An action loads the document in a file: it yields it where there is one, and ends in a fault
that tells the defect else. Nothing changes but the log. -/
structure Loads (meant : Json → Option α) (path : Path) (a : Act α) : Prop where
  ok : ∀ {w x}, Holds meant w.store w.cwd path x → ∃ log, a.exec w = (.ok x, w.withLog log)
  fault : ∀ {w k}, Defect meant w.store w.cwd path k →
    ∃ e, a.exec w = (.error e, w) ∧ k.Meets e

/-- A fault in loading that lies in what was given tells of a defect in it. -/
theorem Loads.defect_of_isUsage {a : Act α} (h : Loads meant path a) {w : World} {e : Fault}
    (hx : (a.exec w).1 = .error e) (he : e.isUsage = true) :
    Defect meant w.store w.cwd path .refused := by
  rcases holds_or_defect meant w.store w.cwd path with ⟨x, hholds⟩ | ⟨k, hdefect⟩
  · obtain ⟨log, hok⟩ := h.ok hholds
    rw [hok] at hx
    cases hx
  · obtain ⟨e', hfault, hmeets⟩ := h.fault hdefect
    rw [hfault] at hx
    cases hx
    exact Handling.eq_refused hmeets he ▸ hdefect

/-- What is loaded is what the file holds. -/
theorem Loads.eq_ok {a : Act α} (h : Loads meant path a) {w w' : World}
    (hx : a.exec w = (.ok x, w')) :
    Holds meant w.store w.cwd path x ∧ ∃ log, w' = w.withLog log := by
  rcases holds_or_defect meant w.store w.cwd path with ⟨y, hholds⟩ | ⟨k, hdefect⟩
  · obtain ⟨log, hok⟩ := h.ok hholds
    cases hok.symm.trans hx
    exact ⟨hholds, log, rfl⟩
  · obtain ⟨e, hfault, -⟩ := h.fault hdefect
    cases hfault.symm.trans hx

/-! ### Readers -/

/-- A reader of texts finds the document in a text, and tells in a fault why there is none. -/
structure Reads (meant : Json → Option α) (ofText : String → Except Fault α) : Prop where
  ok : ∀ {text v x}, Json.read text = .ok v → meant v = some x → ofText text = .ok x
  rejected : ∀ {text v}, Json.read text = .ok v → meant v = none →
    ∃ e, ofText text = .error e ∧ e.isUsage = true
  malformed : ∀ {text n}, Json.read text = .error (.malformed n) →
    ∃ e, ofText text = .error e ∧ e.isUsage = true
  overrun : ∀ {text e}, Json.read text = .error e → (∀ n, e ≠ .malformed n) →
    ofText text = .error (.json e text)

/-- The fault of a file that cannot be read, with the one for a missing file. -/
def unread (missing : Fault) : ReadFault → Fault
  | .file e => if e.cause = .missing then missing else .file e
  | e => .read e

/-- What is read with a reader of texts is loaded. -/
theorem Reads.loads {ofText : String → Except Fault α} {missing : Fault} {a : Act α}
    (h : Reads meant ofText) (hmissing : missing.isUsage = true)
    (hunread : ∀ {w e}, w.store.readText w.cwd path = .error e →
      a.exec w = (.error (unread missing e), w))
    (hok : ∀ {w text x}, w.store.readText w.cwd path = .ok text → ofText text = .ok x →
      ∃ log, a.exec w = (.ok x, w.withLog log))
    (hfault : ∀ {w text e}, w.store.readText w.cwd path = .ok text → ofText text = .error e →
      a.exec w = (.error e, w)) :
    Loads meant path a where
  ok := by
    rintro w x ⟨text, v, ht, hj, hv⟩
    exact hok ht (h.ok hj hv)
  fault := by
    intro w k hk
    cases hk with
    | missing hr he =>
      refine ⟨_, hunread hr, ?_⟩
      rw [unread, if_pos he]
      exact hmissing
    | malformed ht hj =>
      obtain ⟨e, he, husage⟩ := h.malformed hj
      exact ⟨e, hfault ht he, husage⟩
    | rejected ht hj hv =>
      obtain ⟨e, he, husage⟩ := h.rejected hj hv
      exact ⟨e, hfault ht he, husage⟩
    | @unreadable e hr he =>
      refine ⟨_, hunread hr, ?_⟩
      cases e with
      | file f =>
        rw [unread, if_neg (he f rfl)]
        exact ⟨rfl, rfl⟩
      | _ => exact ⟨rfl, rfl⟩
    | overrun ht hj he => exact ⟨_, hfault ht (h.overrun hj he), rfl, rfl⟩

end Document

open Document

/-! ### Templates -/

namespace Template

/-- The template that a value describes. -/
def meant (v : Json) : Option Template :=
  match check v with
  | .ok t => some t
  | .bad _ => none

theorem reads (path : String) : Reads meant (ofText path) where
  ok {text v t} hj hv := by
    unfold meant at hv
    unfold ofText
    rw [hj]
    dsimp only
    cases hcheck : check v with
    | ok t' =>
      rw [hcheck] at hv
      cases hv
      rfl
    | bad issues =>
      rw [hcheck] at hv
      cases hv
  rejected {text v} hj hv := by
    unfold meant at hv
    unfold ofText
    rw [hj]
    dsimp only
    cases hcheck : check v with
    | ok t =>
      rw [hcheck] at hv
      cases hv
    | bad issues => exact ⟨_, rfl, rfl⟩
  malformed hj := by
    unfold ofText
    rw [hj]
    exact ⟨_, rfl, rfl⟩
  overrun {text e} hj he := by
    unfold ofText
    rw [hj]
    cases e with
    | malformed n => exact absurd rfl (he n)
    | _ => rfl

theorem loads (path : Path) : Loads meant path (load path) := by
  have hmissing : (Fault.template (.notFound path.toString)).isUsage = true := rfl
  refine (reads path.toString).loads hmissing ?_ ?_ ?_
  · intro w e he
    unfold load
    rw [exec_bind_of_ok (exec_readText path w), he]
    cases e <;> rfl
  · intro w text t ht hof
    refine ⟨w.log, ?_⟩
    unfold load
    rw [exec_bind_of_ok (exec_readText path w), ht]
    dsimp only
    rw [hof]
    exact exec_lift _ w
  · intro w text e ht hof
    unfold load
    rw [exec_bind_of_ok (exec_readText path w), ht]
    dsimp only
    rw [hof]
    exact exec_lift _ w

end Template

/-! ### Catalogs -/

namespace Catalog

/-- The catalog that a value describes. -/
def meant : Json → Option Catalog
  | .obj ms => (ofMembers ms).toOption
  | _ => none

theorem reads (path : String) : Reads meant (ofText path) where
  ok {text v c} hj hv := by
    unfold ofText
    rw [hj]
    cases v with
    | obj ms =>
      have hms : (ofMembers ms).toOption = some c := hv
      cases hof : ofMembers ms with
      | ok c' =>
        rw [hof] at hms
        cases hms
        dsimp only
        rw [hof]
        rfl
      | error e =>
        rw [hof] at hms
        cases hms
    | _ => cases hv
  rejected {text v} hj hv := by
    unfold ofText
    rw [hj]
    cases v with
    | obj ms =>
      have hms : (ofMembers ms).toOption = none := hv
      cases hof : ofMembers ms with
      | ok c =>
        rw [hof] at hms
        cases hms
      | error e =>
        dsimp only
        rw [hof]
        exact ⟨_, rfl, rfl⟩
    | _ => exact ⟨_, rfl, rfl⟩
  malformed hj := by
    unfold ofText
    rw [hj]
    exact ⟨_, rfl, rfl⟩
  overrun {text e} hj he := by
    unfold ofText
    rw [hj]
    cases e with
    | malformed n => exact absurd rfl (he n)
    | _ => rfl

theorem loads (path : Path) : Loads meant path (load path) := by
  have hmissing : (Fault.catalog (.notFound path.toString)).isUsage = true := rfl
  refine (reads path.toString).loads hmissing ?_ ?_ ?_
  · intro w e he
    unfold load
    rw [exec_bind_of_ok (exec_readText path w), he]
    cases e <;> rfl
  · intro w text c ht hof
    unfold load
    rw [exec_bind_of_ok (exec_readText path w), ht]
    dsimp only
    rw [hof, exec_bind_of_ok (exec_lift _ w), exec_note_bind]
    exact ⟨_, rfl⟩
  · intro w text e ht hof
    unfold load
    rw [exec_bind_of_ok (exec_readText path w), ht]
    dsimp only
    rw [hof]
    rfl

end Catalog

end Conductor
