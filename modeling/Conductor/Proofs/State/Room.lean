import Conductor.Proofs.Action
import Conductor.Proofs.Store

/-!
# Room for a file

Where a path has room for a file nothing stands yet, and its directory can be made and the file
written (`HasRoom`).  There every text can be saved (`HasRoom.exec_saveText`), and there is still
room when only the directory has been made (`HasRoom.directory_made`).  Where a file is there it can
be written over (`exec_ensureDirectory_of_readBytes`).  Both are places whose contents are known and
where every text can be written (`Contents`).
-/

namespace Conductor

open Act

namespace Store

variable {s s' : Store} {base path : Path} {text : String}

/-- Whether a file can be written does not depend on the text. -/
theorem exists_writeText_of_writeText (h : s.writeText base path text = .ok s') (other : String) :
    ∃ s'', s.writeText base path other = .ok s'' := by
  have hbytes : ∃ s'', s.writeBytes base path (Text.Utf8.encodeText other) = .ok s'' := by
    have h := writeBytes_of_writeText h
    unfold writeBytes at h ⊢
    cases hl : s.locate base path with
    | error cause =>
      rw [hl] at h
      cases h
    | ok place =>
      rw [hl] at h
      simp only [bind, Except.bind] at h ⊢
      -- Only what stands at the place decides, and the bytes are not looked at.
      split at h
      · cases h
      · exact ⟨_, rfl⟩
      · cases h
      · cases h
  obtain ⟨s'', hs⟩ := hbytes
  refine ⟨s'', ?_⟩
  unfold writeText
  rw [hs]

end Store

/-- Nothing stands at a path, and a file can be made there, together with its directory. -/
structure HasRoom (path : Path) (w : World) : Prop where
  hasNul_eq : path.hasNul = false
  absent : w.store.held w.cwd path = .ok false
  room : ∃ s s', w.store.ensureDirectory w.cwd path.parent = .ok s ∧
    s.stat w.cwd path = .error .missing ∧ s.writeText w.cwd path "" = .ok s'

variable {path : Path} {w w' : World}

theorem HasRoom.congr (h : HasRoom path w) (hstore : w'.store = w.store) (hcwd : w'.cwd = w.cwd) :
    HasRoom path w' := by
  refine ⟨h.hasNul_eq, ?_, ?_⟩
  · rw [hstore, hcwd]
    exact h.absent
  · rw [hstore, hcwd]
    exact h.room

theorem Path.hasNul_parent (h : path.hasNul = false) : path.parent.hasNul = false := by
  unfold Path.hasNul at h ⊢
  rw [List.any_eq_false] at h ⊢
  exact fun n hn => h n ((List.dropLast_prefix _).subset hn)

/-- Where a file is there its directory is, and every text can be written. -/
theorem exec_ensureDirectory_of_readBytes {bytes : List UInt8} (hp : path.names ≠ [])
    (hnul : path.hasNul = false) (h : w.store.readBytes w.cwd path = .ok bytes) :
    w.store.ensureDirectory w.cwd path.parent = .ok w.store ∧
      (ensureDirectory path.parent).exec w = (.ok (), w) ∧
      ∀ text, ∃ s, w.store.writeText w.cwd path text = .ok s := by
  have hdir := Store.ensureDirectory_of_isDirectory (Store.isDirectory_parent_of_readBytes hp h)
  exact ⟨hdir, exec_ensureDirectory (Path.hasNul_parent hnul) hdir,
    Store.exists_writeText_of_readBytes h⟩

/-- Something else happens, which leaves the file at a path alone, and the room for it. -/
structure Spares (path : Path) (w w' : World) : Prop where
  cwd_eq : w'.cwd = w.cwd
  text : ∀ t, w.store.readText w.cwd path = .ok t → w'.store.readText w.cwd path = .ok t
  room : HasRoom path w → HasRoom path w'

theorem spares_of_store_eq (hstore : w'.store = w.store) (hcwd : w'.cwd = w.cwd) :
    Spares path w w' :=
  ⟨hcwd, fun _ ht => by rwa [hstore], fun hr => hr.congr hstore hcwd⟩

namespace HasRoom

theorem exec_holds (h : HasRoom path w) : (holds path).exec w = (.ok false, w) := by
  rw [Act.exec_holds, h.absent]

theorem exec_ensureDirectory (h : HasRoom path w) :
    ∃ s, w.store.ensureDirectory w.cwd path.parent = .ok s ∧
      (ensureDirectory path.parent).exec w = (.ok (), { w with store := s }) ∧
      ∀ text, ∃ s', s.writeText w.cwd path text = .ok s' := by
  obtain ⟨s, s', hdir, -, hwrite⟩ := h.room
  exact ⟨s, hdir, Act.exec_ensureDirectory (Path.hasNul_parent h.hasNul_eq) hdir,
    Store.exists_writeText_of_writeText hwrite⟩

/-- Every text can be saved. -/
theorem exec_saveText (h : HasRoom path w) (text : String) :
    ∃ s, (saveText path text).exec w = (.ok (), { w with store := s }) := by
  obtain ⟨s, -, hdir, hwrite⟩ := h.exec_ensureDirectory
  obtain ⟨s', hs'⟩ := hwrite text
  refine ⟨s', ?_⟩
  unfold saveText
  rw [exec_bind_of_ok hdir]
  exact exec_writeText h.hasNul_eq hs'

/-- There is still room when the directory has been made. -/
theorem directory_made {s : Store} (h : HasRoom path w)
    (hs : w.store.ensureDirectory w.cwd path.parent = .ok s) :
    HasRoom path { w with store := s } := by
  obtain ⟨s₁, s', hdir, hstat, hwrite⟩ := h.room
  obtain rfl : s₁ = s := Except.ok.inj (hdir.symm.trans hs)
  refine ⟨h.hasNul_eq, ?_, s₁, s', ?_, hstat, hwrite⟩
  · show s₁.held w.cwd path = .ok false
    unfold Store.held
    rw [h.hasNul_eq, if_neg Bool.false_ne_true, hstat]
  · -- The directory is there now, so it is not made again.
    exact Store.ensureDirectory_of_isDirectory (Store.isDirectory_of_ensureDirectory hdir)

end HasRoom

/-- What is at a place where every text can be written: a file of some bytes, or nothing yet. -/
inductive Contents (path : Path) (w : World) : Option (List UInt8) → Prop
  | file {bytes : List UInt8} (hp : path.names ≠ []) (hnul : path.hasNul = false)
      (hb : w.store.readBytes w.cwd path = .ok bytes) : Contents path w (some bytes)
  | room (h : HasRoom path w) : Contents path w none

namespace Contents

variable {content : Option (List UInt8)}

theorem congr (h : Contents path w content) (hstore : w'.store = w.store) (hcwd : w'.cwd = w.cwd) :
    Contents path w' content := by
  cases h with
  | file hp hnul hb => exact .file hp hnul (by rwa [hstore, hcwd])
  | room h => exact .room (h.congr hstore hcwd)

theorem withLog (h : Contents path w content) (log : Array Record) :
    Contents path (w.withLog log) content :=
  h.congr rfl rfl

theorem hasNul_eq (h : Contents path w content) : path.hasNul = false := by
  cases h with
  | file hp hnul hb => exact hnul
  | room h => exact h.hasNul_eq

/-- The directory is there or is made; behind that every text can be written, and what was at the
place is still there. -/
theorem exec_ensureDirectory (h : Contents path w content) :
    ∃ s, w.store.ensureDirectory w.cwd path.parent = .ok s ∧
      (ensureDirectory path.parent).exec w = (.ok (), { w with store := s }) ∧
      (∀ text, ∃ s', s.writeText w.cwd path text = .ok s') ∧
      Contents path { w with store := s } content := by
  cases h with
  | file hp hnul hb =>
    obtain ⟨hs, hdir, hwrite⟩ := exec_ensureDirectory_of_readBytes hp hnul hb
    exact ⟨w.store, hs, hdir, hwrite, .file hp hnul hb⟩
  | room h =>
    obtain ⟨s, hs, hdir, hwrite⟩ := h.exec_ensureDirectory
    exact ⟨s, hs, hdir, hwrite, .room (h.directory_made hs)⟩

end Contents

/-- A directory with nothing in it. -/
def emptyRoom : World :=
  { store := { entries := [(["work"], .directory)], clock := 1 }
    cwd := ⟨.slash, ["work"]⟩ }

end Conductor
