import Conductor.Proofs.Text.Pieces
import Conductor.Proofs.Text.Utf8
import Conductor.Store.Text

/-!
# Files in a changed store

A path leads to the same place as long as no directory goes away (`locate_of_directories`), and
which place that is can be told without the store (`names_resolve_of_locate`).  Hence a file that
was written is read back (`readBytes_writeBytes`, `readText_writeText`), writing to another place
leaves it as it is (`readBytes_writeBytes_of_ne`), and so does making directories
(`readBytes_ensureDirectory`).  Whatever stands above a place that a path leads to is a directory
(`reachedBy_of_walk`), so a file that is there can be written over (`exists_writeText_of_readBytes`).
-/

namespace Conductor.Store

variable {s s' : Store} {base path other : Path} {here place : Place} {names : List String}
  {bytes content : List UInt8}

/-! ### Where a path leads -/

/-- Every directory is there in the other store. -/
def DirectoriesIn (s s' : Store) : Prop :=
  ∀ p, s.at? p = some .directory → s'.at? p = some .directory

theorem walk_of_directories (h : s.DirectoriesIn s') (hw : s.walk here names = .ok place) :
    s'.walk here names = .ok place := by
  induction names generalizing here with
  | nil => exact hw
  | cons n names ih =>
    unfold walk at hw ⊢
    cases hn : s.at? here with
    | none =>
      rw [hn] at hw
      cases hw
    | some node =>
      cases node with
      | file content modified =>
        rw [hn] at hw
        cases hw
      | directory =>
        rw [hn] at hw
        rw [h here hn]
        dsimp only at hw ⊢
        split
        · next hdots =>
          rw [if_pos hdots] at hw
          exact ih hw
        · next hdots =>
          rw [if_neg hdots] at hw
          split
          · next hlong =>
            rw [if_pos hlong] at hw
            cases hw
          · next hlong =>
            rw [if_neg hlong] at hw
            exact ih hw

theorem locate_of_directories (h : s.DirectoriesIn s') (hl : s.locate base path = .ok place) :
    s'.locate base path = .ok place := by
  unfold locate at hl ⊢
  split
  · next hlong =>
    rw [if_pos hlong] at hl
    cases hl
  · next hlong =>
    rw [if_neg hlong] at hl
    exact walk_of_directories h hl

/-- Where names lead from a directory is where they lead when each double dot takes back a name. -/
theorem eq_resolveNames_of_walk (hw : s.walk here names = .ok place) :
    place = Path.resolveNames here.reverse names := by
  induction names generalizing here with
  | nil =>
    cases hw
    exact (List.reverse_reverse _).symm
  | cons n names ih =>
    unfold walk at hw
    split at hw
    · cases hw
    · cases hw
    · split at hw
      · next hdots =>
        subst hdots
        rw [ih hw, ← List.tail_reverse]
        rfl
      · next hdots =>
        split at hw
        · cases hw
        · rw [ih hw, List.reverse_append, Path.resolveNames]
          · rfl
          · exact hdots

theorem names_resolve_of_locate (hl : s.locate base path = .ok place) :
    (Path.resolve base path).names = place := by
  unfold locate at hl
  split at hl
  · cases hl
  · exact (eq_resolveNames_of_walk hl).symm

/-! ### What a file holds -/

theorem readBytes_eq_ok_iff : s.readBytes base path = .ok bytes ↔
    ∃ place modified, s.locate base path = .ok place ∧
      s.at? place = some (.file bytes modified) := by
  unfold readBytes stat
  cases s.locate base path with
  | error cause => simp [bind, Except.bind]
  | ok place =>
    cases hn : s.at? place with
    | none => simp [bind, Except.bind, hn]
    | some node => cases node <;> simp [bind, Except.bind, hn]

/-- What a path to a file reads as is decided by the bytes of the file. -/
theorem readText_of_stat {modified : Int} (hp : path.hasNul = false)
    (hs : s.stat base path = .ok (place, .file bytes modified)) :
    s.readText base path = (textOf bytes).mapError .undecodable := by
  have hbytes : s.readBytes base path = .ok bytes := by
    unfold readBytes
    rw [hs]
    rfl
  unfold readText
  rw [hp, if_neg Bool.false_ne_true, hbytes]
  dsimp only
  cases textOf bytes <;> rfl

theorem writeBytes_eq_ok (h : s.writeBytes base path content = .ok s') :
    ∃ place, s.locate base path = .ok place ∧ s.at? place ≠ some .directory ∧
      s' = { s.putNode place (.file content s.clock) with clock := s.clock + 1 } := by
  unfold writeBytes at h
  cases hl : s.locate base path with
  | error cause =>
    rw [hl] at h
    cases h
  | ok place =>
    rw [hl] at h
    refine ⟨place, rfl, ?_, ?_⟩
    · intro hd
      simp only [hd, bind, Except.bind] at h
      cases h
    · simp only [bind, Except.bind] at h
      split at h
      · cases h
      · exact (Except.ok.inj h).symm
      · cases h
      · cases h

/-- What stands elsewhere stays when a file is written. -/
theorem at?_writeBytes {p : Place} (h : s.writeBytes base path content = .ok s')
    (hp : s.locate base path ≠ .ok p) : s'.at? p = s.at? p := by
  obtain ⟨place, hl, -, rfl⟩ := writeBytes_eq_ok h
  have hne : p ≠ place := by
    rintro rfl
    exact hp hl
  exact at?_putNode_of_ne s hne _

theorem directoriesIn_writeBytes (h : s.writeBytes base path content = .ok s') :
    s.DirectoriesIn s' := by
  intro p hp
  obtain ⟨place, hl, hd, -⟩ := writeBytes_eq_ok h
  rw [at?_writeBytes h, hp]
  rintro hl'
  cases hl.symm.trans hl'
  exact hd hp

/-- A file that was written is read back. -/
theorem readBytes_writeBytes (h : s.writeBytes base path content = .ok s') :
    s'.readBytes base path = .ok content := by
  obtain ⟨place, hl, hd, he⟩ := writeBytes_eq_ok h
  have hne : place ≠ [] := by
    rintro rfl
    exact hd rfl
  refine readBytes_eq_ok_iff.mpr
    ⟨place, s.clock, locate_of_directories (directoriesIn_writeBytes h) hl, ?_⟩
  rw [he]
  exact at?_putNode_self s hne _

/-- A file stays as it is when a file at another place is written. -/
theorem readBytes_writeBytes_of_ne (h : s.writeBytes base other content = .ok s')
    (hne : Path.resolve base other ≠ Path.resolve base path)
    (hr : s.readBytes base path = .ok bytes) : s'.readBytes base path = .ok bytes := by
  obtain ⟨place, modified, hl, hf⟩ := readBytes_eq_ok_iff.mp hr
  refine readBytes_eq_ok_iff.mpr
    ⟨place, modified, locate_of_directories (directoriesIn_writeBytes h) hl, ?_⟩
  rw [at?_writeBytes h, hf]
  intro ho
  -- Two paths that lead to one place have the same names.
  apply hne
  have hnames := (names_resolve_of_locate ho).trans (names_resolve_of_locate hl).symm
  unfold Path.resolve at hnames ⊢
  exact congrArg (Path.mk .slash) hnames

/-! ### What a text file holds -/

theorem writeBytes_of_writeText {text : String} (h : s.writeText base path text = .ok s') :
    s.writeBytes base path (Text.Utf8.encodeText text) = .ok s' := by
  unfold writeText at h
  split at h
  · next hw =>
    cases h
    exact hw
  · cases h

/-- The bytes of a text without carriage returns are read as that text. -/
theorem textOf_encodeText {text : String} (h : '\r' ∉ text.toList) :
    textOf (Text.Utf8.encodeText text) = .ok text := by
  rw [textOf, Text.Utf8.encodeText, Text.Utf8.decode_encode]
  show Except.ok (String.ofList (Text.unifyLineEnds text.toList)) = _
  rw [Text.unifyLineEnds_of_not_mem h, String.ofList_toList]

/-- A text without carriage returns that was written is read back. -/
theorem readText_writeText {text : String} (h : s.writeText base path text = .ok s')
    (hp : path.hasNul = false) (hcr : '\r' ∉ text.toList) :
    s'.readText base path = .ok text := by
  unfold readText
  rw [hp, if_neg Bool.false_ne_true, readBytes_writeBytes (writeBytes_of_writeText h)]
  dsimp only
  rw [textOf_encodeText hcr]

/-! ### Directories that are made -/

/-- Everything that stands in the store stands in the other. -/
def Within (s s' : Store) : Prop := ∀ p node, s.at? p = some node → s'.at? p = some node

theorem Within.refl (s : Store) : s.Within s := fun _ _ h => h

theorem Within.trans {s₁ s₂ s₃ : Store} (h : s₁.Within s₂) (h' : s₂.Within s₃) : s₁.Within s₃ :=
  fun p node hp => h' p node (h p node hp)

theorem within_makeDirectory (h : s.makeDirectory base path = .ok s') : s.Within s' := by
  unfold makeDirectory at h
  cases hl : s.locate base path with
  | error cause =>
    rw [hl] at h
    cases h
  | ok place =>
    rw [hl] at h
    simp only [bind, Except.bind] at h
    split at h
    · cases h
    · next hnone =>
      cases h
      intro p node hp
      have hne : p ≠ place := by
        rintro rfl
        rw [hnone] at hp
        cases hp
      rw [at?_putNode_of_ne s hne, hp]

section

variable {R : Store → Store → Prop} (hrefl : ∀ s, R s s)
  (hmake : ∀ {s s' path}, s.makeDirectory base path = .ok s' → R s s')
include hrefl hmake

theorem rel_of_ensureOne (h : s.ensureOne base path = .ok s') : R s s' := by
  unfold ensureOne at h
  split at h
  · next hone =>
    cases h
    exact hmake hone
  · split at h
    · cases h
      exact hrefl s
    · cases h

/-- Whatever holds of a store and what it is with one more directory, and goes from store to store,
holds of a store and what it is with a directory and the missing ones above it. -/
theorem rel_of_ensureUpTo (htrans : ∀ {s₁ s₂ s₃}, R s₁ s₂ → R s₂ s₃ → R s₁ s₃) {depth : Nat}
    (h : s.ensureUpTo base depth path = .ok s') : R s s' := by
  induction depth generalizing path s' with
  | zero => exact rel_of_ensureOne hrefl hmake h
  | succ depth ih =>
    unfold ensureUpTo at h
    split at h
    · split at h
      · cases h
      · cases hup : s.ensureUpTo base depth path.parent with
        | error e =>
          rw [hup] at h
          cases h
        | ok s₁ =>
          rw [hup] at h
          exact htrans (ih hup) (rel_of_ensureOne hrefl hmake h)
    · exact rel_of_ensureOne hrefl hmake h

end

theorem within_ensureDirectory (h : s.ensureDirectory base path = .ok s') : s.Within s' :=
  rel_of_ensureUpTo Within.refl within_makeDirectory Within.trans h

/-- A file stays as it is when directories are made. -/
theorem readBytes_ensureDirectory (h : s.ensureDirectory base other = .ok s')
    (hr : s.readBytes base path = .ok bytes) : s'.readBytes base path = .ok bytes := by
  have hw : s.Within s' := within_ensureDirectory h
  obtain ⟨place, modified, hl, hf⟩ := readBytes_eq_ok_iff.mp hr
  exact readBytes_eq_ok_iff.mpr
    ⟨place, modified, locate_of_directories (fun p => hw p _) hl, hw place _ hf⟩

/-- Making a directory that is there changes nothing. -/
theorem ensureDirectory_of_isDirectory (h : s.isDirectory base path = true) :
    s.ensureDirectory base path = .ok s := by
  have hmake : s.makeDirectory base path = .error .alreadyThere := by
    unfold isDirectory stat at h
    unfold makeDirectory
    cases hl : s.locate base path with
    | error cause =>
      rw [hl] at h
      cases h
    | ok place =>
      rw [hl] at h
      cases hn : s.at? place with
      | none => simp [bind, Except.bind, hn] at h
      | some node => simp [bind, Except.bind, hn]
  have hone : s.ensureOne base path = .ok s := by
    unfold ensureOne
    rw [hmake]
    simp [h]
  unfold ensureDirectory
  cases path.names.length with
  | zero => exact hone
  | succ depth =>
    unfold ensureUpTo
    rw [hmake]
    exact hone

theorem isDirectory_iff : s.isDirectory base path = true ↔
    ∃ place, s.locate base path = .ok place ∧ s.at? place = some .directory := by
  unfold isDirectory stat
  cases s.locate base path with
  | error cause => simp [bind, Except.bind]
  | ok place =>
    cases hn : s.at? place with
    | none => simp [bind, Except.bind, hn]
    | some node => cases node <;> simp [bind, Except.bind, hn]

theorem isDirectory_of_ensureOne (h : s.ensureOne base path = .ok s') :
    s'.isDirectory base path = true := by
  unfold ensureOne at h
  split at h
  · next hmake =>
    cases h
    have hdirs : s.DirectoriesIn s' := fun p => within_makeDirectory hmake p .directory
    unfold makeDirectory at hmake
    cases hl : s.locate base path with
    | error cause =>
      rw [hl] at hmake
      cases hmake
    | ok place =>
      rw [hl] at hmake
      simp only [bind, Except.bind] at hmake
      split at hmake
      · cases hmake
      · next hnone =>
        cases hmake
        have hne : place ≠ [] := by
          rintro rfl
          cases hnone
        exact isDirectory_iff.mpr
          ⟨place, locate_of_directories hdirs hl, at?_putNode_self s hne _⟩
  · split at h
    · next hthere =>
      cases h
      rw [Bool.and_eq_true] at hthere
      exact hthere.2
    · cases h

/-- A directory that was made is there. -/
theorem isDirectory_of_ensureDirectory (h : s.ensureDirectory base path = .ok s') :
    s'.isDirectory base path = true := by
  unfold ensureDirectory at h
  cases hdepth : path.names.length with
  | zero =>
    rw [hdepth] at h
    exact isDirectory_of_ensureOne h
  | succ depth =>
    rw [hdepth, ensureUpTo] at h
    split at h
    · split at h
      · cases h
      · cases hup : s.ensureUpTo base depth path.parent with
        | error e =>
          rw [hup] at h
          cases h
        | ok s₁ =>
          rw [hup] at h
          exact isDirectory_of_ensureOne h
    · exact isDirectory_of_ensureOne h

/-! ### Files that are written over -/

/-- Whatever stands above the place is a directory. -/
def ReachedBy (s : Store) (place : Place) : Prop :=
  ∀ p, p <+: place → p ≠ place → s.at? p = some .directory

/-- Names lead through directories, so nothing else stands above the place they lead to. -/
theorem reachedBy_of_walk (hhere : s.ReachedBy here) (hw : s.walk here names = .ok place) :
    s.ReachedBy place := by
  induction names generalizing here with
  | nil =>
    cases hw
    exact hhere
  | cons n names ih =>
    unfold walk at hw
    split at hw
    · cases hw
    · cases hw
    · next hdir =>
      split at hw
      · -- Back to the directory above, above which there are directories as well.
        refine ih (fun p hp hne => ?_) hw
        refine hhere p (hp.trans (List.dropLast_prefix here)) ?_
        rintro rfl
        exact hne (hp.eq_of_length_le (List.dropLast_prefix p).length_le)
      · split at hw
        · cases hw
        · refine ih (fun p hp hne => ?_) hw
          rcases List.prefix_concat_iff.mp hp with rfl | hp
          · exact absurd rfl hne
          · by_cases hsame : p = here
            · rw [hsame]
              exact hdir
            · exact hhere p hp hsame

theorem at?_dropLast_of_locate (hl : s.locate base path = .ok place) (hne : place ≠ []) :
    s.at? place.dropLast = some .directory := by
  unfold locate at hl
  split at hl
  · cases hl
  · have hroot : s.ReachedBy [] := fun p hp hnil => absurd (List.prefix_nil.mp hp) hnil
    refine reachedBy_of_walk hroot hl _ (List.dropLast_prefix _) fun he => ?_
    have hlength := congrArg List.length he
    rw [List.length_dropLast] at hlength
    have := List.length_pos_iff.mpr hne
    omega

/-- A file that is there can be written over. -/
theorem exists_writeBytes_of_readBytes (hr : s.readBytes base path = .ok bytes)
    (content : List UInt8) : ∃ s', s.writeBytes base path content = .ok s' := by
  obtain ⟨place, modified, hl, hf⟩ := readBytes_eq_ok_iff.mp hr
  have hne : place ≠ [] := by
    rintro rfl
    cases hf
  refine ⟨{ s.putNode place (.file content s.clock) with clock := s.clock + 1 }, ?_⟩
  unfold writeBytes
  rw [hl]
  simp [bind, Except.bind, hf, at?_dropLast_of_locate hl hne]

theorem exists_writeText_of_readBytes (hr : s.readBytes base path = .ok bytes) (text : String) :
    ∃ s', s.writeText base path text = .ok s' := by
  obtain ⟨s', hs⟩ := exists_writeBytes_of_readBytes hr (Text.Utf8.encodeText text)
  refine ⟨s', ?_⟩
  unfold writeText
  rw [hs]

/-! ### The directory of a file -/

theorem utf8ByteSize_intercalate_dropLast_le (sep : String) (names : List String) :
    (sep.intercalate names.dropLast).utf8ByteSize ≤ (sep.intercalate names).utf8ByteSize := by
  induction names with
  | nil => exact Nat.le_refl _
  | cons n names ih =>
    cases names with
    | nil => exact Nat.zero_le _
    | cons m names =>
      rw [List.dropLast_cons_cons, String.intercalate_cons_cons, String.utf8ByteSize_append,
        String.utf8ByteSize_append]
      cases names with
      | nil =>
        show n.utf8ByteSize ≤ _
        omega
      | cons k names =>
        rw [List.dropLast_cons_cons] at ih ⊢
        rw [String.intercalate_cons_cons, String.utf8ByteSize_append, String.utf8ByteSize_append]
        omega

theorem utf8ByteSize_parent_lt (h : path.toString.utf8ByteSize < pathLimit) :
    path.parent.toString.utf8ByteSize < pathLimit := by
  obtain ⟨root, names⟩ := path
  show (Path.mk root names.dropLast).toString.utf8ByteSize < pathLimit
  have hnames := utf8ByteSize_intercalate_dropLast_le "/" names
  cases names with
  | nil => exact h
  | cons n names =>
    generalize (n :: names).dropLast = above at hnames ⊢
    unfold Path.toString at h ⊢
    cases root with
    | none =>
      dsimp only at h ⊢
      rw [List.isEmpty_cons, if_neg Bool.false_ne_true] at h
      split
      · decide
      · omega
    | slash =>
      dsimp only at h ⊢
      rw [String.utf8ByteSize_append] at h ⊢
      omega
    | doubleSlash =>
      dsimp only at h ⊢
      rw [String.utf8ByteSize_append] at h ⊢
      omega

/-- The last of some names is below a directory, to which the others lead. -/
theorem exists_walk_of_concat {n : String} (hw : s.walk here (names ++ [n]) = .ok place) :
    ∃ above, s.walk here names = .ok above ∧ s.at? above = some .directory := by
  induction names generalizing here with
  | nil =>
    refine ⟨here, rfl, ?_⟩
    rw [List.nil_append, walk] at hw
    split at hw
    · cases hw
    · cases hw
    · next hdir => exact hdir
  | cons m names ih =>
    rw [List.cons_append, walk] at hw
    rw [walk]
    split at hw
    · cases hw
    · cases hw
    · split at hw
      · next hdots =>
        rw [if_pos hdots]
        exact ih hw
      · next hdots =>
        rw [if_neg hdots]
        split at hw
        · cases hw
        · next hlong =>
          rw [if_neg hlong]
          exact ih hw

theorem names_join_eq (hp : path.names ≠ []) :
    (base / path).names = (base / path.parent).names ++ [path.names.getLast hp] := by
  have hlast := (List.dropLast_concat_getLast hp).symm
  cases ha : path.isAbsolute with
  | true =>
    rw [Path.join_of_isAbsolute base ha, Path.join_of_isAbsolute base (q := path.parent) ha]
    exact hlast
  | false =>
    rw [Path.join_of_not_isAbsolute base ha, Path.join_of_not_isAbsolute base (q := path.parent) ha]
    show base.names ++ path.names = base.names ++ path.names.dropLast ++ _
    rw [List.append_assoc, ← hlast]

/-- The directory of a file that is there. -/
theorem isDirectory_parent_of_readBytes (hp : path.names ≠ [])
    (hr : s.readBytes base path = .ok bytes) : s.isDirectory base path.parent = true := by
  obtain ⟨place, modified, hl, hf⟩ := readBytes_eq_ok_iff.mp hr
  unfold locate at hl
  split at hl
  · cases hl
  · next hlong =>
    rw [names_join_eq hp] at hl
    obtain ⟨above, hw, hdir⟩ := exists_walk_of_concat hl
    refine isDirectory_iff.mpr ⟨above, ?_, hdir⟩
    unfold locate
    rw [if_neg (Nat.not_le_of_lt (utf8ByteSize_parent_lt (Nat.lt_of_not_le hlong))), hw]

/-- A path that writes a file once its directory has been made has a name. -/
theorem names_ne_nil_of_writeBytes {s₀ : Store} (hd : s₀.ensureDirectory base path.parent = .ok s)
    (hw : s.writeBytes base path content = .ok s') : path.names ≠ [] := by
  intro hnil
  have hparent : path.parent = path := by
    unfold Path.parent
    rw [hnil, List.dropLast_nil, ← hnil]
  rw [hparent] at hd
  obtain ⟨place, hl, hdir⟩ := isDirectory_iff.mp (isDirectory_of_ensureDirectory hd)
  obtain ⟨place', hl', hnot, -⟩ := writeBytes_eq_ok hw
  cases hl.symm.trans hl'
  exact hnot hdir

/-! ### Texts that stay -/

theorem readText_ne_nul (h : path.hasNul = false) :
    s.readText base path ≠ .error .nul := by
  unfold readText
  rw [h, if_neg Bool.false_ne_true]
  split
  · exact nofun
  · split <;> exact nofun

/-- Where a text is read there is a file, whose path has no null character. -/
theorem exists_readBytes_of_readText {text : String} (h : s.readText base path = .ok text) :
    path.hasNul = false ∧ ∃ bytes, s.readBytes base path = .ok bytes := by
  unfold readText at h
  split at h
  · cases h
  · next hnul =>
    cases hb : s.readBytes base path with
    | error cause =>
      rw [hb] at h
      cases h
    | ok bytes => exact ⟨eq_false_of_ne_true hnul, bytes, rfl⟩

/-- A text that is read is that of the bytes of the file. -/
theorem exists_textOf_of_readText {text : String} (h : s.readText base path = .ok text) :
    ∃ bytes, s.readBytes base path = .ok bytes ∧ textOf bytes = .ok text := by
  obtain ⟨hnul, bytes, hb⟩ := exists_readBytes_of_readText h
  refine ⟨bytes, hb, ?_⟩
  unfold readText at h
  rw [hnul, if_neg Bool.false_ne_true, hb] at h
  dsimp only at h
  cases ht : textOf bytes with
  | ok t =>
    rw [ht] at h
    exact congrArg _ (Except.ok.inj h)
  | error e =>
    rw [ht] at h
    cases h

/-- A text stays as it is where its file does. -/
theorem readText_of_kept {text : String} (h : s.readText base path = .ok text)
    (hkept : ∀ bytes, s.readBytes base path = .ok bytes → s'.readBytes base path = .ok bytes) :
    s'.readText base path = .ok text := by
  unfold readText at h ⊢
  split at h
  · cases h
  · next hnul =>
    rw [if_neg hnul]
    cases hb : s.readBytes base path with
    | error cause =>
      rw [hb] at h
      cases h
    | ok bytes =>
      rw [hb] at h
      rw [hkept bytes hb]
      exact h

theorem readText_ensureDirectory {text : String} (h : s.ensureDirectory base other = .ok s')
    (hr : s.readText base path = .ok text) : s'.readText base path = .ok text :=
  readText_of_kept hr fun _ => readBytes_ensureDirectory h

theorem readText_writeText_of_ne {text content : String}
    (h : s.writeText base other content = .ok s')
    (hne : Path.resolve base other ≠ Path.resolve base path)
    (hr : s.readText base path = .ok text) : s'.readText base path = .ok text :=
  readText_of_kept hr fun _ => readBytes_writeBytes_of_ne (writeBytes_of_writeText h) hne

end Conductor.Store
