import Conductor.Proofs.Script.PromptOption

/-!
# Plans that are read are well-formed

What the consumers of a plan take for granted is a stage that has a task, a task that has a name
without blanks and operators, paths that name something, and a limit that is positive
(`Plan.WellFormed`).  Main statement: every plan that is read has all of it, whatever its text
(`wellFormed_of_read`).

Each part has its own reason.  A text is cut into one stage at least and a stage into one segment at
least, and every segment writes a task.  A name is the longest prefix of characters that a name may
hold, and it is not empty (`name_of_parts?`).  Options are applied one behind another, so it is
enough that each leaves a task well-formed, whatever was set before it
(`Task.WellFormed.applyOption`): paths are pieces between semicolons, trimmed and not empty, and a
limit that is not positive is none.
-/

namespace Conductor.Script

open Text

/-- A path that names something, without blanks around it and without the separator of paths. -/
structure IsInputPath (path : String) : Prop where
  ne : path ≠ ""
  first : ∀ c, path.toList.head? = some c → isBlank c = false
  last : ∀ c, path.toList.getLast? = some c → isBlank c = false
  free : ';' ∉ path.toList

/-- A task whose name can be written in a script, whose paths name something and whose limit is
positive. -/
structure Task.WellFormed (t : Task) : Prop where
  name_ne : t.name ≠ ""
  name_free : ∀ c ∈ t.name.toList, isBlank c = false ∧ c ∉ ['\'', '"', '[', ']', '&']
  inputFiles : ∀ path ∈ t.inputFiles, IsInputPath path
  tail : ∀ n, t.tail = some n → 1 ≤ n

/-- A plan of stages that each have a task, all of whose tasks are well-formed. -/
structure Plan.WellFormed (plan : Plan) : Prop where
  ne : plan ≠ []
  stage_ne : ∀ stage ∈ plan, stage ≠ []
  task : ∀ stage ∈ plan, ∀ t ∈ stage, Task.WellFormed t

variable {s value : List Char} {c : Char} {p : Parts} {t task : Task} {path text : String}
  {plan : Plan} {option : List Char × List Char}

/-! ### Names -/

theorem free_of_isNameChar (hc : isNameChar c = true) :
    isBlank c = false ∧ c ∉ ['\'', '"', '[', ']', '&'] := by
  obtain ⟨hblank, hand, hquote, hopen, hclose⟩ := isNameChar_iff.mp hc
  have hquotes : ¬(c = '\'' ∨ c = '"') := by
    rw [← isQuote_iff, hquote]
    exact Bool.false_ne_true
  obtain ⟨hsingle, hdouble⟩ := not_or.mp hquotes
  exact ⟨hblank, by simp [hsingle, hdouble, hopen, hclose, hand]⟩

/-- A name is the characters at the start that a name may hold. -/
theorem name_of_parts? (h : parts? s = some p) : p.name ≠ [] ∧ p.name = s.takeWhile isNameChar := by
  unfold parts? at h
  dsimp only at h
  split at h
  · cases h
  · next hne =>
    have hname : ∀ {options rest}, ((restParts? rest).map fun r =>
        (⟨s.takeWhile isNameChar, options, r⟩ : Parts)) = some p →
        p.name = s.takeWhile isNameChar := by
      intro options rest h
      obtain ⟨r, -, rfl⟩ := Option.map_eq_some_iff.mp h
      rfl
    have heq : p.name = s.takeWhile isNameChar := by
      split at h
      · split at h
        · exact hname h
        · cases h
      · exact hname h
    exact ⟨heq ▸ by simpa using hne, heq⟩

/-! ### Options -/

theorem isInputPath_of_mem (h : path ∈ inputPaths value) : IsInputPath path := by
  obtain ⟨piece, hpiece, rfl⟩ := List.mem_map.mp h
  obtain ⟨htrim, hne⟩ := List.mem_filter.mp hpiece
  obtain ⟨cut, hcut, rfl⟩ := List.mem_map.mp htrim
  refine ⟨by simpa using hne, ?_, ?_, ?_⟩
  · intro c hc
    exact isBlank_of_head?_trim (String.toList_ofList ▸ hc)
  · intro c hc
    exact isBlank_of_getLast?_trim (String.toList_ofList ▸ hc)
  · -- Trimming only takes away, and a piece has no separator.
    obtain ⟨before, after, -, -, heq⟩ := exists_trim_eq cut
    rw [String.toList_ofList]
    intro hmem
    have hmem : ';' ∈ cut := by
      rw [heq]
      simp [hmem]
    cases (mem_of_mem_splitBy hcut hmem).2

/-- An option leaves a task well-formed, whichever key it has and whatever was set before it. -/
theorem Task.WellFormed.applyOption (happly : applyOption t option = .ok task)
    (h : t.WellFormed) : task.WellFormed := by
  obtain ⟨key, value⟩ := option
  unfold Script.applyOption at happly
  dsimp only at happly
  split at happly
  · cases happly
    exact { h with inputFiles := fun path hpath => isInputPath_of_mem hpath }
  · split at happly
    · split at happly
      · next n _ =>
        cases happly
        refine { h with tail := fun k hk => ?_ }
        dsimp only at hk
        split at hk
        · cases hk
          omega
        · cases hk
      · cases happly
    · split at happly
      · cases happly
        exact ⟨h.name_ne, h.name_free, h.inputFiles, h.tail⟩
      · cases happly

/-- A task that is written is well-formed: it is before its options are applied, and each of them
leaves it so. -/
theorem wellFormed_of_taskOf (h : taskOf s = .ok task) : task.WellFormed := by
  obtain ⟨p, a, options, hparts, -, -, hfold⟩ := exists_of_taskOf h
  obtain ⟨hne, hname⟩ := name_of_parts? hparts
  have hstart : Task.WellFormed ⟨String.ofList p.name, String.ofList a, [], none⟩ := by
    refine ⟨by simpa using hne, fun c hc => ?_, List.forall_mem_nil _, nofun⟩
    rw [String.toList_ofList, hname] at hc
    exact free_of_isNameChar (List.all_eq_true.mp List.all_takeWhile c hc)
  exact foldlM_preserves Task.WellFormed Task.WellFormed.applyOption hfold hstart

/-! ### Plans -/

/-- Every plan that is read is well-formed. -/
theorem wellFormed_of_read (h : read text = .ok plan) : plan.WellFormed := by
  obtain ⟨stages, hd, hwrites⟩ := exists_decomposes h
  refine ⟨?_, ?_, ?_⟩
  · rintro rfl
    exact hd.stages_ne (List.forall₂_nil_right_iff.mp hwrites)
  · refine forall_of_forall₂ hwrites fun segments hsegments stage hstage => ?_
    rintro rfl
    exact hd.stage_ne segments hsegments (List.forall₂_nil_right_iff.mp hstage)
  · refine forall_of_forall₂ hwrites fun segments _ stage hstage => ?_
    exact forall_of_forall₂ hstage fun segment _ t ht => wellFormed_of_taskOf (writes_iff.mp ht)

/-- A script that sets its options more than once, with blank paths and limits that are none. -/
def repeatedOptions : String :=
  "plan[input: ;old.md; , tail: 5, input:'a b.md ;; c,d.md ', tail: -3] & sum[tail:'\u0663'] 'go'"

/-- The plan of the script. -/
def repeatedOptionsPlan : Plan :=
  [[{ name := "plan", inputFiles := ["a b.md", "c,d.md"] },
    { name := "sum", argument := "go", tail := some 3 }]]

/-- The last value of an option counts, and it is well-formed. -/
theorem repeatedOptions_wellFormed :
    read repeatedOptions = .ok repeatedOptionsPlan ∧ repeatedOptionsPlan.WellFormed := by
  have hread : read repeatedOptions = .ok repeatedOptionsPlan := by decide +kernel
  exact ⟨hread, wellFormed_of_read hread⟩

end Conductor.Script
