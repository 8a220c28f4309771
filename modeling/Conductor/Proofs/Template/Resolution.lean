import Conductor.Proofs.Catalog
import Mathlib.Algebra.Order.Field.Power
import Mathlib.Algebra.Order.Floor.Ring
import Mathlib.Data.List.Nodup
import Mathlib.Data.Rat.Floor

/-!
# What templates resolve to

A step is made of a catalog entry and the overrides of its declaration, field by field (`StepOf`).
A text is taken from the override unless that is absent or empty (`Chosen`), while a number or a
list is taken from it wherever it gives one.  A number counts by its integer part, where it is
finite and that part positive (`IntegerPart`); so the numbers of a loop are never such that it
cannot be made (`exists_ofNumbers`).

A declaration makes no step where the catalog has no entry for it, where its loop names no trigger
word, or where a text that must be there is absent or blank, in this order (`Declaration.Fails`).

Main statement: a template makes one step for each declaration, in order, or fails at the first
declaration that makes none, else at the first id that is no agent's (`resolves_or_tells_why`).
-/

namespace Conductor

open Number Resolution Text

/-! ### Integer parts -/

namespace Number.Binary64

/-- The number that a finite one is. -/
def value? : Binary64 → Option ℚ
  | finite negative m e => some ((if negative then -1 else 1) * (m * 2 ^ e))
  | _ => none

variable {x : Binary64} {n : Nat}

theorem floor_magnitude (m : Nat) (e : Int) :
    ⌊(m * 2 ^ e : ℚ)⌋ = (floorMagnitude m e : ℤ) := by
  unfold floorMagnitude
  split
  · next he =>
    obtain ⟨k, rfl⟩ := Int.eq_ofNat_of_zero_le he
    rw [Int.toNat_natCast, zpow_natCast]
    exact_mod_cast Int.floor_natCast (R := ℚ) (m * 2 ^ k)
  · next he =>
    obtain ⟨k, hk⟩ := Int.eq_ofNat_of_zero_le (show 0 ≤ -e by omega)
    obtain rfl : e = -(k : ℤ) := by omega
    rw [neg_neg, Int.toNat_natCast, zpow_neg, zpow_natCast, ← div_eq_mul_inv]
    exact_mod_cast Rat.floor_natCast_div_natCast m (2 ^ k)

theorem positiveFloor?_eq_some_iff :
    x.positiveFloor? = some n ↔ ∃ q, x.value? = some q ∧ ⌊q⌋ = (n : ℤ) ∧ 0 < n := by
  cases x with
  | nan => exact iff_of_false nofun fun ⟨_, h, _⟩ => nomatch h
  | infinite negative => exact iff_of_false nofun fun ⟨_, h, _⟩ => nomatch h
  | finite negative m e =>
    cases negative with
    | false =>
      have hfloor := floor_magnitude m e
      rw [← one_mul (m * 2 ^ e : ℚ)] at hfloor
      unfold positiveFloor?
      dsimp only
      constructor
      · intro h
        split at h
        · next hpos =>
          cases h
          exact ⟨_, rfl, hfloor, hpos⟩
        · cases h
      · rintro ⟨q, hq, hn, hpos⟩
        cases hq
        obtain rfl : floorMagnitude m e = n := by exact_mod_cast hfloor.symm.trans hn
        rw [if_pos hpos]
    | true =>
      refine iff_of_false nofun ?_
      rintro ⟨q, hq, hn, hpos⟩
      cases hq
      -- What is not positive has no positive integer part.
      have hle : ((-1 : ℚ) * (m * 2 ^ e)) ≤ 0 := by
        have hmag : (0 : ℚ) ≤ m * 2 ^ e := by positivity
        linarith
      have hfloor : ⌊((-1 : ℚ) * (m * 2 ^ e))⌋ ≤ 0 := by
        exact_mod_cast (Int.floor_le _).trans hle
      have hnat : (n : ℤ) ≤ 0 := hn ▸ hfloor
      omega

theorem positiveFloor?_eq_none_iff :
    x.positiveFloor? = none ↔ ∀ q, x.value? = some q → ⌊q⌋ ≤ 0 := by
  constructor
  · intro h q hq
    refine not_lt.mp fun hpos => ?_
    obtain ⟨n, hn⟩ := Int.eq_ofNat_of_zero_le hpos.le
    have hsome := positiveFloor?_eq_some_iff.mpr ⟨q, hq, hn, by omega⟩
    rw [h] at hsome
    cases hsome
  · intro h
    cases hx : x.positiveFloor? with
    | none => rfl
    | some n =>
      obtain ⟨q, hq, hn, hpos⟩ := positiveFloor?_eq_some_iff.mp hx
      have hle := h q hq
      omega

end Number.Binary64

/-! ### What a step is made of -/

/-- A text that an override gives, unless it gives none or an empty one, else the catalog. -/
inductive Chosen : Option String → Option String → Option String → Prop
  | override {text : String} {other : Option String} (h : text ≠ "") :
    Chosen (some text) other (some text)
  | catalog {text other : Option String} (h : ∀ given, text = some given → given = "") :
    Chosen text other other

/-- The integer part of a number that may be absent, where the number is finite and that part
positive. -/
inductive IntegerPart : Option Binary64 → Option Nat → Prop
  | positive {x : Binary64} {q : ℚ} {n : Nat} (hx : x.value? = some q) (hn : ⌊q⌋ = (n : ℤ))
    (hpos : 0 < n) : IntegerPart (some x) (some n)
  | low {x : Binary64} {q : ℚ} (hx : x.value? = some q) (hlow : ⌊q⌋ ≤ 0) :
    IntegerPart (some x) none
  | notFinite {x : Binary64} (hx : x.value? = none) : IntegerPart (some x) none
  | absent : IntegerPart none none

/-- A loop is made of what a module declares and overrides. -/
structure LoopOf (o : Overrides) (steps : Option Binary64) (trigger : Option String)
    (maxIterations : Option Binary64) (skip : List String) (l : LoopBehavior) : Prop where
  given : o.loopTrigger.or trigger = some l.trigger
  chosen : Chosen o.loopTrigger trigger (some l.trigger)
  filled : isBlankText l.trigger = false
  stepsBack : ∃ n, IntegerPart (o.loopSteps.or steps) n ∧ l.stepsBack = n.getD 1
  maxIterations : IntegerPart (o.loopMaxIterations.or maxIterations) l.maxIterations
  skip : l.skip = o.loopSkip.getD skip

/-- A behavior is made of what an entry declares and overrides. -/
inductive BehaviorOf (o : Overrides) : Option DeclaredBehavior → Option Behavior → Prop
  | plain : BehaviorOf o none none
  | trigger {declared target : Option String} (h : Chosen o.triggerTarget declared target) :
    BehaviorOf o (some (.trigger declared)) (some (.trigger target))
  | inert {steps maxIterations : Option Binary64} {trigger : Option String} {skip : List String}
    {word : String} (hword : o.loopTrigger.or trigger = some word)
    (hblank : isBlankText word = true) :
    BehaviorOf o (some (.loop steps trigger maxIterations skip)) none
  | loop {steps maxIterations : Option Binary64} {trigger : Option String} {skip : List String}
    {l : LoopBehavior} (hl : LoopOf o steps trigger maxIterations skip l) :
    BehaviorOf o (some (.loop steps trigger maxIterations skip)) (some (.loop l))

/-- A step is made of an entry and overrides. -/
structure StepOf (e : Entry) (o : Overrides) (s : Step) : Prop where
  agentId : s.agentId = e.id
  moduleId : s.moduleId = if e.kind = .module then some e.id else none
  agentName : Chosen o.agentName e.name (some s.agentName)
  agentName_filled : isBlankText s.agentName = false
  promptPath : Chosen o.promptPath e.promptPath (some s.promptPath)
  promptPath_filled : isBlankText s.promptPath = false
  model : Chosen o.model e.model s.model
  effort : Chosen (o.effort.map Effort.word) (e.effort.map Effort.word) s.reasoningEffort
  engine : Chosen o.engine e.engine s.engine
  behavior : BehaviorOf o e.behavior s.behavior
  executeOnce : s.executeOnce = o.executeOnce
  fallback : s.fallback = o.fallback
  tolerant : s.tolerant = o.tolerant
  scaffold : s.scaffold = o.scaffold

/-- A text that must be there is absent or blank. -/
def Lacks (override catalog : Option String) : Prop :=
  ∀ text, Chosen override catalog (some text) → isBlankText text = true

/-- The fields that a step must have and does not get, in order. -/
structure Lacking (e : Entry) (o : Overrides) (fields : List String) : Prop where
  ne_nil : fields ≠ []
  sublist : fields.Sublist ["name", "promptPath"]
  name : "name" ∈ fields ↔ Lacks o.agentName e.name
  promptPath : "promptPath" ∈ fields ↔ Lacks o.promptPath e.promptPath

/-- The entry that a declaration refers to. -/
def Declaration.Names (d : Declaration) (c : Catalog) (e : Entry) : Prop :=
  e ∈ c.entries ∧ e.kind = d.kind ∧ e.id = d.id

/-- A step that a declaration makes of a catalog. -/
def Declaration.Makes (c : Catalog) (d : Declaration) (s : Step) : Prop :=
  ∃ e, d.Names c e ∧ StepOf e d.overrides s

/-- Why a declaration makes no step. -/
inductive Declaration.Fails (c : Catalog) (d : Declaration) : ResolveFault → Prop
  | unknown (h : ∀ e, ¬d.Names c e) : Fails c d (.unknown d.kind.word d.id)
  | noTrigger {e : Entry} {steps maxIterations : Option Binary64} {skip : List String}
    (he : d.Names c e) (hdeclared : e.behavior = some (.loop steps none maxIterations skip))
    (hgiven : d.overrides.loopTrigger = none) :
    Fails c d (.missing s!"Module {d.id}" ["trigger"])
  | lacking {e : Entry} {b : Option Behavior} {fields : List String} (he : d.Names c e)
    (hb : BehaviorOf d.overrides e.behavior b) (hfields : Lacking e d.overrides fields) :
    Fails c d (.missing s!"{d.kind.title} {d.id}" fields)

/-- Whether an id is that of an agent. -/
def Catalog.HasAgent (c : Catalog) (id : String) : Prop :=
  ∃ e ∈ c.entries, e.kind = .agent ∧ e.id = id

/-- Why a template makes no steps. -/
inductive Template.Fails (c : Catalog) (t : Template) : ResolveFault → Prop
  | declaration {f : ResolveFault}
    (h : GoodUntil (fun d => ∃ s, Declaration.Makes c d s) (fun d => d.Fails c f) t.steps) :
    Fails c t f
  | subAgent {f : ResolveFault} (hsteps : ∀ d ∈ t.steps, ∃ s, Declaration.Makes c d s)
    (h : GoodUntil c.HasAgent (fun id => ¬c.HasAgent id ∧ f = .unknown "agent" id)
      t.subAgentIds) : Fails c t f

variable {c : Catalog} {d : Declaration} {t : Template} {e : Entry} {o : Overrides} {s : Step}
  {b : Option Behavior} {f : ResolveFault} {given other r : Option String}

/-! ### Texts and numbers -/

theorem orElseText_eq_iff : orElseText given other = r ↔ Chosen given other r := by
  unfold orElseText
  constructor
  · rintro rfl
    cases given with
    | none => exact .catalog nofun
    | some text =>
      dsimp only
      split
      · next hempty =>
        refine .catalog fun given hgiven => ?_
        cases hgiven
        exact String.isEmpty_iff.mp hempty
      · next hfilled => exact .override fun h => hfilled (String.isEmpty_iff.mpr h)
  · intro h
    cases h with
    | override h => exact if_neg fun hempty => h (String.isEmpty_iff.mp hempty)
    | catalog h =>
      cases given with
      | none => rfl
      | some text => exact if_pos (String.isEmpty_iff.mpr (h text rfl))

theorem effort_eq_iff {given other : Option Effort} :
    (given.or other).map Effort.word = r ↔
      Chosen (given.map Effort.word) (other.map Effort.word) r := by
  rw [← orElseText_eq_iff]
  cases given with
  | none => exact Iff.rfl
  | some effort => cases effort <;> exact Iff.rfl

theorem integerPart_iff {x : Option Binary64} {n : Option Nat} :
    positiveFloor? x = n ↔ IntegerPart x n := by
  cases x with
  | none =>
    constructor
    · rintro rfl
      exact .absent
    · rintro ⟨⟩
      rfl
  | some x =>
    change x.positiveFloor? = n ↔ _
    constructor
    · rintro rfl
      cases hx : x.positiveFloor? with
      | some n =>
        obtain ⟨q, hq, hn, hpos⟩ := Binary64.positiveFloor?_eq_some_iff.mp hx
        exact .positive hq hn hpos
      | none =>
        have hlow := Binary64.positiveFloor?_eq_none_iff.mp hx
        cases hq : x.value? with
        | none => exact .notFinite hq
        | some q => exact .low hq (hlow q hq)
    · intro h
      cases h with
      | positive hx hn hpos => exact Binary64.positiveFloor?_eq_some_iff.mpr ⟨_, hx, hn, hpos⟩
      | low hx hlow =>
        refine Binary64.positiveFloor?_eq_none_iff.mpr fun q hq => ?_
        cases hx.symm.trans hq
        exact hlow
      | notFinite hx =>
        refine Binary64.positiveFloor?_eq_none_iff.mpr fun q hq => ?_
        cases hx.symm.trans hq

/-- What the numbers of a loop come to makes a loop. -/
theorem exists_ofNumbers {x y : Option Binary64} {n m : Option Nat} (hn : IntegerPart x n)
    (hm : IntegerPart y m) (word : String) (skip : List String) :
    ∃ l, LoopBehavior.ofNumbers (n.getD 1 : Nat) word (m.map Int.ofNat) skip = .ok l ∧
      l.stepsBack = n.getD 1 ∧ l.trigger = word ∧ l.maxIterations = m ∧ l.skip = skip := by
  have hsteps : (0 : ℤ) < (n.getD 1 : Nat) := by
    cases hn with
    | positive _ _ hpos => exact_mod_cast hpos
    | _ => exact Int.one_pos
  unfold LoopBehavior.ofNumbers
  rw [dif_pos hsteps]
  cases hm with
  | positive _ _ hpos =>
    have hlimit : 0 < Int.ofNat _ := Int.natCast_pos.mpr hpos
    rw [Option.map_some]
    dsimp only
    rw [dif_pos hlimit]
    exact ⟨_, rfl, Int.toNat_natCast _, rfl, congrArg some (Int.toNat_natCast _), rfl⟩
  | _ => exact ⟨_, rfl, Int.toNat_natCast _, rfl, rfl, rfl⟩

/-! ### Behaviors -/

/-- A word that is not blank is what the override gives, unless it gives none or an empty one. -/
theorem chosen_of_or_eq_some {word : String} (h : given.or other = some word)
    (hfilled : isBlankText word = false) : Chosen given other (some word) := by
  cases given with
  | none =>
    obtain rfl : other = some word := h
    exact .catalog nofun
  | some text =>
    cases h
    refine .override ?_
    rintro rfl
    cases hfilled

/-- The loop that is made of a trigger word, two numbers and a list of ids. -/
def loopBy (steps : Option Binary64) (word : String) (limit : Option Binary64)
    (skip : List String) : LoopBehavior where
  stepsBack := stepsBack steps
  trigger := word
  maxIterations := Resolution.positiveFloor? limit
  skip := skip
  stepsBack_pos := stepsBack_pos steps
  maxIterations_pos := fun _ h => positiveFloor?_pos h

theorem loopOf_iff {steps maxIterations : Option Binary64} {trigger : Option String} {word : String}
    {skip : List String} {l : LoopBehavior} (hword : o.loopTrigger.or trigger = some word)
    (hfilled : isBlankText word = false) :
    LoopOf o steps trigger maxIterations skip l ↔
      l = loopBy (o.loopSteps.or steps) word (o.loopMaxIterations.or maxIterations)
        (o.loopSkip.getD skip) := by
  constructor
  · intro h
    obtain ⟨stepsBack, trigger', limit, skip', hpos, hlimit⟩ := l
    obtain ⟨hgiven, -, -, ⟨n, hn, hsteps⟩, hmax, hskip⟩ := h
    dsimp only at hgiven hsteps hmax hskip
    have hback : stepsBack = Resolution.stepsBack (o.loopSteps.or steps) := by
      rw [hsteps, Resolution.stepsBack, integerPart_iff.mpr hn]
    cases hword.symm.trans hgiven
    subst hback hskip
    obtain rfl := integerPart_iff.mpr hmax
    rfl
  · rintro rfl
    exact ⟨hword, chosen_of_or_eq_some hword hfilled, hfilled, ⟨_, integerPart_iff.mp rfl, rfl⟩,
      integerPart_iff.mp rfl, rfl⟩

/-- A loop needs a trigger word, and with a blank one there is no behavior. -/
theorem behavior_loop_iff {steps maxIterations : Option Binary64} {trigger : Option String}
    {skip : List String} (hdeclared : e.behavior = some (.loop steps trigger maxIterations skip)) :
    behavior e o = .ok b ↔ BehaviorOf o (some (.loop steps trigger maxIterations skip)) b := by
  unfold behavior
  rw [hdeclared]
  dsimp only
  cases hword : o.loopTrigger.or trigger with
  | none =>
    refine iff_of_false nofun fun h => ?_
    cases h with
    | inert h => cases hword.symm.trans h
    | loop hl => cases hword.symm.trans hl.given
  | some word =>
    dsimp only
    cases hblank : isBlankText word with
    | true =>
      rw [if_pos rfl]
      constructor
      · rintro ⟨⟩
        exact .inert hword hblank
      · intro h
        cases h with
        | inert => rfl
        | loop hl =>
          cases hword.symm.trans hl.given
          cases hblank.symm.trans hl.filled
    | false =>
      rw [if_neg Bool.false_ne_true]
      constructor
      · rintro ⟨⟩
        exact .loop ((loopOf_iff hword hblank).mpr rfl)
      · intro h
        cases h with
        | inert h hb =>
          cases hword.symm.trans h
          cases hblank.symm.trans hb
        | loop hl =>
          rw [(loopOf_iff hword hblank).mp hl]
          rfl

theorem behavior_eq_ok_iff : behavior e o = .ok b ↔ BehaviorOf o e.behavior b := by
  cases hdeclared : e.behavior with
  | none =>
    rw [behavior, hdeclared]
    constructor
    · rintro ⟨⟩
      exact .plain
    · rintro ⟨⟩
      rfl
  | some declared =>
    cases declared with
    | trigger target =>
      rw [behavior, hdeclared]
      constructor
      · rintro ⟨⟩
        exact .trigger (orElseText_eq_iff.mp rfl)
      · intro h
        cases h with
        | trigger h =>
          dsimp only
          rw [orElseText_eq_iff.mpr h]
    | loop steps trigger maxIterations skip => exact behavior_loop_iff hdeclared

theorem behavior_eq_error_iff : behavior e o = .error f ↔
    ∃ steps maxIterations skip, e.behavior = some (.loop steps none maxIterations skip) ∧
      o.loopTrigger = none ∧ f = .missing s!"Module {e.id}" ["trigger"] := by
  unfold behavior
  constructor
  · intro h
    split at h
    · cases h
    · cases h
    · next steps trigger maxIterations skip hdeclared =>
      split at h
      · next hword =>
        obtain ⟨hgiven, rfl⟩ := Option.or_eq_none_iff.mp hword
        cases h
        exact ⟨steps, maxIterations, skip, hdeclared, hgiven, rfl⟩
      · split at h <;> cases h
  · rintro ⟨steps, maxIterations, skip, hdeclared, hgiven, rfl⟩
    rw [hdeclared, hgiven]
    rfl

/-! ### Steps -/

theorem isFilled_eq_false_iff : isFilled (orElseText given other) = false ↔ Lacks given other := by
  constructor
  · intro h text htext
    rw [orElseText_eq_iff.mpr htext] at h
    simpa [isFilled] using h
  · intro h
    cases hchosen : orElseText given other with
    | none => rfl
    | some text =>
      have hblank := h text (orElseText_eq_iff.mp hchosen)
      rw [isFilled, hblank]
      rfl

theorem exists_of_isFilled (h : isFilled (orElseText given other) = true) :
    ∃ text, orElseText given other = some text ∧ isBlankText text = false := by
  cases hchosen : orElseText given other with
  | none =>
    rw [hchosen] at h
    cases h
  | some text =>
    rw [hchosen, isFilled, Bool.not_eq_true'] at h
    exact ⟨text, rfl, h⟩

/-- The fields that are lacking are told by which of the two texts is. -/
theorem Lacking.unique {fields fields' : List String} (h : Lacking e o fields)
    (h' : Lacking e o fields') : fields = fields' := by
  have hsublists : ∀ fields : List String, fields.Sublist ["name", "promptPath"] →
      fields = ["name", "promptPath"].filter (· ∈ fields) := by
    intro fields hsub
    cases hsub with
    | cons _ hsub | cons_cons _ hsub =>
      cases hsub with
      | cons _ hsub | cons_cons _ hsub =>
        cases hsub
        decide
  have hsame : ∀ field ∈ ["name", "promptPath"], field ∈ fields ↔ field ∈ fields' := by
    intro field hfield
    rcases List.mem_pair.mp hfield with rfl | rfl
    · exact h.name.trans h'.name.symm
    · exact h.promptPath.trans h'.promptPath.symm
  rw [hsublists fields h.sublist, hsublists fields' h'.sublist]
  exact List.filter_congr fun field hfield => decide_eq_decide.mpr (hsame field hfield)

/-- Where both texts are there and not blank, nothing lacks. -/
theorem not_lacking {name promptPath : String} {fields : List String}
    (hn : Chosen o.agentName e.name (some name)) (hnfilled : isBlankText name = false)
    (hp : Chosen o.promptPath e.promptPath (some promptPath))
    (hpfilled : isBlankText promptPath = false) : ¬Lacking e o fields := by
  intro h
  obtain ⟨field, hfield⟩ := List.exists_mem_of_ne_nil fields h.ne_nil
  rcases List.mem_pair.mp (h.sublist.subset hfield) with rfl | rfl
  · cases hnfilled.symm.trans (h.name.mp hfield name hn)
  · cases hpfilled.symm.trans (h.promptPath.mp hfield promptPath hp)

/-- A step is built where both texts are there, and else the fields that lack are told. -/
theorem build_cases (e : Entry) (o : Overrides) (b : Option Behavior) :
    (∃ name promptPath, orElseText o.agentName e.name = some name ∧ isBlankText name = false ∧
      orElseText o.promptPath e.promptPath = some promptPath ∧ isBlankText promptPath = false ∧
      build e o b = .ok {
        agentId := e.id, agentName := name, promptPath := promptPath,
        model := orElseText o.model e.model,
        reasoningEffort := (o.effort.or e.effort).map Effort.word,
        engine := orElseText o.engine e.engine,
        moduleId := if e.kind = .module then some e.id else none,
        behavior := b, executeOnce := o.executeOnce, fallback := o.fallback,
        tolerant := o.tolerant, scaffold := o.scaffold }) ∨
    ∃ fields, Lacking e o fields ∧ build e o b = .error (.missing (reference e) fields) := by
  unfold build
  dsimp only
  cases hname : isFilled (orElseText o.agentName e.name) with
  | true =>
    obtain ⟨name, hn, hnfilled⟩ := exists_of_isFilled hname
    have hnot : ¬Lacks o.agentName e.name := by
      rw [← isFilled_eq_false_iff, hname]
      exact Bool.false_ne_true.symm
    cases hpath : isFilled (orElseText o.promptPath e.promptPath) with
    | true =>
      obtain ⟨promptPath, hp, hpfilled⟩ := exists_of_isFilled hpath
      refine .inl ⟨name, promptPath, hn, hnfilled, hp, hpfilled, ?_⟩
      rw [hn, hp]
      rfl
    | false =>
      refine .inr ⟨["promptPath"], ⟨by decide, by decide, ?_, ?_⟩, rfl⟩
      · exact iff_of_false (by decide) hnot
      · exact iff_of_true (by decide) (isFilled_eq_false_iff.mp hpath)
  | false =>
    have hlacks := isFilled_eq_false_iff.mp hname
    cases hpath : isFilled (orElseText o.promptPath e.promptPath) with
    | true =>
      refine .inr ⟨["name"], ⟨by decide, by decide, ?_, ?_⟩, rfl⟩
      · exact iff_of_true (by decide) hlacks
      · rw [← isFilled_eq_false_iff, hpath]
        exact iff_of_false (by decide) Bool.false_ne_true.symm
    | false =>
      refine .inr ⟨["name", "promptPath"], ⟨by decide, by decide, ?_, ?_⟩, rfl⟩
      · exact iff_of_true (by decide) hlacks
      · exact iff_of_true (by decide) (isFilled_eq_false_iff.mp hpath)

/-- An entry's behavior comes first; an agent has none. -/
theorem ofEntry_eq (hplain : e.kind = .agent → e.behavior = none) :
    ofEntry e o = behavior e o >>= build e o := by
  unfold ofEntry
  cases hkind : e.kind with
  | module => rw [if_pos rfl]
  | agent =>
    have hnone : behavior e o = .ok none := by
      rw [behavior_eq_ok_iff, hplain hkind]
      exact .plain
    rw [if_neg nofun, hnone]

theorem ofEntry_eq_ok_iff (hplain : e.kind = .agent → e.behavior = none) :
    ofEntry e o = .ok s ↔ StepOf e o s := by
  rw [ofEntry_eq hplain]
  constructor
  · intro h
    obtain ⟨b, hb, hbuild⟩ := exists_of_bind_eq_ok h
    rcases build_cases e o b with
      ⟨name, promptPath, hn, hnfilled, hp, hpfilled, hok⟩ | ⟨fields, -, herror⟩
    · cases hok.symm.trans hbuild
      exact ⟨rfl, rfl, orElseText_eq_iff.mp hn, hnfilled, orElseText_eq_iff.mp hp, hpfilled,
        orElseText_eq_iff.mp rfl, effort_eq_iff.mp rfl, orElseText_eq_iff.mp rfl,
        behavior_eq_ok_iff.mp hb, rfl, rfl, rfl, rfl⟩
    · cases herror.symm.trans hbuild
  · intro h
    rw [behavior_eq_ok_iff.mpr h.behavior]
    change build e o s.behavior = _
    have hname := orElseText_eq_iff.mpr h.agentName
    have hpath := orElseText_eq_iff.mpr h.promptPath
    rcases build_cases e o s.behavior with
      ⟨name, promptPath, hn, -, hp, -, hok⟩ | ⟨fields, hlacking, -⟩
    · obtain rfl : name = s.agentName := Option.some.inj (hn.symm.trans hname)
      obtain rfl : promptPath = s.promptPath := Option.some.inj (hp.symm.trans hpath)
      rw [hok, orElseText_eq_iff.mpr h.model, effort_eq_iff.mpr h.effort,
        orElseText_eq_iff.mpr h.engine, ← h.agentId, ← h.executeOnce, ← h.fallback, ← h.tolerant,
        ← h.scaffold]
      have hmodule := h.moduleId
      rw [← h.agentId] at hmodule
      rw [← hmodule]
    · exact absurd hlacking
        (not_lacking h.agentName h.agentName_filled h.promptPath h.promptPath_filled)

/-- An entry makes no step where its loop names no trigger word, or where a text lacks. -/
theorem ofEntry_eq_error_iff (hplain : e.kind = .agent → e.behavior = none) :
    ofEntry e o = .error f ↔
      (∃ steps maxIterations skip, e.behavior = some (.loop steps none maxIterations skip) ∧
        o.loopTrigger = none ∧ f = .missing s!"Module {e.id}" ["trigger"]) ∨
      ∃ b fields, BehaviorOf o e.behavior b ∧ Lacking e o fields ∧
        f = .missing (reference e) fields := by
  rw [ofEntry_eq hplain, bind_eq_error_iff, behavior_eq_error_iff]
  refine or_congr Iff.rfl ⟨?_, ?_⟩
  · rintro ⟨b, hb, hbuild⟩
    rcases build_cases e o b with ⟨_, _, -, -, -, -, hok⟩ | ⟨fields, hlacking, herror⟩
    · cases hok.symm.trans hbuild
    · cases herror.symm.trans hbuild
      exact ⟨b, fields, behavior_eq_ok_iff.mp hb, hlacking, rfl⟩
  · rintro ⟨b, fields, hb, hlacking, rfl⟩
    refine ⟨b, behavior_eq_ok_iff.mpr hb, ?_⟩
    rcases build_cases e o b with
      ⟨name, promptPath, hn, hnfilled, hp, hpfilled, -⟩ | ⟨fields', hlacking', herror⟩
    · exact absurd hlacking (not_lacking (orElseText_eq_iff.mp hn) hnfilled
        (orElseText_eq_iff.mp hp) hpfilled)
    · rw [herror, hlacking'.unique hlacking]

/-! ### Declarations -/

theorem find?_eq_some_iff : c.find? d.kind d.id = some e ↔ d.Names c e := Catalog.find?_eq_some_iff

theorem resolve_eq_ok_iff : d.resolve c = .ok s ↔ Declaration.Makes c d s := by
  unfold Declaration.resolve Catalog.resolve lookUp
  constructor
  · intro h
    obtain ⟨e, he, hs⟩ := exists_of_bind_eq_ok h
    split at he
    · next hfound =>
      cases he
      have hnames := find?_eq_some_iff.mp hfound
      exact ⟨e, hnames, (ofEntry_eq_ok_iff (c.plain e hnames.1)).mp hs⟩
    · cases he
  · rintro ⟨e, hnames, hs⟩
    rw [find?_eq_some_iff.mpr hnames]
    exact (ofEntry_eq_ok_iff (c.plain e hnames.1)).mpr hs

theorem resolve_eq_error_iff : d.resolve c = .error f ↔ d.Fails c f := by
  unfold Declaration.resolve Catalog.resolve lookUp
  cases hfound : c.find? d.kind d.id with
  | none =>
    have hnone : ∀ e, ¬d.Names c e := by
      intro e he
      rw [find?_eq_some_iff.mpr he] at hfound
      cases hfound
    constructor
    · rintro ⟨⟩
      exact .unknown hnone
    · intro h
      cases h with
      | unknown => rfl
      | noTrigger he | lacking he => exact absurd he (hnone _)
  | some e =>
    have hnames := find?_eq_some_iff.mp hfound
    have ⟨he, hkind, hid⟩ := hnames
    change ofEntry e d.overrides = .error f ↔ _
    rw [ofEntry_eq_error_iff (c.plain e he)]
    have hreference : reference e = s!"{d.kind.title} {d.id}" := by
      rw [reference, hkind, hid]
    constructor
    · rintro (⟨_, _, _, hdeclared, hgiven, rfl⟩ | ⟨b, fields, hb, hlacking, rfl⟩)
      · rw [hid]
        exact .noTrigger hnames hdeclared hgiven
      · rw [hreference]
        exact .lacking hnames hb hlacking
    · intro h
      cases h with
      | unknown hnone => exact absurd hnames (hnone e)
      | noTrigger he' hdeclared hgiven =>
        cases hfound.symm.trans (find?_eq_some_iff.mpr he')
        exact .inl ⟨_, _, _, hdeclared, hgiven, by rw [hid]⟩
      | lacking he' hb hlacking =>
        cases hfound.symm.trans (find?_eq_some_iff.mpr he')
        exact .inr ⟨_, _, hb, hlacking, by rw [hreference]⟩

/-! ### Templates -/

/-- Makes sure of an agent. -/
def lookUpAgent (c : Catalog) (id : String) : Except ResolveFault Unit := do
  let _ ← lookUp c .agent id

theorem lookUpAgent_eq (c : Catalog) (id : String) :
    c.HasAgent id ∧ lookUpAgent c id = .ok () ∨
      ¬c.HasAgent id ∧ lookUpAgent c id = .error (.unknown "agent" id) := by
  unfold lookUpAgent lookUp
  cases hfound : c.find? .agent id with
  | some e => exact .inl ⟨⟨e, Catalog.find?_some hfound⟩, rfl⟩
  | none =>
    refine .inr ⟨?_, rfl⟩
    rintro ⟨e, he, hagent⟩
    exact Catalog.find?_eq_none_iff.mp hfound e he hagent

theorem lookUpAgent_eq_ok_iff {id : String} : lookUpAgent c id = .ok () ↔ c.HasAgent id := by
  rcases lookUpAgent_eq c id with ⟨hagent, h⟩ | ⟨hnot, h⟩
  · exact iff_of_true h hagent
  · rw [h]
    exact iff_of_false nofun hnot

theorem lookUpAgent_eq_error_iff {id : String} :
    lookUpAgent c id = .error f ↔ ¬c.HasAgent id ∧ f = .unknown "agent" id := by
  rcases lookUpAgent_eq c id with ⟨hagent, h⟩ | ⟨hnot, h⟩
  · rw [h]
    exact iff_of_false nofun fun hnot => hnot.1 hagent
  · rw [h]
    constructor
    · rintro ⟨⟩
      exact ⟨hnot, rfl⟩
    · rintro ⟨-, rfl⟩
      rfl

theorem template_resolve_eq (c : Catalog) (t : Template) : t.resolve c =
    (t.steps.mapM (Declaration.resolve c) >>= fun steps =>
      t.subAgentIds.forM (lookUpAgent c) >>= fun _ => pure steps) := rfl

theorem template_resolve_eq_ok_iff {steps : List Step} : t.resolve c = .ok steps ↔
    List.Forall₂ (Declaration.Makes c) t.steps steps ∧ ∀ id ∈ t.subAgentIds, c.HasAgent id := by
  rw [template_resolve_eq]
  constructor
  · intro h
    obtain ⟨steps', hsteps, hrest⟩ := exists_of_bind_eq_ok h
    obtain ⟨_, hagents, hpure⟩ := exists_of_bind_eq_ok hrest
    cases hpure
    refine ⟨(mapM_eq_ok_iff.mp hsteps).imp fun _ _ => resolve_eq_ok_iff.mp, fun id hid => ?_⟩
    exact lookUpAgent_eq_ok_iff.mp (forM_eq_ok_iff.mp hagents id hid)
  · rintro ⟨hsteps, hagents⟩
    rw [mapM_eq_ok_iff.mpr (hsteps.imp fun _ _ => resolve_eq_ok_iff.mpr)]
    change (t.subAgentIds.forM (lookUpAgent c) >>= fun _ => pure steps) = _
    rw [forM_eq_ok_iff.mpr fun id hid => lookUpAgent_eq_ok_iff.mpr (hagents id hid)]
    rfl

theorem template_resolve_eq_error_iff : t.resolve c = .error f ↔ t.Fails c f := by
  have hdeclarations : t.steps.mapM (Declaration.resolve c) = .error f ↔
      GoodUntil (fun d => ∃ s, Declaration.Makes c d s) (fun d => d.Fails c f) t.steps :=
    mapM_eq_error_iff.trans (GoodUntil.congr
      (fun d => exists_congr fun s => resolve_eq_ok_iff) fun d => resolve_eq_error_iff)
  have hagents : t.subAgentIds.forM (lookUpAgent c) = .error f ↔ GoodUntil c.HasAgent
      (fun id => ¬c.HasAgent id ∧ f = .unknown "agent" id) t.subAgentIds :=
    forM_eq_error_iff.trans
      (GoodUntil.congr (fun id => lookUpAgent_eq_ok_iff) fun id => lookUpAgent_eq_error_iff)
  rw [template_resolve_eq, bind_eq_error_iff, hdeclarations]
  constructor
  · rintro (h | ⟨steps, hsteps, h⟩)
    · exact .declaration h
    · rcases bind_eq_error_iff.mp h with h | ⟨_, -, h⟩
      · refine .subAgent (fun d hd => ?_) (hagents.mp h)
        obtain ⟨s, -, hs⟩ := exists_of_forall₂ (mapM_eq_ok_iff.mp hsteps) d hd
        exact ⟨s, resolve_eq_ok_iff.mp hs⟩
      · cases h
  · intro h
    cases h with
    | declaration h => exact .inl h
    | subAgent hmade h =>
      obtain ⟨steps, hsteps⟩ := exists_forall₂ hmade
      refine .inr ⟨steps, mapM_eq_ok_iff.mpr (hsteps.imp fun _ _ => resolve_eq_ok_iff.mpr), ?_⟩
      exact bind_eq_error_iff.mpr (.inl (hagents.mpr h))

/-- A template makes one step for each of its declarations, in order, or it fails at the first that
makes none, else at the first id that is no agent's; and the numbers of a loop are such that it can
be made. -/
theorem resolves_or_tells_why (c : Catalog) (t : Template) :
    (∀ steps, t.resolve c = .ok steps ↔
      List.Forall₂ (Declaration.Makes c) t.steps steps ∧ ∀ id ∈ t.subAgentIds, c.HasAgent id) ∧
    (∀ f, t.resolve c = .error f ↔ t.Fails c f) ∧
    ∀ x y n m word skip, IntegerPart x n → IntegerPart y m →
      ∃ l, LoopBehavior.ofNumbers (n.getD 1 : Nat) word (m.map Int.ofNat) skip = .ok l ∧
        l.stepsBack = n.getD 1 ∧ l.trigger = word ∧ l.maxIterations = m ∧ l.skip = skip :=
  ⟨fun _ => template_resolve_eq_ok_iff, fun _ => template_resolve_eq_error_iff,
    fun _ _ _ _ word skip hn hm => exists_ofNumbers hn hm word skip⟩

example : behavior
    { id := "review", kind := .module, behavior := some (.loop (some (.finite false 5 (-1)))
      (some "AGAIN") (some .nan) ["draft"]) } { loopSkip := some [] } =
    .ok (some (.loop ⟨2, "AGAIN", none, [], by decide, nofun⟩)) := by
  decide +kernel

end Conductor
