import Conductor.Catalog.Reader
import Conductor.Json.Members
import Conductor.Proofs.Entries
import Conductor.Template.Resolution
import Mathlib.Data.List.Nodup
import Mathlib.Data.Prod.Basic

/-!
# What catalogs list and find

An object lists items, its agents in order and then its modules (`Item.Listed`), and a valid item
describes one entry of the kind that it is listed as (`Item.Describes`).  A kind that an item gives
itself is passed over.

Entries are taken up in order, and the first one that shares kind and id with a former one, or that
is an agent with a behavior, is at fault (`ofEntries_eq_error_iff`).

Main statement: an object is accepted iff its items are valid, no two of a kind share an id and no
agent carries a behavior.  The catalog then lists the entry of each item, and looking up finds the
one entry of a kind and id (`lists_and_finds`).
-/

namespace Conductor

open Schema Resolution

/-! ### Fields -/

namespace Schema

variable {α : Type} {members : List (String × Json)} {name : String}

theorem find?_single (members : List (String × Json)) (name : String) :
    (FieldName.single name).find? members = (Json.member? members name).map (name, ·) := by
  unfold FieldName.find? FieldName.single
  dsimp only
  cases Json.member? members name <;> rfl

/-- A field of texts that are not empty holds the text itself. -/
theorem member?_of_field {t : String} (h : field members (.single name) nonEmptyText = .ok t) :
    Json.member? members name = some (.str t) := by
  unfold field at h
  rw [find?_single] at h
  cases hm : Json.member? members name with
  | none =>
    rw [hm] at h
    cases h
  | some v =>
    rw [hm] at h
    have hv : nonEmptyText v = .ok t := Checked.below_eq_ok_iff.mp h
    cases v with
    | str s =>
      unfold nonEmptyText whole at hv
      dsimp only at hv
      split at hv
      · cases hv
      · split at hv <;> cases hv
        rfl
    | _ => cases hv

/-- A field that may be null or absent holds nothing iff it is. -/
theorem eq_none_iff_of_fieldOr {check : Json → Checked α} {r : Option α}
    (h : fieldOr members (.single name) none (optional check) = .ok r) :
    r = none ↔ Json.Members.given? members name = none := by
  unfold fieldOr at h
  rw [find?_single] at h
  unfold Json.Members.given?
  cases hm : Json.member? members name with
  | none =>
    rw [hm] at h
    cases h
    exact iff_of_true rfl rfl
  | some v =>
    rw [hm] at h
    have hv : optional check v = .ok r := Checked.below_eq_ok_iff.mp h
    unfold optional at hv
    split at hv
    · cases hv
      exact iff_of_true rfl rfl
    · next hnull =>
      obtain ⟨x, -, rfl⟩ := Checked.map_eq_ok_iff.mp hv
      refine iff_of_false (Option.some_ne_none x) ?_
      cases v <;> simp at hnull ⊢

end Schema

namespace Catalog

variable {c c' : Catalog} {e : Entry} {es before : List Entry} {f : CatalogFault}
  {ms : Json.Members} {kind : EntryKind} {id : String}

/-! ### Looking up -/

/-- Looking up finds the one entry of a kind and id. -/
theorem find?_eq_some_iff : c.find? kind id = some e ↔ e ∈ c.entries ∧ e.kind = kind ∧ e.id = id := by
  constructor
  · exact find?_some
  · rintro ⟨he, hkind, hid⟩
    cases hfound : c.find? kind id with
    | none => exact absurd ⟨hkind, hid⟩ (find?_eq_none_iff.mp hfound e he)
    | some e' =>
      -- No two entries share kind and id.
      obtain ⟨he', hkind', hid'⟩ := find?_some hfound
      have hkey : e'.key = e.key := Prod.ext (hkind'.trans hkind.symm) (hid'.trans hid.symm)
      rw [List.inj_on_of_nodup_map c.nodup he' he hkey]

theorem lookUp_eq_ok_iff :
    lookUp c kind id = .ok e ↔ e ∈ c.entries ∧ e.kind = kind ∧ e.id = id := by
  rw [← find?_eq_some_iff]
  unfold lookUp
  cases c.find? kind id <;> simp

theorem lookUp_eq_error_iff {f : ResolveFault} : lookUp c kind id = .error f ↔
    f = .unknown kind.word id ∧ ∀ e ∈ c.entries, ¬(e.kind = kind ∧ e.id = id) := by
  rw [← find?_eq_none_iff]
  unfold lookUp
  cases c.find? kind id <;> simp [eq_comm]

/-- An id is an agent's, else a module's. -/
theorem findAny?_eq_some_iff : c.findAny? id = some e ↔ e ∈ c.entries ∧ e.id = id ∧
    (e.kind = .agent ∨ e.kind = .module ∧ ∀ a ∈ c.entries, ¬(a.kind = .agent ∧ a.id = id)) := by
  unfold findAny?
  rw [Option.or_eq_some_iff, find?_eq_some_iff, find?_eq_some_iff, find?_eq_none_iff]
  constructor
  · rintro (⟨he, hkind, hid⟩ | ⟨hnone, he, hkind, hid⟩)
    · exact ⟨he, hid, .inl hkind⟩
    · exact ⟨he, hid, .inr ⟨hkind, hnone⟩⟩
  · rintro ⟨he, hid, hkind | ⟨hkind, hnone⟩⟩
    · exact .inl ⟨he, hkind, hid⟩
    · exact .inr ⟨hnone, he, hkind, hid⟩

theorem findAny?_eq_none_iff : c.findAny? id = none ↔ ∀ e ∈ c.entries, e.id ≠ id := by
  unfold findAny?
  rw [Option.or_eq_none_iff, find?_eq_none_iff, find?_eq_none_iff]
  constructor
  · rintro ⟨hagent, hmodule⟩ e he hid
    cases hkind : e.kind with
    | agent => exact hagent e he ⟨hkind, hid⟩
    | module => exact hmodule e he ⟨hkind, hid⟩
  · intro h
    exact ⟨fun e he hid => h e he hid.2, fun e he hid => h e he hid.2⟩

/-! ### Taking entries up -/

/-- No two entries share kind and id, and no agent has a behavior. -/
structure Sound (es : List Entry) : Prop where
  nodup : (es.map Entry.key).Nodup
  plain : ∀ e ∈ es, e.kind = .agent → e.behavior = none

/-- Why an entry cannot be taken up behind others. -/
inductive Clashes (before : List Entry) (e : Entry) : CatalogFault → Prop
  | duplicate (hkey : e.key ∈ before.map Entry.key) : Clashes before e (.duplicate e.kind e.id)
  | behavior (hkey : e.key ∉ before.map Entry.key) (hkind : e.kind = .agent)
    (hbehavior : e.behavior ≠ none) : Clashes before e (.agentBehavior e.id)

theorem ext (h : c.entries = c'.entries) : c = c' := by
  cases c
  cases c'
  cases h
  rfl

theorem sound_entries (c : Catalog) : Sound c.entries := ⟨c.nodup, c.plain⟩

theorem Sound.of_append (h : Sound (es ++ before)) : Sound es where
  nodup := by
    have hnodup := h.nodup
    rw [List.map_append] at hnodup
    exact hnodup.of_append_left
  plain e he := h.plain e (List.mem_append_left _ he)

/-- An entry can be taken up behind others, or it clashes with them. -/
theorem sound_concat_iff (h : Sound es) : Sound (es ++ [e]) ↔ ∀ f, ¬Clashes es e f := by
  constructor
  · rintro hsound f hclash
    cases hclash with
    | duplicate hkey =>
      have hnodup := hsound.nodup
      rw [List.map_append, List.map_singleton, ← List.concat_eq_append, List.nodup_concat] at hnodup
      exact hnodup.1 hkey
    | behavior _ hkind hbehavior => exact hbehavior (hsound.plain e (by simp) hkind)
  · intro hnone
    have hkey : e.key ∉ es.map Entry.key := fun hkey => hnone _ (.duplicate hkey)
    refine ⟨?_, ?_⟩
    · rw [List.map_append, List.map_singleton, ← List.concat_eq_append, List.nodup_concat]
      exact ⟨hkey, h.nodup⟩
    · intro a ha hkind
      rcases List.mem_append.mp ha with ha | ha
      · exact h.plain a ha hkind
      · obtain rfl := List.mem_singleton.mp ha
        by_contra hbehavior
        exact hnone _ (.behavior hkey hkind hbehavior)

theorem add_eq_ok_iff :
    c.add e = .ok c' ↔ Sound (c.entries ++ [e]) ∧ c'.entries = c.entries ++ [e] := by
  rw [sound_concat_iff c.sound_entries]
  unfold add
  split
  · next hkey => exact iff_of_false nofun fun h => h.1 _ (.duplicate hkey)
  · next hkey =>
    split
    · next hb => exact iff_of_false nofun fun h => h.1 _ (.behavior hkey hb.1 hb.2)
    · next hb =>
      have hnone : ∀ f, ¬Clashes c.entries e f := by
        rintro f (hdup | ⟨-, hkind, hbehavior⟩)
        · exact hkey hdup
        · exact hb ⟨hkind, hbehavior⟩
      rw [and_iff_right hnone]
      exact ⟨fun h => by cases h; rfl, fun h => congrArg Except.ok (ext h.symm)⟩

theorem add_eq_error_iff : c.add e = .error f ↔ Clashes c.entries e f := by
  unfold add
  split
  · next hkey =>
    constructor
    · rintro ⟨⟩
      exact .duplicate hkey
    · rintro (_ | ⟨hnot, -, -⟩)
      · rfl
      · exact absurd hkey hnot
  · next hkey =>
    split
    · next hb =>
      constructor
      · rintro ⟨⟩
        exact .behavior hkey hb.1 hb.2
      · rintro (hdup | _)
        · exact absurd hdup hkey
        · rfl
    · next hb =>
      refine iff_of_false nofun ?_
      rintro (hdup | ⟨-, hkind, hbehavior⟩)
      · exact hkey hdup
      · exact hb ⟨hkind, hbehavior⟩

theorem foldlM_add_eq_ok_iff :
    es.foldlM add c = .ok c' ↔ Sound (c.entries ++ es) ∧ c'.entries = c.entries ++ es := by
  induction es generalizing c with
  | nil =>
    rw [List.foldlM_nil, List.append_nil, and_iff_right c.sound_entries]
    exact ⟨fun h => by cases h; rfl, fun h => congrArg Except.ok (ext h.symm)⟩
  | cons e es ih =>
    rw [List.foldlM_cons, List.append_cons]
    constructor
    · intro h
      obtain ⟨c₁, hadd, hrest⟩ := exists_of_bind_eq_ok h
      rw [← (add_eq_ok_iff.mp hadd).2]
      exact ih.mp hrest
    · rintro ⟨hsound, hentries⟩
      -- What is sound as a whole is so up to the entry, so there is a catalog of that much.
      obtain ⟨c₁, hc₁⟩ : ∃ c₁ : Catalog, c₁.entries = c.entries ++ [e] :=
        ⟨⟨_, hsound.of_append.nodup, hsound.of_append.plain⟩, rfl⟩
      rw [add_eq_ok_iff.mpr ⟨hsound.of_append, hc₁⟩]
      rw [← hc₁] at hsound hentries
      exact ih.mpr ⟨hsound, hentries⟩

theorem foldlM_add_eq_error_iff : es.foldlM add c = .error f ↔ ∃ before e after,
    es = before ++ e :: after ∧ Sound (c.entries ++ before) ∧
      Clashes (c.entries ++ before) e f := by
  constructor
  · intro h
    induction es generalizing c with
    | nil => cases h
    | cons e es ih =>
      rw [List.foldlM_cons] at h
      rcases bind_eq_error_iff.mp h with h | ⟨c₁, hadd, hrest⟩
      · refine ⟨[], e, es, rfl, ?_⟩
        rw [List.append_nil]
        exact ⟨c.sound_entries, add_eq_error_iff.mp h⟩
      · obtain ⟨before, e', after, rfl, hfirst⟩ := ih hrest
        rw [(add_eq_ok_iff.mp hadd).2, ← List.append_cons] at hfirst
        exact ⟨e :: before, e', after, rfl, hfirst⟩
  · rintro ⟨before, e, after, rfl, hsound, hclash⟩
    obtain ⟨c₁, hc₁⟩ : ∃ c₁ : Catalog, c₁.entries = c.entries ++ before :=
      ⟨⟨_, hsound.nodup, hsound.plain⟩, rfl⟩
    rw [List.foldlM_append, foldlM_add_eq_ok_iff.mpr ⟨hsound, hc₁⟩]
    rw [← hc₁] at hclash
    change (e :: after).foldlM add c₁ = .error f
    exact bind_eq_error_iff.mpr (.inl (add_eq_error_iff.mpr hclash))

theorem ofEntries_eq_ok_iff : ofEntries es = .ok c ↔ Sound es ∧ c.entries = es :=
  foldlM_add_eq_ok_iff

/-- Entries make no catalog iff the first one that clashes with those before it is at fault. -/
theorem ofEntries_eq_error_iff : ofEntries es = .error f ↔ ∃ before e after,
    es = before ++ e :: after ∧ Sound before ∧ Clashes before e f :=
  foldlM_add_eq_error_iff

theorem exists_ofEntries_eq_error_iff : (∃ f, ofEntries es = .error f) ↔ ¬Sound es := by
  cases h : ofEntries es with
  | ok c => exact iff_of_false nofun fun hnot => hnot (ofEntries_eq_ok_iff.mp h).1
  | error f =>
    refine iff_of_true ⟨f, rfl⟩ fun hsound => ?_
    obtain ⟨c, hc⟩ : ∃ c : Catalog, c.entries = es := ⟨⟨es, hsound.nodup, hsound.plain⟩, rfl⟩
    rw [ofEntries_eq_ok_iff.mpr ⟨hsound, hc⟩] at h
    cases h

/-! ### Items -/

/-- What an object lists in one of its two lists. -/
structure Item where
  kind : EntryKind
  value : Json

namespace Item

/-- The id that an item gives. -/
def id? (i : Item) : Option Json := Json.member? i.value.membersOf "id"

/-- Whether an item carries a behavior; null is none. -/
def HasBehavior (i : Item) : Prop := (Json.Members.given? i.value.membersOf "behavior").isSome

/-- A valid item describes an entry: one of the kind that it is listed as, with its id, and with a
behavior iff it carries one. -/
structure Describes (i : Item) (e : Entry) : Prop where
  read : readEntry i.kind i.value = .ok e
  kind : e.kind = i.kind
  id : i.id? = some (.str e.id)
  behavior : e.behavior ≠ none ↔ i.HasBehavior

/-- The items that an object lists, its agents in order and then its modules; a list that is absent
is empty. -/
def Listed (ms : Json.Members) (items : List Item) : Prop :=
  ∃ agents modules,
    ((Json.member? ms "agents").elim (some []) Json.elements?) = some agents ∧
    ((Json.member? ms "modules").elim (some []) Json.elements?) = some modules ∧
    items = agents.map (Item.mk .agent) ++ modules.map (Item.mk .module)

/-- Two items are listed as one kind with one id, or one is listed as an agent and carries a
behavior. -/
def Clash (items : List Item) : Prop :=
  (∃ i j, [i, j].Sublist items ∧ i.kind = j.kind ∧ i.id? = j.id?) ∨
    ∃ i ∈ items, i.kind = .agent ∧ i.HasBehavior

variable {i : Item} {items : List Item}

theorem describes_iff : i.Describes e ↔ readEntry i.kind i.value = .ok e := by
  refine ⟨Describes.read, fun h => ?_⟩
  obtain ⟨kind, value⟩ := i
  cases value with
  | obj members =>
    have hcheck : Entry.check kind members = .ok e := by
      dsimp only [readEntry] at h
      split at h
      · next hok =>
        cases h
        exact hok
      · cases h
    unfold Entry.check at hcheck
    obtain ⟨_, behavior, h₇, hbehavior, rfl⟩ := Checked.ap_eq_ok_iff.mp hcheck
    obtain ⟨_, _, h₆, -, rfl⟩ := Checked.ap_eq_ok_iff.mp h₇
    obtain ⟨_, _, h₅, -, rfl⟩ := Checked.ap_eq_ok_iff.mp h₆
    obtain ⟨_, _, h₄, -, rfl⟩ := Checked.ap_eq_ok_iff.mp h₅
    obtain ⟨_, _, h₃, -, rfl⟩ := Checked.ap_eq_ok_iff.mp h₄
    obtain ⟨_, _, h₂, -, rfl⟩ := Checked.ap_eq_ok_iff.mp h₃
    obtain ⟨_, _, h₁, -, rfl⟩ := Checked.ap_eq_ok_iff.mp h₂
    obtain ⟨id, hid, rfl⟩ := Checked.map_eq_ok_iff.mp h₁
    refine ⟨h, rfl, member?_of_field hid, ?_⟩
    show behavior ≠ none ↔ Option.isSome _ = true
    rw [Option.isSome_iff_ne_none]
    exact not_congr (eq_none_iff_of_fieldOr hbehavior)
  | _ => cases h

/-- The entries of items can be taken up iff the items do not clash. -/
theorem sound_iff (h : List.Forall₂ Describes items es) : Sound es ↔ ¬Clash items := by
  have hkeys : items.map (fun i => (i.kind, i.id?)) =
      (es.map Entry.key).map (Prod.map id fun s => some (Json.str s)) := by
    induction h with
    | nil => rfl
    | cons hi _ ih =>
      rw [List.map_cons, List.map_cons, List.map_cons, ih, ← hi.kind, hi.id]
      rfl
  have hinj : Function.Injective (Prod.map (id : EntryKind → _) fun s => some (Json.str s)) :=
    Function.Injective.prodMap Function.injective_id fun s t hst =>
      Json.str.inj (Option.some.inj hst)
  have hshared : (∃ i j : Item, [i, j].Sublist items ∧ i.kind = j.kind ∧ i.id? = j.id?) ↔
      ¬(es.map Entry.key).Nodup := by
    rw [← List.nodup_map_iff hinj, ← hkeys, not_nodup_map_iff]
    simp only [Prod.mk.injEq]
  have hbehaviors : (∃ i ∈ items, i.kind = .agent ∧ i.HasBehavior) ↔
      ¬∀ e ∈ es, e.kind = .agent → e.behavior = none := by
    push Not
    constructor
    · rintro ⟨i, hi, hkind, hb⟩
      obtain ⟨e, he, hie⟩ := exists_of_forall₂ h i hi
      exact ⟨e, he, hie.kind.trans hkind, hie.behavior.mpr hb⟩
    · rintro ⟨e, he, hkind, hb⟩
      obtain ⟨i, hi, hie⟩ := exists_of_forall₂ h.flip e he
      exact ⟨i, hi, hie.kind.symm.trans hkind, hie.behavior.mp hb⟩
  unfold Clash
  rw [hshared, hbehaviors, not_or, not_not, not_not]
  exact ⟨fun h => ⟨h.nodup, h.plain⟩, fun h => ⟨h.1, h.2⟩⟩

end Item

/-! ### Reading -/

theorem readEntries_eq_ok_iff {name : String} : readEntries kind name ms = .ok es ↔
    ∃ values, (Json.member? ms name).elim (some []) Json.elements? = some values ∧
      List.Forall₂ Item.Describes (values.map (Item.mk kind)) es := by
  simp only [List.forall₂_map_left_iff, Item.describes_iff, ← mapM_eq_ok_iff]
  unfold readEntries
  cases Json.member? ms name with
  | none => simp [pure, Except.pure]
  | some v =>
    dsimp only [Option.elim]
    cases v.elements? <;> simp

theorem ofMembers_eq : ofMembers ms = (readEntries .agent "agents" ms >>= fun agents =>
    readEntries .module "modules" ms >>= fun modules => ofEntries (agents ++ modules)) := rfl

theorem ofMembers_of_describes {items : List Item} (hlisted : Item.Listed ms items)
    (h : List.Forall₂ Item.Describes items es) : ofMembers ms = ofEntries es := by
  obtain ⟨agents, modules, hagents, hmodules, rfl⟩ := hlisted
  obtain ⟨as, bs, rfl, has, hbs⟩ := exists_append_of_forall₂ h
  rw [ofMembers_eq, readEntries_eq_ok_iff.mpr ⟨agents, hagents, has⟩]
  change (readEntries .module "modules" ms >>= fun modules => ofEntries (as ++ modules)) = _
  rw [readEntries_eq_ok_iff.mpr ⟨modules, hmodules, hbs⟩]
  rfl

theorem ofMembers_eq_ok_iff : ofMembers ms = .ok c ↔ ∃ items, Item.Listed ms items ∧
    List.Forall₂ Item.Describes items c.entries ∧ ¬Item.Clash items := by
  constructor
  · intro h
    rw [ofMembers_eq] at h
    obtain ⟨as, has, h⟩ := exists_of_bind_eq_ok h
    obtain ⟨bs, hbs, h⟩ := exists_of_bind_eq_ok h
    obtain ⟨agents, hagents, has⟩ := readEntries_eq_ok_iff.mp has
    obtain ⟨modules, hmodules, hbs⟩ := readEntries_eq_ok_iff.mp hbs
    obtain ⟨hsound, hentries⟩ := ofEntries_eq_ok_iff.mp h
    have hitems := List.rel_append has hbs
    refine ⟨_, ⟨agents, modules, hagents, hmodules, rfl⟩, ?_, (Item.sound_iff hitems).mp hsound⟩
    rw [hentries]
    exact hitems
  · rintro ⟨items, hlisted, hitems, hclash⟩
    rw [ofMembers_of_describes hlisted hitems]
    exact ofEntries_eq_ok_iff.mpr ⟨(Item.sound_iff hitems).mpr hclash, rfl⟩

/-- An object is accepted iff its items are valid and do not clash; the catalog then lists the entry
of each item, in order.  An object whose items are valid is refused iff they clash, for the first
entry that clashes with those before it.  Of a catalog that was accepted, looking up finds the
entry of a kind and id, and an id alone is an agent's before it is a module's. -/
theorem lists_and_finds (ms : Json.Members) :
    (∀ c, ofMembers ms = .ok c ↔ ∃ items, Item.Listed ms items ∧
      List.Forall₂ Item.Describes items c.entries ∧ ¬Item.Clash items) ∧
    (∀ items es, Item.Listed ms items → List.Forall₂ Item.Describes items es →
      ((∃ f, ofMembers ms = .error f) ↔ Item.Clash items) ∧
      ∀ f, ofMembers ms = .error f ↔ ∃ before e after, es = before ++ e :: after ∧
        Sound before ∧ Clashes before e f) ∧
    ∀ c, ofMembers ms = .ok c → Sound c.entries ∧ ∀ id,
      (∀ kind e, lookUp c kind id = .ok e ↔ e ∈ c.entries ∧ e.kind = kind ∧ e.id = id) ∧
      (∀ kind f, lookUp c kind id = .error f ↔
        f = .unknown kind.word id ∧ ∀ e ∈ c.entries, ¬(e.kind = kind ∧ e.id = id)) ∧
      (∀ e, c.findAny? id = some e ↔ e ∈ c.entries ∧ e.id = id ∧ (e.kind = .agent ∨
        e.kind = .module ∧ ∀ a ∈ c.entries, ¬(a.kind = .agent ∧ a.id = id))) ∧
      (c.findAny? id = none ↔ ∀ e ∈ c.entries, e.id ≠ id) := by
  refine ⟨fun c => ofMembers_eq_ok_iff, fun items es hlisted hitems => ?_, fun c _ => ?_⟩
  · rw [ofMembers_of_describes hlisted hitems]
    refine ⟨?_, fun f => ofEntries_eq_error_iff⟩
    rw [exists_ofEntries_eq_error_iff, Item.sound_iff hitems, not_not]
  · exact ⟨c.sound_entries, fun id => ⟨fun _ _ => lookUp_eq_ok_iff, fun _ _ => lookUp_eq_error_iff,
      fun _ => findAny?_eq_some_iff, findAny?_eq_none_iff⟩⟩

/-- An object that lists a module and an agent of one id. -/
def namesakes : Json.Members :=
  [("modules", .arr [.obj [("id", .str "plan"), ("behavior", .obj [("type", .str "trigger")])]]),
    ("agents", .arr [.obj [("kind", .str "module"), ("id", .str "plan"), ("behavior", .null)]])]

/-- The agent of the id. -/
def planner : Entry := { id := "plan", kind := .agent }

/-- The module of the id. -/
def planning : Entry := { id := "plan", kind := .module, behavior := some (.trigger none) }

/-- The agent is listed and found before the module, whatever kind it gives itself; listed once
more, it is refused. -/
theorem namesakes_found :
    (∃ c, ofMembers namesakes = .ok c ∧ c.entries = [planner, planning] ∧
      c.findAny? "plan" = some planner ∧ lookUp c .module "plan" = .ok planning ∧
      lookUp c .agent "code" = .error (.unknown "agent" "code")) ∧
    ofMembers [("agents", .arr [.obj [("id", .str "plan")], .obj [("id", .str "plan")]])] =
      .error (.duplicate .agent "plan") := by
  refine ⟨?_, ?_⟩
  · have hitems : List.Forall₂ Item.Describes
        [⟨.agent, .obj [("kind", .str "module"), ("id", .str "plan"), ("behavior", .null)]⟩,
          ⟨.module, .obj [("id", .str "plan"), ("behavior", .obj [("type", .str "trigger")])]⟩]
        [planner, planning] :=
      .cons (Item.describes_iff.mpr (by decide +kernel))
        (.cons (Item.describes_iff.mpr (by decide +kernel)) .nil)
    have hsound : Sound [planner, planning] := ⟨by decide, by decide⟩
    obtain ⟨haccepted, -, hfound⟩ := lists_and_finds namesakes
    have hok := (haccepted ⟨_, hsound.nodup, hsound.plain⟩).mpr
      ⟨_, ⟨_, _, rfl, rfl, rfl⟩, hitems, (Item.sound_iff hitems).mp hsound⟩
    obtain ⟨-, hfind⟩ := hfound _ hok
    obtain ⟨hget, -, hany, -⟩ := hfind "plan"
    obtain ⟨-, hunknown, -⟩ := hfind "code"
    have hnone : ∀ e ∈ [planner, planning], ¬(e.kind = .agent ∧ e.id = "code") := by decide
    refine ⟨_, hok, rfl, ?_, ?_, ?_⟩
    · exact (hany planner).mpr ⟨List.mem_cons_self .., rfl, .inl rfl⟩
    · exact (hget .module planning).mpr
        ⟨List.mem_cons_of_mem _ (List.mem_cons_self ..), rfl, rfl⟩
    · exact (hunknown .agent _).mpr ⟨rfl, hnone⟩
  · obtain ⟨-, hrefused, -⟩ := lists_and_finds
      [("agents", .arr [.obj [("id", .str "plan")], .obj [("id", .str "plan")]])]
    have hitem : Item.Describes ⟨.agent, .obj [("id", .str "plan")]⟩ planner :=
      Item.describes_iff.mpr (by decide +kernel)
    obtain ⟨-, hfault⟩ := hrefused _ _ ⟨_, _, rfl, rfl, rfl⟩ (.cons hitem (.cons hitem .nil))
    exact (hfault _).mpr ⟨[planner], planner, [], rfl, ⟨by decide, by decide⟩,
      .duplicate (List.mem_singleton.mpr rfl)⟩

end Catalog

end Conductor
