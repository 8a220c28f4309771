import Conductor.Json.Basic
import Conductor.Schema.Issue

/-!
# The catalog of agents and modules

A catalog holds entries of two kinds, looked up by kind and id. Two things hold of every catalog by
its type: no two entries share kind and id, and no agent has a behavior. Main statements: looking up
finds exactly the entries that are there.
-/

namespace Conductor

open Number

/-- Agents are called; modules are agents with a behavior of their own. -/
inductive EntryKind where
  | agent
  | module
  deriving DecidableEq, Repr, Inhabited

namespace EntryKind

/-- The word for a kind. -/
def word : EntryKind → String
  | agent => "agent"
  | module => "module"

/-- The word for a kind at the start of a sentence. -/
def title : EntryKind → String
  | agent => "Agent"
  | module => "Module"

/-- The kinds by their words. -/
def byWord : List (String × EntryKind) := [("agent", agent), ("module", module)]

end EntryKind

/-- How hard a model is to think. -/
inductive Effort where
  | low
  | medium
  | high
  deriving DecidableEq, Repr, Inhabited

namespace Effort

/-- The word for an effort. -/
def word : Effort → String
  | low => "low"
  | medium => "medium"
  | high => "high"

/-- The efforts by their words. -/
def byWord : List (String × Effort) := [("low", low), ("medium", medium), ("high", high)]

end Effort

/-- The behavior a module declares; its numbers are still unchecked. -/
inductive DeclaredBehavior where
  | loop (steps : Option Binary64) (trigger : Option String) (maxIterations : Option Binary64)
      (skip : List String)
  | trigger (target : Option String)
  deriving Repr, DecidableEq, Inhabited

/-- An entry of a catalog. -/
structure Entry where
  id : String
  kind : EntryKind
  name : Option String := none
  description : Option String := none
  promptPath : Option String := none
  model : Option String := none
  effort : Option Effort := none
  engine : Option String := none
  behavior : Option DeclaredBehavior := none
  deriving Repr, DecidableEq, Inhabited

/-- What entries are told apart by. -/
def Entry.key (e : Entry) : EntryKind × String := (e.kind, e.id)

/-- The entries of a catalog in order. -/
structure Catalog where
  entries : List Entry
  nodup : (entries.map Entry.key).Nodup
  plain : ∀ e ∈ entries, e.kind = .agent → e.behavior = none

/-- What makes a catalog unusable. -/
inductive CatalogFault where
  | notFound (path : String)
  | malformed (path message : String)
  | notObject (path : String)
  | invalidEntry (issues : List Schema.Issue)
  | notObjects (message : String)
  | duplicate (kind : EntryKind) (id : String)
  | agentBehavior (id : String)
  deriving DecidableEq, Repr

/-- What is wrong with the catalog. -/
def CatalogFault.message : CatalogFault → String
  | notFound path => s!"Catalog file not found: {path}"
  | malformed path message => s!"Catalog file is not valid JSON: {path}: {message}"
  | notObject path => s!"Catalog file must contain a JSON object: {path}"
  | invalidEntry issues => "Invalid catalog entry: " ++ Schema.issuesMessage "CatalogEntry" issues
  | notObjects message => s!"Catalog entries must be objects: {message}"
  | duplicate kind id => s!"Duplicate {kind.word} id in catalog: {id}"
  | agentBehavior id => s!"Agent '{id}' declares a behavior; behaviors belong to modules"

namespace Catalog

/-- The catalog without entries. -/
def empty : Catalog := ⟨[], List.nodup_nil, fun _ h => nomatch h⟩

instance : Inhabited Catalog := ⟨empty⟩

/-- Adds an entry at the end. -/
def add (c : Catalog) (e : Entry) : Except CatalogFault Catalog :=
  if hk : e.key ∈ c.entries.map Entry.key then .error (.duplicate e.kind e.id)
  else if hb : e.kind = .agent ∧ e.behavior ≠ none then .error (.agentBehavior e.id)
  else .ok {
    entries := c.entries ++ [e]
    nodup := by
      rw [List.map_append, List.nodup_append]
      refine ⟨c.nodup, by simp, ?_⟩
      intro a ha b hb' hab
      simp only [List.map_cons, List.map_nil, List.mem_singleton] at hb'
      subst hb' hab
      exact hk ha
    plain := by
      intro x hx hxa
      rcases List.mem_append.mp hx with hx | hx
      · exact c.plain x hx hxa
      · have : x = e := by simpa using hx
        subst this
        cases hxb : x.behavior with
        | none => rfl
        | some b => exact absurd ⟨hxa, by simp [hxb]⟩ hb }

/-- The catalog of some entries in order. -/
def ofEntries (entries : List Entry) : Except CatalogFault Catalog := entries.foldlM add empty

/-- The entry of a kind and id. -/
def find? (c : Catalog) (kind : EntryKind) (id : String) : Option Entry :=
  c.entries.find? fun e => e.kind == kind && e.id == id

/-- The agent of an id, else the module. -/
def findAny? (c : Catalog) (id : String) : Option Entry :=
  (c.find? .agent id).or (c.find? .module id)

/-- The ids of a kind in order. -/
def ids (c : Catalog) (kind : EntryKind) : List String :=
  (c.entries.filter (·.kind == kind)).map (·.id)

theorem find?_some {c : Catalog} {kind : EntryKind} {id : String} {e : Entry}
    (h : c.find? kind id = some e) : e ∈ c.entries ∧ e.kind = kind ∧ e.id = id := by
  have hm := List.mem_of_find?_eq_some h
  have hp := List.find?_some h
  simp only [Bool.and_eq_true, beq_iff_eq] at hp
  exact ⟨hm, hp⟩

theorem find?_eq_none_iff {c : Catalog} {kind : EntryKind} {id : String} :
    c.find? kind id = none ↔ ∀ e ∈ c.entries, ¬(e.kind = kind ∧ e.id = id) := by
  simp [find?, List.find?_eq_none]

end Catalog

end Conductor
