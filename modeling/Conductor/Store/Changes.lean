import Conductor.Store.Basic

/-!
# Changes of a store

Where two stores differ: the places at which something new stands, and those at which nothing stands
any more. Main statements: a place that was neither written nor removed holds what it held before.
-/

namespace Conductor.Store

/-- What stands in the later store where something else or nothing stood before. -/
def written (before after : Store) : List (Place × Node) :=
  after.entries.filter fun e => before.at? e.1 != some e.2

/-- Where nothing stands any more. -/
def removed (before after : Store) : List Place :=
  (before.entries.map (·.1)).filter fun place => (after.at? place).isNone

theorem mem_entries_of_at? {s : Store} {place : Place} {node : Node} (hp : place ≠ [])
    (h : s.at? place = some node) : (place, node) ∈ s.entries := by
  simp only [at?, hp, if_false, Option.map_eq_some_iff] at h
  obtain ⟨e, he, rfl⟩ := h
  have hk : e.1 = place := by simpa using List.find?_some he
  exact hk ▸ List.mem_of_find?_eq_some he

/-- What stands where nothing was written stood there before. -/
theorem at?_of_not_mem_written {before after : Store} {place : Place} {node : Node}
    (h : after.at? place = some node) (hw : (place, node) ∉ written before after) :
    before.at? place = some node := by
  by_cases hp : place = []
  · subst hp
    simpa [at?] using h
  · have hm := mem_entries_of_at? hp h
    simpa [written, hm] using hw

/-- What stood where nothing was removed is not gone. -/
theorem at?_ne_none_of_not_mem_removed {before after : Store} {place : Place} {node : Node}
    (h : before.at? place = some node) (hr : place ∉ removed before after) :
    after.at? place ≠ none := by
  by_cases hp : place = []
  · simp [at?, hp]
  · have hm := mem_entries_of_at? hp h
    intro hn
    exact hr (List.mem_filter.mpr ⟨List.mem_map.mpr ⟨_, hm, rfl⟩, by simp [hn]⟩)

end Conductor.Store
