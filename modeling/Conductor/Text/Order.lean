/-!
# The order of texts

Texts are ordered by their characters' code points. Main statement: sorting a set of texts keeps its
members.
-/

namespace Conductor.Text

/-- Whether a text comes before another one or is the same. -/
def textLe (a b : String) : Bool := decide (¬ b.toList < a.toList)

/-- The texts in increasing order. -/
def sortTexts (xs : List String) : List String := xs.mergeSort textLe

/-- The texts in increasing order, each once. -/
def sortedSet (xs : List String) : List String := sortTexts xs.eraseDups

theorem mem_sortTexts {xs : List String} {x : String} : x ∈ sortTexts xs ↔ x ∈ xs :=
  (List.mergeSort_perm xs textLe).mem_iff

theorem mem_sortedSet {xs : List String} {x : String} : x ∈ sortedSet xs ↔ x ∈ xs := by
  simp [sortedSet, mem_sortTexts, List.mem_eraseDups]

end Conductor.Text
