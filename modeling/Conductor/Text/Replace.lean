/-!
# Replacing parts of a text

Every occurrence of a part, found from left to right and not overlapping, gives way to another text.
-/

namespace Conductor.Text

/-- Replaces a part that starts with `p`; the characters of an occurrence that has just been
replaced are passed over, `skip` of them being left. -/
def replaceAfter (p : Char) (part image : List Char) : (skip : Nat) → List Char → List Char
  | _, [] => []
  | 0, c :: cs =>
    if (p :: part).isPrefixOf (c :: cs) then image ++ replaceAfter p part image part.length cs
    else c :: replaceAfter p part image 0 cs
  | n + 1, _ :: cs => replaceAfter p part image n cs

/-- Replaces every occurrence of a part, which must not be empty. -/
def replace (part image s : List Char) : List Char :=
  match part with
  | [] => s
  | p :: ps => replaceAfter p ps image 0 s

/-- A text without the part changes nothing. -/
theorem replaceAfter_of_not_mem {p : Char} {part image s : List Char} (h : p ∉ s) :
    replaceAfter p part image 0 s = s := by
  induction s with
  | nil => rfl
  | cons c cs ih =>
    have hc : p ≠ c := fun e => h (e ▸ List.mem_cons_self ..)
    have hcs : p ∉ cs := fun hm => h (List.mem_cons_of_mem _ hm)
    rw [replaceAfter, if_neg (by simp [List.isPrefixOf, hc]), ih hcs]

end Conductor.Text
