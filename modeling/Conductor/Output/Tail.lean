import Conductor.Text.Lines

/-!
# The last lines of an output

Keeping the end of an output: the last lines between line feeds, so that a final line feed counts as
one empty line of its own.
-/

namespace Conductor.Output

open Text

/-- Keeps the last `tail` lines, and says which limit cut something off. Zero limits nothing; a
negative limit `-k` drops the first `k` lines. -/
def keepTail (output : String) (tail : Option Int) : String × Option Int :=
  match tail with
  | none => (output, none)
  | some n =>
    let ls := lines output.toList
    if n = 0 then (output, none)
    else if (ls.length : Int) ≤ n then (output, none)
    else
      let kept := if 0 < n then ls.drop (ls.length - n.toNat) else ls.drop n.natAbs
      (String.ofList (joinLines kept), some n)

end Conductor.Output
