import Conductor.Cursor

/-!
# The transitions of the cursor

What each transition does to the position, the counters, the hot loop and the queue.  Counters of
different positions never meet, whatever the ids contain (`loopKey_injective`): the part of a key
behind its last colon is the position.
-/

namespace Conductor.Cursor

variable {c : Cursor}

/-! ### Keys -/

/-- Behind the last mark nothing is lost. -/
theorem eq_of_append_cons {α : Type} {x : α} {as bs cs ds : List α}
    (h : as ++ x :: cs = bs ++ x :: ds) (hc : x ∉ cs) (hd : x ∉ ds) : cs = ds := by
  rcases List.append_eq_append_iff.mp h with ⟨es, _, he⟩ | ⟨es, _, he⟩
  · cases es with
    | nil => exact (List.cons.inj he).2
    | cons e es =>
      refine absurd ?_ hc
      rw [(List.cons.inj he).2]
      simp
  · cases es with
    | nil => exact (List.cons.inj he).2.symm
    | cons e es =>
      refine absurd ?_ hd
      rw [(List.cons.inj he).2]
      simp

theorem toDigits_injective {m n : Nat} (h : Nat.toDigits 10 m = Nat.toDigits 10 n) : m = n := by
  have hm := Nat.ofDigitChars_ten_toDigits (n := m)
  rwa [h, Nat.ofDigitChars_ten_toDigits, eq_comm] at hm

theorem colon_not_mem_toDigits (n : Nat) : ':' ∉ Nat.toDigits 10 n := by
  intro h
  have := Nat.isDigit_of_mem_toDigits (by decide) (by decide) h
  exact absurd this (by decide)

theorem toList_loopKey (step : Step) (index : Nat) :
    (loopKey step index).toList = step.loopId.toList ++ ':' :: Nat.toDigits 10 index := by
  unfold loopKey
  simp [toString, Int.repr]

/-- Keys of different positions are different. -/
theorem loopKey_injective {step other : Step} {i j : Nat}
    (h : loopKey step i = loopKey other j) : i = j := by
  have hl := congrArg String.toList h
  rw [toList_loopKey, toList_loopKey] at hl
  exact toDigits_injective
    (eq_of_append_cons hl (colon_not_mem_toDigits i) (colon_not_mem_toDigits j))

theorem loopKey_ne {step other : Step} {i j : Nat} (h : i ≠ j) :
    loopKey step i ≠ loopKey other j :=
  fun he => h (loopKey_injective he)

/-! ### Counters -/

theorem iterations_setCounter_of_ne (c : Cursor) {key other : String} (n : Int)
    (h : other ≠ key) : (c.setCounter key n).iterations other = c.iterations other := by
  have hne : (key == other) = false := by simpa using fun e => h e.symm
  have hfind : ∀ l : List (String × Int),
      (l.filter (·.1 != key)).find? (·.1 == other) = l.find? (·.1 == other) := by
    intro l
    rw [List.find?_filter]
    congr 1
    funext e
    by_cases he : e.1 = other
    · simp [he, h]
    · simp [he]
  unfold iterations setCounter
  rw [List.find?_cons]
  simp only [hne, hfind]

theorem iterations_loopBack_self (c : Cursor) (d : LoopDecision) (key : String) :
    (c.loopBack d key).iterations key = c.iterations key + 1 :=
  iterations_setCounter_self ..

theorem iterations_loopBack_of_ne (c : Cursor) (d : LoopDecision) {key other : String}
    (h : other ≠ key) : (c.loopBack d key).iterations other = c.iterations other :=
  iterations_setCounter_of_ne c _ h

theorem iterations_endLoop_self (c : Cursor) (key : String) : (c.endLoop key).iterations key = 0 :=
  iterations_setCounter_self ..

theorem iterations_endLoop_of_ne (c : Cursor) {key other : String} (h : other ≠ key) :
    (c.endLoop key).iterations other = c.iterations other :=
  iterations_setCounter_of_ne c _ h

/-- No counter is below zero. -/
def Counted (c : Cursor) : Prop := ∀ key, 0 ≤ c.iterations key

theorem counted_initial (completed notCompleted : List Int) :
    (initial completed notCompleted).Counted := fun _ => Int.le_refl 0

theorem Counted.loopBack (h : c.Counted) (d : LoopDecision) (key : String) :
    (c.loopBack d key).Counted := by
  intro other
  by_cases he : other = key
  · subst he
    rw [iterations_loopBack_self]
    have := h other
    omega
  · rw [iterations_loopBack_of_ne c d he]
    exact h other

theorem Counted.endLoop (h : c.Counted) (key : String) : (c.endLoop key).Counted := by
  intro other
  by_cases he : other = key
  · subst he
    exact Int.le_of_eq (iterations_endLoop_self c other).symm
  · rw [iterations_endLoop_of_ne c he]
    exact h other

/-! ### Queue and position -/

/-- The only id at work is taken out. -/
theorem eraseAll_singleton (id : String) : eraseAll [id] id = [] := by
  simp [eraseAll]

theorem pop_eq_some {c' : Cursor} {id : String} (h : c.pop = (c', some id)) :
    ∃ rest, c.pending = id :: rest ∧
      c' = { c with pending := rest, inFlight := insertNew c.inFlight id } := by
  unfold pop at h
  split at h
  · cases h
  · next hp =>
    cases h
    exact ⟨_, hp, rfl⟩

/-- A loop steps back to a position no further than its own. -/
theorem index_loopBack_le (c : Cursor) {d : LoopDecision} (key : String) (h : 0 ≤ d.stepsBack) :
    (c.loopBack d key).index ≤ c.index := by
  show ((c.index : Int) - d.stepsBack).toNat ≤ c.index
  omega

end Conductor.Cursor
