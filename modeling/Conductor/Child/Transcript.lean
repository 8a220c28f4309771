import Conductor.Run.Engine
import Conductor.Text.Utf8

/-!
# What is read from a child

A child process writes bytes to two streams, which are read in portions until each of them is
closed. Every stream is decoded on its own and portion by portion: the bytes of a character that is
not complete yet are kept back. Main statement: what is passed on of a stream depends on that
stream's portions alone.
-/

namespace Conductor.Child

open Text

/-- Something read from a child: a portion of a stream, or the end of one. -/
inductive Read where
  | portion (stream : Stream) (bytes : List UInt8)
  | closed (stream : Stream)
  deriving DecidableEq, Repr, Inhabited

/-- The bytes of each stream that are kept back. -/
structure Kept where
  output : List UInt8 := []
  errors : List UInt8 := []
  deriving DecidableEq, Repr, Inhabited

namespace Kept

/-- The bytes kept back of a stream. -/
def of (k : Kept) : Stream → List UInt8
  | .output => k.output
  | .errors => k.errors

/-- Keeps back other bytes of a stream. -/
def set (k : Kept) (stream : Stream) (bytes : List UInt8) : Kept :=
  match stream with
  | .output => { k with output := bytes }
  | .errors => { k with errors := bytes }

@[simp]
theorem of_set_self (k : Kept) (s : Stream) (bytes : List UInt8) :
    (k.set s bytes).of s = bytes := by
  cases s <;> rfl

theorem of_set_of_ne (k : Kept) {s t : Stream} (h : t ≠ s) (bytes : List UInt8) :
    (k.set s bytes).of t = k.of t := by
  cases s <;> cases t <;> simp_all [of, set]

end Kept

/-- The text that one read passes on, and the bytes kept back after it. -/
def decode (k : Kept) : Read → (Stream × List Char) × Kept
  | .portion s bytes => ((s, (Utf8.feed (k.of s) bytes).1), k.set s (Utf8.feed (k.of s) bytes).2)
  | .closed s => ((s, Utf8.decodeLossy (k.of s)), k.set s [])

/-- The texts that reads pass on, the empty ones left out. -/
def chunks (k : Kept) : List Read → List (Stream × List Char)
  | [] => []
  | r :: rs =>
    let (chunk, k) := decode k r
    if chunk.2.isEmpty then chunks k rs else chunk :: chunks k rs

/-- The text of a stream: all its chunks in one. -/
def textOn (s : Stream) (cs : List (Stream × List Char)) : List Char :=
  (cs.filter (·.1 == s)).flatMap (·.2)

/-- The stream of a read. -/
def Read.stream : Read → Stream
  | portion s _ => s
  | closed s => s

theorem decode_congr {k l : Kept} {r : Read} (h : k.of r.stream = l.of r.stream) :
    (decode k r).1 = (decode l r).1 ∧
      (decode k r).2.of r.stream = (decode l r).2.of r.stream := by
  cases r <;> simp_all [decode, Read.stream]

theorem of_decode_of_ne (k : Kept) {r : Read} {s : Stream} (h : s ≠ r.stream) :
    (decode k r).2.of s = k.of s := by
  cases r <;> exact Kept.of_set_of_ne k h _

/-- What is passed on of a stream depends on that stream's reads alone. -/
theorem textOn_chunks (s : Stream) (rs : List Read) (k : Kept) :
    textOn s (chunks k rs) = textOn s (chunks k (rs.filter (·.stream == s))) := by
  suffices h : ∀ l : Kept, k.of s = l.of s →
      textOn s (chunks k rs) = textOn s (chunks l (rs.filter (·.stream == s))) from h k rfl
  induction rs generalizing k with
  | nil => intro l _; rfl
  | cons r rs ih =>
    intro l hl
    have hstream : (decode k r).1.1 = r.stream := by cases r <;> rfl
    by_cases hr : r.stream = s
    · subst hr
      have hd := decode_congr hl
      have hrest := ih _ _ hd.2
      simp only [List.filter_cons, beq_self_eq_true, if_true, chunks, hd.1]
      split
      · exact hrest
      · simp only [textOn, List.filter_cons] at hrest ⊢
        split <;> simp_all
    · have hkeep : (decode k r).2.of s = l.of s := by
        rw [of_decode_of_ne k (Ne.symm hr), hl]
      have hrest := ih _ _ hkeep
      have hs : (r.stream == s) = false := by simpa using hr
      simp only [List.filter_cons, hs, chunks]
      split
      · simpa using hrest
      · simp only [textOn, List.filter_cons, hstream, hs] at hrest ⊢
        simpa using hrest

end Conductor.Child
