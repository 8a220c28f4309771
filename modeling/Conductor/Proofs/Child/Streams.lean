import Conductor.Child.Engine
import Conductor.Proofs.Action
import Conductor.Proofs.Text.Utf8
import Conductor.Shell.Spawn

/-!
# What a child writes and what is made of it

A stream of a child that ends by itself is read to its end, whatever is read of the other one in
between (`ReadToEnd`); so it is where the child is a shell or a utility (`readToEnd_of_exited`).
What is passed on of the stream is then the text of all its bytes (`textOn_chunks_eq`), since
portions pass on the text of their bytes wherever these are cut.

Main statement: of a child that ends well, what is passed on of each stream is the text of the bytes
of that stream, the answer is the normal form of the text of its output, and the errors are the text
of its errors (`streams_as_written`).
-/

namespace Conductor.Child

open Text

variable {s : Stream} {rs : List Read} {k : Kept} {portions : List (List UInt8)}

/-! ### Reading a stream to its end -/

/-- The bytes that are read of a stream. -/
def bytesOn (s : Stream) : List Read → List UInt8
  | [] => []
  | .portion t bytes :: rs => if t = s then bytes ++ bytesOn s rs else bytesOn s rs
  | .closed _ :: rs => bytesOn s rs

/-- Whether something was read that is not the end of a stream. -/
def Read.IsPortion (r : Read) : Prop := ∃ s bytes, r = .portion s bytes

/-- Portions of a stream are read and then its end, and nothing of it behind that. -/
def ReadToEnd (s : Stream) (rs : List Read) : Prop :=
  ∃ portions : List (List UInt8),
    rs.filter (·.stream == s) = portions.map (Read.portion s) ++ [.closed s]

theorem bytesOn_filter (s : Stream) (rs : List Read) :
    bytesOn s (rs.filter (·.stream == s)) = bytesOn s rs := by
  induction rs with
  | nil => rfl
  | cons r rs ih =>
    rw [List.filter_cons]
    cases r with
    | portion t bytes =>
      by_cases ht : t = s
      · rw [if_pos (by simpa [Read.stream] using ht), bytesOn, bytesOn, if_pos ht, if_pos ht, ih]
      · rw [if_neg (by simpa [Read.stream] using ht), bytesOn, if_neg ht, ih]
    | closed t =>
      split
      · rw [bytesOn, bytesOn, ih]
      · rw [bytesOn, ih]

theorem bytesOn_portions (s : Stream) (portions : List (List UInt8)) :
    bytesOn s (portions.map (Read.portion s) ++ [.closed s]) = portions.flatten := by
  induction portions with
  | nil => rfl
  | cons portion portions ih =>
    rw [List.map_cons, List.cons_append, bytesOn, if_pos rfl, ih, List.flatten_cons]

/-- What is passed on of a stream, one read after the other. -/
theorem textOn_chunks_cons (s : Stream) (k : Kept) (r : Read) (rs : List Read) :
    textOn s (chunks k (r :: rs)) =
      (if r.stream = s then (decode k r).1.2 else []) ++ textOn s (chunks (decode k r).2 rs) := by
  have hstream : (decode k r).1.1 = r.stream := by cases r <;> rfl
  rw [chunks]
  dsimp only
  split
  · next hempty =>
    -- An empty chunk is left out, and the text has nothing of it either.
    rw [List.isEmpty_iff.mp hempty, ite_self, List.nil_append]
  · unfold textOn
    rw [List.filter_cons, hstream]
    by_cases hr : r.stream = s
    · rw [if_pos (by simpa using hr), if_pos hr, List.flatMap_cons]
    · rw [if_neg (by simpa using hr), if_neg hr, List.nil_append]

/-- The portions of a stream alone pass on what an incremental reading of them does. -/
theorem textOn_chunks_portions (s : Stream) (k : Kept) (portions : List (List UInt8)) :
    textOn s (chunks k (portions.map (Read.portion s) ++ [.closed s])) =
      (Utf8.feedAll (k.of s) portions).flatten := by
  induction portions generalizing k with
  | nil =>
    have hstream : (Read.closed s).stream = s := rfl
    rw [List.map_nil, List.nil_append, textOn_chunks_cons, if_pos hstream, Utf8.feedAll,
      List.flatten_singleton]
    exact List.append_nil _
  | cons portion portions ih =>
    have hstream : (Read.portion s portion).stream = s := rfl
    rw [List.map_cons, List.cons_append, textOn_chunks_cons, if_pos hstream, ih, Utf8.feedAll,
      List.flatten_cons]
    show _ ++ (Utf8.feedAll ((k.set s _).of s) portions).flatten = _
    rw [Kept.of_set_self]
    rfl

/-- What is passed on of a stream that is read to its end is the text of its bytes. -/
theorem textOn_chunks_eq (h : ReadToEnd s rs) :
    textOn s (chunks {} rs) = Utf8.decodeLossy (bytesOn s rs) := by
  obtain ⟨portions, hrs⟩ := h
  -- What is read of the other stream in between makes no difference, so it may be left out.
  rw [textOn_chunks, ← bytesOn_filter, hrs, textOn_chunks_portions, bytesOn_portions,
    Utf8.flatten_feedAll]
  cases s <;> rfl

/-- Of portions, those of one stream are what was read of it. -/
theorem exists_portions (h : ∀ r ∈ rs, r.IsPortion) (s : Stream) :
    ∃ portions : List (List UInt8), rs.filter (·.stream == s) = portions.map (Read.portion s) := by
  induction rs with
  | nil => exact ⟨[], rfl⟩
  | cons r rs ih =>
    obtain ⟨portions, hrs⟩ := ih fun r hr => h r (List.mem_cons_of_mem _ hr)
    obtain ⟨t, bytes, rfl⟩ := h r List.mem_cons_self
    rw [List.filter_cons, hrs]
    split
    · next ht =>
      obtain rfl : t = s := by simpa [Read.stream] using ht
      exact ⟨bytes :: portions, rfl⟩
    · exact ⟨portions, rfl⟩

/-- Portions of both streams and then their ends are both streams read to their ends. -/
theorem readToEnd_of_portions (h : ∀ r ∈ rs, r.IsPortion) (s : Stream) :
    ReadToEnd s (rs ++ [.closed .output, .closed .errors]) := by
  obtain ⟨portions, hrs⟩ := exists_portions h s
  refine ⟨portions, ?_⟩
  rw [List.filter_append, hrs]
  cases s <;> rfl

/-! ### Calls -/

/-- What a reply passes on of a stream, all in one. -/
def streamed {α : Type} (r : Reply α) (s : Stream) : String :=
  String.ofList ((r.chunks.filter (·.1 == s)).flatMap (·.2.toList))

/-- A call starts a child that does what a transcript tells. -/
structure Agents.Starts (a : Agents) (w : World) (call : Invocation) (argv : List String)
    (t : Transcript) : Prop where
  command : a.commandOf call = .ok argv
  fits : (a.launch w call argv).check = .ok ()
  spawned : a.spawn (a.launch w call argv) = .ok t
  begun : w.cancelled = false

variable {a : Agents} {w : World} {call : Invocation} {argv : List String} {t : Transcript}

theorem Agents.Starts.chunks_eq (h : a.Starts w call argv t) :
    (a.invoke w call).chunks = (chunks {} t.reads).map fun c => (c.1, String.ofList c.2) := by
  unfold Agents.invoke Agents.follow
  rw [h.begun, if_neg Bool.false_ne_true, h.command]
  dsimp only
  rw [h.fits]
  dsimp only
  rw [h.spawned]

theorem Agents.Starts.result_eq (h : a.Starts w call argv t) :
    (a.invoke w call).result =
      conclude call (comesFirst a.cancelAfter (timeLimit call.timeout)) t (chunks {} t.reads) := by
  unfold Agents.invoke Agents.follow
  rw [h.begun, if_neg Bool.false_ne_true, h.command]
  dsimp only
  rw [h.fits]
  dsimp only
  rw [h.spawned]

theorem Agents.Starts.streamed_eq (h : a.Starts w call argv t) (s : Stream) :
    streamed (a.invoke w call) s = String.ofList (textOn s (chunks {} t.reads)) := by
  unfold streamed textOn
  rw [h.chunks_eq, List.filter_map, List.flatMap_map]
  simp only [String.toList_ofList]
  rfl

/-- Of a child that ends well, what is passed on of each stream is the text of the bytes of that
stream, with replacement characters for those that begin none, wherever they were cut when they were
read and whatever was read of the other stream in between.  The answer and the errors are made of
the same texts. -/
theorem streams_as_written (h : a.Starts w call argv t) (hending : t.ending = .exited 0)
    (hread : ∀ s, ReadToEnd s t.reads) :
    (∀ s, streamed (a.invoke w call) s =
      String.ofList (Utf8.decodeLossy (bytesOn s t.reads))) ∧
    (a.invoke w call).result = .ok {
      text := Output.normal (String.ofList (Utf8.decodeLossy (bytesOn .output t.reads)))
      errors := String.ofList (Utf8.decodeLossy (bytesOn .errors t.reads))
      exitCode := 0 } := by
  refine ⟨fun s => ?_, ?_⟩
  · rw [h.streamed_eq, textOn_chunks_eq (hread s)]
  · rw [h.result_eq, ← textOn_chunks_eq (hread .output), ← textOn_chunks_eq (hread .errors)]
    unfold conclude
    rw [hending]
    rfl

/-- Agents that write to both streams in turns. A character of the output is cut in two when it is
read, and the one of the errors never comes to its end. -/
def stammerers : Agents where
  command := ({} : Settings).command
  spawn := fun l => .ok {
    reads :=
      [.portion .output [0x61, 0xC3], .portion .errors [0xE2, 0x82], .portion .output [0xA9],
        .closed .errors, .closed .output]
    ending := .exited 0
    store := l.store }

/-- A place where nothing is. -/
def emptyRoom : World := { store := { entries := [], clock := 0 }, cwd := ⟨.slash, []⟩ }

/-- A call of an agent that stammers. -/
def stammererCall : Invocation := { agentId := "plan", prompt := "", workingDir := ⟨.slash, []⟩ }

theorem stammered_as_written :
    streamed (stammerers.invoke emptyRoom stammererCall) .output = "aé" ∧
      streamed (stammerers.invoke emptyRoom stammererCall) .errors = "\uFFFD" ∧
      (stammerers.invoke emptyRoom stammererCall).result =
        .ok { text := "aé", errors := "\uFFFD", exitCode := 0 } := by
  have hread : ∀ s, ReadToEnd s
      [.portion .output [0x61, 0xC3], .portion .errors [0xE2, 0x82], .portion .output [0xA9],
        .closed .errors, .closed .output]
    | .output => ⟨[[0x61, 0xC3], [0xA9]], rfl⟩
    | .errors => ⟨[[0xE2, 0x82]], rfl⟩
  have hstarts : stammerers.Starts emptyRoom stammererCall
      ["codex", "exec", "--profile", "plan", "-C", "/"] _ :=
    ⟨Act.eq_ok_of_toOption (by decide +kernel), rfl, rfl, rfl⟩
  obtain ⟨hstreams, hresult⟩ := streams_as_written hstarts rfl hread
  refine ⟨(hstreams .output).trans ?_, (hstreams .errors).trans ?_,
    hresult.trans (congrArg Except.ok ?_)⟩ <;>
    decide +kernel

end Conductor.Child

namespace Conductor.Shell

open Child Process

theorem isPortion_of_mem_readsUntil {m : Machine} {limit : Option Nat} {r : Read}
    (h : r ∈ m.readsUntil limit) : r.IsPortion := by
  unfold Machine.readsUntil at h
  obtain ⟨b, -, hr⟩ := List.mem_flatMap.mp h
  unfold Machine.burstReads at hr
  rcases List.mem_append.mp hr with hr | hr <;>
    obtain ⟨bytes, -, rfl⟩ := List.mem_map.mp hr <;>
    exact ⟨_, bytes, rfl⟩

/-- What tells of a process that ended by itself tells of all that it wrote. -/
theorem reads_transcriptOf {result : Except Flow Unit} {p : Process} {code : Int}
    (h : (transcriptOf result p).ending = .exited code) :
    (transcriptOf result p).reads =
      p.machine.readsUntil none ++ [.closed .output, .closed .errors] := by
  revert h
  unfold transcriptOf
  dsimp only
  split
  · exact nofun
  · split
    · exact nofun
    · split <;> exact fun _ => rfl

/-- A child that is a shell or a utility and ends by itself is read to the end of both streams. -/
theorem readToEnd_of_exited {l : Launch} {t : Transcript} {code : Int} (h : spawn l = .ok t)
    (hending : t.ending = .exited code) (s : Stream) : ReadToEnd s t.reads := by
  unfold spawn at h
  cases hdir : checkDirectory l.store l.cwd l.dir with
  | error e =>
    rw [hdir] at h
    cases h
  | ok =>
    cases hprogram : findChild (processOf l) (l.argv.headD "") with
    | error e =>
      simp only [hdir, hprogram, bind, Except.bind] at h
      cases h
    | ok program =>
      simp only [hdir, hprogram, bind, Except.bind] at h
      split at h
      · -- A child without any time is overdue.
        cases h
        cases hending
      · cases h
        rw [reads_transcriptOf hending]
        exact readToEnd_of_portions (fun r => isPortion_of_mem_readsUntil) s

end Conductor.Shell
