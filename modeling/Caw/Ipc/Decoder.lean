import Caw.Lib.Machine
import Caw.Lib.Octets

/-!
# Framing of the client socket

Messages are lines. The decoder takes whatever a read produced, however the bytes were split, and
yields whole messages.

* `Decoder`, `Decoder.extend`, `Decoder.next`: the bytes held back, and the next message among them;
* `next_line`, `next_tail`: what `next` does with the first line, and without one;
* `messages`: the results a stream is worth, line by line;
* `Decoder.Op`, `Decoder.step`, `results`: a decoder filled and emptied in any order;
* **`Decoder.decodes_run`**: the results do not depend on how the stream is cut, nor on when the
  decoder is asked; and what it holds back never exceeds its limit.
-/

set_option autoImplicit false

namespace Caw

namespace Ipc

/-- What ends a message. -/
def newline : UInt8 := 0x0a
/-- What may stand before that. -/
def carriageReturn : UInt8 := 0x0d

/-- A blank octet. -/
def isAsciiWhitespace (b : UInt8) : Bool :=
  b = 0x20 ∨ b = 0x09 ∨ b = 0x0a ∨ b = 0x0c ∨ b = 0x0d

/-- What a line can fail with: its JSON, or its length. -/
inductive Error (J : Type) where
  | json (e : J)
  | tooLong

/-- Reassembles messages from arbitrarily chopped-up reads. -/
structure Decoder where
  buf : Bytes
  limit : ℕ

variable {J T : Type} (parse : Bytes → Except J T)

/-- A line without the carriage return it may end in. -/
def trimCr (line : Bytes) : Bytes :=
  if line.getLast? = some carriageReturn then line.dropLast else line

/-- What a line is worth: nothing if it is blank. -/
def message (line : Bytes) : Option (Except (Error J) T) :=
  if (trimCr line).all isAsciiWhitespace then none else some ((parse (trimCr line)).mapError .json)

namespace Decoder

/-- A decoder that holds nothing back yet. -/
def withLimit (limit : ℕ) : Decoder := { buf := [], limit }

/-- Add bytes just read from the socket. -/
def extend (d : Decoder) (chunk : Bytes) : Decoder := { d with buf := d.buf ++ chunk }

/-- Bytes held back waiting for a newline. -/
def pending (d : Decoder) : ℕ := d.buf.length

/-- What is held back is given up. -/
def clear (d : Decoder) : Decoder := { d with buf := [] }

/-- The next complete message, if one has arrived. -/
def next (d : Decoder) : Option (Except (Error J) T) × Decoder :=
  match _h : d.buf.findIdx? (· = newline) with
  | none => if d.limit < d.buf.length then (some (.error .tooLong), d.clear) else (none, d)
  | some end_ =>
    let rest := { d with buf := d.buf.drop (end_ + 1) }
    match message parse (d.buf.take end_) with
    | some result => (some result, rest)
    | none => next rest
termination_by d.buf.length
decreasing_by
  obtain ⟨hlt, -⟩ := List.findIdx?_eq_some_iff_getElem.mp _h
  simp only [List.length_drop]
  omega

/-! ## One call -/

variable {d : Decoder} {line rest : Bytes}

theorem findIdx_newline (h : newline ∉ line) (rest : Bytes) :
    (line ++ newline :: rest).findIdx? (· = newline) = some line.length := by
  have hnone : line.findIdx? (· = newline) = none := by
    rw [List.findIdx?_eq_none_iff]
    intro b hb
    exact decide_eq_false fun heq : b = newline => h (heq ▸ hb)
  rw [List.findIdx?_append, hnone]
  simp [List.findIdx?_cons]

theorem next_line (h : newline ∉ line) (limit : ℕ) :
    next parse { buf := line ++ newline :: rest, limit } =
      match message parse line with
      | some result => (some result, { buf := rest, limit })
      | none => next parse { buf := rest, limit } := by
  rw [next]
  split
  · next hnone =>
    rw [findIdx_newline h] at hnone
    cases hnone
  · next end_ hsome =>
    rw [findIdx_newline h] at hsome
    cases hsome
    rw [List.take_left, ← List.singleton_append, ← List.append_assoc,
      List.drop_left' (by simp)]

/-- Without a newline everything is held back, or given up if it is too long. -/
theorem next_tail (h : newline ∉ d.buf) :
    next parse d =
      if d.limit < d.buf.length then (some (.error .tooLong), d.clear) else (none, d) := by
  rw [next]
  split
  · rfl
  · next end_ hsome =>
    obtain ⟨hlt, hnl, -⟩ := List.findIdx?_eq_some_iff_getElem.mp hsome
    exact absurd (of_decide_eq_true hnl ▸ List.getElem_mem hlt) h

/-- **What is held back never exceeds the limit.** -/
theorem pending_le (h : (next parse d).1 = none) : (next parse d).2.pending ≤ d.limit := by
  fun_induction next parse d with
  | case1 d hnone hlong => cases h
  | case2 d hnone hshort => exact not_lt.mp hshort
  | case3 => cases h
  | case4 d end_ hsome rest hblank ih => exact ih h

end Decoder

/-! ## Streams -/

/-- The lines that are complete, with their newlines. -/
def joined (lines : List Bytes) : Bytes := lines.flatMap (· ++ [newline])

/-- Every line of the stream, and its unfinished tail, fits the limit. -/
def Fits (limit : ℕ) (stream : Bytes) : Prop := ∀ s ∈ stream.splitOn newline, s.length ≤ limit

instance (limit : ℕ) (stream : Bytes) : Decidable (Fits limit stream) :=
  inferInstanceAs (Decidable (∀ s ∈ _, _))

/-- The results a stream is worth: one for each complete line that is not blank. -/
def messages (stream : Bytes) : List (Except (Error J) T) :=
  (stream.splitOn newline).dropLast.filterMap (message parse)

theorem splitOn_joined {lines : List Bytes} (h : ∀ line ∈ lines, newline ∉ line) (tail : Bytes) :
    (joined lines ++ tail).splitOn newline = lines ++ tail.splitOn newline := by
  induction lines with
  | nil => rfl
  | cons line lines ih =>
    have happ : joined (line :: lines) ++ tail = line ++ newline :: (joined lines ++ tail) := by
      simp [joined]
    rw [happ, List.splitOn_append_cons_self_of_not_mem (h line List.mem_cons_self),
      ih fun l hl => h l (List.mem_cons_of_mem _ hl), List.cons_append]

theorem Fits.of_append {limit : ℕ} {a b : Bytes} (h : Fits limit (a ++ b)) : Fits limit a := by
  induction hn : a.length using Nat.strongRecOn generalizing a with
  | ind n ih =>
    by_cases ha : newline ∈ a
    · obtain ⟨line, rest, rfl, hline⟩ := List.eq_append_cons_of_mem ha
      rw [Fits, List.append_assoc, List.cons_append,
        List.splitOn_append_cons_self_of_not_mem hline] at h
      rw [Fits, List.splitOn_append_cons_self_of_not_mem hline]
      intro s hs
      rcases List.mem_cons.mp hs with rfl | hs
      · exact h s List.mem_cons_self
      · have hrest : Fits limit (rest ++ b) := fun t ht => h t (List.mem_cons_of_mem _ ht)
        exact ih rest.length (by simp at hn; omega) hrest rfl s hs
    · rw [Fits, List.splitOn_eq_singleton ha]
      intro s hs
      rw [List.mem_singleton.mp hs]
      by_cases hb : newline ∈ b
      · obtain ⟨line, rest, rfl, hline⟩ := List.eq_append_cons_of_mem hb
        have hfree : newline ∉ a ++ line := fun hmem => (List.mem_append.mp hmem).elim ha hline
        rw [Fits, ← List.append_assoc, List.splitOn_append_cons_self_of_not_mem hfree] at h
        have hlen := h _ List.mem_cons_self
        rw [List.length_append] at hlen
        omega
      · have hfree : newline ∉ a ++ b := fun hmem => (List.mem_append.mp hmem).elim ha hb
        rw [Fits, List.splitOn_eq_singleton hfree] at h
        have hlen := h _ List.mem_cons_self
        rw [List.length_append] at hlen
        omega

namespace Decoder

/-- **One call consumes whole lines, worth what it returns.** Where it returns nothing no newline is
left. -/
theorem next_consumes (d : Decoder) (h : Fits d.limit d.buf) : ∃ lines,
    (∀ line ∈ lines, newline ∉ line) ∧ d.buf = joined lines ++ (next parse d).2.buf ∧
      (next parse d).1.toList = lines.filterMap (message parse) ∧ (next parse d).2.limit = d.limit ∧
      ((next parse d).1 = none → newline ∉ (next parse d).2.buf) := by
  induction hn : d.buf.length using Nat.strongRecOn generalizing d with
  | ind n ih =>
    obtain ⟨buf, limit⟩ := d
    by_cases hnl : newline ∈ buf
    · obtain ⟨line, rest, rfl, hline⟩ := List.eq_append_cons_of_mem hnl
      rw [next_line parse hline]
      have hrest : Fits limit rest := fun s hs => h s (by
        rw [List.splitOn_append_cons_self_of_not_mem hline]
        exact List.mem_cons_of_mem _ hs)
      cases hmsg : message parse line with
      | some result =>
        exact ⟨[line], by simpa using hline, by simp [joined], by simp [hmsg], rfl, nofun⟩
      | none =>
        obtain ⟨lines, hfree, hbuf, hresult, hlimit, hend⟩ :=
          ih rest.length (by simp at hn; omega) { buf := rest, limit } hrest rfl
        refine ⟨line :: lines, ?_, ?_, ?_, hlimit, hend⟩
        · intro l hl
          rcases List.mem_cons.mp hl with rfl | hl
          · exact hline
          · exact hfree l hl
        · calc line ++ newline :: rest
              = line ++ newline :: (joined lines ++ (next parse { buf := rest, limit }).2.buf) :=
                congrArg (fun r => line ++ newline :: r) hbuf
            _ = joined (line :: lines) ++ (next parse { buf := rest, limit }).2.buf := by
                simp [joined]
        · rw [hresult, List.filterMap_cons_none hmsg]
    · have hlast : buf ∈ buf.splitOn newline := by
        rw [List.splitOn_eq_singleton hnl]
        exact List.mem_singleton_self buf
      have hfits : ¬ limit < buf.length := not_lt.mpr (h buf hlast)
      rw [next_tail parse hnl, if_neg hfits]
      exact ⟨[], nofun, rfl, rfl, rfl, fun _ => hnl⟩

/-! ## Runs -/

/-- The decoder is filled, or asked for a message. -/
inductive Op where
  | extend (chunk : Bytes)
  | next

/-- The bytes an operation adds. -/
def Op.chunk : Op → Bytes
  | extend chunk => chunk
  | next => []

/-- One operation on a decoder. -/
def step (d : Decoder) : Op → Decoder × Option (Except (Error J) T)
  | .extend chunk => (d.extend chunk, none)
  | .next => ((next parse d).2, (next parse d).1)

/-- The whole stream, put together again. -/
def stream (ops : List Op) : Bytes := ops.flatMap Op.chunk

/-- The results of a run, in order. -/
def results (limit : ℕ) (ops : List Op) : List (Except (Error J) T) :=
  (Machine.log (step parse) (withLimit limit) ops).filterMap Machine.Entry.output

/-- The decoder a run ends in. -/
def after (limit : ℕ) (ops : List Op) : Decoder := Machine.exec (step parse) (withLimit limit) ops

variable (limit : ℕ) (ops : List Op)

theorem results_concat (op : Op) : results parse limit (ops ++ [op]) =
    results parse limit ops ++ (step parse (after parse limit ops) op).2.toList := by
  rw [results, Machine.log_concat, List.filterMap_append]
  rfl

/-- The lines consumed so far are worth the results so far, and the rest of the stream is held. -/
def Accounted (limit : ℕ) (ops : List Op) : Prop := ∃ lines,
  (∀ line ∈ lines, newline ∉ line) ∧ stream ops = joined lines ++ (after parse limit ops).buf ∧
    results parse limit ops = lines.filterMap (message parse) ∧ (after parse limit ops).limit = limit

/-- **Every operation keeps the account**, whatever its chunk. -/
theorem accounted_run (h : Fits limit (stream ops)) : Accounted parse limit ops := by
  induction ops using List.reverseRecOn with
  | nil => exact ⟨[], nofun, rfl, rfl, rfl⟩
  | append_singleton ops op ih =>
    have hstream : stream (ops ++ [op]) = stream ops ++ op.chunk := by simp [stream]
    rw [hstream] at h
    obtain ⟨lines, hfree, hall, hresults, hlimit⟩ := ih h.of_append
    have hafter : after parse limit (ops ++ [op]) = (step parse (after parse limit ops) op).1 :=
      Machine.exec_concat _ _ _ _
    unfold Accounted
    rw [hstream, results_concat, hafter, hresults]
    cases op with
    | extend chunk =>
      refine ⟨lines, hfree, ?_, List.append_nil _, hlimit⟩
      rw [hall, List.append_assoc]
      rfl
    | next =>
      have hheld : Fits (after parse limit ops).limit (after parse limit ops).buf := by
        rw [hlimit]
        intro s hs
        refine h.of_append s ?_
        rw [hall, splitOn_joined hfree]
        exact List.mem_append_right _ hs
      obtain ⟨lines', hfree', hbuf, hresult, hlimit', -⟩ := next_consumes parse _ hheld
      refine ⟨lines ++ lines', fun l hl => (List.mem_append.mp hl).elim (hfree l) (hfree' l), ?_, ?_,
        hlimit'.trans hlimit⟩
      · rw [hall]
        calc joined lines ++ (after parse limit ops).buf ++ []
            = joined lines ++ (joined lines' ++ (next parse (after parse limit ops)).2.buf) := by
              rw [List.append_nil, ← hbuf]
          _ = joined (lines ++ lines') ++ (next parse (after parse limit ops)).2.buf := by
              simp [joined]
      · rw [List.filterMap_append]
        exact congrArg (_ ++ ·) hresult

/-- What has been consumed is the beginning of what the stream is worth. -/
theorem results_initial (h : Fits limit (stream ops)) :
    results parse limit ops <+: messages parse (stream ops) := by
  obtain ⟨lines, hfree, hall, hresults, -⟩ := accounted_run parse limit ops h
  rw [messages, hall, splitOn_joined hfree, List.dropLast_append_of_ne_nil (List.splitOn_ne_nil _ _),
    List.filterMap_append, hresults]
  exact List.prefix_append _ _

theorem results_eq_of_none (h : Fits limit (stream ops))
    (hnone : (next parse (after parse limit ops)).1 = none) :
    results parse limit ops = messages parse (stream ops) := by
  obtain ⟨lines, hfree, hall, hresults, hlimit⟩ := accounted_run parse limit ops h
  have hheld : Fits (after parse limit ops).limit (after parse limit ops).buf := by
    rw [hlimit]
    intro s hs
    refine h s ?_
    rw [hall, splitOn_joined hfree]
    exact List.mem_append_right _ hs
  obtain ⟨lines', hfree', hbuf, hresult, -, hend⟩ := next_consumes parse _ hheld
  rw [hnone, Option.toList_none] at hresult
  rw [messages, hall, splitOn_joined hfree, hbuf, splitOn_joined hfree',
    List.splitOn_eq_singleton (hend hnone), ← List.append_assoc, List.dropLast_concat,
    List.filterMap_append, ← hresult, List.append_nil, hresults]

theorem stream_asked (n : ℕ) : stream (ops ++ List.replicate n .next) = stream ops := by
  induction n with
  | zero => rw [List.replicate_zero, List.append_nil]
  | succ n ih =>
    rw [List.replicate_succ', ← List.append_assoc, stream, List.flatMap_append]
    exact (List.append_nil _).trans ih

theorem results_progress (h : Fits limit (stream ops)) (n : ℕ) :
    results parse limit (ops ++ List.replicate n .next) = messages parse (stream ops) ∨
      n ≤ (results parse limit (ops ++ List.replicate n .next)).length := by
  induction n with
  | zero => exact .inr (Nat.zero_le _)
  | succ n ih =>
    have hstream := stream_asked ops n
    have hstep := results_concat parse limit (ops ++ List.replicate n .next) .next
    rw [List.append_assoc, ← List.replicate_succ'] at hstep
    change _ =
      _ ++ (next parse (after parse limit (ops ++ List.replicate n .next))).1.toList at hstep
    cases hnext : (next parse (after parse limit (ops ++ List.replicate n .next))).1 with
    | none =>
      rw [hnext, Option.toList_none, List.append_nil] at hstep
      rw [hstep, ← hstream]
      exact .inl (results_eq_of_none parse limit _ (hstream.symm ▸ h) hnext)
    | some result =>
      rcases ih with hall | hlen
      · have hprefix := results_initial parse limit (ops ++ List.replicate (n + 1) .next)
          ((stream_asked ops (n + 1)).symm ▸ h)
        rw [stream_asked, hstep, hall, hnext] at hprefix
        have hshort := hprefix.length_le
        simp at hshort
      · rw [hstep, hnext]
        exact .inr (by simp; omega)

theorem results_asked (h : Fits limit (stream ops)) {n : ℕ}
    (hn : (messages parse (stream ops)).length ≤ n) :
    results parse limit (ops ++ List.replicate n .next) = messages parse (stream ops) := by
  rcases results_progress parse limit ops h n with hall | hlen
  · exact hall
  · have hprefix := results_initial parse limit (ops ++ List.replicate n .next)
      ((stream_asked ops n).symm ▸ h)
    rw [stream_asked] at hprefix
    exact hprefix.eq_of_length (le_antisymm hprefix.length_le (hn.trans hlen))

/-- **The decoder does not see how its stream is cut.** Where every line fits the limit, whatever the
chunks and whenever the decoder is asked, the results so far begin those of the stream, a result for
each complete line that is not blank; asked often enough it has yielded just these, as it does when
the whole stream comes at once. Of any stream whatever, it holds back no more than its limit once it
has nothing to give. -/
theorem decodes_run :
    (∀ limit ops, Fits limit (stream ops) →
      results parse limit ops <+: messages parse (stream ops) ∧
        ∀ n, (messages parse (stream ops)).length ≤ n →
          results parse limit (ops ++ List.replicate n .next) = messages parse (stream ops) ∧
            results parse limit (.extend (stream ops) :: List.replicate n .next) =
              messages parse (stream ops)) ∧
      ∀ d : Decoder, (next parse d).1 = none → (next parse d).2.pending ≤ d.limit := by
  refine ⟨fun limit ops h => ⟨results_initial parse limit ops h, fun n hn =>
    ⟨results_asked parse limit ops h hn, ?_⟩⟩, fun d => pending_le parse⟩
  have hwhole : stream [.extend (stream ops)] = stream ops := List.append_nil _
  have hasked := results_asked parse limit [.extend (stream ops)] (hwhole.symm ▸ h)
    (hwhole.symm ▸ hn)
  rwa [hwhole] at hasked

/-- A line of two bytes parses. -/
def sampleParse (line : Bytes) : Except Unit Bytes :=
  if line.length = 2 then .ok line else .error ()

/-- A blank line, a message cut in two before its carriage return, and a line that does not parse. -/
def sampleOps : List Op :=
  [.extend [0x0a, 0x7b], .next, .extend [0x7d, 0x0d, 0x0a, 0x78], .next, .extend [0x0a]]

theorem decodes_run_sample :
    results sampleParse 3 (sampleOps ++ List.replicate 2 .next) =
        messages sampleParse (stream sampleOps) ∧
      messages sampleParse (stream sampleOps) = [.ok [0x7b, 0x7d], .error (.json ())] :=
  ⟨(((decodes_run sampleParse).1 3 sampleOps (by decide)).2 2 (by decide)).1, rfl⟩

end Decoder

end Ipc

end Caw
