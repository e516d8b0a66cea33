import ModelClient.Proofs.Printing
import ModelClient.Sse

/-!
# The lines of a body in pieces

The bytes of a body are cut at each newline into segments, and the lines of the body are the texts
of the segments. The pieces that the bytes arrive in do not show: what `linesFrom` keeps between two
pieces is the segment that has begun, and that is all that the lines to come depend on. A break of
the connection takes the segment that has begun with it.

## Main statements

* `Sse.lines_eq_segments`: the lines of a body that arrives in pieces, and those of a body that
  breaks off.
-/

namespace ModelClient

namespace Sse

/-! ## Segments -/

/-- The bytes between newlines. No newline follows the last segment, which may be empty. -/
def segments (bytes : List UInt8) : List (List UInt8) := bytes.splitOn newline

/-- The segments that a newline follows. -/
def ended (bytes : List UInt8) : List (List UInt8) := (segments bytes).dropLast

/-- The last segment, unless it is empty. -/
def begun? (bytes : List UInt8) : Option (List UInt8) :=
  (segments bytes).getLast?.filter fun segment => !segment.isEmpty

/-- A newline ends an empty segment. -/
theorem cut_cons_newline (bytes : List UInt8) :
    cut (newline :: bytes) = ([] :: (cut bytes).1, (cut bytes).2) := by
  rw [cut]
  simp

/-- A newline begins the segments with an empty one. -/
theorem segments_cons_newline (bytes : List UInt8) :
    segments (newline :: bytes) = [] :: segments bytes := by
  rw [segments, List.splitOn_cons_eq_if_modifyHead, if_pos (beq_self_eq_true newline), segments]

/-- Any other byte belongs to the first segment. -/
theorem segments_cons_of_ne {b : UInt8} (h : b ≠ newline) (bytes : List UInt8) :
    segments (b :: bytes) = (segments bytes).modifyHead (b :: ·) := by
  rw [segments, List.splitOn_cons_eq_if_modifyHead, if_neg (by simpa using h), segments]

/-- Cutting gives the segments, the last one apart. -/
theorem cut_eq_segments (bytes : List UInt8) :
    (cut bytes).1 ++ [(cut bytes).2] = segments bytes := by
  induction bytes with
  | nil => rfl
  | cons b bytes ih =>
    by_cases hb : b = newline
    · subst hb
      rw [cut_cons_newline, segments_cons_newline, ← ih]
      rfl
    · rw [segments_cons_of_ne hb, ← ih, cut]
      rcases cut bytes with ⟨_ | ⟨line, lines⟩, rest⟩ <;> simp [hb]

/-- The segments that have ended are those that are cut off. -/
theorem ended_eq_cut (bytes : List UInt8) : ended bytes = (cut bytes).1 := by
  rw [ended, ← cut_eq_segments, List.dropLast_concat]

/-- The segment that has begun is what is left after cutting, unless it is empty. -/
theorem begun?_eq_cut (bytes : List UInt8) :
    begun? bytes = if (cut bytes).2.isEmpty then none else some (cut bytes).2 := by
  rw [begun?, ← cut_eq_segments, List.getLast?_concat, Option.filter_some]
  cases (cut bytes).2.isEmpty <;> rfl

/-! ## Pieces -/

/-- What comes after some bytes is cut together with the segment that they end in. -/
theorem cut_append (bytes more : List UInt8) :
    cut (bytes ++ more) =
      ((cut bytes).1 ++ (cut ((cut bytes).2 ++ more)).1, (cut ((cut bytes).2 ++ more)).2) := by
  induction bytes with
  | nil => rfl
  | cons b bytes ih =>
    by_cases hb : b = newline
    · subst hb
      rw [List.cons_append, cut_cons_newline, cut_cons_newline, ih]
      rfl
    · rw [List.cons_append, cut, cut, ih]
      rcases cut bytes with ⟨_ | ⟨line, lines⟩, rest⟩
      · simp [hb, cut]
      · simp [hb]

/-- Bytes without a newline are a segment that has begun. -/
theorem cut_of_newline_not_mem {bytes : List UInt8} (h : newline ∉ bytes) :
    cut bytes = ([], bytes) := by
  induction bytes with
  | nil => rfl
  | cons b bytes ih =>
    rw [cut, ih (List.not_mem_of_not_mem_cons h)]
    simp [Ne.symm (List.ne_of_not_mem_cons h)]

/-- The segment that has begun has no newline. -/
theorem newline_not_mem_rest (bytes : List UInt8) : newline ∉ (cut bytes).2 := by
  induction bytes with
  | nil => exact List.not_mem_nil
  | cons b bytes ih =>
    by_cases hb : b = newline
    · subst hb
      rw [cut_cons_newline]
      exact ih
    · rw [cut]
      rcases hcut : cut bytes with ⟨_ | ⟨line, lines⟩, rest⟩ <;> rw [hcut] at ih
      · simpa [hb] using ⟨Ne.symm hb, ih⟩
      · simpa [hb] using ih

/-- The lines for some segments: the text of each, with U+FFFD in place of what is no character and
without blank characters around it. -/
def texts (segments : List (List UInt8)) : List (Except Error String) :=
  segments.map fun segment => .ok (Text.trim (Text.decodeLossy segment))

/-- The first segment gives the first line. -/
theorem texts_cons (segment : List UInt8) (segments : List (List UInt8)) :
    texts (segment :: segments) = .ok (lineText segment) :: texts segments := rfl

/-- The lines of two groups of segments come one after the other. -/
theorem texts_append (before after : List (List UInt8)) :
    texts (before ++ after) = texts before ++ texts after :=
  List.map_append

/-- One piece: its bytes are cut together with the segment that has begun. -/
theorem linesFrom_cons (buffer piece : List UInt8) (rest : List (Except Error (List UInt8))) :
    linesFrom buffer (.ok piece :: rest) =
      texts (cut (buffer ++ piece)).1 ++ linesFrom (cut (buffer ++ piece)).2 rest := by
  rw [linesFrom]
  rfl

/-- Some pieces: the buffer after them is the segment in which all their bytes end. -/
theorem linesFrom_pieces {buffer : List UInt8} (h : newline ∉ buffer)
    (pieces : List (List UInt8)) (rest : List (Except Error (List UInt8))) :
    linesFrom buffer (pieces.map .ok ++ rest) =
      texts (cut (buffer ++ pieces.flatten)).1 ++
        linesFrom (cut (buffer ++ pieces.flatten)).2 rest := by
  induction pieces generalizing buffer with
  | nil =>
    rw [List.flatten_nil, List.append_nil, cut_of_newline_not_mem h]
    rfl
  | cons piece pieces ih =>
    rw [List.map_cons, List.cons_append, linesFrom_cons, ih (newline_not_mem_rest _),
      List.flatten_cons, ← List.append_assoc buffer piece, cut_append (buffer ++ piece),
      texts_append, List.append_assoc]

/-- At the end of the body the segment that has begun gives a line, unless it is empty. -/
theorem linesFrom_nil (buffer : List UInt8) :
    linesFrom buffer [] = texts (if buffer.isEmpty then none else some buffer).toList := by
  rw [linesFrom]
  cases buffer <;> rfl

end Sse

/-! ## The newline of a line -/

namespace Text

/-- The decoder waits for bytes that are no characters by themselves. -/
def Utf8State.Awaits (state : Option Utf8State) : Prop := ∀ sequence ∈ state, 0x80 ≤ sequence.low

/-- A decoder between two characters waits for nothing. -/
theorem Utf8State.awaits_none : Awaits none := fun _ h => by cases h

/-- After the first byte of a character the decoder waits for bytes that are no characters. -/
theorem Utf8State.awaits_start (b : Nat) : Awaits (start b).2 := by
  intro sequence h
  unfold start at h
  grind

/-- After any byte the decoder waits for bytes that are no characters. -/
theorem Utf8State.awaits_step (state : Option Utf8State) (b : Nat) : Awaits (step state b).2 := by
  cases state with
  | none => exact awaits_start b
  | some sequence =>
    obtain ⟨code, due, low, high⟩ := sequence
    simp only [step]
    split
    · split
      · exact awaits_none
      · simp [Awaits]
    · exact awaits_start b

/-- A newline ends a sequence that is not finished, like the end of the bytes. -/
theorem decodeFrom_newline {state : Option Utf8State} (h : Utf8State.Awaits state) :
    decodeFrom state [Sse.newline] = decodeFrom state [] ++ [some '\n'] := by
  cases state with
  | none => rfl
  | some sequence =>
    have hlow : ¬(sequence.low ≤ 10 ∧ 10 ≤ sequence.high) := fun hin => by
      have := h sequence rfl
      omega
    have hstep : Utf8State.step (some sequence) 10 = ([none, some '\n'], none) := by
      simp only [Utf8State.step]
      rw [if_neg hlow]
      rfl
    rw [decodeFrom_cons]
    show (Utf8State.step (some sequence) 10).1 ++ decodeFrom (Utf8State.step (some sequence) 10).2 []
      = _
    rw [hstep]
    rfl

/-- A newline is decoded to itself, whatever has been decoded before it. -/
theorem decodeFrom_concat_newline {state : Option Utf8State} (h : Utf8State.Awaits state)
    (bytes : List UInt8) :
    decodeFrom state (bytes ++ [Sse.newline]) = decodeFrom state bytes ++ [some '\n'] := by
  induction bytes generalizing state with
  | nil => exact decodeFrom_newline h
  | cons b bytes ih =>
    rw [List.cons_append, decodeFrom_cons, decodeFrom_cons, ih (Utf8State.awaits_step _ _),
      List.append_assoc]

/-- A blank character at the end is trimmed. -/
theorem trimEndChars_concat {c : Char} (h : isBlankChar c = true) (cs : List Char) :
    trimEndChars (cs ++ [c]) = trimEndChars cs := by
  rw [trimEndChars, List.reverse_concat, List.dropWhile_cons_of_pos h, trimEndChars]

/-- A blank character at the end of a text does not count. -/
theorem trim_concat {c : Char} (h : isBlankChar c = true) (cs : List Char) :
    trim (String.ofList (cs ++ [c])) = trim (String.ofList cs) := by
  rw [trim, trim, String.toList_ofList, String.toList_ofList, List.dropWhile_append]
  split
  · next hblank =>
    rw [List.isEmpty_iff.1 hblank, List.dropWhile_cons_of_pos h, List.dropWhile_nil]
  · rw [trimEndChars_concat h]

end Text

namespace Sse

/-- The newline that follows a segment may be taken for a part of it. -/
theorem lineText_concat_newline (segment : List UInt8) :
    lineText (segment ++ [newline]) = lineText segment := by
  have hdecode : Text.decode (segment ++ [newline]) = Text.decode segment ++ [some '\n'] :=
    Text.decodeFrom_concat_newline Text.Utf8State.awaits_none segment
  rw [lineText, Text.decodeLossy, hdecode, List.map_append]
  exact Text.trim_concat (by decide) _

/-! ## Whole bodies -/

/-- **Pieces.** The lines of a body are the texts of the segments of its bytes, however the bytes
are cut into pieces; the last segment counts if it is not empty. If the connection breaks, the lines
are those of the segments that have ended, and the error comes after them in place of everything
else. The newline that ends a segment makes no difference to its text. -/
theorem lines_eq_segments (pieces : List (List UInt8)) :
    lines (pieces.map .ok) = texts (ended pieces.flatten ++ (begun? pieces.flatten).toList) ∧
    (∀ e rest, lines (pieces.map .ok ++ .error e :: rest) =
      texts (ended pieces.flatten) ++ [.error e]) ∧
    ∀ segment, Text.trim (Text.decodeLossy (segment ++ [newline])) =
      Text.trim (Text.decodeLossy segment) := by
  have hlines (rest : List (Except Error (List UInt8))) :
      lines (pieces.map .ok ++ rest) =
        texts (ended pieces.flatten) ++ linesFrom (cut pieces.flatten).2 rest := by
    rw [lines, linesFrom_pieces List.not_mem_nil, List.nil_append, ended_eq_cut]
  refine ⟨?_, fun e rest => ?_, lineText_concat_newline⟩
  · have hwhole := hlines []
    rwa [List.append_nil, linesFrom_nil, ← begun?_eq_cut, ← texts_append] at hwhole
  · rw [hlines, linesFrom]

/-- A newline in a piece of its own, after a byte that no character begins with. -/
example : lines [.ok [0x61, 0xFF], .ok [0x0A, 0x20, 0x62], .ok [0x09]] =
    [.ok "a\uFFFD", .ok "b"] := by
  rfl

end Sse

end ModelClient
