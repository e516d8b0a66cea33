import Mathlib.Data.List.Basic
import ModelClient.Client
import ModelClient.Proofs.Printing

/-!
# Values in bodies and on event lines

A service gives a value as a whole body, or it streams values one by one: the mark of an event's
data, a space and the compact text of the value make up a line of its own. The compact text has no
newline, so the body of a stream falls into the lines that were written, and the line of an object
is read as the document that says the object.

## Main statements

* `Client.readBody_render`: the value of a body that is the text of an object.
* `Client.chunks_eventBytes`, `Wire.frames_eventLines`: the lines of an answer that was written as
  event lines, and their frames.
-/

namespace ModelClient

namespace Json

/-! ## Text without a newline -/

/-- No hexadecimal digit is a newline. -/
theorem hexDigit_ne_newline {n : Nat} (h : n < 16) : '\n' ≠ hexDigit n := by
  have key : ∀ n : Fin 16, '\n' ≠ hexDigit n.1 := by decide
  exact key ⟨n, h⟩

/-- A newline is written as an escape. -/
theorem newline_not_mem_writeChar (c : Char) : '\n' ∉ writeChar c := by
  rcases Lexer.writeChar_cases c with ⟨e, hwrite, he, -⟩ | ⟨hwrite, hlow⟩ | ⟨hwrite, -, -, hc⟩
  · have hne : '\n' ≠ e := by
      rintro rfl
      exact nomatch he
    rw [hwrite]
    simpa using hne
  · have hhigh := hexDigit_ne_newline (n := c.toNat / 16) (by omega)
    have hdigit := hexDigit_ne_newline (n := c.toNat % 16) (by omega)
    rw [hwrite]
    simpa using ⟨hhigh, hdigit⟩
  · have hne : '\n' ≠ c := by
      rintro rfl
      exact hc (by decide)
    rw [hwrite]
    simpa using hne

/-- A written string has no newline, since it is escaped. -/
theorem newline_not_mem_writeString (s : String) : '\n' ∉ writeString s := by
  have hchars : '\n' ∉ s.toList.flatMap writeChar := fun h => by
    obtain ⟨c, -, hc⟩ := List.mem_flatMap.1 h
    exact newline_not_mem_writeChar c hc
  simpa [writeString] using hchars

/-- A legible number has no newline. -/
theorem Number.Legible.newline_not_mem {n : Number} (h : n.Legible) : '\n' ∉ n.write := fun hmem =>
  absurd (List.any_eq_false.1 h.word '\n' hmem) (by decide)

mutual

/-- The compact text of a value is a single line. -/
theorem newline_not_mem_write : (v : Json) → v.Legible → '\n' ∉ v.write
  | .null, _ => by decide
  | .bool true, _ => by decide
  | .bool false, _ => by decide
  | .num n, h => by
    rw [Legible] at h
    rw [write]
    exact h.newline_not_mem
  | .str s, _ => newline_not_mem_writeString s
  | .arr [], _ => by decide
  | .arr (item :: rest), h => by
    simp only [Legible, AreItemsLegible] at h
    simpa [write] using ⟨newline_not_mem_write item h.1, newline_not_mem_writeItems rest h.2⟩
  | .obj [], _ => by decide
  | .obj ((name, value) :: rest), h => by
    simp only [Legible, AreFieldsLegible] at h
    simpa [write] using ⟨newline_not_mem_writeString name, newline_not_mem_write value h.1,
      newline_not_mem_writeFields rest h.2⟩

/-- Written items have no newline. -/
theorem newline_not_mem_writeItems : (items : List Json) → AreItemsLegible items →
    '\n' ∉ writeItems items
  | [], _ => by decide
  | item :: rest, h => by
    rw [AreItemsLegible] at h
    simpa [writeItems] using ⟨newline_not_mem_write item h.1, newline_not_mem_writeItems rest h.2⟩

/-- Written fields have no newline. -/
theorem newline_not_mem_writeFields : (fields : List (String × Json)) → AreFieldsLegible fields →
    '\n' ∉ writeFields fields
  | [], _ => by decide
  | (name, value) :: rest, h => by
    rw [AreFieldsLegible] at h
    simpa [writeFields] using ⟨newline_not_mem_writeString name, newline_not_mem_write value h.1,
      newline_not_mem_writeFields rest h.2⟩

end

end Json

/-- Only the newline is encoded with the byte of the newline. -/
theorem Text.newline_not_mem_utf8EncodeChar {c : Char} (h : '\n' ≠ c) :
    Sse.newline ∉ String.utf8EncodeChar c := by
  have hbyte (n : Nat) (hn : n < 256) (hne : n ≠ 10) : Sse.newline ≠ UInt8.ofNat n := fun heq =>
    hne ((UInt8.toNat_ofNat_of_lt' hn).symm.trans (congrArg UInt8.toNat heq.symm))
  have hvalue : c.val.toNat ≠ 10 := fun heq => h (by rw [← Char.ofNat_toNat c, Char.toNat, heq])
  have hvalid : c.val.toNat < 0xD800 ∨ (0xDFFF < c.val.toNat ∧ c.val.toNat < 0x110000) := c.valid
  unfold String.utf8EncodeChar
  generalize c.val.toNat = v at hvalue hvalid
  simp only
  -- Every byte of a longer sequence is at least 0x80.
  have h1 := hbyte (v / 64 % 32 + 0xC0) (by omega) (by omega)
  have h2 := hbyte (v / 4096 % 16 + 0xE0) (by omega) (by omega)
  have h3 := hbyte (v / 262144 % 8 + 0xF0) (by omega) (by omega)
  have hmore (w : Nat) := hbyte (w % 64 + 0x80) (by omega) (by omega)
  split
  · next hlow => exact List.mem_singleton.not.2 (hbyte v (by omega) hvalue)
  split
  · simp only [List.mem_cons, List.not_mem_nil, or_false, not_or]
    exact ⟨h1, hmore v⟩
  split <;> simp only [List.mem_cons, List.not_mem_nil, or_false, not_or]
  · exact ⟨h2, hmore (v / 64), hmore v⟩
  · exact ⟨h3, hmore (v / 4096), hmore (v / 64), hmore v⟩

/-- The bytes of a text without a newline have none. -/
theorem Text.newline_not_mem_encode {s : String} (h : '\n' ∉ s.toList) :
    Sse.newline ∉ Text.encode s := fun hmem => by
  obtain ⟨c, hc, hbyte⟩ := List.mem_flatMap.1 hmem
  exact newline_not_mem_utf8EncodeChar (fun heq => h (heq ▸ hc)) hbyte

/-- A text that begins and ends with characters that are not blank is not trimmed. -/
theorem Text.trim_eq_self {s : String} {first last : Char} {cs : List Char}
    (h : s.toList = first :: (cs ++ [last])) (hfirst : isBlankChar first = false)
    (hlast : isBlankChar last = false) : trim s = s := by
  have hstart : s.toList.dropWhile isBlankChar = s.toList := by
    rw [h, List.dropWhile_cons_of_neg (by simp [hfirst])]
  have hend : s.toList.reverse.dropWhile isBlankChar = s.toList.reverse := by
    rw [h, ← List.cons_append, List.reverse_concat, List.dropWhile_cons_of_neg (by simp [hlast])]
  rw [trim, hstart, trimEndChars, hend, List.reverse_reverse, String.ofList_toList]

/-- Bytes without a newline are a line if one follows. -/
theorem Sse.cut_append_newline {line : List UInt8} (h : newline ∉ line) (rest : List UInt8) :
    cut (line ++ newline :: rest) = (line :: (cut rest).1, (cut rest).2) := by
  induction line with
  | nil =>
    rw [List.nil_append, cut]
    simp
  | cons b line ih =>
    have hb := List.ne_of_not_mem_cons h
    have hline := List.not_mem_of_not_mem_cons h
    rw [List.cons_append, cut, ih hline]
    simp [Ne.symm hb]

/-! ## The line of a value -/

namespace Json

/-- The line of a value. -/
def eventLine (v : Json) : String := "data: " ++ v.render

/-- The bytes that a service writes for a value. -/
def eventBytes (v : Json) : List UInt8 := Text.encode v.eventLine ++ [Sse.newline]

/-- The line of a value is the mark of the data and the compact text. -/
theorem toList_eventLine (v : Json) :
    v.eventLine.toList = ['d', 'a', 't', 'a', ':', ' '] ++ v.write := by
  have hmark : "data: ".toList = ['d', 'a', 't', 'a', ':', ' '] := rfl
  rw [eventLine, String.toList_append, hmark, render, String.toList_ofList]

/-- An object that is read back from its text. -/
structure ReadsBack (v : Json) : Prop where
  isObject : ∃ fields, v = .obj fields
  legible : v.Legible
  depth_le : v.depth ≤ Doc.depthLimit

mutual

/-- Whether a value has no numbers and nests no more than the given number of arrays and objects. -/
def isPlain : Nat → Json → Bool
  | _, .null | _, .bool _ | _, .str _ => true
  | _, .num _ | 0, .arr _ | 0, .obj _ => false
  | left + 1, .arr items => areItemsPlain left items
  | left + 1, .obj fields => areFieldsPlain left fields

/-- Whether it is so for the items of an array. -/
def areItemsPlain : Nat → List Json → Bool
  | _, [] => true
  | left, item :: rest => isPlain left item && areItemsPlain left rest

/-- Whether it is so for the fields of an object. -/
def areFieldsPlain : Nat → List (String × Json) → Bool
  | _, [] => true
  | left, (_, value) :: rest => isPlain left value && areFieldsPlain left rest

end

mutual

/-- A plain value is legible and nests no more than it may. -/
theorem legible_of_isPlain : (left : Nat) → (v : Json) → isPlain left v = true →
    v.Legible ∧ v.depth ≤ left
  | _, .null, _ => by simp [Legible, depth]
  | _, .bool _, _ => by simp [Legible, depth]
  | _, .str _, _ => by simp [Legible, depth]
  | _, .num _, h => by simp [isPlain] at h
  | 0, .arr _, h => by simp [isPlain] at h
  | 0, .obj _, h => by simp [isPlain] at h
  | left + 1, .arr items, h => by
    rw [isPlain] at h
    have hitems := areItemsLegible_of_plain left items h
    rw [Legible, depth]
    exact ⟨hitems.1, by omega⟩
  | left + 1, .obj fields, h => by
    rw [isPlain] at h
    have hfields := areFieldsLegible_of_plain left fields h
    rw [Legible, depth]
    exact ⟨hfields.1, by omega⟩

/-- Plain items are legible and nest no more than they may. -/
theorem areItemsLegible_of_plain : (left : Nat) → (items : List Json) →
    areItemsPlain left items = true → AreItemsLegible items ∧ itemDepth items ≤ left
  | _, [], _ => by simp [AreItemsLegible, itemDepth]
  | left, item :: rest, h => by
    rw [areItemsPlain, Bool.and_eq_true] at h
    have hitem := legible_of_isPlain left item h.1
    have hrest := areItemsLegible_of_plain left rest h.2
    rw [AreItemsLegible, itemDepth]
    exact ⟨⟨hitem.1, hrest.1⟩, Nat.max_le.2 ⟨hitem.2, hrest.2⟩⟩

/-- Plain fields are legible and nest no more than they may. -/
theorem areFieldsLegible_of_plain : (left : Nat) → (fields : List (String × Json)) →
    areFieldsPlain left fields = true → AreFieldsLegible fields ∧ fieldDepth fields ≤ left
  | _, [], _ => by simp [AreFieldsLegible, fieldDepth]
  | left, (_, value) :: rest, h => by
    rw [areFieldsPlain, Bool.and_eq_true] at h
    have hvalue := legible_of_isPlain left value h.1
    have hrest := areFieldsLegible_of_plain left rest h.2
    rw [AreFieldsLegible, fieldDepth]
    exact ⟨⟨hvalue.1, hrest.1⟩, Nat.max_le.2 ⟨hvalue.2, hrest.2⟩⟩

end

/-- The condition can be evaluated, whatever the texts in the object are. -/
theorem ReadsBack.of_isPlain {fields : List (String × Json)}
    (h : isPlain Doc.depthLimit (.obj fields) = true) : (obj fields).ReadsBack where
  isObject := ⟨fields, rfl⟩
  legible := (legible_of_isPlain _ _ h).1
  depth_le := (legible_of_isPlain _ _ h).2

/-- A written object ends with its bracket. -/
theorem exists_writeFields_eq_concat (fields : List (String × Json)) :
    ∃ cs, writeFields fields = cs ++ ['\x7d'] := by
  induction fields with
  | nil => exact ⟨[], rfl⟩
  | cons field rest ih =>
    obtain ⟨cs, hcs⟩ := ih
    obtain ⟨name, value⟩ := field
    rw [writeFields, hcs, ← List.append_assoc]
    exact ⟨_, rfl⟩

/-- The text of an object stands between braces. -/
theorem exists_write_obj (fields : List (String × Json)) :
    ∃ cs, (obj fields).write = '\x7b' :: (cs ++ ['\x7d']) := by
  cases fields with
  | nil => exact ⟨[], rfl⟩
  | cons field rest =>
    obtain ⟨cs, hcs⟩ := exists_writeFields_eq_concat rest
    obtain ⟨name, value⟩ := field
    refine ⟨writeString name ++ ':' :: value.write ++ cs, ?_⟩
    rw [write, hcs]
    simp

variable {v : Json}

/-- The line of a value that is read back has no newline in it. -/
theorem ReadsBack.newline_not_mem (h : v.ReadsBack) : Sse.newline ∉ Text.encode v.eventLine := by
  refine Text.newline_not_mem_encode ?_
  rw [toList_eventLine]
  simpa using newline_not_mem_write v h.legible

/-- The line of an object has nothing blank around it. -/
theorem ReadsBack.lineText_encode (h : v.ReadsBack) :
    Sse.lineText (Text.encode v.eventLine) = v.eventLine := by
  obtain ⟨fields, rfl⟩ := h.isObject
  obtain ⟨cs, hcs⟩ := exists_write_obj fields
  have htoList : (obj fields).eventLine.toList =
      'd' :: (['a', 't', 'a', ':', ' ', '\x7b'] ++ cs ++ ['\x7d']) := by
    rw [toList_eventLine, hcs]
    simp
  rw [Sse.lineText, Text.decodeLossy_encode, Text.trim_eq_self htoList (by decide) (by decide)]

/-- The data of an object's line are the object's text. -/
theorem ReadsBack.data?_eventLine (h : v.ReadsBack) : Sse.data? v.eventLine = some v.render := by
  obtain ⟨fields, rfl⟩ := h.isObject
  obtain ⟨cs, hcs⟩ := exists_write_obj fields
  have hspace : Text.isBlankChar ' ' = true := by decide
  have hbrace : Text.isBlankChar '\x7b' = false := by decide
  have hdata : Text.trimStart (String.ofList ((obj fields).eventLine.toList.drop
      Sse.dataMark.length)) = (obj fields).render := by
    rw [toList_eventLine, Text.trimStart, String.toList_ofList]
    show String.ofList ((' ' :: (obj fields).write).dropWhile Text.isBlankChar) = _
    rw [List.dropWhile_cons_of_pos hspace, hcs, List.dropWhile_cons_of_neg (by simp [hbrace]),
      ← hcs, render]
  have hmark : Sse.dataMark.isPrefixOf (obj fields).eventLine.toList = true := by
    rw [toList_eventLine]
    rfl
  -- The mark of the end begins with another bracket.
  have hdone : (obj fields).render ≠ "[DONE]" := fun heq => by
    have hlist := congrArg String.toList heq
    rw [render, String.toList_ofList, hcs] at hlist
    exact absurd (List.cons.inj hlist).1 (by decide)
  rw [Sse.data?, if_pos hmark]
  simp only [hdata]
  rw [if_neg hdone]

end Json

namespace Wire

open Json

variable {v : Json}

/-- The frame on an object's line is the chunk that the object says. -/
theorem frame?_eventLine (h : v.ReadsBack) : frame? v.eventLine = Chunk.decode v.toDoc := by
  have hignored : Sse.isIgnored v.eventLine = false := by
    rw [Sse.isIgnored, toList_eventLine]
    rfl
  have hread : Doc.ofString? v.render = some v.toDoc := by
    rw [Doc.ofString?, render, String.toList_ofList, Doc.parse?_write h.legible h.depth_le]
  rw [frame?, if_neg (by simp [hignored]), h.data?_eventLine]
  show (Doc.ofString? v.render >>= Chunk.decode) = _
  rw [hread]
  rfl

/-- A body that was written as event lines, one in each piece, has these lines. -/
theorem lines_eventBytes {vs : List Json} (h : ∀ v ∈ vs, v.ReadsBack) :
    Sse.lines (vs.map fun v => .ok v.eventBytes) = vs.map fun v => .ok v.eventLine := by
  unfold Sse.lines
  induction vs with
  | nil => rfl
  | cons v vs ih =>
    have hv := h v List.mem_cons_self
    rw [List.map_cons, Sse.linesFrom, List.nil_append, eventBytes,
      Sse.cut_append_newline hv.newline_not_mem]
    simp only [Sse.cut, List.map_cons, List.map_nil, hv.lineText_encode]
    rw [ih fun v hv => h v (List.mem_cons_of_mem _ hv)]
    rfl

/-- The frames of a body that was written as event lines are the chunks that its objects say. -/
theorem frames_eventLines {vs : List Json} (h : ∀ v ∈ vs, v.ReadsBack) {chunks : List Chunk}
    (hchunks : vs.map (fun v => Chunk.decode v.toDoc) = chunks.map some) :
    frames (vs.map fun v => .ok v.eventLine) = chunks.map .ok := by
  have hframes : frames (vs.map fun v => .ok v.eventLine) =
      vs.filterMap fun v => (Chunk.decode v.toDoc).map .ok := by
    rw [frames, List.filterMap_map]
    refine List.filterMap_congr fun v hv => ?_
    show (frame? v.eventLine).map Except.ok = _
    rw [frame?_eventLine (h v hv)]
  have hmap : vs.filterMap (fun v => (Chunk.decode v.toDoc).map (Except.ok (ε := Error))) =
      (chunks.map some).filterMap (Option.map .ok) := by
    rw [← hchunks, List.filterMap_map]
    rfl
  rw [hframes, hmap, List.filterMap_map]
  exact congrFun (List.filterMap_eq_map (f := Except.ok)) chunks

end Wire

/-- The value of a body that is the text of an object. -/
theorem Client.readBody_render {α : Type} {decode : Json.Decoder α} {v : Json} (h : v.ReadsBack)
    {value : α} (hvalue : decode v.toDoc = some value) {status : Nat}
    (hstatus : isSuccess status = true) :
    readBody decode status [Text.encode v.render] false = .ok (some value) := by
  have hblank : (Text.encode v.render).all isBlankByte = false := by
    obtain ⟨fields, rfl⟩ := h.isObject
    obtain ⟨cs, hcs⟩ := Json.exists_write_obj fields
    rw [Text.encode, Json.render, String.toList_ofList, hcs]
    rfl
  have hread : (Json.Doc.parse? (Text.decode (Text.encode v.render)) >>= decode) = some value := by
    rw [Json.Doc.parse?_decode_encode h.legible h.depth_le]
    exact hvalue
  unfold readBody
  simp only [hstatus, List.flatten_cons, List.flatten_nil, List.append_nil, hblank, hread]
  rfl

/-- The chunks of an answer that was written as event lines are those of its lines. -/
theorem Client.chunks_eventBytes {vs : List Json} (h : ∀ v ∈ vs, v.ReadsBack) :
    chunks (vs.map Json.eventBytes) false = Wire.chunks (vs.map fun v => .ok v.eventLine) := by
  have hpieces : (vs.map Json.eventBytes).map Except.ok ++
      (if false then [.error Error.network] else []) = vs.map fun v => .ok v.eventBytes := by
    rw [List.map_map]
    exact List.append_nil _
  rw [chunks, hpieces, Wire.lines_eventBytes h]

end ModelClient
