import ModelClient.Json.Doc
import ModelClient.Json.Printer
import ModelClient.Text.Utf8

/-!
# Reading back what was written

The bytes of a text are decoded to its characters (`Text.decode_encode`), and the compact text of a
JSON value is read as the document that says the value (`Json.Doc.parse?_write`). The value has to
be nested no deeper than the parser allows, and its numbers have to be written as words that are
read as the same numbers (`Json.Legible`).
-/

namespace ModelClient

/-! ## Bytes -/

namespace Text

/-- A byte is a step of the decoder, and the rest goes on from there. -/
theorem decodeFrom_cons (state : Option Utf8State) (b : UInt8) (rest : List UInt8) :
    decodeFrom state (b :: rest) =
      (Utf8State.step state b.toNat).1 ++ decodeFrom (Utf8State.step state b.toNat).2 rest := by
  cases state <;> rfl

namespace Utf8State

/-- The first of two bytes. -/
theorem start_two {b : Nat} (h : 0xC2 ≤ b ∧ b ≤ 0xDF) :
    start b = ([], some ⟨b - 0xC0, 1, 0x80, 0xBF⟩) := by
  unfold start
  rw [if_neg (by omega), if_pos h]

-- The second byte has a range of its own where a longer form of a shorter character or a surrogate
-- would begin, so the range is left open here.
/-- The first of three bytes, before a second one that may follow it. -/
theorem start_three {b n : Nat} (hb : 0xE0 ≤ b ∧ b ≤ 0xEF) (hn : 0x80 ≤ n ∧ n ≤ 0xBF)
    (hlow : b = 0xE0 → 0xA0 ≤ n) (hhigh : b = 0xED → n ≤ 0x9F) :
    ∃ low high, start b = ([], some ⟨b - 0xE0, 2, low, high⟩) ∧ low ≤ n ∧ n ≤ high := by
  unfold start
  rw [if_neg (by omega), if_neg (by omega)]
  by_cases he0 : b = 0xE0
  · subst he0
    exact ⟨0xA0, 0xBF, rfl, hlow rfl, hn.2⟩
  · by_cases hed : b = 0xED
    · subst hed
      exact ⟨0x80, 0x9F, rfl, hn.1, hhigh rfl⟩
    · rw [if_neg he0, if_neg hed, if_pos (by omega)]
      exact ⟨0x80, 0xBF, rfl, hn⟩

/-- The first of four bytes, before a second one that may follow it. -/
theorem start_four {b n : Nat} (hb : 0xF0 ≤ b ∧ b ≤ 0xF4) (hn : 0x80 ≤ n ∧ n ≤ 0xBF)
    (hlow : b = 0xF0 → 0x90 ≤ n) (hhigh : b = 0xF4 → n ≤ 0x8F) :
    ∃ low high, start b = ([], some ⟨b - 0xF0, 3, low, high⟩) ∧ low ≤ n ∧ n ≤ high := by
  unfold start
  rw [if_neg (by omega), if_neg (by omega), if_neg (by omega), if_neg (by omega),
    if_neg (by omega)]
  by_cases hf0 : b = 0xF0
  · subst hf0
    exact ⟨0x90, 0xBF, rfl, hlow rfl, hn.2⟩
  · rw [if_neg hf0]
    by_cases hf4 : b = 0xF4
    · subst hf4
      exact ⟨0x80, 0x8F, rfl, hn.1, hhigh rfl⟩
    · rw [if_pos (by omega)]
      exact ⟨0x80, 0xBF, rfl, hn⟩

/-- The last byte of a character completes it. -/
theorem step_last {code low high b : Nat} (h : low ≤ b ∧ b ≤ high) :
    step (some ⟨code, 1, low, high⟩) b =
      ([some (Char.ofNat (code * 64 + (b - 0x80)))], none) := by
  simp only [step]
  rw [if_pos h, if_pos (Nat.le_refl 1)]

/-- A byte in the middle of a character adds six bits. -/
theorem step_more {code due low high b : Nat} (hdue : 1 < due) (h : low ≤ b ∧ b ≤ high) :
    step (some ⟨code, due, low, high⟩) b =
      ([], some ⟨code * 64 + (b - 0x80), due - 1, 0x80, 0xBF⟩) := by
  simp only [step]
  rw [if_pos h, if_neg (by omega)]

end Utf8State

private theorem toNat_ofNat {n : Nat} (h : n < 256) : (UInt8.ofNat n).toNat = n :=
  UInt8.toNat_ofNat_of_lt h

private theorem continues (n : Nat) : 0x80 ≤ n % 64 + 0x80 ∧ n % 64 + 0x80 ≤ 0xBF := by omega

/-- One byte of the encoding gives its character. -/
theorem decodeFrom_one {v : Nat} (h : v < 0x80) (rest : List UInt8) :
    decodeFrom none (UInt8.ofNat v :: rest) = some (Char.ofNat v) :: decodeFrom none rest := by
  rw [decodeFrom_cons, toNat_ofNat (by omega)]
  simp only [Utf8State.step, Utf8State.start]
  rw [if_pos h, List.singleton_append]

/-- Two bytes of the encoding give their character. -/
theorem decodeFrom_two {v : Nat} (h : 0x80 ≤ v ∧ v < 0x800) (rest : List UInt8) :
    decodeFrom none (UInt8.ofNat (v / 64 % 32 + 0xC0) :: UInt8.ofNat (v % 64 + 0x80) :: rest) =
      some (Char.ofNat v) :: decodeFrom none rest := by
  have hcode : (v / 64 % 32 + 0xC0 - 0xC0) * 64 + (v % 64 + 0x80 - 0x80) = v := by omega
  rw [decodeFrom_cons, toNat_ofNat (by omega), Utf8State.step, Utf8State.start_two (by omega),
    decodeFrom_cons, toNat_ofNat (by omega), Utf8State.step_last (continues v), hcode]
  rfl

/-- Three bytes of the encoding give their character, which is no surrogate. -/
theorem decodeFrom_three {v : Nat} (h : 0x800 ≤ v ∧ v < 0x10000) (hv : v < 0xD800 ∨ 0xDFFF < v)
    (rest : List UInt8) :
    decodeFrom none (UInt8.ofNat (v / 4096 % 16 + 0xE0) :: UInt8.ofNat (v / 64 % 64 + 0x80) ::
        UInt8.ofNat (v % 64 + 0x80) :: rest) =
      some (Char.ofNat v) :: decodeFrom none rest := by
  have hcode : ((v / 4096 % 16 + 0xE0 - 0xE0) * 64 + (v / 64 % 64 + 0x80 - 0x80)) * 64 +
      (v % 64 + 0x80 - 0x80) = v := by omega
  obtain ⟨low, high, hstart, hnext⟩ := Utf8State.start_three (b := v / 4096 % 16 + 0xE0)
    (n := v / 64 % 64 + 0x80) (by omega) (continues _) (by omega) (by omega)
  rw [decodeFrom_cons, toNat_ofNat (by omega), Utf8State.step, hstart,
    decodeFrom_cons, toNat_ofNat (by omega), Utf8State.step_more (by omega) hnext,
    decodeFrom_cons, toNat_ofNat (by omega), Utf8State.step_last (continues v), hcode]
  rfl

/-- Four bytes of the encoding give their character. -/
theorem decodeFrom_four {v : Nat} (h : 0x10000 ≤ v ∧ v < 0x110000) (rest : List UInt8) :
    decodeFrom none (UInt8.ofNat (v / 262144 % 8 + 0xF0) ::
        UInt8.ofNat (v / 4096 % 64 + 0x80) :: UInt8.ofNat (v / 64 % 64 + 0x80) ::
        UInt8.ofNat (v % 64 + 0x80) :: rest) =
      some (Char.ofNat v) :: decodeFrom none rest := by
  have hcode : (((v / 262144 % 8 + 0xF0 - 0xF0) * 64 + (v / 4096 % 64 + 0x80 - 0x80)) * 64 +
      (v / 64 % 64 + 0x80 - 0x80)) * 64 + (v % 64 + 0x80 - 0x80) = v := by omega
  obtain ⟨low, high, hstart, hnext⟩ := Utf8State.start_four (b := v / 262144 % 8 + 0xF0)
    (n := v / 4096 % 64 + 0x80) (by omega) (continues _) (by omega) (by omega)
  rw [decodeFrom_cons, toNat_ofNat (by omega), Utf8State.step, hstart,
    decodeFrom_cons, toNat_ofNat (by omega), Utf8State.step_more (by omega) hnext,
    decodeFrom_cons, toNat_ofNat (by omega), Utf8State.step_more (by omega) (continues _),
    decodeFrom_cons, toNat_ofNat (by omega), Utf8State.step_last (continues v), hcode]
  rfl

/-- A character's bytes are read as the character, whatever comes after them. -/
theorem decodeFrom_utf8EncodeChar (c : Char) (rest : List UInt8) :
    decodeFrom none (String.utf8EncodeChar c ++ rest) = some c :: decodeFrom none rest := by
  have hvalid : c.val.toNat < 0xD800 ∨ (0xDFFF < c.val.toNat ∧ c.val.toNat < 0x110000) := c.valid
  have hchar : Char.ofNat c.val.toNat = c := Char.ofNat_toNat c
  unfold String.utf8EncodeChar
  generalize c.val.toNat = v at hvalid hchar
  subst hchar
  by_cases h1 : v ≤ 0x7F
  · simp only [if_pos h1]
    exact decodeFrom_one (by omega) rest
  · by_cases h2 : v ≤ 0x7FF
    · simp only [if_neg h1, if_pos h2]
      exact decodeFrom_two (by omega) rest
    · by_cases h3 : v ≤ 0xFFFF
      · simp only [if_neg h1, if_neg h2, if_pos h3]
        exact decodeFrom_three (by omega) (by omega) rest
      · simp only [if_neg h1, if_neg h2, if_neg h3]
        exact decodeFrom_four (by omega) rest

/-- The bytes of a text are decoded to its characters. -/
theorem decode_encode (s : String) : decode (encode s) = s.toList.map some := by
  unfold decode encode
  induction s.toList with
  | nil => rfl
  | cons c rest ih => rw [List.flatMap_cons, decodeFrom_utf8EncodeChar, ih, List.map_cons]

/-- The bytes of a text are decoded to the text. -/
theorem decodeLossy_encode (s : String) : decodeLossy (encode s) = s := by
  unfold decodeLossy
  rw [decode_encode, List.map_map]
  show String.ofList (s.toList.map id) = s
  rw [List.map_id, String.ofList_toList]

end Text

namespace Json

/-! ## Strings -/

namespace Lexer

/-- Characters in a row are read one group after the other. -/
theorem foldlM_append (cs ds : List Char) (l : Lexer) :
    ((cs ++ ds).map some).foldlM step l =
      ((cs.map some).foldlM step l).bind fun l => (ds.map some).foldlM step l := by
  rw [List.map_append, List.foldlM_append]
  rfl

/-- The first character is a step of the lexer. -/
theorem foldlM_cons (c : Char) (cs : List Char) (l : Lexer) :
    ((c :: cs).map some).foldlM step l =
      (l.step (some c)).bind fun l => (cs.map some).foldlM step l := by
  rw [List.map_cons, List.foldlM_cons]
  rfl

/-- A hexadecimal digit is read as its value. -/
theorem hexValue?_hexDigit {n : Nat} (h : n < 16) : hexValue? (hexDigit n) = some n := by
  have key : ∀ n : Fin 16, hexValue? (hexDigit n.1) = some n.1 := by decide
  exact key ⟨n, h⟩

/-- An escape of one letter inside a string is the character that it stands for. -/
theorem foldlM_escape {c e : Char} (he : escape? e = some c) (hu : e ≠ 'u')
    (pieces : List Piece) (tokens : List Token) :
    (['\\', e].map some).foldlM step ⟨.text pieces, tokens⟩ =
      some ⟨.text (.char c :: pieces), tokens⟩ := by
  rw [foldlM_cons]
  show (([e] : List Char).map some).foldlM step ⟨.escape pieces, tokens⟩ = _
  rw [foldlM_cons]
  simp only [step, if_neg hu, he]
  rfl

/-- An escape with a number inside a string is the unit with this number. -/
theorem foldlM_unit {n : Nat} (h : n < 0x100) (pieces : List Piece) (tokens : List Token) :
    (['\\', 'u', '0', '0', hexDigit (n / 16), hexDigit (n % 16)].map some).foldlM step
        ⟨.text pieces, tokens⟩ =
      some ⟨.text (.unit n :: pieces), tokens⟩ := by
  have hhigh := hexValue?_hexDigit (n := n / 16) (by omega)
  have hlow := hexValue?_hexDigit (n := n % 16) (by omega)
  have hzero : hexValue? '0' = some 0 := rfl
  have hn : n / 16 * 16 + n % 16 = n := by omega
  simp only [foldlM_cons]
  simp [step, hhigh, hlow, hzero, hn]

/-- The unit of a control character is this character. -/
theorem assemble_unit {c : Char} (h : c.toNat < 0x20) (rest : List Piece) :
    assemble (.unit c.toNat :: rest) = (assemble rest).map (c :: ·) := by
  have hhigh : isHighSurrogate c.toNat = false := by
    simp [isHighSurrogate]
    omega
  have hlow : isLowSurrogate c.toNat = false := by
    simp [isLowSurrogate]
    omega
  rw [assemble.eq_def]
  simp [hhigh, hlow, Char.ofNat_toNat]

/-- A character is written as an escape of one letter, as its number, or as it is. -/
theorem writeChar_cases (c : Char) :
    (∃ e, writeChar c = ['\\', e] ∧ escape? e = some c ∧ e ≠ 'u') ∨
    (writeChar c = ['\\', 'u', '0', '0', hexDigit (c.toNat / 16), hexDigit (c.toNat % 16)] ∧
      c.toNat < 0x20) ∨
    (writeChar c = [c] ∧ c ≠ '"' ∧ c ≠ '\\' ∧ ¬c.toNat < 0x20) := by
  unfold writeChar
  split
  · next h => exact .inl ⟨_, rfl, by rw [h]; rfl, by decide⟩
  next hquote =>
  split
  · next h => exact .inl ⟨_, rfl, by rw [h]; rfl, by decide⟩
  next hslash =>
  split
  · next h => exact .inl ⟨_, rfl, by rw [h]; rfl, by decide⟩
  split
  · next h => exact .inl ⟨_, rfl, by rw [h]; rfl, by decide⟩
  split
  · next h => exact .inl ⟨_, rfl, by rw [h]; rfl, by decide⟩
  split
  · next h => exact .inl ⟨_, rfl, by rw [h]; rfl, by decide⟩
  split
  · next h => exact .inl ⟨_, rfl, by rw [h]; rfl, by decide⟩
  split
  · next h => exact .inr (.inl ⟨rfl, h⟩)
  · next h => exact .inr (.inr ⟨rfl, hquote, hslash, h⟩)

/-- Inside a string, a written character is read as a piece that stands for it. -/
theorem foldlM_writeChar (c : Char) (pieces : List Piece) (tokens : List Token) :
    ∃ piece, ((writeChar c).map some).foldlM step ⟨.text pieces, tokens⟩ =
        some ⟨.text (piece :: pieces), tokens⟩ ∧
      ∀ rest, assemble (piece :: rest) = (assemble rest).map (c :: ·) := by
  rcases writeChar_cases c with ⟨e, hwrite, he, hu⟩ | ⟨hwrite, hlow⟩ | ⟨hwrite, hquote, hslash, hc⟩
  · exact ⟨.char c, hwrite ▸ foldlM_escape he hu pieces tokens, fun _ => rfl⟩
  · exact ⟨.unit c.toNat, hwrite ▸ foldlM_unit (by omega) pieces tokens, assemble_unit hlow⟩
  · refine ⟨.char c, ?_, fun _ => rfl⟩
    rw [hwrite, foldlM_cons]
    simp only [step, if_neg hquote, if_neg hslash, if_neg hc]
    rfl

/-- The characters of a string are read back, whatever else the string holds. -/
theorem foldlM_writeChars (cs : List Char) (pieces : List Piece) (tokens : List Token) :
    ∃ more, ((cs.flatMap writeChar).map some).foldlM step ⟨.text pieces, tokens⟩ =
        some ⟨.text (more.reverse ++ pieces), tokens⟩ ∧
      ∀ rest, assemble (more ++ rest) = (assemble rest).map (cs ++ ·) := by
  induction cs generalizing pieces with
  | nil => exact ⟨[], rfl, fun rest => by cases h : assemble rest <;> simp [h]⟩
  | cons c cs ih =>
    obtain ⟨piece, hpiece, hc⟩ := foldlM_writeChar c pieces tokens
    obtain ⟨more, hmore, hcs⟩ := ih (piece :: pieces)
    refine ⟨piece :: more, ?_, fun rest => ?_⟩
    · rw [List.flatMap_cons, foldlM_append, hpiece, Option.bind_some, hmore, List.reverse_cons,
        List.append_assoc, List.singleton_append]
    · rw [List.cons_append, hc, hcs, Option.map_map]
      rfl

/-- A written string is read as one token. -/
theorem foldlM_writeString (s : String) (tokens : List Token) :
    ((writeString s).map some).foldlM step ⟨.between, tokens⟩ =
      some ⟨.between, .str (some s) :: tokens⟩ := by
  obtain ⟨pieces, hpieces, hs⟩ := foldlM_writeChars s.toList [] tokens
  have hcontent : assemble pieces = some s.toList := by
    have h := hs []
    rw [List.append_nil] at h
    rw [h, assemble, Option.map_some, List.append_nil]
  rw [writeString, List.cons_append, foldlM_cons]
  show ((s.toList.flatMap writeChar ++ ['"']).map some).foldlM step ⟨.text [], tokens⟩ = _
  rw [foldlM_append, hpieces, Option.bind_some, List.append_nil, foldlM_cons]
  simp only [step, if_true, List.reverse_reverse, hcontent, Option.map_some,
    String.ofList_toList]
  rfl

/-! ## The tokens of a value -/

/-- The lexer has read the given tokens, last first, if what comes next ends a word. -/
inductive Holds : Lexer → List Token → Prop where
  | between (tokens : List Token) : Holds ⟨.between, tokens⟩ tokens
  | word {chars : List Char} {t : Token} (h : word? chars.reverse = some t) (tokens : List Token) :
    Holds ⟨.word chars, tokens⟩ (t :: tokens)

/-- A character that ends a word begins the next token after the tokens that are held. -/
theorem Holds.step {l : Lexer} {tokens : List Token} (h : Holds l tokens) {c : Char}
    (hc : endsWord c = true) : l.step (some c) = some (start tokens c) := by
  cases h with
  | between => rfl
  | word hword => simp only [Lexer.step, if_pos hc, hword, Option.map_some]

/-- At the end of the text the tokens that are held are all there are. -/
theorem Holds.finish {l : Lexer} {tokens : List Token} (h : Holds l tokens) :
    l.finish = some tokens.reverse := by
  cases h with
  | between => rfl
  | word hword => simp only [Lexer.finish, hword, Option.map_some]

/-- Reading `cs` takes the lexer from `l` to the given tokens. -/
def Reads (l : Lexer) (cs : List Char) (tokens : List Token) : Prop :=
  ∃ l', (cs.map some).foldlM Lexer.step l = some l' ∧ Holds l' tokens

/-- Reading is judged by the tokens that are held at its end. -/
theorem Reads.of_eq {l l' : Lexer} {cs : List Char} {tokens : List Token}
    (h : (cs.map some).foldlM Lexer.step l = some l') (hl' : Holds l' tokens) :
    Reads l cs tokens :=
  ⟨l', h, hl'⟩

/-- What is read in two parts is read as a whole. -/
theorem Reads.append {l : Lexer} {cs ds : List Char} {tokens more : List Token}
    (h : Reads l cs tokens) (hds : ∀ l', Holds l' tokens → Reads l' ds more) :
    Reads l (cs ++ ds) more := by
  obtain ⟨l', hl', hholds⟩ := h
  obtain ⟨l'', hl'', hmore⟩ := hds l' hholds
  refine ⟨l'', ?_, hmore⟩
  rw [foldlM_append, hl', Option.bind_some, hl'']

/-- A punctuation character ends the word before it and is a token. -/
theorem Holds.reads_cons {l : Lexer} {tokens more : List Token} (h : Holds l tokens) {c : Char}
    {t : Token} (hc : punctuation? c = some t) (hquote : c ≠ '"') (hspace : isSpace c = false)
    {cs : List Char} (hcs : Reads ⟨.between, t :: tokens⟩ cs more) : Reads l (c :: cs) more := by
  obtain ⟨l', hl', hmore⟩ := hcs
  refine ⟨l', ?_, hmore⟩
  have hstart : start tokens c = ⟨.between, t :: tokens⟩ := by
    simp only [start, hspace, if_neg hquote, hc]
    rfl
  have hends : endsWord c = true := by simp [endsWord, hc]
  rw [foldlM_cons, h.step hends, hstart, Option.bind_some, hl']

/-- Inside a word, characters that do not end it are kept. -/
theorem foldlM_word {cs : List Char} (h : cs.any endsWord = false) (chars : List Char)
    (tokens : List Token) :
    (cs.map some).foldlM step ⟨.word chars, tokens⟩ =
      some ⟨.word (cs.reverse ++ chars), tokens⟩ := by
  induction cs generalizing chars with
  | nil => rfl
  | cons c cs ih =>
    obtain ⟨hc, hcs⟩ := Bool.or_eq_false_iff.1 h
    have hstep : step ⟨.word chars, tokens⟩ (some c) = some ⟨.word (c :: chars), tokens⟩ := by
      simp only [step, hc]
      rfl
    rw [foldlM_cons, hstep, Option.bind_some, ih hcs, List.reverse_cons, List.append_assoc,
      List.singleton_append]

/-- A word that no character in it ends is read as its token. -/
theorem reads_word {c : Char} {cs : List Char} {t : Token} (h : (c :: cs).any endsWord = false)
    (ht : word? (c :: cs) = some t) (tokens : List Token) :
    Reads ⟨.between, tokens⟩ (c :: cs) (t :: tokens) := by
  obtain ⟨hc, hcs⟩ := Bool.or_eq_false_iff.1 h
  have hstart : start tokens c = ⟨.word [c], tokens⟩ := by
    simp only [endsWord, Bool.or_eq_false_iff, beq_eq_false_iff_ne, Option.isSome_eq_false_iff,
      Option.isNone_iff_eq_none] at hc
    simp only [start, hc.1.1, if_neg hc.1.2, hc.2]
    rfl
  have hword : word? (c :: cs).reverse.reverse = some t := by rwa [List.reverse_reverse]
  refine .of_eq ?_ (.word hword tokens)
  rw [foldlM_cons]
  show (cs.map some).foldlM Lexer.step (start tokens c) = _
  rw [hstart, foldlM_word hcs, List.reverse_cons]

end Lexer

/-- A number is written as a word that is read as the same number. -/
structure Number.Legible (n : Number) : Prop where
  ne_nil : n.write ≠ []
  word : n.write.any Lexer.endsWord = false
  read : word? n.write = some (.num (some n))

mutual

/-- Every number of a value is legible. -/
def Legible : Json → Prop
  | .null | .bool _ | .str _ => True
  | .num n => n.Legible
  | .arr items => AreItemsLegible items
  | .obj fields => AreFieldsLegible fields

/-- Every number of an array's items is legible. -/
def AreItemsLegible : List Json → Prop
  | [] => True
  | item :: rest => item.Legible ∧ AreItemsLegible rest

/-- Every number of an object's fields is legible. -/
def AreFieldsLegible : List (String × Json) → Prop
  | [] => True
  | (_, value) :: rest => value.Legible ∧ AreFieldsLegible rest

end

mutual

/-- The tokens that a value is written as. -/
def tokens : Json → List Token
  | .null => [.null]
  | .bool b => [.bool b]
  | .num n => [.num (some n)]
  | .str s => [.str (some s)]
  | .arr [] => [.openArray, .closeArray]
  | .arr (item :: rest) => .openArray :: item.tokens ++ itemTokens rest
  | .obj [] => [.openObject, .closeObject]
  | .obj ((name, value) :: rest) =>
    .openObject :: .str (some name) :: .colon :: value.tokens ++ fieldTokens rest

/-- The tokens of the items after the first one, up to the end of the array. -/
def itemTokens : List Json → List Token
  | [] => [.closeArray]
  | item :: rest => .comma :: item.tokens ++ itemTokens rest

/-- The tokens of the fields after the first one, up to the end of the object. -/
def fieldTokens : List (String × Json) → List Token
  | [] => [.closeObject]
  | (name, value) :: rest =>
    .comma :: .str (some name) :: .colon :: value.tokens ++ fieldTokens rest

end

/-! ## Reading the text of a value -/

section

open Lexer

/-- A name and the colon after it are read as their tokens. -/
private theorem reads_name (name : String) {cs : List Char} {ts more : List Token}
    (hcs : Reads ⟨.between, .colon :: .str (some name) :: ts⟩ cs more) :
    Reads ⟨.between, ts⟩ (writeString name ++ ':' :: cs) more := by
  refine (Reads.of_eq (foldlM_writeString name ts) (.between _)).append fun l hl => ?_
  exact hl.reads_cons rfl (by decide) (by decide) hcs

mutual

/-- **Tokens.** The text of a value is read as the tokens of the value. -/
theorem reads_write : (v : Json) → v.Legible → (ts : List Token) →
    Reads ⟨.between, ts⟩ v.write (v.tokens.reverse ++ ts)
  | .null, _, ts => reads_word rfl rfl ts
  | .bool true, _, ts => reads_word rfl rfl ts
  | .bool false, _, ts => reads_word rfl rfl ts
  | .num n, h, ts => by
    simp only [Legible] at h
    obtain ⟨c, cs, hwrite⟩ := List.exists_cons_of_ne_nil h.ne_nil
    rw [write, hwrite]
    exact reads_word (hwrite ▸ h.word) (hwrite ▸ h.read) ts
  | .str s, _, ts => .of_eq (foldlM_writeString s ts) (.between _)
  | .arr [], _, ts => .of_eq rfl (.between _)
  | .arr (item :: rest), h, ts => by
    simp only [Legible, AreItemsLegible] at h
    rw [tokens, List.cons_append, List.reverse_cons, List.reverse_append, List.append_assoc,
      List.append_assoc, write, List.cons_append]
    refine (Holds.between ts).reads_cons rfl (by decide) (by decide) ?_
    exact (reads_write item h.1 (.openArray :: ts)).append fun l hl => reads_writeItems rest h.2 hl
  | .obj [], _, ts => .of_eq rfl (.between _)
  | .obj ((name, value) :: rest), h, ts => by
    simp only [Legible, AreFieldsLegible] at h
    simp only [tokens, List.cons_append, List.reverse_cons, List.reverse_append, List.append_assoc,
      write, List.nil_append]
    refine (Holds.between ts).reads_cons rfl (by decide) (by decide) (reads_name name ?_)
    exact (reads_write value h.1 _).append fun l hl => reads_writeFields rest h.2 hl

/-- The rest of an array is read as the tokens of its items and of the bracket. -/
theorem reads_writeItems : (items : List Json) → AreItemsLegible items →
    {l : Lexer} → {ts : List Token} → Holds l ts →
    Reads l (writeItems items) ((itemTokens items).reverse ++ ts)
  | [], _, _, _, hl => hl.reads_cons rfl (by decide) (by decide) (.of_eq rfl (.between _))
  | item :: rest, h, _, ts, hl => by
    simp only [AreItemsLegible] at h
    simp only [itemTokens, List.cons_append, List.reverse_cons, List.reverse_append,
      List.append_assoc, writeItems, List.nil_append]
    refine hl.reads_cons rfl (by decide) (by decide) ?_
    exact (reads_write item h.1 (.comma :: ts)).append fun l hl => reads_writeItems rest h.2 hl

/-- The rest of an object is read as the tokens of its fields and of the bracket. -/
theorem reads_writeFields : (fields : List (String × Json)) → AreFieldsLegible fields →
    {l : Lexer} → {ts : List Token} → Holds l ts →
    Reads l (writeFields fields) ((fieldTokens fields).reverse ++ ts)
  | [], _, _, _, hl => hl.reads_cons rfl (by decide) (by decide) (.of_eq rfl (.between _))
  | (name, value) :: rest, h, _, ts, hl => by
    simp only [AreFieldsLegible] at h
    simp only [fieldTokens, List.cons_append, List.reverse_cons, List.reverse_append,
      List.append_assoc, writeFields, List.nil_append]
    refine hl.reads_cons rfl (by decide) (by decide) (reads_name name ?_)
    exact (reads_write value h.1 _).append fun l hl => reads_writeFields rest h.2 hl

end

end

/-- The text of a value consists of its tokens. -/
theorem tokens?_write {v : Json} (h : v.Legible) : tokens? (v.write.map some) = some v.tokens := by
  obtain ⟨l, hl, hholds⟩ := reads_write v h []
  unfold tokens?
  rw [hl]
  show l.finish = _
  rw [hholds.finish, List.append_nil, List.reverse_reverse]

/-! ## Parsing the tokens of a value -/

mutual

/-- How many arrays and objects of a value are nested. -/
def depth : Json → Nat
  | .null | .bool _ | .num _ | .str _ => 0
  | .arr items => 1 + itemDepth items
  | .obj fields => 1 + fieldDepth fields

/-- How deep the items of an array are. -/
def itemDepth : List Json → Nat
  | [] => 0
  | item :: rest => max item.depth (itemDepth rest)

/-- How deep the fields of an object are. -/
def fieldDepth : List (String × Json) → Nat
  | [] => 0
  | (_, value) :: rest => max value.depth (fieldDepth rest)

end

namespace Doc.Parser

/-- Closing a value is putting it where it belongs, as long as the nesting is within the limit. -/
theorem close_eq {doc : Doc} {around : List Frame} (h : around.length < depthLimit) :
    close doc around = push doc around := by
  rw [close, if_pos h]

/-- Tokens in a row are parsed one group after the other. -/
theorem foldlM_append (ts us : List Token) (q : Parser) :
    (ts ++ us).foldlM step q = (ts.foldlM step q).bind fun q => us.foldlM step q :=
  List.foldlM_append

/-- The first item of an array is parsed like any other. -/
theorem foldlM_firstItem (v : Json) (around : List Frame) (rest : List Token) :
    (v.tokens ++ rest).foldlM step (firstItem around) =
      (v.tokens ++ rest).foldlM step (value (.arr [] :: around)) := by
  have hhead : ∃ t ts, v.tokens = t :: ts ∧
      step (firstItem around) t = open? (.arr [] :: around) t := by
    rcases v with _ | _ | _ | _ | ⟨_ | _⟩ | ⟨_ | _⟩ <;> exact ⟨_, _, rfl, rfl⟩
  obtain ⟨t, ts, hts, ht⟩ := hhead
  rw [hts, List.cons_append, List.foldlM_cons, List.foldlM_cons, ht]
  rfl

mutual

/-- The tokens of a value are parsed as the document that says it. -/
theorem foldlM_tokens : (v : Json) → (around : List Frame) →
    v.depth + around.length ≤ depthLimit →
    v.tokens.foldlM step (value around) = some (push v.toDoc around)
  | .null, _, _ => rfl
  | .bool _, _, _ => rfl
  | .num _, _, _ => rfl
  | .str _, _, _ => rfl
  | .arr [], around, h => by
    simp only [depth, itemDepth] at h
    show some (close (.arr .json []) around) = _
    rw [close_eq (by omega)]
    rfl
  | .arr (item :: rest), around, h => by
    simp only [depth, itemDepth] at h
    -- The parser is still at the array's first item, which no closing bracket may replace.
    show (item.tokens ++ itemTokens rest).foldlM step (firstItem around) = _
    rw [foldlM_firstItem, foldlM_append,
      foldlM_tokens item _ (by simp only [List.length_cons]; omega)]
    show (itemTokens rest).foldlM step (afterItem [item.toDoc] around) = _
    rw [foldlM_itemTokens rest _ _ (by omega)]
    rfl
  | .obj [], around, h => by
    simp only [depth, fieldDepth] at h
    show some (close (.obj .json []) around) = _
    rw [close_eq (by omega)]
    rfl
  | .obj ((name, field) :: rest), around, h => by
    simp only [depth, fieldDepth] at h
    show (field.tokens ++ fieldTokens rest).foldlM step (value (.obj [] (some name) :: around)) = _
    rw [foldlM_append, foldlM_tokens field _ (by simp only [List.length_cons]; omega)]
    show (fieldTokens rest).foldlM step (afterField [(some name, field.toDoc)] around) = _
    rw [foldlM_fieldTokens rest _ _ (by omega)]
    rfl

/-- The tokens of the remaining items complete an array. -/
theorem foldlM_itemTokens : (items : List Json) → (read : List Doc) → (around : List Frame) →
    1 + itemDepth items + around.length ≤ depthLimit →
    (itemTokens items).foldlM step (afterItem read around) =
      some (push (.arr .json (read.reverse ++ itemsToDoc items)) around)
  | [], read, around, h => by
    show some (close (.arr .json read.reverse) around) = _
    rw [close_eq (by omega), itemsToDoc, List.append_nil]
  | item :: rest, read, around, h => by
    simp only [itemDepth] at h
    show (item.tokens ++ itemTokens rest).foldlM step (value (.arr read :: around)) = _
    rw [foldlM_append, foldlM_tokens item _ (by simp only [List.length_cons]; omega)]
    show (itemTokens rest).foldlM step (afterItem (item.toDoc :: read) around) = _
    rw [foldlM_itemTokens rest _ _ (by omega), List.reverse_cons, List.append_assoc]
    rfl

/-- The tokens of the remaining fields complete an object. -/
theorem foldlM_fieldTokens : (fields : List (String × Json)) →
    (read : List (Option String × Doc)) → (around : List Frame) →
    1 + fieldDepth fields + around.length ≤ depthLimit →
    (fieldTokens fields).foldlM step (afterField read around) =
      some (push (.obj .json (read.reverse ++ fieldsToDoc fields)) around)
  | [], read, around, h => by
    show some (close (.obj .json read.reverse) around) = _
    rw [close_eq (by omega), fieldsToDoc, List.append_nil]
  | (name, field) :: rest, read, around, h => by
    simp only [fieldDepth] at h
    show (field.tokens ++ fieldTokens rest).foldlM step
      (value (.obj read (some name) :: around)) = _
    rw [foldlM_append, foldlM_tokens field _ (by simp only [List.length_cons]; omega)]
    show (fieldTokens rest).foldlM step (afterField ((some name, field.toDoc) :: read) around) = _
    rw [foldlM_fieldTokens rest _ _ (by omega), List.reverse_cons, List.append_assoc]
    rfl

end

end Doc.Parser

/-- The text of a value is read as the document that says it. -/
theorem Doc.parse?_write {v : Json} (h : v.Legible) (hdepth : v.depth ≤ depthLimit) :
    parse? (v.write.map some) = some v.toDoc := by
  unfold parse?
  rw [tokens?_write h]
  show (v.tokens.foldlM Parser.step (.value [])).bind Parser.doc? = _
  rw [Parser.foldlM_tokens v [] (by simpa using hdepth)]
  rfl

/-- The bytes of a value's text are read as the document that says it. -/
theorem Doc.parse?_decode_encode {v : Json} (h : v.Legible) (hdepth : v.depth ≤ depthLimit) :
    parse? (Text.decode (Text.encode v.render)) = some v.toDoc := by
  rw [Text.decode_encode, render, String.toList_ofList, parse?_write h hdepth]

end Json

end ModelClient
