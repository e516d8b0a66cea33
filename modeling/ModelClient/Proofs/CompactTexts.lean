import ModelClient.Json.Printer

/-!
# Compact text

The compact text of a JSON value, described part by part: an array is its items between brackets,
with commas between them, an object its fields in the same way, and a string stands between quotes
with an escape for each character that needs one (`Json.compact`). The printer goes over a value
once instead and writes the rest of an array, its comma or its closing bracket first; what it writes
is the same text (`Json.render_eq_compact`).

What is sent to the model as text, the result of a tool or the metadata of a document, is shown: a
string as it is, any other value in its compact text (`Json.plain_eq_shown`).
-/

namespace ModelClient.Json

/-! ## Characters and numbers -/

/-- The characters with an escape of one letter. -/
def letterEscapes : List (Char × String) :=
  [('"', "\\\""), ('\\', "\\\\"), ('\x08', "\\b"), ('\x0c', "\\f"), ('\n', "\\n"), ('\r', "\\r"),
    ('\t', "\\t")]

/-- A character between quotes: an escape of one letter, or the number of any other control
character, or the character itself. -/
def escaped (c : Char) : String :=
  match letterEscapes.lookup c with
  | some escape => escape
  | none =>
    if c.toNat < 0x20 then
      "\\u00" ++ String.ofList [Nat.digitChar (c.toNat / 16), Nat.digitChar (c.toNat % 16)]
    else String.ofList [c]

/-- A string between quotes. -/
def quoted (s : String) : String := "\"" ++ String.join (s.toList.map escaped) ++ "\""

/-- The digits of a number. An integer is written in decimal. -/
def Number.text : Number → String
  | .int n _ => toString n
  | .float x => String.ofList (Number.float x).write

/-- The printer's hexadecimal digits are those of the core library. -/
theorem hexDigit_eq_digitChar {n : Nat} (h : n < 16) : hexDigit n = Nat.digitChar n := by
  have hall : ∀ n : Fin 16, hexDigit n = Nat.digitChar n := by decide
  exact hall ⟨n, h⟩

/-- A character is written as it is escaped. -/
theorem ofList_writeChar (c : Char) : String.ofList (writeChar c) = escaped c := by
  by_cases hletter : c ∈ letterEscapes.map (·.1)
  · have hall : ∀ c ∈ letterEscapes.map (·.1), String.ofList (writeChar c) = escaped c := by
      simp only [letterEscapes, List.map_cons, List.map_nil, List.forall_mem_cons]
      exact ⟨rfl, rfl, rfl, rfl, rfl, rfl, rfl, List.forall_mem_nil _⟩
    exact hall c hletter
  · have hnone : letterEscapes.lookup c = none := by
      refine List.lookup_eq_none_iff.2 fun entry hentry => ?_
      have hne : c ≠ entry.1 := by
        intro h
        exact hletter (h ▸ List.mem_map_of_mem hentry)
      simpa using hne
    simp only [letterEscapes, List.map_cons, List.map_nil, List.mem_cons, List.not_mem_nil,
      or_false, not_or] at hletter
    obtain ⟨hquote, hslash, hb, hf, hn, hr, ht⟩ := hletter
    rw [writeChar, if_neg hquote, if_neg hslash, if_neg hb, if_neg hf, if_neg hn, if_neg hr,
      if_neg ht, escaped]
    simp only [hnone]
    split
    · next hcontrol =>
      rw [hexDigit_eq_digitChar (by omega), hexDigit_eq_digitChar (by omega)]
      exact @String.ofList_append ['\\', 'u', '0', '0'] _
    · rfl

/-- A string is written with its quotes. -/
theorem ofList_writeString (s : String) : String.ofList (writeString s) = quoted s := by
  have hchars (cs : List Char) :
      String.ofList (cs.flatMap writeChar) = String.join (cs.map escaped) := by
    induction cs with
    | nil => rfl
    | cons c cs ih =>
      rw [List.flatMap_cons, String.ofList_append, ofList_writeChar, ih, List.map_cons,
        String.join_cons]
  rw [writeString, String.ofList_append, String.ofList_cons, hchars, quoted]
  rfl

/-- A number is written in its digits. -/
theorem Number.ofList_write (n : Number) : String.ofList n.write = n.text := by
  cases n with
  | float x => rfl
  | int n _ =>
    cases n with
    | ofNat n => rfl
    | negSucc n =>
      rw [write, if_pos (Int.negSucc_lt_zero n), String.ofList_cons]
      rfl

/-! ## Values -/

mutual

/-- The compact text of a value. -/
def compact : Json → String
  | .null => "null"
  | .bool b => if b then "true" else "false"
  | .num n => n.text
  | .str s => quoted s
  | .arr items => "[" ++ ",".intercalate (compactItems items) ++ "]"
  | .obj fields => "\x7b" ++ ",".intercalate (compactFields fields) ++ "\x7d"

/-- The compact texts of some items. -/
def compactItems : List Json → List String
  | [] => []
  | item :: rest => item.compact :: compactItems rest

/-- The compact texts of some fields. -/
def compactFields : List (String × Json) → List String
  | [] => []
  | (name, value) :: rest => (quoted name ++ ":" ++ value.compact) :: compactFields rest

end

/-- Texts with commas between them: the first one, and each of the others behind a comma. -/
theorem intercalate_comma_cons (text : String) (rest : List String) :
    ",".intercalate (text :: rest) = text ++ String.join (rest.map ("," ++ ·)) := by
  induction rest generalizing text with
  | nil => rw [String.intercalate_singleton, List.map_nil, String.join_nil, String.append_empty]
  | cons next rest ih =>
    rw [String.intercalate_cons_cons, ih, List.map_cons, String.join_cons]
    simp only [String.append_assoc]

mutual

/-- A value is written in its compact text. -/
theorem ofList_write : (v : Json) → String.ofList v.write = v.compact
  | .null => rfl
  | .bool true => rfl
  | .bool false => rfl
  | .num n => by rw [write, compact, n.ofList_write]
  | .str s => by rw [write, compact, ofList_writeString]
  | .arr [] => rfl
  | .arr (item :: rest) => by
    rw [write, compact, compactItems, intercalate_comma_cons, String.ofList_append,
      String.ofList_cons, ofList_write item, ofList_writeItems rest]
    simp only [String.append_assoc]
    rfl
  | .obj [] => rfl
  | .obj ((name, value) :: rest) => by
    rw [write, compact, compactFields, intercalate_comma_cons, String.ofList_append,
      String.ofList_append, String.ofList_cons, String.ofList_cons, ofList_writeString,
      ofList_write value, ofList_writeFields rest]
    simp only [String.append_assoc]
    rfl

/-- The rest of an array is its other items, each behind a comma, and the bracket. -/
theorem ofList_writeItems : (items : List Json) →
    String.ofList (writeItems items) =
      String.join ((compactItems items).map ("," ++ ·)) ++ "]"
  | [] => rfl
  | item :: rest => by
    rw [writeItems, compactItems, String.ofList_append, String.ofList_cons, ofList_write item,
      ofList_writeItems rest, List.map_cons, String.join_cons]
    simp only [String.append_assoc]
    rfl

/-- The rest of an object is its other fields, each behind a comma, and the bracket. -/
theorem ofList_writeFields : (fields : List (String × Json)) →
    String.ofList (writeFields fields) =
      String.join ((compactFields fields).map ("," ++ ·)) ++ "\x7d"
  | [] => rfl
  | (name, value) :: rest => by
    rw [writeFields, compactFields, String.ofList_append, String.ofList_append,
      String.ofList_cons, String.ofList_cons, ofList_writeString, ofList_write value,
      ofList_writeFields rest, List.map_cons, String.join_cons]
    simp only [String.append_assoc]
    rfl

end

/-- **What is printed is the compact text**, whatever the value. -/
theorem render_eq_compact (v : Json) : v.render = v.compact := ofList_write v

example : (Json.obj [("a", .arr [.nat 1, .str "\"", .null]), ("b", .bool true)]).render =
    "\x7b\"a\":[1,\"\\\"\",null],\"b\":true\x7d" := by
  decide

/-- The text in which a value is shown: a string is shown as it is, any other value in its compact
text. -/
def shown : Json → String
  | .str s => s
  | v => v.compact

/-- A value is given out as text in the text that it is shown in. -/
theorem plain_eq_shown (v : Json) : v.plain = v.shown := by
  cases v with
  | str s => rfl
  | _ => exact render_eq_compact _

end ModelClient.Json
