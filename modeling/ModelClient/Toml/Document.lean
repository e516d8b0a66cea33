import ModelClient.Toml.Table

/-!
# Documents of TOML

Lists, tables inside a value, and the lines of a document. Inside brackets and braces the parts may
stand on lines of their own, with comments between them, and a comma may follow the last part.
-/

namespace ModelClient.Toml

open Json

/-- The items of a list up to its end. -/
def items (item : Parser Doc) : (fuel : Nat) → Parser (List Doc)
  | 0, _ => none
  | fuel + 1, cs =>
    match skipSpace cs with
    | ']' :: cs => some ([], cs)
    | cs => do
      let (d, cs) ← item cs
      match skipSpace cs with
      | ',' :: cs =>
        let (ds, cs) ← items item fuel cs
        some (d :: ds, cs)
      | ']' :: cs => some ([d], cs)
      | _ => none

/-- A key with its value, where `skip` drops what may stand around the equals sign. -/
def binding (skip : List Char → List Char) (value : Parser Doc) : Parser (List String × Doc) :=
  fun cs => do
    let (key, cs) ← key? cs
    match skip cs with
    | '=' :: cs =>
      let (d, cs) ← value (skip cs)
      some ((key, d), cs)
    | _ => none

/-- The entries of a table in braces up to its end, after the ones that are known. -/
def fields (value : Parser Doc) : (fuel : Nat) → Entries → Parser Entries
  | 0, _, _ => none
  | fuel + 1, entries, cs =>
    match skipSpace cs with
    | '\x7d' :: cs => some (entries, cs)
    | cs => do
      let ((key, d), cs) ← binding skipSpace value cs
      let entries ← entries.put d key
      match skipSpace cs with
      | ',' :: cs => fields value fuel entries cs
      | '\x7d' :: cs => some (entries, cs)
      | _ => none

/-- A value in which lists and tables are nested at most `depth` levels. -/
def value : (depth : Nat) → Parser Doc
  | 0, cs => scalar? cs
  | depth + 1, cs =>
    match cs with
    | '[' :: cs => (items (value depth) (cs.length + 1) cs).map fun (ds, cs) => (.arr .toml ds, cs)
    | '\x7b' :: cs => (fields (value depth) (cs.length + 1) [] cs).map fun (entries, cs) =>
      (.obj .toml (entriesToDoc entries), cs)
    | cs => scalar? cs

/-- A document so far: its entries, and the table that the next lines belong to. -/
structure Draft where
  entries : Entries
  path : List String

namespace Draft

/-- The draft after a header. -/
def header (d : Draft) (path : List String) (isList : Bool) : Option Draft := do
  let name ← path.getLast?
  let change := if isList then Entries.addTable name else Entries.give name
  some ⟨← d.entries.within change path.dropLast, path⟩

/-- The draft after a key with its value. -/
def bind (d : Draft) (key : List String) (value : Doc) : Option Draft := do
  some { d with entries := ← d.entries.within (Entries.put value key) d.path }

/-- The draft after one line, and the input after it. -/
def line (d : Draft) (cs : List Char) : Option (Draft × List Char) :=
  match skipBlanks cs with
  | '[' :: '[' :: cs => do
    let (path, cs) ← key? cs
    match skipBlanks cs with
    | ']' :: ']' :: cs => some (← d.header path true, ← lineEnd? cs)
    | _ => none
  | '[' :: cs => do
    let (path, cs) ← key? cs
    match skipBlanks cs with
    | ']' :: cs => some (← d.header path false, ← lineEnd? cs)
    | _ => none
  | cs => do
    match lineEnd? cs with
    | some cs => some (d, cs)
    | none =>
      let ((key, value), cs) ← binding skipBlanks (value depthLimit) cs
      some (← d.bind key value, ← lineEnd? cs)

/-- The draft after all lines, of which there are at most `fuel`. -/
def lines : (fuel : Nat) → Draft → List Char → Option Draft
  | _, d, [] => some d
  | 0, _, _ :: _ => none
  | fuel + 1, d, cs => do
    let (d, cs) ← d.line cs
    lines fuel d cs

end Draft

/-- The document of a text, which may begin with a byte order mark. -/
def read? (text : String) : Option Doc := do
  let cs := match text.toList with
    | '\uFEFF' :: cs => cs
    | cs => cs
  let d ← Draft.lines (cs.length + 1) ⟨[], []⟩ cs
  some (.obj .toml (entriesToDoc d.entries))

end ModelClient.Toml
