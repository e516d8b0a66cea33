import ModelClient.Json.Basic
import ModelClient.Json.Token

/-!
# Documents as they are read

A `Doc` is what a text says before anyone asks for a value of it: objects keep their fields in the
order of the text, repeated names included, and places that have no value (a number that is too
large, a string with half a surrogate pair, nesting beyond `depthLimit`) are kept as such.
`Doc.toJson?` is the value of a document that has no such place; a reader of a record looks at the
fields it knows and passes over the others.

A text is written in JSON or in TOML, and arrays and objects remember in which, because the two are
not read alike: only in JSON does a record that is written as an array end with its last field, and
only in JSON is there a `null` for content that is not there.

The parser of JSON takes the tokens one by one and keeps the arrays and objects that are still open.
-/

namespace ModelClient.Json

/-- The language that a text is written in. -/
inductive Dialect where
  | json
  | toml
deriving DecidableEq, Repr

/-- A text as it is read. -/
inductive Doc where
  | null
  | bool (b : Bool)
  | num (n : Option Number)
  | str (s : Option String)
  | arr (dialect : Dialect) (items : List Doc)
  | obj (dialect : Dialect) (fields : List (Option String × Doc))
  /-- An array or object nested beyond the limit. -/
  | tooDeep
  /-- A number so large that it cannot even be passed over. -/
  | outOfRange

instance : Inhabited Doc := ⟨.null⟩

namespace Doc

mutual

/-- The value of a document, if every place of it has one. Of a name that an object repeats, the
last value counts. -/
def toJson? : Doc → Option Json
  | .null => some .null
  | .bool b => some (.bool b)
  | .num n => n.map ofNumber
  | .str s => s.map Json.str
  | .arr _ items => (itemsToJson? items).map Json.arr
  | .obj _ fields => (fieldsToJson? fields).map fun fields => .ofDict (Dict.ofList fields)
  | .tooDeep | .outOfRange => none

/-- The values of an array's items. -/
def itemsToJson? : List Doc → Option (List Json)
  | [] => some []
  | item :: rest => do
    let item ← item.toJson?
    let rest ← itemsToJson? rest
    some (item :: rest)

/-- The named values of an object's fields, in the order of the text. -/
def fieldsToJson? : List (Option String × Doc) → Option (List (String × Json))
  | [] => some []
  | (name, value) :: rest => do
    let name ← name
    let value ← value.toJson?
    let rest ← fieldsToJson? rest
    some ((name, value) :: rest)

end

mutual

/-- Whether a document may be passed over by a reader who does not ask for its value. -/
def isPassable : Doc → Bool
  | .null | .bool _ | .num _ | .str _ | .tooDeep => true
  | .arr _ items => areItemsPassable items
  | .obj _ fields => areFieldsPassable fields
  | .outOfRange => false

/-- Whether all items of an array may be passed over. -/
def areItemsPassable : List Doc → Bool
  | [] => true
  | item :: rest => item.isPassable && areItemsPassable rest

/-- Whether all fields of an object may be passed over. -/
def areFieldsPassable : List (Option String × Doc) → Bool
  | [] => true
  | (_, value) :: rest => value.isPassable && areFieldsPassable rest

end

/-- Whether a document says that there is nothing: with `null`, or in TOML with an empty table or
list. -/
def isVoid : Doc → Bool
  | .null | .arr .toml [] | .obj .toml [] => true
  | _ => false

/-- How many arrays and objects may be nested. -/
def depthLimit : Nat := 127

/-- An array or object that is still open: its parts so far, last first, and for an object the name
whose value is being read. -/
inductive Frame where
  | arr (items : List Doc)
  | obj (fields : List (Option String × Doc)) (name : Option String)

/-- What the parser waits for, inside the arrays and objects that are open around it, innermost
first. -/
inductive Parser where
  | value (around : List Frame)
  /-- An item or the end of an array without items so far. -/
  | firstItem (around : List Frame)
  | afterItem (items : List Doc) (around : List Frame)
  /-- A name or the end of an object without fields so far. -/
  | firstName (around : List Frame)
  | nextName (fields : List (Option String × Doc)) (around : List Frame)
  | nextColon (fields : List (Option String × Doc)) (name : Option String) (around : List Frame)
  | afterField (fields : List (Option String × Doc)) (around : List Frame)
  | finished (doc : Doc)

namespace Parser

/-- A complete value in its place. -/
def push (doc : Doc) : List Frame → Parser
  | [] => finished doc
  | .arr items :: around => afterItem (doc :: items) around
  | .obj fields name :: around => afterField ((name, doc) :: fields) around

/-- A complete array or object in its place, unless it is nested too deep. -/
def close (doc : Doc) (around : List Frame) : Parser :=
  push (if around.length < depthLimit then doc else .tooDeep) around

/-- The first token of a value. -/
def open? (around : List Frame) : Token → Option Parser
  | .null => some (push .null around)
  | .bool b => some (push (.bool b) around)
  | .num n => some (push (.num n) around)
  | .str s => some (push (.str s) around)
  | .openArray => some (firstItem around)
  | .openObject => some (firstName around)
  | .closeArray | .closeObject | .comma | .colon => none

/-- One token. -/
def step : Parser → Token → Option Parser
  | value around, t => open? around t
  | firstItem around, .closeArray => some (close (.arr .json []) around)
  | firstItem around, t => open? (.arr [] :: around) t
  | afterItem items around, .comma => some (value (.arr items :: around))
  | afterItem items around, .closeArray => some (close (.arr .json items.reverse) around)
  | firstName around, .closeObject => some (close (.obj .json []) around)
  | firstName around, .str s => some (nextColon [] s around)
  | nextName fields around, .str s => some (nextColon fields s around)
  | nextColon fields s around, .colon => some (value (.obj fields s :: around))
  | afterField fields around, .comma => some (nextName fields around)
  | afterField fields around, .closeObject => some (close (.obj .json fields.reverse) around)
  | afterItem _ _, _ | firstName _, _ | nextName _ _, _ | nextColon _ _ _, _ | afterField _ _, _
  | finished _, _ => none

/-- The document, if it is complete. -/
def doc? : Parser → Option Doc
  | finished doc => some doc
  | _ => none

end Parser

/-- The document of a text in which places that are no character are `none`. -/
def parse? (text : List (Option Char)) : Option Doc := do
  let tokens ← tokens? text
  (← tokens.foldlM Parser.step (.value [])).doc?

/-- The document of a text. -/
def ofString? (s : String) : Option Doc :=
  parse? (s.toList.map some)

end Doc

mutual

/-- The document that says a value. -/
def toDoc : Json → Doc
  | .null => .null
  | .bool b => .bool b
  | .num n => .num (some n)
  | .str s => .str (some s)
  | .arr items => .arr .json (itemsToDoc items)
  | .obj fields => .obj .json (fieldsToDoc fields)

/-- The documents that say the items of an array. -/
def itemsToDoc : List Json → List Doc
  | [] => []
  | item :: rest => item.toDoc :: itemsToDoc rest

/-- The documents that say the fields of an object. -/
def fieldsToDoc : List (String × Json) → List (Option String × Doc)
  | [] => []
  | (name, value) :: rest => (some name, value.toDoc) :: fieldsToDoc rest

end

/-- The value of a text. -/
def ofString? (s : String) : Option Json := do
  (← Doc.ofString? s).toJson?

end ModelClient.Json
