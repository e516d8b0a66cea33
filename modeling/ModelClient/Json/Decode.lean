import ModelClient.Json.Doc

/-!
# Reading values of known shape

A decoder takes a document to a value of the shape it knows, `none` when the document has another
shape. A record is written as an object, in which unknown fields are passed over and a known field
must not be repeated, or as an array of the fields' values in their order. In TOML such an array may
hold more values than the record has fields.
-/

namespace ModelClient.Json

/-- A reader of values of one shape. -/
abbrev Decoder (α : Type) := Doc → Option α

namespace Decode

/-- A text. -/
def string : Decoder String
  | .str s => s
  | _ => none

/-- A truth value. -/
def bool : Decoder Bool
  | .bool b => some b
  | _ => none

/-- A number of any kind. -/
def number : Decoder Number
  | .num n => n
  | _ => none

/-- An integer between bounds; a number with a fraction or an exponent is none. -/
def intIn (low high : Int) : Decoder Int := fun d => do
  let n ← (← number d).toInt?
  if low ≤ n ∧ n ≤ high then some n else none

/-- An unsigned integer of 32 bits. -/
def uint32 : Decoder UInt32 := fun d =>
  (intIn 0 (2 ^ 32 - 1) d).map fun n => UInt32.ofNat n.toNat

/-- An unsigned integer of 64 bits. -/
def uint64 : Decoder UInt64 := fun d =>
  (intIn 0 (2 ^ 64 - 1) d).map fun n => UInt64.ofNat n.toNat

/-- An unsigned integer of 8 bits. -/
def uint8 : Decoder UInt8 := fun d =>
  (intIn 0 255 d).map fun n => UInt8.ofNat n.toNat

/-- A signed integer of 64 bits. -/
def int64 : Decoder Int64 := fun d =>
  (intIn (-2 ^ 63) (2 ^ 63 - 1) d).map Int64.ofInt

/-- A number in double precision. -/
def binary64 : Decoder Binary64 := fun d => (number d).map Number.toBinary64

/-- A number in single precision. -/
def binary32 : Decoder Binary32 := fun d => (number d).map Number.toBinary32

/-- Any value. -/
def json : Decoder Json := Doc.toJson?

/-- A value or `null`. -/
def nullable {α : Type} (decode : Decoder α) : Decoder (Option α)
  | .null => some none
  | d => (decode d).map some

/-- A list of values. -/
def list {α : Type} (decode : Decoder α) : Decoder (List α)
  | .arr _ items => items.mapM decode
  | _ => none

/-- Values by name; of a repeated name the last value counts. -/
def dict {α : Type} (decode : Decoder α) : Decoder (Dict α)
  | .obj _ fields => do
    let entries ← fields.mapM fun (name, value) => do
      let name ← name
      let value ← decode value
      some (name, value)
    some (Dict.ofList entries)
  | _ => none

/-- A set of names. -/
def nameSet : Decoder NameSet := fun d => (list string d).map NameSet.ofList

/-- A choice without content, written as its name or as an object from its name to nothing. -/
def choice {α : Type} (ofName? : String → Option α) : Decoder α
  | .str (some s) => ofName? s
  | .obj _ [(some s, content)] => if content.isVoid then ofName? s else none
  | _ => none

end Decode

/-- The known fields that a record gives, and whether they are given by position. -/
structure Record where
  fields : List (String × Doc)
  positional : Bool

/-- The fields of an object among the known ones, none of them repeated; the others are passed over.
-/
def knownFields (names : List String) :
    List (Option String × Doc) → Option (List (String × Doc))
  | [] => some []
  | (name, value) :: rest => do
    let name ← name
    let rest ← knownFields names rest
    if !names.contains name then if value.isPassable then some rest else none
    else if (rest.lookup name).isSome then none
    else some ((name, value) :: rest)

/-- The fields that a document gives of a record with the fields `names`. -/
def Doc.record? (names : List String) : Doc → Option Record
  | .obj _ fields => (knownFields names fields).map (⟨·, false⟩)
  | .arr .json items => if items.length ≤ names.length then some ⟨names.zip items, true⟩ else none
  | .arr .toml items => some ⟨names.zip items, true⟩
  | _ => none

namespace Record

/-- The field's document, if it is given. -/
def doc? (r : Record) (name : String) : Option Doc := r.fields.lookup name

/-- A field that has to be given. -/
def required {α : Type} (r : Record) (name : String) (decode : Decoder α) : Option α := do
  decode (← r.doc? name)

/-- A field that has the value `default` when it is not given. -/
def defaulted {α : Type} (r : Record) (name : String) (default : α) (decode : Decoder α) :
    Option α :=
  match r.doc? name with
  | none => some default
  | some d => decode d

/-- A field that may be missing or `null`. -/
def optional {α : Type} (r : Record) (name : String) (decode : Decoder α) : Option (Option α) :=
  r.defaulted name none (Decode.nullable decode)

/-- A field that may be `null`, and missing only if the record is not given by position. -/
def nullable {α : Type} (r : Record) (name : String) (decode : Decoder α) : Option (Option α) :=
  match r.doc? name with
  | none => if r.positional then none else some none
  | some d => Decode.nullable decode d

end Record

end ModelClient.Json
