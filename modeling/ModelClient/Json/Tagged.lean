import ModelClient.Json.Decode

/-!
# Values that name their own shape

A tagged value carries the name of its shape in a field beside its other fields, or in front of them
when it is written as an array. Because the shape may be named last, the whole value is read before
any of it is used: a place without a value anywhere in it is an error, even in a field that nobody
asks for.
-/

namespace ModelClient.Json

/-- The document itself, if every place of it has a value. -/
def Doc.sound? (d : Doc) : Option Doc :=
  if d.toJson?.isSome then some d else none

/-- The tag of a tagged value and the value without its tag. -/
def Doc.tagged? (tag : String) (d : Doc) : Option (Doc × Doc) := do
  match ← d.sound? with
  | .obj dialect fields =>
    match fields.partition (fun field => field.1 == some tag) with
    | ([(_, name)], rest) => some (name, .obj dialect rest)
    | _ => none
  | .arr dialect (name :: rest) => some (name, .arr dialect rest)
  | _ => none

/-- A value written as an object from the name of its shape to its content. -/
def Doc.variant? : Doc → Option (String × Doc)
  | .obj _ [(some name, content)] => some (name, content)
  | _ => none

end ModelClient.Json
