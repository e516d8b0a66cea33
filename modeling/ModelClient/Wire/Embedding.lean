import ModelClient.Wire.Completion

/-!
# Embedding requests and answers

The service embeds one text per request. The components of a vector are single-precision numbers.
-/

namespace ModelClient.Wire

open Json Json.Decode

/-- The body of an embedding request. -/
structure EmbeddingRequest where
  input : String
  model : Option String := none
  dimensions : Option UInt32 := none
deriving DecidableEq, Repr

namespace EmbeddingRequest

/-- The request as JSON. -/
def toJson (r : EmbeddingRequest) : Json :=
  record [("dimensions", r.dimensions.map fun n => .nat n.toNat), ("input", some (.str r.input)),
    ("model", r.model.map .str)]

/-- Reads a request. -/
def decode : Decoder EmbeddingRequest := fun d => do
  let r ← d.record? ["input", "model", "dimensions"]
  some {
    input := ← r.required "input" string
    model := ← r.optional "model" string
    dimensions := ← r.optional "dimensions" uint32 }

end EmbeddingRequest

/-- A vector and its place in the answer. -/
structure Embedding where
  index : UInt32
  vector : List Binary32
  object : Option String
deriving DecidableEq, Repr

namespace Embedding

/-- Reads a vector. -/
def decode : Decoder Embedding := fun d => do
  let r ← d.record? ["index", "embedding", "object"]
  some {
    index := ← r.defaulted "index" 0 uint32
    vector := ← r.required "embedding" (list binary32)
    object := ← r.optional "object" string }

end Embedding

/-- The answer to an embedding request. -/
structure EmbeddingList where
  object : Option String
  data : List Embedding
  model : Option String
  usage : Option Usage
deriving DecidableEq, Repr

namespace EmbeddingList

/-- Reads an answer. -/
def decode : Decoder EmbeddingList := fun d => do
  let r ← d.record? ["object", "data", "model", "usage"]
  some {
    object := ← r.optional "object" string
    data := ← r.defaulted "data" [] (list Embedding.decode)
    model := ← r.optional "model" string
    usage := ← r.optional "usage" Usage.decode }

end EmbeddingList

end ModelClient.Wire
