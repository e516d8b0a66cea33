import ModelClient.ModelName
import ModelClient.Wire.Embedding

/-!
# Embedding options

The options of an embedding request: those of the call over those of the model.
-/

namespace ModelClient

open Json Json.Decode

/-- Options that a call may carry. -/
structure EmbeddingOptions where
  model : Option String := none
  dimensions : Option UInt32 := none
deriving DecidableEq, Repr

namespace EmbeddingOptions

/-- Reads options. -/
def decode : Decoder EmbeddingOptions := fun d => do
  let r ← d.record? ["model", "dimensions"]
  some ⟨← r.optional "model" string, ← r.optional "dimensions" uint32⟩

end EmbeddingOptions

/-- One layer of options for an embedding request. -/
structure EmbeddingLayer where
  model : Option String
  dimensions : Option UInt32
deriving DecidableEq, Repr

namespace EmbeddingLayer

/-- The model that is used unless another one is named. -/
def defaultModel : String := EmbeddingModelName.embedding2.name

/-- The options of a model that was given none. -/
def standard : EmbeddingLayer := ⟨some defaultModel, none⟩

/-- The options of a call, if it has any, over a layer. -/
def merge (runtime : Option EmbeddingOptions) (l : EmbeddingLayer) : EmbeddingLayer :=
  match runtime with
  | none => l
  | some o => ⟨o.model <|> l.model, o.dimensions <|> l.dimensions⟩

/-- The request for one text. -/
def toRequest (l : EmbeddingLayer) (input : String) : Wire.EmbeddingRequest :=
  { input, model := l.model, dimensions := l.dimensions }

/-- The layer as JSON. -/
def toJson (l : EmbeddingLayer) : Json :=
  record [("dimensions", l.dimensions.map fun n => .nat n.toNat), ("model", l.model.map .str)]

/-- Reads a layer; what is not given is as in `standard`. -/
def decode : Decoder EmbeddingLayer := fun d => do
  let r ← d.record? ["model", "dimensions"]
  some {
    model := ← r.defaulted "model" standard.model (nullable string)
    dimensions := ← r.defaulted "dimensions" standard.dimensions (nullable uint32) }

end EmbeddingLayer

end ModelClient
