import ModelClient.ModelName
import ModelClient.Wire.Image

/-!
# Image options

The options of an image request: those of the prompt over those of the model. A prompt may carry
more options than the service knows; the others are let be.
-/

namespace ModelClient

open Json Json.Decode

/-- Options that a prompt may carry. -/
structure ImageOptions where
  model : Option String := none
  count : Option UInt32 := none
  width : Option UInt32 := none
  height : Option UInt32 := none
  responseFormat : Option String := none
  style : Option String := none
  user : Option String := none
deriving DecidableEq, Repr

namespace ImageOptions

/-- Reads options. -/
def decode : Decoder ImageOptions := fun d => do
  let r ← d.record? ["model", "n", "width", "height", "response_format", "style", "user"]
  some {
    model := ← r.optional "model" string
    count := ← r.optional "n" uint32
    width := ← r.optional "width" uint32
    height := ← r.optional "height" uint32
    responseFormat := ← r.optional "response_format" string
    style := ← r.optional "style" string
    user := ← r.optional "user" string }

end ImageOptions

/-- One layer of options for an image request. -/
structure ImageLayer where
  model : Option String := none
  user : Option String := none
deriving DecidableEq, Repr

namespace ImageLayer

/-- The model that is used unless another one is named. -/
def defaultModel : String := ImageModelName.cogView3.name

/-- The options of a prompt, if it has any, over a layer. -/
def merge (l : ImageLayer) (runtime : Option ImageOptions) : ImageLayer :=
  match runtime with
  | none => l
  | some o => ⟨o.model <|> l.model, o.user <|> l.user⟩

/-- The request with the options that the layer sets. -/
def applyTo (l : ImageLayer) (r : Wire.ImageRequest) : Wire.ImageRequest :=
  { r with model := l.model <|> r.model, user := l.user <|> r.user }

/-- The layer as JSON. -/
def toJson (l : ImageLayer) : Json :=
  record [("model", l.model.map .str), ("user", l.user.map .str)]

/-- Reads a layer, in which every option may be missing. -/
def decode : Decoder ImageLayer := fun d => do
  let r ← d.record? ["model", "user"]
  some ⟨← r.optional "model" string, ← r.optional "user" string⟩

end ImageLayer

end ModelClient
