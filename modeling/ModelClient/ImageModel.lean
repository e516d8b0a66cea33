import ModelClient.Client
import ModelClient.Layer.Image
import ModelClient.Observation.Observe
import ModelClient.Retry.Execute

/-!
# The image model

The service draws an image for one instruction, so of a prompt's instructions the first one is sent.
-/

namespace ModelClient

open Json Json.Decode

/-- An instruction of a prompt. -/
structure Instruction where
  text : String
  weight : Option Binary32
deriving DecidableEq, Repr

namespace Instruction

/-- Reads an instruction. -/
def decode : Decoder Instruction := fun d => do
  let r ← d.record? ["text", "weight"]
  some ⟨← r.required "text" string, ← r.optional "weight" binary32⟩

end Instruction

/-- Instructions for an image and the options for it. -/
structure ImagePrompt where
  instructions : List Instruction
  options : Option ImageOptions := none
deriving DecidableEq, Repr

namespace ImagePrompt

/-- A single instruction. -/
def ofText (text : String) : ImagePrompt := { instructions := [⟨text, none⟩] }

end ImagePrompt

/-- A generated image: its address, or its content in base64. -/
structure GeneratedImage where
  url : Option String := none
  base64 : Option String := none
deriving DecidableEq, Repr

namespace GeneratedImage

/-- The image as JSON. -/
def toJson (i : GeneratedImage) : Json :=
  record [("b64_json", i.base64.map .str), ("url", i.url.map .str)]

end GeneratedImage

/-- The images of a prompt. -/
structure ImageResponse where
  images : List GeneratedImage := []
deriving DecidableEq, Repr

namespace ImageResponse

/-- The response as JSON. -/
def toJson (r : ImageResponse) : Json :=
  record [("generations",
    some (.arr (r.images.map fun i => record [("output", some i.toJson)])))]

/-- The response of an answer. -/
def ofWire (r : Wire.ImageResponse) : ImageResponse :=
  ⟨r.urls.map fun url => { url := some url }⟩

end ImageResponse

/-- A model that draws images. -/
structure ImageModel where
  client : Client
  defaults : ImageLayer
  retry : RetryPolicy
  observer : Observer

namespace ImageModel

/-- A model without options that no one watches. -/
def ofClient (client : Client) : ImageModel :=
  { client, defaults := {}, retry := .standard, observer := {} }

/-- The request of a prompt: the standard model, then the default options, then the prompt's. -/
def prepare (m : ImageModel) (prompt : ImagePrompt) : Except Error Wire.ImageRequest :=
  match prompt.instructions.head? with
  | none => .error (.invalidArgument "Image prompt has no instructions")
  | some i =>
    .ok ((m.defaults.merge prompt.options).applyTo
      { prompt := i.text, model := some ImageLayer.defaultModel })

/-- The images of a prompt. An empty answer has none. -/
def call (m : ImageModel) (prompt : ImagePrompt) : Run Session ImageResponse :=
  let options := m.defaults.merge prompt.options
  let context : Observation.Context :=
    { operation := .image, provider := Client.provider, requestOptions := options.toJson }
  observe m.observer context (fun _ => { model := options.model }) do
    let answer ← m.retry.execute do
      m.client.draw (← Run.ofExcept (m.prepare prompt))
    return (answer.map .ofWire).getD {}

end ImageModel

end ModelClient
