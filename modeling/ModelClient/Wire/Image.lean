import ModelClient.Json.Decode

/-!
# Image requests and answers
-/

namespace ModelClient.Wire

open Json Json.Decode

/-- The body of an image request. -/
structure ImageRequest where
  prompt : String
  model : Option String := none
  user : Option String := none
deriving DecidableEq, Repr

namespace ImageRequest

/-- The request as JSON. -/
def toJson (r : ImageRequest) : Json :=
  record [("model", r.model.map .str), ("prompt", some (.str r.prompt)),
    ("user_id", r.user.map .str)]

/-- Reads a request. -/
def decode : Decoder ImageRequest := fun d => do
  let r ← d.record? ["prompt", "model", "user_id"]
  some {
    prompt := ← r.required "prompt" string
    model := ← r.optional "model" string
    user := ← r.optional "user_id" string }

end ImageRequest

/-- The answer to an image request: when it was made, and the addresses of the images. -/
structure ImageResponse where
  created : Option Int64
  urls : List String
deriving DecidableEq

namespace ImageResponse

/-- Reads the address of an image. -/
def decodeUrl : Decoder String := fun d => do
  (← d.record? ["url"]).required "url" string

/-- The answer as JSON. -/
def toJson (r : ImageResponse) : Json :=
  record [("created", some (orNull (fun n => .int n.toInt) r.created)),
    ("data", some (.arr (r.urls.map fun url => record [("url", some (.str url))])))]

/-- Reads an answer. -/
def decode : Decoder ImageResponse := fun d => do
  let r ← d.record? ["created", "data"]
  some {
    created := ← r.optional "created" int64
    urls := ← r.defaulted "data" [] (list decodeUrl) }

end ImageResponse

end ModelClient.Wire
