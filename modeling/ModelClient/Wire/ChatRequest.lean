import ModelClient.Wire.Message

/-!
# Chat requests

The body of a chat request, with the definitions of the tools that the model may call.
-/

namespace ModelClient.Wire

open Json Json.Decode

/-- The signature of a function that the model may call; the parameters are a JSON schema. -/
structure FunctionDefinition where
  description : String
  name : String
  parameters : Json
deriving DecidableEq

namespace FunctionDefinition

/-- The signature as JSON. -/
def toJson (f : FunctionDefinition) : Json :=
  record [("description", some (.str f.description)), ("name", some (.str f.name)),
    ("parameters", some f.parameters)]

/-- Reads a signature. -/
def decode : Decoder FunctionDefinition := fun d => do
  let r ← d.record? ["description", "name", "parameters"]
  some {
    description := ← r.required "description" string
    name := ← r.required "name" string
    parameters := ← r.required "parameters" json }

end FunctionDefinition

/-- A tool that the model may call. Every tool is a function. -/
structure ToolDefinition where
  function : FunctionDefinition
deriving DecidableEq

namespace ToolDefinition

/-- The tool as JSON. -/
def toJson (t : ToolDefinition) : Json :=
  record [("function", some t.function.toJson), ("type", some (.str "function"))]

/-- Reads a tool. -/
def decode : Decoder ToolDefinition := fun d => do
  let r ← d.record? ["type", "function"]
  let () ← r.required "type" (choice fun s => if s = "function" then some () else none)
  some { function := ← r.required "function" FunctionDefinition.decode }

end ToolDefinition

/-- The body of a chat request. -/
structure ChatRequest where
  messages : List Message
  model : Option String := none
  maxTokens : Option UInt32 := none
  stop : Option (List String) := none
  stream : Bool := false
  temperature : Option Binary64 := none
  topP : Option Binary64 := none
  tools : Option (List ToolDefinition) := none
  toolChoice : Option String := none
  user : Option String := none
  requestId : Option String := none
  doSample : Option Bool := none
deriving DecidableEq

namespace ChatRequest

/-- The request as JSON. -/
def toJson (r : ChatRequest) : Json :=
  record [("do_sample", r.doSample.map .bool),
    ("max_tokens", r.maxTokens.map fun n => .nat n.toNat),
    ("messages", some (.arr (r.messages.map Message.toJson))), ("model", r.model.map .str),
    ("request_id", r.requestId.map .str), ("stop", r.stop.map fun ss => .arr (ss.map .str)),
    ("stream", some (.bool r.stream)), ("temperature", r.temperature.map .float),
    ("tool_choice", r.toolChoice.map .str),
    ("tools", r.tools.map fun ts => .arr (ts.map ToolDefinition.toJson)),
    ("top_p", r.topP.map .float), ("user_id", r.user.map .str)]

/-- Reads a request. -/
def decode : Decoder ChatRequest := fun d => do
  let r ← d.record? ["messages", "model", "max_tokens", "stop", "stream", "temperature", "top_p",
    "tools", "tool_choice", "user_id", "request_id", "do_sample"]
  some {
    messages := ← r.required "messages" (list Message.decode)
    model := ← r.optional "model" string
    maxTokens := ← r.optional "max_tokens" uint32
    stop := ← r.optional "stop" (list string)
    stream := ← r.defaulted "stream" false bool
    temperature := ← r.optional "temperature" binary64
    topP := ← r.optional "top_p" binary64
    tools := ← r.optional "tools" (list ToolDefinition.decode)
    toolChoice := ← r.optional "tool_choice" string
    user := ← r.optional "user_id" string
    requestId := ← r.optional "request_id" string
    doSample := ← r.optional "do_sample" bool }

end ChatRequest

end ModelClient.Wire
