import ModelClient.Tool
import ModelClient.Wire.ChatRequest

/-!
# Chat options

The options of a chat request come in layers: those of the request at hand, those of the prompt and
those of the model. Each option is taken from the first layer that sets it; the names of enabled
functions are united and the tools listed together. `ChatOptions` are the options that a prompt may
carry, `ChatLayer` has every option that the service knows.
-/

namespace ModelClient

open Json Json.Decode

/-- Options that a prompt may carry. -/
structure ChatOptions where
  model : Option String := none
  maxTokens : Option UInt32 := none
  stopSequences : Option (List String) := none
  temperature : Option Binary64 := none
  topP : Option Binary64 := none
  /-- Names of registered tools that the request enables. -/
  functions : NameSet := {}
  /-- Tools that the request brings along; they are registered and enabled. -/
  tools : List Tool := []
  /-- Whether tool calls are left to the caller. -/
  proxyToolCalls : Option Bool := none

/-- One layer of options for a chat request. -/
structure ChatLayer where
  model : Option String := none
  maxTokens : Option UInt32 := none
  stop : Option (List String) := none
  temperature : Option Binary64 := none
  topP : Option Binary64 := none
  tools : Option (List Wire.ToolDefinition) := none
  toolChoice : Option String := none
  user : Option String := none
  requestId : Option String := none
  doSample : Option Bool := none
  functions : NameSet := {}
  callbacks : List Tool := []
  proxyToolCalls : Option Bool := none

namespace ChatLayer

/-- The layer of a prompt's options. -/
def ofOptions (o : ChatOptions) : ChatLayer :=
  { model := o.model
    maxTokens := o.maxTokens
    stop := o.stopSequences
    temperature := o.temperature
    topP := o.topP
    functions := o.functions
    callbacks := o.tools
    proxyToolCalls := o.proxyToolCalls }

/-- The options of the layer that a prompt may carry. -/
def toOptions (l : ChatLayer) : ChatOptions :=
  { model := l.model
    maxTokens := l.maxTokens
    stopSequences := l.stop
    temperature := l.temperature
    topP := l.topP
    functions := l.functions
    tools := l.callbacks
    proxyToolCalls := l.proxyToolCalls }

/-- One layer above another. -/
def onto (upper lower : ChatLayer) : ChatLayer :=
  { model := upper.model <|> lower.model
    maxTokens := upper.maxTokens <|> lower.maxTokens
    stop := upper.stop <|> lower.stop
    temperature := upper.temperature <|> lower.temperature
    topP := upper.topP <|> lower.topP
    tools := upper.tools <|> lower.tools
    toolChoice := upper.toolChoice <|> lower.toolChoice
    user := upper.user <|> lower.user
    requestId := upper.requestId <|> lower.requestId
    doSample := upper.doSample <|> lower.doSample
    functions := upper.functions.union lower.functions
    callbacks := upper.callbacks ++ lower.callbacks
    proxyToolCalls := upper.proxyToolCalls <|> lower.proxyToolCalls }

/-- An option from the first of three layers that sets it. The first two layers may be missing. -/
def pick {α : Type} (runtime request : Option ChatLayer) (defaults : ChatLayer)
    (field : ChatLayer → Option α) : Option α :=
  (runtime.bind field <|> request.bind field) <|> field defaults

/-- Three layers put together, of which the first two may be missing. -/
def resolve (runtime request : Option ChatLayer) (defaults : ChatLayer) : ChatLayer :=
  let layers := [runtime, request, some defaults].filterMap id
  { model := pick runtime request defaults model
    maxTokens := pick runtime request defaults maxTokens
    stop := pick runtime request defaults stop
    temperature := pick runtime request defaults temperature
    topP := pick runtime request defaults topP
    tools := pick runtime request defaults tools
    toolChoice := pick runtime request defaults toolChoice
    user := pick runtime request defaults user
    requestId := pick runtime request defaults requestId
    doSample := pick runtime request defaults doSample
    functions := .ofList (layers.flatMap (·.functions.names))
    callbacks := layers.flatMap callbacks
    proxyToolCalls := pick runtime request defaults proxyToolCalls }

/-- The request with the options of the layer. An option that the layer leaves open is left open in
the request, whatever was there. -/
def applyTo (l : ChatLayer) (r : Wire.ChatRequest) : Wire.ChatRequest :=
  { r with
    model := l.model
    maxTokens := l.maxTokens
    stop := l.stop
    temperature := l.temperature
    topP := l.topP
    tools := l.tools
    toolChoice := l.toolChoice
    user := l.user
    requestId := l.requestId
    doSample := l.doSample }

/-- The layer as JSON, without its tools. -/
def toJson (l : ChatLayer) : Json :=
  record [("do_sample", l.doSample.map .bool),
    ("functions",
      if l.functions.isEmpty then none else some (.arr (l.functions.names.map .str))),
    ("max_tokens", l.maxTokens.map fun n => .nat n.toNat), ("model", l.model.map .str),
    ("proxy_tool_calls", l.proxyToolCalls.map .bool), ("request_id", l.requestId.map .str),
    ("stop", l.stop.map fun ss => .arr (ss.map .str)), ("temperature", l.temperature.map .float),
    ("tool_choice", l.toolChoice.map .str),
    ("tools", l.tools.map fun ts => .arr (ts.map Wire.ToolDefinition.toJson)),
    ("top_p", l.topP.map .float), ("user", l.user.map .str)]

/-- Reads a layer, in which every option may be missing. -/
def decode : Decoder ChatLayer := fun d => do
  let r ← d.record? ["model", "max_tokens", "stop", "temperature", "top_p", "tools", "tool_choice",
    "user", "request_id", "do_sample", "functions", "proxy_tool_calls"]
  some {
    model := ← r.optional "model" string
    maxTokens := ← r.optional "max_tokens" uint32
    stop := ← r.optional "stop" (list string)
    temperature := ← r.optional "temperature" binary64
    topP := ← r.optional "top_p" binary64
    tools := ← r.optional "tools" (list Wire.ToolDefinition.decode)
    toolChoice := ← r.optional "tool_choice" string
    user := ← r.optional "user" string
    requestId := ← r.optional "request_id" string
    doSample := ← r.optional "do_sample" bool
    functions := ← r.defaulted "functions" {} nameSet
    proxyToolCalls := ← r.optional "proxy_tool_calls" bool }

end ChatLayer

end ModelClient
