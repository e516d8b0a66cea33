import ModelClient.Wire.Message

/-!
# Completions

A completion is the whole answer to a chat request. A chunk is one frame of a streamed answer: it
has the same fields, but each choice carries a `delta` in place of a message and token usage is not
reported. `Chunk.toCompletion` views a chunk, or the result of merging several, as a completion.
-/

namespace ModelClient.Wire

open Json Json.Decode

/-- Why the model stopped. -/
inductive FinishReason where
  | stop
  | length
  | contentFilter
  | toolCalls
  | sensitive
  | networkError
  /-- Any reason without a name of its own. -/
  | unknown
deriving DecidableEq, Repr

namespace FinishReason

/-- The reason's name. -/
def name : FinishReason → String
  | stop => "stop"
  | length => "length"
  | contentFilter => "content_filter"
  | toolCalls => "tool_calls"
  | sensitive => "sensitive"
  | networkError => "network_error"
  | unknown => "unknown"

/-- The reason of a name. -/
def ofName? : String → Option FinishReason
  | "stop" => some stop
  | "length" => some length
  | "content_filter" => some contentFilter
  | "tool_calls" => some toolCalls
  | "sensitive" => some sensitive
  | "network_error" => some networkError
  | "unknown" => some unknown
  | _ => none

/-- A finish reason is found under its name. -/
theorem ofName?_name (r : FinishReason) : ofName? r.name = some r := by
  cases r <;> rfl

/-- The reason as JSON. -/
def toJson (r : FinishReason) : Json := .str r.name

/-- Reads a reason; every name is one. -/
def decode : Decoder FinishReason := choice fun s => some ((ofName? s).getD unknown)

end FinishReason

/-- Tokens used by a request. -/
structure Usage where
  promptTokens : UInt32
  completionTokens : UInt32
  totalTokens : UInt32
deriving DecidableEq, Repr

namespace Usage

/-- The usage as JSON. -/
def toJson (u : Usage) : Json :=
  record [("completion_tokens", some (.nat u.completionTokens.toNat)),
    ("prompt_tokens", some (.nat u.promptTokens.toNat)),
    ("total_tokens", some (.nat u.totalTokens.toNat))]

/-- Reads a usage, in which a missing count is zero. -/
def decode : Decoder Usage := fun d => do
  let r ← d.record? ["prompt_tokens", "completion_tokens", "total_tokens"]
  some {
    promptTokens := ← r.defaulted "prompt_tokens" 0 uint32
    completionTokens := ← r.defaulted "completion_tokens" 0 uint32
    totalTokens := ← r.defaulted "total_tokens" 0 uint32 }

end Usage

/-- One of the answers of a completion. -/
structure Choice where
  finishReason : Option FinishReason
  index : Option UInt32
  message : Message
  logprobs : Option Json
deriving DecidableEq

namespace Choice

/-- The choice as JSON. -/
def toJson (c : Choice) : Json :=
  record [("finish_reason", some (orNull FinishReason.toJson c.finishReason)),
    ("index", some (orNull (fun n => .nat n.toNat) c.index)),
    ("logprobs", some (orNull id c.logprobs)), ("message", some c.message.toJson)]

/-- Reads a choice. -/
def decode : Decoder Choice := fun d => do
  let r ← d.record? ["finish_reason", "index", "message", "logprobs"]
  some {
    finishReason := ← r.optional "finish_reason" FinishReason.decode
    index := ← r.optional "index" uint32
    message := ← r.defaulted "message" {} Message.decode
    logprobs := ← r.optional "logprobs" json }

end Choice

/-- The whole answer to a chat request. -/
structure Completion where
  id : Option String := none
  choices : List Choice := []
  created : Option Int64 := none
  model : Option String := none
  systemFingerprint : Option String := none
  object : Option String := none
  usage : Option Usage := none
deriving DecidableEq

namespace Completion

/-- The completion as JSON. -/
def toJson (c : Completion) : Json :=
  record [("choices", some (.arr (c.choices.map Choice.toJson))),
    ("created", some (orNull (fun n => .int n.toInt) c.created)), ("id", some (orNull .str c.id)),
    ("model", some (orNull .str c.model)), ("object", some (orNull .str c.object)),
    ("system_fingerprint", some (orNull .str c.systemFingerprint)),
    ("usage", some (orNull Usage.toJson c.usage))]

/-- Reads a completion. -/
def decode : Decoder Completion := fun d => do
  let r ← d.record? ["id", "choices", "created", "model", "system_fingerprint", "object", "usage"]
  some {
    id := ← r.optional "id" string
    choices := ← r.defaulted "choices" [] (list Choice.decode)
    created := ← r.optional "created" int64
    model := ← r.optional "model" string
    systemFingerprint := ← r.optional "system_fingerprint" string
    object := ← r.optional "object" string
    usage := ← r.optional "usage" Usage.decode }

end Completion

/-- One of the answers of a chunk. -/
structure ChunkChoice where
  finishReason : Option FinishReason := none
  index : Option UInt32 := none
  delta : Option Message := none
  logprobs : Option Json := none
deriving DecidableEq

namespace ChunkChoice

/-- The choice as JSON. -/
def toJson (c : ChunkChoice) : Json :=
  record [("delta", some (orNull Message.toJson c.delta)),
    ("finish_reason", some (orNull FinishReason.toJson c.finishReason)),
    ("index", some (orNull (fun n => .nat n.toNat) c.index)),
    ("logprobs", some (orNull id c.logprobs))]

/-- Reads a choice. -/
def decode : Decoder ChunkChoice := fun d => do
  let r ← d.record? ["finish_reason", "index", "delta", "logprobs"]
  some {
    finishReason := ← r.optional "finish_reason" FinishReason.decode
    index := ← r.optional "index" uint32
    delta := ← r.optional "delta" Message.decode
    logprobs := ← r.optional "logprobs" json }

/-- The tool calls of the choice. -/
def calls (c : ChunkChoice) : List ToolCall := (c.delta.map Message.calls).getD []

/-- The choice of a completion; a choice without a delta is an empty text of the assistant. -/
def toChoice (c : ChunkChoice) : Choice :=
  { finishReason := c.finishReason
    index := c.index
    message := c.delta.getD (.ofText "" .assistant)
    logprobs := c.logprobs }

end ChunkChoice

/-- One frame of a streamed answer. -/
structure Chunk where
  id : Option String := none
  choices : List ChunkChoice := []
  created : Option Int64 := none
  model : Option String := none
  systemFingerprint : Option String := none
  object : Option String := none
deriving DecidableEq

namespace Chunk

/-- The chunk as JSON. -/
def toJson (c : Chunk) : Json :=
  record [("choices", some (.arr (c.choices.map ChunkChoice.toJson))),
    ("created", some (orNull (fun n => .int n.toInt) c.created)), ("id", some (orNull .str c.id)),
    ("model", some (orNull .str c.model)), ("object", some (orNull .str c.object)),
    ("system_fingerprint", some (orNull .str c.systemFingerprint))]

/-- Reads a chunk. -/
def decode : Decoder Chunk := fun d => do
  let r ← d.record? ["id", "choices", "created", "model", "system_fingerprint", "object"]
  some {
    id := ← r.optional "id" string
    choices := ← r.defaulted "choices" [] (list ChunkChoice.decode)
    created := ← r.optional "created" int64
    model := ← r.optional "model" string
    systemFingerprint := ← r.optional "system_fingerprint" string
    object := ← r.optional "object" string }

/-- The tool calls of the first choice. -/
def calls (c : Chunk) : List ToolCall := (c.choices.head?.map ChunkChoice.calls).getD []

/-- Whether the first choice has a tool call. -/
def hasToolCall (c : Chunk) : Bool := !c.calls.isEmpty

/-- Whether the first choice has a delta and stopped in order to call tools. -/
def endsToolCall (c : Chunk) : Bool :=
  match c.choices.head? with
  | some choice => choice.delta.isSome && choice.finishReason == some .toolCalls
  | none => false

/-- Whether the first choice gives a reason for having stopped. -/
def isLast (c : Chunk) : Bool :=
  match c.choices.head? with
  | some choice => choice.finishReason.isSome
  | none => false

/-- The chunk as a completion. -/
def toCompletion (c : Chunk) : Completion :=
  { id := c.id
    choices := c.choices.map ChunkChoice.toChoice
    created := c.created
    model := c.model
    systemFingerprint := c.systemFingerprint
    object := some "chat.completion" }

end Chunk

end ModelClient.Wire
