import ModelClient.Json.Tagged

/-!
# Conversation messages

A message of a conversation, independent of how the service spells it. The assistant may ask for
tool calls; the results go back in a tool message, in which each response names the call it answers.
-/

namespace ModelClient

open Json Json.Decode

/-- The content of an attachment: bytes, or an address supplied by the caller. -/
inductive MediaData where
  | bytes (bytes : List UInt8)
  | url (url : String)
deriving DecidableEq, Repr

namespace MediaData

/-- The content as JSON. -/
def toJson : MediaData → Json
  | bytes bs => record [("bytes", some (.arr (bs.map fun b => .nat b.toNat)))]
  | url s => record [("url", some (.str s))]

/-- Reads a content. -/
def decode : Decoder MediaData := fun d => do
  match ← d.variant? with
  | ("bytes", d) => (list uint8 d).map bytes
  | ("url", d) => (string d).map url
  | _ => none

end MediaData

/-- An attachment of a user's message. -/
structure Media where
  mimeType : String
  data : MediaData
deriving DecidableEq, Repr

namespace Media

/-- The attachment as JSON. -/
def toJson (m : Media) : Json :=
  record [("data", some m.data.toJson), ("mime_type", some (.str m.mimeType))]

/-- Reads an attachment. -/
def decode : Decoder Media := fun d => do
  let r ← d.record? ["mime_type", "data"]
  some ⟨← r.required "mime_type" string, ← r.required "data" MediaData.decode⟩

end Media

/-- A call of a tool that the model asks for, with its arguments as JSON text. -/
structure ToolCall where
  id : String
  kind : String
  name : String
  arguments : String
deriving DecidableEq, Repr

namespace ToolCall

/-- The call as JSON. -/
def toJson (c : ToolCall) : Json :=
  record [("arguments", some (.str c.arguments)), ("id", some (.str c.id)),
    ("name", some (.str c.name)), ("type", some (.str c.kind))]

/-- Reads a call. -/
def decode : Decoder ToolCall := fun d => do
  let r ← d.record? ["id", "type", "name", "arguments"]
  some {
    id := ← r.required "id" string
    kind := ← r.required "type" string
    name := ← r.required "name" string
    arguments := ← r.required "arguments" string }

end ToolCall

/-- The result of a tool call. -/
structure ToolResponse where
  id : String
  name : String
  data : String
deriving DecidableEq, Repr

namespace ToolResponse

/-- The result as JSON. -/
def toJson (r : ToolResponse) : Json :=
  record [("id", some (.str r.id)), ("name", some (.str r.name)),
    ("response_data", some (.str r.data))]

/-- Reads a result. -/
def decode : Decoder ToolResponse := fun d => do
  let r ← d.record? ["id", "name", "response_data"]
  some {
    id := ← r.required "id" string
    name := ← r.required "name" string
    data := ← r.required "response_data" string }

end ToolResponse

/-- What the model says: a text, tool calls, and what is known about it. -/
structure AssistantMessage where
  content : String := ""
  toolCalls : List ToolCall := []
  metadata : Dict Json := {}
deriving DecidableEq

namespace AssistantMessage

/-- Whether the message asks for tool calls. -/
def hasToolCalls (m : AssistantMessage) : Bool := !m.toolCalls.isEmpty

/-- The fields of the message, calls and metadata only if there are any. -/
def fields (m : AssistantMessage) : List (String × Option Json) :=
  [("content", some (.str m.content)),
    ("metadata", if m.metadata.isEmpty then none else some (ofDict m.metadata))]

/-- The tool calls as a field. -/
def callsField (m : AssistantMessage) : String × Option Json :=
  ("tool_calls",
    if m.toolCalls.isEmpty then none else some (.arr (m.toolCalls.map ToolCall.toJson)))

/-- The message as JSON. -/
def toJson (m : AssistantMessage) : Json := record (m.fields ++ [m.callsField])

/-- Reads a message. -/
def decode : Decoder AssistantMessage := fun d => do
  let r ← d.record? ["content", "tool_calls", "metadata"]
  some {
    content := ← r.required "content" string
    toolCalls := ← r.defaulted "tool_calls" [] (list ToolCall.decode)
    metadata := ← r.defaulted "metadata" {} (dict json) }

end AssistantMessage

/-- A message of a conversation. -/
inductive Message where
  | system (content : String)
  | user (content : String) (media : List Media)
  | assistant (message : AssistantMessage)
  | tool (responses : List ToolResponse)
deriving DecidableEq

namespace Message

/-- The text of the message; the results of tools are joined, one a line. -/
def text : Message → String
  | system content | user content _ => content
  | assistant m => m.content
  | tool responses => String.intercalate "\n" (responses.map ToolResponse.data)

/-- The message as JSON, tagged by its role. -/
def toJson : Message → Json
  | system content => record [("content", some (.str content)), ("role", some (.str "system"))]
  | user content media =>
    record [("content", some (.str content)),
      ("media", if media.isEmpty then none else some (.arr (media.map Media.toJson))),
      ("role", some (.str "user"))]
  | assistant m => record (m.fields ++ [("role", some (.str "assistant")), m.callsField])
  | tool responses =>
    record [("responses", some (.arr (responses.map ToolResponse.toJson))),
      ("role", some (.str "tool"))]

/-- Reads a message. -/
def decode : Decoder Message := fun d => do
  let (tag, d) ← d.tagged? "role"
  match ← string tag with
  | "system" => some (system (← (← d.record? ["content"]).required "content" string))
  | "user" =>
    let r ← d.record? ["content", "media"]
    some (user (← r.required "content" string) (← r.defaulted "media" [] (list Media.decode)))
  | "assistant" => (AssistantMessage.decode d).map assistant
  | "tool" =>
    let r ← d.record? ["responses"]
    some (tool (← r.required "responses" (list ToolResponse.decode)))
  | _ => none

end Message

end ModelClient
