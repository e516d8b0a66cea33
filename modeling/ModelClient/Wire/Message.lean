import ModelClient.Json.Tagged

/-!
# Chat messages on the wire

A message as the chat endpoint takes and sends it. In a streamed message every field is optional,
because a frame carries only what changed. The content is a text or a list of parts; a tool call
carries its arguments as JSON text, which may come in fragments.

Each type has a `decode` from a document and a `toJson`, which leaves out the fields that are not
set.
-/

namespace ModelClient.Wire

open Json Json.Decode

/-- Who speaks. -/
inductive Role where
  | system
  | user
  | assistant
  | tool
deriving DecidableEq, Repr

namespace Role

/-- The role's name. -/
def name : Role → String
  | system => "system"
  | user => "user"
  | assistant => "assistant"
  | tool => "tool"

/-- The role of a name. -/
def ofName? : String → Option Role
  | "system" => some system
  | "user" => some user
  | "assistant" => some assistant
  | "tool" => some tool
  | _ => none

/-- A role is found under its name. -/
theorem ofName?_name (r : Role) : ofName? r.name = some r := by
  cases r <;> rfl

/-- The role as JSON. -/
def toJson (r : Role) : Json := .str r.name

/-- Reads a role. -/
def decode : Decoder Role := choice ofName?

end Role

/-- A reference to an image: its address, or the image itself in an address of the kind `data:`. -/
structure ImageReference where
  url : String
  detail : Option String
deriving DecidableEq, Repr

namespace ImageReference

/-- The reference as JSON. -/
def toJson (i : ImageReference) : Json :=
  record [("detail", i.detail.map .str), ("url", some (.str i.url))]

/-- Reads a reference. -/
def decode : Decoder ImageReference := fun d => do
  let r ← d.record? ["url", "detail"]
  some ⟨← r.required "url" string, ← r.optional "detail" string⟩

end ImageReference

/-- A part of a message's content. -/
inductive Part where
  | text (text : String)
  | image (reference : ImageReference)
deriving DecidableEq, Repr

namespace Part

/-- The part as JSON. -/
def toJson : Part → Json
  | text s => record [("text", some (.str s)), ("type", some (.str "text"))]
  | image i => record [("image_url", some i.toJson), ("type", some (.str "image_url"))]

/-- Reads a part, whose shape is named or numbered. -/
def decode : Decoder Part := fun d => do
  let (tag, d) ← d.tagged? "type"
  match ← tag.toJson? with
  | .str "text" | .num (.int 0 _) => some (.text (← (← d.record? ["text"]).required "text" string))
  | .str "image_url" | .num (.int 1 _) =>
    some (.image (← (← d.record? ["image_url"]).required "image_url" ImageReference.decode))
  | _ => none

end Part

/-- The content of a message. -/
inductive Content where
  | text (text : String)
  | parts (parts : List Part)
deriving DecidableEq, Repr

namespace Content

/-- The text of the content: that of its text parts, joined. -/
def plain : Content → String
  | text s => s
  | parts ps => String.join (ps.map fun
    | .text s => s
    | .image _ => "")

/-- The content as JSON. -/
def toJson : Content → Json
  | text s => .str s
  | parts ps => .arr (ps.map Part.toJson)

/-- Reads a content, all of which must have a value. -/
def decode : Decoder Content := fun d => do
  match ← d.sound? with
  | .str s => s.map text
  | d => (list Part.decode d).map parts

end Content

/-- The function that a tool call names, with its arguments as JSON text. -/
structure FunctionCall where
  name : Option String := none
  arguments : Option String := none
deriving DecidableEq, Repr, Inhabited

namespace FunctionCall

/-- The function as JSON. -/
def toJson (f : FunctionCall) : Json :=
  record [("arguments", f.arguments.map .str), ("name", f.name.map .str)]

/-- Reads a function. -/
def decode : Decoder FunctionCall := fun d => do
  let r ← d.record? ["name", "arguments"]
  some ⟨← r.optional "name" string, ← r.optional "arguments" string⟩

end FunctionCall

/-- A tool call, possibly a fragment of one. -/
structure ToolCall where
  index : Option UInt32 := none
  id : Option String := none
  kind : Option String := none
  function : Option FunctionCall := none
deriving DecidableEq, Repr, Inhabited

namespace ToolCall

/-- The call as JSON. -/
def toJson (c : ToolCall) : Json :=
  record [("function", c.function.map FunctionCall.toJson), ("id", c.id.map .str),
    ("index", c.index.map fun n => .nat n.toNat), ("type", c.kind.map .str)]

/-- Reads a call. -/
def decode : Decoder ToolCall := fun d => do
  let r ← d.record? ["index", "id", "type", "function"]
  some {
    index := ← r.optional "index" uint32
    id := ← r.optional "id" string
    kind := ← r.optional "type" string
    function := ← r.optional "function" FunctionCall.decode }

end ToolCall

/-- A message as the service takes and sends it. -/
structure Message where
  content : Option Content := none
  role : Option Role := none
  name : Option String := none
  toolCallId : Option String := none
  toolCalls : Option (List ToolCall) := none
deriving DecidableEq, Repr, Inhabited

namespace Message

/-- A message with a content and a role. -/
def ofContent (content : Content) (role : Role) : Message :=
  { content := some content, role := some role }

/-- A message with a text and a role. -/
def ofText (text : String) (role : Role) : Message := ofContent (.text text) role

/-- The text of the message; a message without content has none. -/
def text (m : Message) : String := (m.content.map Content.plain).getD ""

/-- The tool calls of the message. -/
def calls (m : Message) : List ToolCall := m.toolCalls.getD []

/-- The message as JSON. -/
def toJson (m : Message) : Json :=
  record [("content", m.content.map Content.toJson), ("name", m.name.map .str),
    ("role", m.role.map Role.toJson), ("tool_call_id", m.toolCallId.map .str),
    ("tool_calls", m.toolCalls.map fun calls => .arr (calls.map ToolCall.toJson))]

/-- Reads a message. -/
def decode : Decoder Message := fun d => do
  let r ← d.record? ["content", "role", "name", "tool_call_id", "tool_calls"]
  some {
    content := ← r.optional "content" Content.decode
    role := ← r.optional "role" Role.decode
    name := ← r.optional "name" string
    toolCallId := ← r.optional "tool_call_id" string
    toolCalls := ← r.optional "tool_calls" (list ToolCall.decode) }

end Message

end ModelClient.Wire
