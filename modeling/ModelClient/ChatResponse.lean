import ModelClient.Message
import ModelClient.Timestamp
import ModelClient.Usage
import ModelClient.Wire.Completion

/-!
# Chat responses

The result of a chat call, or one part of a streamed result: generations, each with what the model
said and why it stopped, and what is known about the response as a whole.
-/

namespace ModelClient

open Json Json.Decode

/-- What is known about a generation. -/
structure GenerationMetadata where
  finishReason : Option String := none
  extra : Dict Json := {}
deriving DecidableEq

namespace GenerationMetadata

/-- The metadata as JSON. -/
def toJson (m : GenerationMetadata) : Json :=
  record [("extra", if m.extra.isEmpty then none else some (ofDict m.extra)),
    ("finish_reason", some (orNull .str m.finishReason))]

/-- Reads the metadata. -/
def decode : Decoder GenerationMetadata := fun d => do
  let r ← d.record? ["finish_reason", "extra"]
  some {
    finishReason := ← r.nullable "finish_reason" string
    extra := ← r.defaulted "extra" {} (dict json) }

end GenerationMetadata

/-- One of the outputs of a response. -/
structure Generation where
  output : AssistantMessage
  metadata : GenerationMetadata := {}
deriving DecidableEq

namespace Generation

/-- The generation as JSON. -/
def toJson (g : Generation) : Json :=
  record [("metadata", some g.metadata.toJson), ("output", some g.output.toJson)]

/-- Reads a generation. -/
def decode : Decoder Generation := fun d => do
  let r ← d.record? ["output", "metadata"]
  some {
    output := ← r.required "output" AssistantMessage.decode
    metadata := ← r.required "metadata" GenerationMetadata.decode }

/-- The generation of a completion's choice. The completion's id, the role and the reason for having
stopped are put into the message's metadata. -/
def ofChoice (choice : Wire.Choice) (id role : String) : Generation :=
  let reason := (choice.finishReason.map Wire.FinishReason.name).getD ""
  { output := {
      content := choice.message.text
      toolCalls := choice.message.calls.map fun call =>
        let function := call.function.getD {}
        { id := call.id.getD ""
          kind := "function"
          name := function.name.getD ""
          arguments := function.arguments.getD "" }
      metadata := .ofList [("id", .str id), ("role", .str role), ("finishReason", .str reason)] }
    metadata := { finishReason := if reason = "" then none else some reason } }

end Generation

/-- What is known about a response. -/
structure ResponseMetadata where
  id : String := ""
  model : String := ""
  usage : Usage := {}
  created : Option Timestamp := none
  systemFingerprint : Option String := none
deriving DecidableEq

namespace ResponseMetadata

/-- Whether neither the response nor its model is known and no tokens were used. -/
def isEmpty (m : ResponseMetadata) : Bool := m.id == "" && m.model == "" && m.usage.isEmpty

/-- The metadata as JSON. -/
def toJson (m : ResponseMetadata) : Json :=
  record [("created", m.created.map fun t => .str t.render), ("id", some (.str m.id)),
    ("model", some (.str m.model)), ("system_fingerprint", m.systemFingerprint.map .str),
    ("usage", some m.usage.toJson)]

/-- Reads the metadata. -/
def decode : Decoder ResponseMetadata := fun d => do
  let r ← d.record? ["id", "model", "usage", "created", "system_fingerprint"]
  some {
    id := ← r.required "id" string
    model := ← r.required "model" string
    usage := ← r.required "usage" Usage.decode
    created := ← r.optional "created" fun d => do Timestamp.read? (← string d)
    systemFingerprint := ← r.optional "system_fingerprint" string }

/-- The metadata of a completion. A time beyond the calendar is left out. -/
def ofCompletion (c : Wire.Completion) : ResponseMetadata :=
  { id := c.id.getD ""
    model := c.model.getD ""
    usage := (c.usage.map Usage.ofWire).getD {}
    created := do Timestamp.ofEpochSeconds? (← c.created).toInt
    systemFingerprint := c.systemFingerprint }

end ResponseMetadata

/-- The result of a chat call, or one part of a streamed result. -/
structure ChatResponse where
  generations : List Generation := []
  metadata : ResponseMetadata := {}
deriving DecidableEq, Inhabited

namespace ChatResponse

/-- The first generation. -/
def result? (r : ChatResponse) : Option Generation := r.generations.head?

/-- The text of the first generation. -/
def text (r : ChatResponse) : String := (r.result?.map (·.output.content)).getD ""

/-- Whether any generation asks for tool calls. -/
def hasToolCalls (r : ChatResponse) : Bool := r.generations.any (·.output.hasToolCalls)

/-- The response as JSON. -/
def toJson (r : ChatResponse) : Json :=
  record [("generations", some (.arr (r.generations.map Generation.toJson))),
    ("metadata", some r.metadata.toJson)]

/-- Reads a response. -/
def decode : Decoder ChatResponse := fun d => do
  let r ← d.record? ["generations", "metadata"]
  some {
    generations := ← r.required "generations" (list Generation.decode)
    metadata := ← r.required "metadata" ResponseMetadata.decode }

/-- The response of a whole completion. -/
def ofCompletion (c : Wire.Completion) : ChatResponse :=
  { generations := c.choices.map fun choice =>
      .ofChoice choice (c.id.getD "") ((choice.message.role.map Wire.Role.name).getD "")
    metadata := .ofCompletion c }

/-- The roles that a stream has shown so far, by completion id. -/
abbrev Roles := Dict Wire.Role

/-- The roles with the one of a message, unless one is already known. -/
def Roles.remember (roles : Roles) (id : String) (role : Option Wire.Role) : Roles :=
  match role, roles.get? id with
  | some role, none => roles.insert id role
  | _, _ => roles

/-- The generations of a streamed completion's choices. Only the first part of a completion names
the role, so it is remembered for the parts after it. -/
def generationsOf (id : String) : Roles → List Wire.Choice → List Generation × Roles
  | roles, [] => ([], roles)
  | roles, choice :: rest =>
    let roles := roles.remember id choice.message.role
    let generation := .ofChoice choice id (((roles.get? id).map Wire.Role.name).getD "")
    let (generations, roles) := generationsOf id roles rest
    (generation :: generations, roles)

/-- The response of one streamed completion, and the roles known after it. -/
def ofStreamed (roles : Roles) (c : Wire.Completion) : ChatResponse × Roles :=
  let (generations, roles) := generationsOf (c.id.getD "") roles c.choices
  ({ generations, metadata := .ofCompletion c }, roles)

end ChatResponse

end ModelClient
