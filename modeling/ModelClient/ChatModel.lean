import ModelClient.Client
import ModelClient.Layer.Chat
import ModelClient.ModelName
import ModelClient.Observation.Observe
import ModelClient.Prompt
import ModelClient.Retry.Execute
import ModelClient.Text.Base64

/-!
# The chat model

A chat model prepares the request of a prompt, sends it and answers the tool calls of the response
until a response has none. Tools that are registered with the model are enabled by name only; tools
that come with the model's or the prompt's options are registered and enabled.

`call` gives the last response; `ChatModel.stream`, in a module of its own, gives the parts of the
responses as they arrive. Either way a prompt has at most `maxRounds` rounds.
-/

namespace ModelClient

open Json

/-- The tool calls of a prompt do not come to an end. -/
def Error.unsettled (rounds : Nat) : Error :=
  .invalidState s!"Tool calls did not settle after {rounds} rounds"

namespace Media

/-- The address of an attachment; bytes become part of the address. -/
def address (m : Media) : String :=
  match m.data with
  | .bytes bs => s!"data:{m.mimeType};base64,{String.ofList (Text.base64 bs)}"
  | .url url => url

end Media

namespace Message

/-- The messages on the wire that a message stands for: one for each result of a tool, and one for
any other message. A result has to name the call that it answers. -/
def toWire : Message → Except Error (List Wire.Message)
  | system content => .ok [.ofText content .system]
  | user content [] => .ok [.ofText content .user]
  | user content media =>
    let images := media.map fun m => Wire.Part.image { url := m.address, detail := none }
    .ok [.ofContent (.parts (.text content :: images)) .user]
  | assistant m =>
    let calls := m.toolCalls.map fun call =>
      { id := some call.id
        kind := some call.kind
        function := some { name := some call.name, arguments := some call.arguments } }
    .ok [{ Wire.Message.ofText m.content .assistant with
      toolCalls := if m.hasToolCalls then some calls else none }]
  | tool responses =>
    if responses.any (·.id == "") then
      .error (.invalidArgument "ToolResponseMessage must have an id")
    else .ok (responses.map fun r =>
      { Wire.Message.ofText r.data .tool with name := some r.name, toolCallId := some r.id })

end Message

/-- The definition of a tool on the wire. -/
def Tool.definition (t : Tool) : Wire.ToolDefinition :=
  { function := { description := t.description, name := t.name, parameters := t.schema } }

/-- A model that answers prompts. -/
structure ChatModel where
  client : Client
  defaults : ChatLayer
  registry : ToolRegistry
  retry : RetryPolicy
  observer : Observer

/-- A request that is ready to be sent, with the tools that its answer may call. -/
structure PreparedRequest where
  request : Wire.ChatRequest
  options : ChatLayer
  registry : ToolRegistry
  proxiesToolCalls : Bool

namespace ChatModel

/-- How many rounds a prompt may have. -/
def maxRounds : Nat := 20

/-- The reasons for having stopped after which tool calls are run. -/
def toolReasons : List String := ["tool_calls", "stop"]

/-- The model that is used unless another one is named. -/
def defaultModel : String := ChatModelName.glm4Air.name

/-- The temperature that is used unless another one is given. -/
def defaultTemperature : Binary64 := Binary64.ofFraction false 7 10

/-- The options of a model that was given none. -/
def standardOptions : ChatLayer :=
  { model := some defaultModel, temperature := some defaultTemperature }

/-- The model with other default options. Tools among them are registered and enabled. -/
def withOptions (m : ChatModel) (options : ChatLayer) : ChatModel :=
  { m with
    registry := m.registry.registerAll options.callbacks
    defaults := { options with
      functions := options.functions.union (.ofList (options.callbacks.map Tool.name))
      callbacks := [] } }

/-- The model with some more tools, which are not enabled. -/
def withTools (m : ChatModel) (tools : List Tool) : ChatModel :=
  { m with registry := m.registry.registerAll tools }

/-- A model with standard options that no one watches. -/
def ofClient (client : Client) : ChatModel :=
  { client
    defaults := standardOptions
    registry := {}
    retry := .standard
    observer := {} }

/-- The default options that a prompt may carry. -/
def defaultOptions (m : ChatModel) : ChatOptions := m.defaults.toOptions

/-- The names of the tools that a prompt enables, those that the model always enables included. -/
def enabledNames (m : ChatModel) (request : Option ChatLayer) : NameSet :=
  match request with
  | none => m.defaults.functions
  | some l => (l.functions.union (.ofList (l.callbacks.map Tool.name))).union m.defaults.functions

/-- The definitions of the enabled tools as a layer of options; without any tool there is none. -/
def toolLayer? (registry : ToolRegistry) (enabled : NameSet) :
    Except Error (Option ChatLayer) := do
  if enabled.isEmpty then return none
  else
    let tools ← registry.resolve enabled
    return some { tools := some (tools.map Tool.definition) }

/-- The request of a prompt. -/
def prepare (m : ChatModel) (prompt : Prompt) (stream : Bool) : Except Error PreparedRequest := do
  let messages ← prompt.messages.mapM Message.toWire
  let layer := prompt.options.map ChatLayer.ofOptions
  let registry := m.registry.registerAll ((layer.map ChatLayer.callbacks).getD [])
  let tools ← toolLayer? registry (m.enabledNames layer)
  let options := ChatLayer.resolve tools layer m.defaults
  return {
    request := options.applyTo { messages := messages.flatten, stream }
    options
    registry
    proxiesToolCalls :=
      ModelClient.proxiesToolCalls (layer.bind ChatLayer.proxyToolCalls) m.defaults.proxyToolCalls }

/-- What handlers are told about a request. -/
def context (options : ChatLayer) : Observation.Context :=
  { operation := .chat, provider := Client.provider, requestOptions := options.toJson }

/-- What handlers are told about a response. -/
def summarize (r : ChatResponse) : ResponseSummary :=
  let known (s : String) : Option String := if s = "" then none else some s
  { id := known r.metadata.id
    model := known r.metadata.model
    usage := some r.metadata.usage
    finishReasons := r.generations.filterMap (·.metadata.finishReason) }

/-- Whether the tool calls of a response are to be run. -/
def runsTools (p : PreparedRequest) (r : ChatResponse) : Bool :=
  !p.proxiesToolCalls && r.callsTools toolReasons

/-- The response to one request. An empty answer is an empty response. -/
def respond (m : ChatModel) (p : PreparedRequest) : Run Session ChatResponse :=
  observe m.observer (context p.options) summarize do
    match ← m.retry.execute (m.client.complete p.request) with
    | none => return {}
    | some completion => return .ofCompletion completion

/-- The last response to a prompt that may have `left` more rounds. -/
def callRounds (m : ChatModel) : (left : Nat) → Prompt → Run Session ChatResponse
  | 0, _ => .fail (.unsettled maxRounds)
  | left + 1, prompt => do
    let prepared ← Run.ofExcept (m.prepare prompt false)
    let response ← m.respond prepared
    if runsTools prepared response then
      let prompt ← prompt.afterTools response prepared.registry
      m.callRounds left prompt
    else return response

/-- The response to a prompt. -/
def call (m : ChatModel) (prompt : Prompt) : Run Session ChatResponse :=
  m.callRounds maxRounds prompt

end ChatModel

end ModelClient
