import ModelClient.Layer.Chat
import ModelClient.Message

/-!
# Prompts and tool rounds

A prompt is a conversation with the options for its answer. When the model answers with tool calls
and has stopped in order to have them run, they are run and the conversation goes on with the
assistant's message and the results (`Prompt.afterTools`).
-/

namespace ModelClient

/-- A conversation and the options for its answer. -/
structure Prompt where
  messages : List Message
  options : Option ChatOptions := none

namespace Prompt

/-- A single message of the user. -/
def ofText (text : String) : Prompt := { messages := [.user text []] }

/-- The text of the last message. -/
def contents (p : Prompt) : String := (p.messages.getLast?.map Message.text).getD ""

end Prompt

/-- Whether two texts are equal up to the case of ASCII letters. -/
def equalIgnoringCase (s t : String) : Bool :=
  s.toList.map Char.toLower == t.toList.map Char.toLower

namespace Generation

/-- Whether the generation asks for tool calls and has stopped for one of the given reasons. -/
def callsTools (reasons : List String) (g : Generation) : Bool :=
  g.output.hasToolCalls &&
    match g.metadata.finishReason with
    | some reason => reasons.any (equalIgnoringCase · reason)
    | none => false

end Generation

namespace ChatResponse

/-- Whether any generation asks for tool calls and has stopped for one of the given reasons. -/
def callsTools (reasons : List String) (r : ChatResponse) : Bool :=
  r.generations.any (Generation.callsTools reasons)

/-- The message of the first generation that asks for tool calls. -/
def callingMessage? (r : ChatResponse) : Option AssistantMessage :=
  (r.generations.map Generation.output).find? AssistantMessage.hasToolCalls

end ChatResponse

/-- Whether tool calls are left to the caller: as the request says, or else as the defaults say. -/
def proxiesToolCalls (request defaults : Option Bool) : Bool :=
  (request <|> defaults).getD false

namespace ToolRegistry

variable {σ : Type}

/-- Runs the tool that a call names. -/
def answer (r : ToolRegistry) (call : ToolCall) : Run σ ToolResponse := do
  match r.get? call.name with
  | none =>
    .fail (.invalidState s!"No function callback found for function name: {call.name}")
  | some tool => return { id := call.id, name := call.name, data := ← tool.call call.arguments }

/-- Runs the tools that some calls name, one after the other. -/
def answerAll (r : ToolRegistry) : List ToolCall → Run σ (List ToolResponse)
  | [] => return []
  | call :: rest => do
    let response ← r.answer call
    let responses ← r.answerAll rest
    return response :: responses

end ToolRegistry

/-- The conversation that goes on after the tools of a response have run: the messages so far, the
assistant's message with the calls, and one message with all the results. -/
def Prompt.afterTools {σ : Type} (p : Prompt) (response : ChatResponse) (registry : ToolRegistry) :
    Run σ Prompt := do
  .emit (.delegated response)
  match response.callingMessage? with
  | none => .fail (.invalidState "No tool call requested by the chat model")
  | some message =>
    let responses ← registry.answerAll message.toolCalls
    return { p with messages := p.messages ++ [.assistant message, .tool responses] }

end ModelClient
