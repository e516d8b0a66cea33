import ModelClient.Wire.Completion
import ModelClient.Error

/-!
# Merging streamed chunks

While a tool call streams, its arguments arrive in fragments over several chunks. Only the first
chunk of a call carries the call's id. Merging the chunks from left to right rebuilds the calls: the
last call so far is the one in progress, a call with an id ends it and starts the next one, and a
call without an id continues it. Every other field takes its latest value that is not null.

A merged chunk has at most one choice, the merge of the first choices. A chunk with more than one
tool call cannot be merged.
-/

namespace ModelClient

/-- A chunk reports more tool calls than one. -/
def Error.severalToolCalls (count : Nat) : Error :=
  .toolCallProtocol s!"only one tool call is supported per chunk, got {count}"

namespace Wire

/-- The function so far with the next fragment: the arguments are appended. -/
def FunctionCall.merge (previous current : FunctionCall) : FunctionCall :=
  { name := current.name <|> previous.name
    arguments := some (previous.arguments.getD "" ++ current.arguments.getD "") }

/-- Two values that may be missing, combined if neither is. -/
def mergeOptions {α : Type} (merge : α → α → α) : Option α → Option α → Option α
  | some previous, some current => some (merge previous current)
  | previous, current => current <|> previous

/-- The call so far with the next fragment. -/
def ToolCall.merge (previous current : ToolCall) : ToolCall :=
  { index := current.index <|> previous.index
    id := current.id <|> previous.id
    kind := current.kind <|> previous.kind
    function := mergeOptions FunctionCall.merge previous.function current.function }

/-- The calls so far with the next one: a call without an id continues the last one. -/
def ToolCall.continueWith (call : ToolCall) : List ToolCall → List ToolCall
  | [] => [call]
  | [last] => if call.id.isSome then [last, call] else [last.merge call]
  | first :: rest => first :: call.continueWith rest

/-- The calls so far with those of the next chunk, which must not be more than one. -/
def mergeCalls (previous : List ToolCall) : List ToolCall → Except Error (List ToolCall)
  | [] => .ok previous
  | [call] => .ok (call.continueWith previous)
  | calls => .error (.severalToolCalls calls.length)

/-- The message so far with the next delta. -/
def Message.merge (previous current : Message) : Except Error Message := do
  let calls ← mergeCalls previous.calls current.calls
  return {
    content := some ((current.content <|> previous.content).getD (.text ""))
    role := some ((current.role <|> previous.role).getD .assistant)
    name := current.name <|> previous.name
    toolCallId := current.toolCallId <|> previous.toolCallId
    toolCalls := if calls.isEmpty then none else some calls }

/-- The delta so far with the next one. -/
def mergeDeltas : Option Message → Option Message → Except Error (Option Message)
  | some previous, some current => some <$> previous.merge current
  | previous, current => .ok (current <|> previous)

/-- The choice so far with the next one. -/
def ChunkChoice.merge (previous current : ChunkChoice) : Except Error ChunkChoice := do
  let delta ← mergeDeltas previous.delta current.delta
  return {
    finishReason := current.finishReason <|> previous.finishReason
    index := current.index <|> previous.index
    delta
    logprobs := current.logprobs <|> previous.logprobs }

/-- The first choice so far with the next chunk's first choice. -/
def mergeChoices : Option ChunkChoice → Option ChunkChoice → Except Error (Option ChunkChoice)
  | some previous, some current => some <$> previous.merge current
  | previous, current => .ok (current <|> previous)

/-- The chunk so far with the next one. -/
def Chunk.merge (previous current : Chunk) : Except Error Chunk := do
  let choice ← mergeChoices previous.choices.head? current.choices.head?
  return {
    id := current.id <|> previous.id
    choices := choice.toList
    created := current.created <|> previous.created
    model := current.model <|> previous.model
    systemFingerprint := current.systemFingerprint <|> previous.systemFingerprint
    object := current.object <|> previous.object }

/-- The chunk so far, if there is one, with the next one. -/
def Chunk.mergeOnto : Option Chunk → Chunk → Except Error Chunk
  | none, current => .ok current
  | some previous, current => previous.merge current

end Wire

end ModelClient
