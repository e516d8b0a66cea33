import ModelClient.ChatResponse
import ModelClient.Error

/-!
# Folding a streamed response

The parts of a streamed response folded into one response: texts are joined, tool calls listed in
order, and of metadata the latest that is not empty stays.
-/

namespace ModelClient

/-- A response so far. -/
structure Aggregate where
  output : AssistantMessage := {}
  generation : GenerationMetadata := {}
  response : ResponseMetadata := {}
deriving DecidableEq

namespace Aggregate

/-- The first generation of the next part. -/
def pushGeneration (a : Aggregate) (g : Generation) : Aggregate :=
  { a with
    output := {
      content := a.output.content ++ g.output.content
      toolCalls := a.output.toolCalls ++ g.output.toolCalls
      metadata := a.output.metadata.union g.output.metadata }
    generation := {
      finishReason := g.metadata.finishReason <|> a.generation.finishReason
      extra := a.generation.extra.union g.metadata.extra } }

/-- The next part. -/
def push (a : Aggregate) (r : ChatResponse) : Aggregate :=
  let a := if r.metadata.isEmpty then a else { a with response := r.metadata }
  match r.result? with
  | none => a
  | some g => a.pushGeneration g

/-- The response that the parts make up. -/
def finish (a : Aggregate) : ChatResponse :=
  { generations := [{ output := a.output, metadata := a.generation }], metadata := a.response }

/-- The parts folded together. -/
def ofParts (parts : List ChatResponse) : Aggregate := parts.foldl push {}

/-- The response that a whole stream makes up; a stream with an error makes up none. -/
def complete? (items : List (Except Error ChatResponse)) : Option ChatResponse :=
  (items.mapM Except.toOption).map fun parts => (ofParts parts).finish

end Aggregate

end ModelClient
