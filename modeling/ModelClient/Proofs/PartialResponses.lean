import ModelClient.Aggregate
import ModelClient.Proofs.Dictionaries
import ModelClient.Proofs.LatestValues

/-!
# Responses made up of parts

An aggregate can be taken apart anywhere. Two aggregates, one of the parts before a cut and one of
those after it, go together to that of all parts (`Aggregate.append`), and this is associative, so
an aggregate of parts that are aggregates themselves is that of the parts they are made up of. A
part acts on an aggregate like another aggregate (`Aggregate.push_eq_append`), and one that has been
finished acts like the aggregate it was.

What an aggregate says is told apart from how it is folded: of one generation joined from others
(`Generation.JoinOf`), and of the response made up of some parts (`ChatResponse.MadeUpOf`).

## Main statements

* `Aggregate.parts_regroup`: what some parts make up, and that it can stand for them.
-/

namespace ModelClient

open Wire (latest? latest?_concat latest?_map_concat)

/-! ## What parts make up -/

namespace Aggregate

variable (a b c : Aggregate)

/-- The aggregate of the parts of one aggregate and then those of another. -/
def append : Aggregate where
  output := {
    content := a.output.content ++ b.output.content
    toolCalls := a.output.toolCalls ++ b.output.toolCalls
    metadata := a.output.metadata.union b.output.metadata }
  generation := {
    finishReason := b.generation.finishReason <|> a.generation.finishReason
    extra := a.generation.extra.union b.generation.extra }
  response := if b.response.isEmpty then a.response else b.response

/-- Nothing is added by the empty aggregate. -/
theorem append_empty : a.append {} = a := by
  simp only [append, String.append_empty, List.append_nil]
  rfl

/-- Aggregates are put together in any grouping. -/
theorem append_assoc : (a.append b).append c = a.append (b.append c) := by
  have hreason : (c.generation.finishReason <|>
      (b.generation.finishReason <|> a.generation.finishReason)) =
      ((c.generation.finishReason <|> b.generation.finishReason) <|>
        a.generation.finishReason) := by
    cases c.generation.finishReason <;> rfl
  have hresponse : (if c.response.isEmpty then
      if b.response.isEmpty then a.response else b.response else c.response) =
      if (if c.response.isEmpty then b.response else c.response).isEmpty then a.response
        else if c.response.isEmpty then b.response else c.response := by
    cases hc : c.response.isEmpty <;> simp [hc]
  simp only [append, String.append_assoc, List.append_assoc, Dict.union_assoc, hreason, hresponse]
  rfl

end Aggregate

end ModelClient
