import ModelClient.Json.Doc
import ModelClient.Json.Printer
import ModelClient.Error

/-!
# Answers with an error status

The error that an answer stands for. Its kind depends on the status alone. The body may be an
envelope, an object with a field `error` that carries the service's message, its own code and, for
too many requests, how long to wait; any other body is the message as it is.
-/

namespace ModelClient

open Json

namespace Wire

/-- The value under `error` of a body that is a JSON object. -/
def errorEnvelope? (body : String) : Option Json := do
  (← Json.ofString? body).field? "error"

/-- The message of the envelope, or the whole body. -/
def errorMessage (body : String) : String :=
  ((do (← (← errorEnvelope? body).field? "message").str?) : Option String).getD body

/-- The details of the envelope. The service's code may be a text or a number. -/
def errorDetails? (status : Nat) (body : String) : Option ErrorDetails := do
  let envelope ← errorEnvelope? body
  some {
    code := some (.ofStatus status)
    providerCode := do
      match ← envelope.field? "code" with
      | .str s => some s
      | .num n => some (String.ofList n.write)
      | _ => none
    requestId := do (← (← Json.ofString? body).field? "request_id").str? }

/-- The time to wait in milliseconds, which the envelope gives in seconds. -/
def retryAfter? (body : String) : Option Nat := do
  match ← (← errorEnvelope? body).field? "retry_after" with
  | .num n => some ((n.toBinary64.mul (Binary64.ofNat 1000)).clampToNat (2 ^ 64 - 1))
  | _ => none

end Wire

open Wire in
/-- The error that an answer with an error status stands for. -/
def Error.ofStatus (status : Nat) (body : String) : Error :=
  if status = 401 ∨ status = 403 then .authentication (errorMessage body)
  else if status = 429 then .rateLimited (retryAfter? body)
  else match errorDetails? status body with
    | some details => .api status (errorMessage body) (some details)
    | none => .api status body none

end ModelClient
