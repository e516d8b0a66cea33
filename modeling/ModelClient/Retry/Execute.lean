import ModelClient.Run

/-!
# Repeating an attempt

`RetryPolicy.execute` runs an attempt until it succeeds, fails for good or has used up the attempts.
Between two attempts the listeners are told and time passes. Nobody is told of the last failure.
-/

namespace ModelClient

/-- A policy leaves no attempt. -/
def Error.zeroAttempts : Error := .invalidState "retry policy allows zero attempts"

namespace RetryPolicy

variable {σ α : Type}

/-- Tells every listener. -/
def notify (p : RetryPolicy) (notice : RetryNotice) : Run σ Unit :=
  .emitAll ((List.range p.listeners).map fun i => .retried i notice)

/-- The attempts after `failed` of them have failed, with `left` attempts left and the next wait of
`backoff` nanoseconds. A wait that would be negative is a fault. -/
def executeFrom (p : RetryPolicy) (attempt : Run σ α) :
    (left failed backoff : Nat) → Run σ α
  | 0, _, _ => .fail .zeroAttempts
  | left + 1, failed, backoff => do
    match ← attempt.attempt with
    | .ok a =>
      p.notify (.succeeded failed)
      return a
    | .error e =>
      if !e.isRetryable || left == 0 then .fail e
      else
        p.notify (.retrying (failed + 1) e)
        .emit (.paused (.after backoff e))
        match p.nextBackoff? backoff with
        | none => .halt .crashed
        | some backoff => p.executeFrom attempt left (failed + 1) backoff

/-- Runs an attempt as often as the policy allows. -/
def execute (p : RetryPolicy) (attempt : Run σ α) : Run σ α :=
  p.executeFrom attempt p.maxAttempts.toNat 0 p.firstBackoff

end RetryPolicy

end ModelClient
