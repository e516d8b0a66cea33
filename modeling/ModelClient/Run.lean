import ModelClient.ChatResponse
import ModelClient.Observation
import ModelClient.Retry

/-!
# Runs

Everything a model does to the outside is an `Effect`, and a `Run` is a computation that leaves a
list of effects, changes a state and ends with a value or stops early. Because the effects are data,
a statement about what a call sends, runs or reports is a statement about that list.

A run stops with an `Error`, which the caller receives, or it is halted: by a fault of the
computation, by a service that never answers, or by a consumer who wants no more of a stream.
-/

namespace ModelClient

/-- A request as the service receives it. -/
structure Request where
  url : String
  contentType : String
  authorization : Option String
  body : Json
deriving DecidableEq

/-- What a run does to the outside. -/
inductive Effect where
  /-- A request reaches the service. -/
  | sent (request : Request)
  /-- A handler is told about an observed call. -/
  | observed (notice : Observation.Notice)
  /-- A listener is told about an attempt; listeners are numbered in the order of registration. -/
  | retried (listener : Nat) (notice : RetryNotice)
  /-- Time passes between two attempts. -/
  | paused (pause : Pause)
  /-- A response is handed over to the tools that it asks for. -/
  | delegated (response : ChatResponse)
  /-- A tool runs. -/
  | ran (tool : String) (arguments : Json)
  /-- The consumer of a stream receives an item. -/
  | yielded (item : Except Error ChatResponse)

/-- Why a run ends without a result for the caller. -/
inductive Halt where
  /-- A count overflows or a wait is negative. -/
  | crashed
  /-- The service never answers and nothing limits the wait. -/
  | stalled
  /-- The consumer of a stream wants no more. -/
  | abandoned
deriving DecidableEq, Repr

/-- Why a run stops early. -/
inductive Stop where
  | error (e : Error)
  | halt (h : Halt)
deriving DecidableEq

/-- How a run ends: its effects in order, the state after them, and its value. -/
structure Outcome (σ α : Type) where
  effects : List Effect
  state : σ
  value : Except Stop α

/-- A computation with effects over a state. -/
def Run (σ α : Type) : Type := σ → Outcome σ α

namespace Run

variable {σ α β : Type}

/-- The run that only has a value. -/
def pure (a : α) : Run σ α := fun s => ⟨[], s, .ok a⟩

/-- One run and then another, unless the first one stops early. -/
def bind (x : Run σ α) (f : α → Run σ β) : Run σ β := fun s =>
  match x s with
  | ⟨effects, s, .ok a⟩ =>
    let rest := f a s
    ⟨effects ++ rest.effects, rest.state, rest.value⟩
  | ⟨effects, s, .error stop⟩ => ⟨effects, s, .error stop⟩

instance : Monad (Run σ) where
  pure := pure
  bind := bind

/-- The run that does one thing to the outside. -/
def emit (e : Effect) : Run σ Unit := fun s => ⟨[e], s, .ok ()⟩

/-- The run that does some things to the outside. -/
def emitAll (es : List Effect) : Run σ Unit := fun s => ⟨es, s, .ok ()⟩

/-- The run that fails. -/
def fail (e : Error) : Run σ α := fun s => ⟨[], s, .error (.error e)⟩

/-- The run that is halted. -/
def halt (h : Halt) : Run σ α := fun s => ⟨[], s, .error (.halt h)⟩

/-- The run with a result that is already known. -/
def ofExcept : Except Error α → Run σ α
  | .ok a => pure a
  | .error e => fail e

/-- The run with its failure as a value; it can still be halted. -/
def attempt (x : Run σ α) : Run σ (Except Error α) := fun s =>
  match x s with
  | ⟨effects, s, .ok a⟩ => ⟨effects, s, .ok (.ok a)⟩
  | ⟨effects, s, .error (.error e)⟩ => ⟨effects, s, .ok (.error e)⟩
  | ⟨effects, s, .error (.halt h)⟩ => ⟨effects, s, .error (.halt h)⟩

end Run

end ModelClient
