import ModelClient.Error
import ModelClient.Usage

/-!
# Observations

An observation watches one call of a model. The handlers that are registered are told when it
starts, when it fails and when it stops, each time with the observation's name and what is known
about the call. An observation stops once: the first `stop` tells the handlers and later ones do
nothing.

An observation is a plain value here. Each operation gives the notices that it sends, in the order
in which the handlers receive them, and the observation after it.
-/

namespace ModelClient

open Json Json.Decode

/-- A kind of model call. -/
inductive Operation where
  | chat
  | embedding
  | image
deriving DecidableEq, Repr

namespace Operation

/-- The operation's name. -/
def name : Operation → String
  | chat => "chat"
  | embedding => "embedding"
  | image => "image"

/-- The operation of a name. -/
def ofName? : String → Option Operation
  | "chat" => some chat
  | "embedding" => some embedding
  | "image" => some image
  | _ => none

/-- Reads an operation. -/
def decode : Decoder Operation := choice ofName?

end Operation

/-- What handlers learn about a response. -/
structure ResponseSummary where
  id : Option String := none
  model : Option String := none
  usage : Option Usage := none
  finishReasons : List String := []
deriving DecidableEq, Repr

namespace ResponseSummary

/-- The summary as JSON. -/
def toJson (s : ResponseSummary) : Json :=
  record [("finish_reasons", some (.arr (s.finishReasons.map .str))),
    ("id", some (orNull .str s.id)), ("model", some (orNull .str s.model)),
    ("usage", some (orNull Usage.toJson s.usage))]

/-- Reads a summary. -/
def decode : Decoder ResponseSummary := fun d => do
  let r ← d.record? ["id", "model", "usage", "finish_reasons"]
  some {
    id := ← r.nullable "id" string
    model := ← r.nullable "model" string
    usage := ← r.nullable "usage" Usage.decode
    finishReasons := ← r.defaulted "finish_reasons" [] (list string) }

end ResponseSummary

namespace Observation

/-- What is known about an observed call. -/
structure Context where
  operation : Operation
  provider : String
  /-- The options that the request is made with. -/
  requestOptions : Json := .null
  response : Option ResponseSummary := none
deriving DecidableEq

namespace Context

/-- The model that the request asks for. -/
def requestModel? (c : Context) : Option String := do
  (← c.requestOptions.field? "model").str?

/-- The context as JSON. -/
def toJson (c : Context) : Json :=
  record [("operation", some (.str c.operation.name)), ("provider", some (.str c.provider)),
    ("request_options", some c.requestOptions),
    ("response", some (orNull ResponseSummary.toJson c.response))]

end Context

/-- How observations are named. -/
abbrev Convention := Context → String

/-- The operation and the model, or the operation alone when no model is known. -/
def operationAndModel : Convention := fun c =>
  match c.requestModel? with
  | some model => if model = "" then c.operation.name else s!"{c.operation.name} {model}"
  | none => c.operation.name

/-- What happens to an observed call. -/
inductive Stage where
  | start
  | stop
  | error (e : Error)
deriving DecidableEq

/-- What a handler is told. -/
structure Event where
  stage : Stage
  name : String
  context : Context
deriving DecidableEq

/-- An event told to one of the handlers, which are numbered in the order of their registration. -/
structure Notice where
  handler : Nat
  event : Event
deriving DecidableEq

end Observation

/-- A call that is being watched by a number of handlers. -/
structure Observation where
  name : String
  context : Observation.Context
  handlers : Nat
  stopped : Bool
deriving DecidableEq

namespace Observation

/-- The notices of an event, one for each handler. -/
def notices (o : Observation) (stage : Stage) : List Notice :=
  (List.range o.handlers).map fun i => ⟨i, stage, o.name, o.context⟩

/-- Begins to watch a call. The name is made up once, from what is known at the start. -/
def start (handlers : Nat) (convention : Convention) (context : Context) :
    List Notice × Observation :=
  let o : Observation := ⟨convention context, context, handlers, false⟩
  (o.notices .start, o)

/-- Takes down the response that later notices report. -/
def setResponse (o : Observation) (summary : ResponseSummary) : Observation :=
  { o with context := { o.context with response := some summary } }

/-- Reports an error of the call. -/
def error (o : Observation) (e : Error) : List Notice := o.notices (.error e)

/-- Ends the observation, unless it has ended before. -/
def stop (o : Observation) : List Notice × Observation :=
  if o.stopped then ([], o) else (o.notices .stop, { o with stopped := true })

end Observation

end ModelClient
