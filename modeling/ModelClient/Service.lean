import ModelClient.Run

/-!
# The service

The other end of a client: a script of answers, of which the first request gets the first one, the
second request the second, and every request after that the last one; or a service that cannot be
reached. A `Session` is the service's script so far and how many items the consumer of a stream
still wants.
-/

namespace ModelClient

/-- What the service does with a request. An answer is the one that the client gets to see: it is
assumed that none is a redirect which the HTTP library follows on its own, so that every request is
one of the client's. -/
inductive Answer where
  /-- It answers, and the body arrives in pieces; the connection may break after them. -/
  | reply (status : Nat) (pieces : List (List UInt8)) (breaksOff : Bool)
  /-- It closes the connection. -/
  | drop
  /-- It never answers. -/
  | hang
deriving DecidableEq, Repr

/-- The service's answers to the requests to come. -/
inductive Service where
  | unreachable
  | script (answers : List Answer)
deriving DecidableEq, Repr

/-- The answer to the next request and the service after it. Without any answer the service fails
with status 500. -/
def Service.next : List Answer → Answer × List Answer
  | [] => (.reply 500 [] false, [])
  | [last] => (last, [last])
  | answer :: rest => (answer, rest)

/-- The world around a run of a model. -/
structure Session where
  service : Service
  /-- How many items of a stream are still wanted; without a number, all of them. -/
  demand : Option Nat := none
  /-- Whether the consumer of a stream wants nothing after an error. -/
  leavesOnError : Bool := false
deriving DecidableEq, Repr

namespace Session

/-- Sends a request. The service that cannot be reached receives nothing. It is assumed that the
HTTP library takes the address of the request for one; where it does not, it would fail without
sending anything, as it does for the empty text. -/
def send (request : Request) : Run Session Answer := fun s =>
  match s.service with
  | .unreachable => ⟨[], s, .ok .drop⟩
  | .script answers =>
    let (answer, rest) := Service.next answers
    ⟨[.sent request], { s with service := .script rest }, .ok answer⟩

/-- Whether the consumer of a stream wants no more after an item. -/
def isServed (s : Session) (item : Except Error ChatResponse) : Bool :=
  (match s.demand with
    | some n => n ≤ 1
    | none => false) ||
  (match item with
    | .error _ => s.leavesOnError
    | .ok _ => false)

/-- Hands an item to the consumer of a stream, who may want no more after it. -/
def yield (item : Except Error ChatResponse) : Run Session Unit := fun s =>
  ⟨[.yielded item], { s with demand := s.demand.map (· - 1) },
    if s.isServed item then .error (.halt .abandoned) else .ok ()⟩

end Session

end ModelClient
