import ModelClient.Aggregate
import ModelClient.ChatModel

/-!
# Streamed chat

The parts of a model's responses in the order of their arrival. A part that asks for tools to be run
is not handed to the consumer: its tools are run, and the parts of the next round come in its place.
Then the stream goes on with what is left of the round it was in.

Each round is observed. The observation takes the items that pass through it, those of the rounds
inside it included: an error is reported before the consumer sees it, and a round that ends without
one is reported with the response that its parts make up.
-/

namespace ModelClient

/-- What an observed round has let through so far. -/
structure Watch where
  observation : Observation
  parts : Aggregate := {}
  failed : Bool := false

namespace Watch

/-- One effect of the round on its way out. -/
def pass (w : Watch) : Effect → List Effect × Watch
  | .yielded (.ok part) => ([.yielded (.ok part)], { w with parts := w.parts.push part })
  | .yielded (.error e) =>
    let (stopped, observation) := w.observation.stop
    (Observation.effects (w.observation.error e ++ stopped) ++ [.yielded (.error e)],
      { w with observation, failed := true })
  | effect => ([effect], w)

/-- The effects of the round on their way out. -/
def passAll (w : Watch) : List Effect → List Effect × Watch
  | [] => ([], w)
  | effect :: rest =>
    let (out, w) := w.pass effect
    let (more, w) := w.passAll rest
    (out ++ more, w)

/-- What handlers are told at the end of the round. -/
def conclude (w : Watch) : Except Stop Unit → List Observation.Notice
  | .ok () =>
    if w.failed then []
    else (w.observation.setResponse (ChatModel.summarize w.parts.finish)).stop.1
  | .error (.halt .stalled) => []
  | .error _ => w.observation.stop.1

end Watch

open Observation in
/-- A round of a stream under an observation. -/
def watch (observer : Observer) (context : Context) (round : Run Session Unit) :
    Run Session Unit := fun s =>
  let (started, observation) := start observer.handlers observer.convention context
  let outcome := round s
  let (passed, w) := Watch.passAll { observation } outcome.effects
  { outcome with effects := effects started ++ passed ++ effects (w.conclude outcome.value) }

namespace ChatModel

/-- Hands on the parts that the chunks of a round stand for. `followUp` streams the rounds after a
part that asks for tools. -/
def relay (prompt : Prompt) (prepared : PreparedRequest) (followUp : Prompt → Run Session Unit) :
    ChatResponse.Roles → List (Except Error Wire.Chunk) → Run Session Unit
  | _, [] => return ()
  | _, .error e :: _ => Session.yield (.error e)
  | roles, .ok chunk :: rest => do
    let (response, roles) := ChatResponse.ofStreamed roles chunk.toCompletion
    if runsTools prepared response then
      match ← (prompt.afterTools response prepared.registry).attempt with
      | .error e => Session.yield (.error e)
      | .ok next =>
        followUp next
        relay prompt prepared followUp roles rest
    else
      Session.yield (.ok response)
      relay prompt prepared followUp roles rest

/-- Streams a prompt that may have `left` rounds inside one another. -/
def streamRounds (m : ChatModel) : (left : Nat) → Prompt → Run Session Unit
  | 0, _ => Session.yield (.error (.unsettled maxRounds))
  | left + 1, prompt =>
    match m.prepare prompt true with
    | .error e => Session.yield (.error e)
    | .ok prepared =>
      watch m.observer (context prepared.options) do
        match ← (m.retry.execute (m.client.stream prepared.request)).attempt with
        | .error e => Session.yield (.error e)
        | .ok chunks => relay prompt prepared (m.streamRounds left) {} chunks

/-- Streams the answer to a prompt. Nothing happens for a consumer who wants no items. -/
def stream (m : ChatModel) (prompt : Prompt) : Run Session Unit := fun s =>
  if s.demand = some 0 then ⟨[], s, .ok ()⟩ else m.streamRounds maxRounds prompt s

end ChatModel

end ModelClient
