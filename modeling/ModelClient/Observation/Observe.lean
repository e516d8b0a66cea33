import ModelClient.Run

/-!
# Observed runs

`observe` watches a run from its start to its end. A run that fails is reported and stopped; a run
that is halted is stopped without a report, unless it never ends.
-/

namespace ModelClient

/-- Who is told about observed calls, and how those are named. -/
structure Observer where
  handlers : Nat := 0
  convention : Observation.Convention := Observation.operationAndModel

namespace Observation

variable {σ α : Type}

/-- The effects of telling handlers. -/
def effects (notices : List Notice) : List Effect := notices.map .observed

/-- What handlers are told at the end of a run that was observed. -/
def conclude (o : Observation) (summarize : α → ResponseSummary) : Except Stop α → List Notice
  | .ok a => (o.setResponse (summarize a)).stop.1
  | .error (.error e) => o.error e ++ o.stop.1
  | .error (.halt .stalled) => []
  | .error (.halt _) => o.stop.1

end Observation

open Observation in
/-- Runs `call` under an observation. -/
def observe {σ α : Type} (observer : Observer) (context : Context)
    (summarize : α → ResponseSummary) (call : Run σ α) : Run σ α := fun s =>
  let (started, o) := start observer.handlers observer.convention context
  let outcome := call s
  { outcome with
    effects := effects started ++ outcome.effects ++
      effects (o.conclude summarize outcome.value) }

end ModelClient
