import Mathlib.Data.List.Basic
import ModelClient.Proofs.Runs

/-!
# What handlers are told

Each handler of a model has a log: the events that it is told, in order. To say what stands in a log
next to what is sent, and where the consumer of a stream receives an error, the effects of a run are
read as the `moments` that matter to one handler.

An observed run begins with its start and ends with its end, which `Observer.closing` says, and what
the handler is told in between is what the run itself tells (`moments_observe`). A run that only
asks the service tells nothing, however often it is tried (`Run.OnlyAsks`).
-/

namespace ModelClient

open Observation

variable {σ α β : Type} {i : Nat}

/-! ## Logs and moments -/

/-- What the effect tells a handler, if it does. -/
def Effect.toldTo? (i : Nat) : Effect → Option Event
  | .observed notice => if notice.handler = i then some notice.event else none
  | _ => none

/-- What a handler is told, in order. -/
def handlerLog (i : Nat) (effects : List Effect) : List Event :=
  effects.filterMap (Effect.toldTo? i)

/-- A moment of a run that matters to one of its handlers. -/
inductive Moment where
  /-- The handler is told something. -/
  | told (event : Event)
  /-- A request reaches the service. -/
  | sent (request : Request)
  /-- The consumer of a stream receives an error. -/
  | failed (e : Error)

/-- What the moment tells the handler. -/
def Moment.event? : Moment → Option Event
  | told event => some event
  | _ => none

/-- The moment that an effect is for a handler. -/
def Effect.moment? (i : Nat) : Effect → Option Moment
  | .observed notice => if notice.handler = i then some (.told notice.event) else none
  | .sent request => some (.sent request)
  | .yielded (.error e) => some (.failed e)
  | _ => none

/-- The moments that matter to a handler. -/
def moments (i : Nat) (effects : List Effect) : List Moment := effects.filterMap (Effect.moment? i)

/-- A handler is told what it is told in the first part and then what it is told in the second. -/
theorem handlerLog_append (i : Nat) (es fs : List Effect) :
    handlerLog i (es ++ fs) = handlerLog i es ++ handlerLog i fs :=
  List.filterMap_append

/-- The moments of two parts are those of the first and then those of the second. -/
theorem moments_append (i : Nat) (es fs : List Effect) :
    moments i (es ++ fs) = moments i es ++ moments i fs :=
  List.filterMap_append

/-- The log of a handler consists of the moments that tell it something. -/
theorem handlerLog_eq_moments (i : Nat) (es : List Effect) :
    handlerLog i es = (moments i es).filterMap Moment.event? := by
  rw [handlerLog, moments, List.filterMap_filterMap]
  refine List.filterMap_congr fun e _ => ?_
  cases e with
  | observed notice =>
    rw [Effect.toldTo?, Effect.moment?]
    by_cases h : notice.handler = i
    · rw [if_pos h, if_pos h]
      rfl
    · rw [if_neg h, if_neg h]
      rfl
  | yielded item => cases item <;> rfl
  | _ => rfl

/-- A number below a bound is met once on the way up to the bound. -/
theorem filterMap_range_eq {γ : Type} (x : γ) {n : Nat} (hi : i < n) :
    (List.range n).filterMap (fun j => if j = i then some x else none) = [x] := by
  induction n with
  | zero => omega
  | succ n ih =>
    rw [List.range_succ, List.filterMap_append]
    by_cases hn : i = n
    · subst hn
      have hbefore : (List.range i).filterMap (fun j => if j = i then some x else none) = [] := by
        refine List.filterMap_eq_nil_iff.2 fun j hj => if_neg ?_
        have := List.mem_range.1 hj
        omega
      rw [hbefore]
      simp
    · rw [ih (by omega)]
      simp [Ne.symm hn]

/-- Of the notices of an event every handler gets one. -/
theorem moments_notices {o : Observation} (hi : i < o.handlers) (stage : Stage) :
    moments i (effects (o.notices stage)) = [.told ⟨stage, o.name, o.context⟩] := by
  rw [moments, effects, notices, List.filterMap_map, List.filterMap_map]
  exact filterMap_range_eq (Moment.told ⟨stage, o.name, o.context⟩) hi

/-- Notices given after others tell the handler what each of them tells. -/
theorem moments_effects_append (ns ms : List Notice) :
    moments i (effects (ns ++ ms)) = moments i (effects ns) ++ moments i (effects ms) := by
  rw [effects, List.map_append, moments_append]
  rfl

/-! ## Observed runs -/

namespace Observer

/-- What is told of a call while nothing is known about its response. -/
def event (observer : Observer) (context : Context) (stage : Stage) : Event :=
  ⟨stage, observer.convention context, context⟩

/-- What is told at the end of a call that has a response. -/
def answered (observer : Observer) (context : Context) (summary : ResponseSummary) : Event :=
  ⟨.stop, observer.convention context, { context with response := some summary }⟩

/-- What is told at the end of an observed run. -/
def closing (observer : Observer) (context : Context) (summarize : α → ResponseSummary) :
    Except Stop α → List Event
  | .ok a => [observer.answered context (summarize a)]
  | .error (.error e) => [observer.event context (.error e), observer.event context .stop]
  | .error (.halt .stalled) => []
  | .error (.halt _) => [observer.event context .stop]

end Observer

variable {observer : Observer}

/-- The end of an observed run tells the handler what closes a run with this outcome. -/
theorem moments_conclude (hi : i < observer.handlers) (context : Context)
    (summarize : α → ResponseSummary) (value : Except Stop α) :
    moments i (effects (conclude ⟨observer.convention context, context, observer.handlers, false⟩
        summarize value)) =
      (observer.closing context summarize value).map .told := by
  have hnotices := moments_notices
    (o := ⟨observer.convention context, context, observer.handlers, false⟩) hi
  rcases value with (e | h) | a
  · show moments i (effects (notices _ (.error e) ++ notices _ .stop)) = _
    rw [moments_effects_append, hnotices, hnotices]
    rfl
  · cases h with
    | stalled => rfl
    | crashed | abandoned => exact hnotices .stop
  · exact moments_notices (o := setResponse ⟨_, context, observer.handlers, false⟩ (summarize a))
      hi .stop

/-- What matters to a handler in an observed run. -/
theorem moments_observe (hi : i < observer.handlers) (context : Context)
    (summarize : α → ResponseSummary) (x : Run σ α) (s : σ) :
    moments i (observe observer context summarize x s).effects =
      .told (observer.event context .start) :: (moments i (x s).effects ++
        (observer.closing context summarize (x s).value).map .told) := by
  simp only [observe, start]
  rw [moments_append, moments_append, moments_notices hi, moments_conclude hi, List.append_assoc]
  rfl

/-- What a handler is told of an observed run. -/
theorem handlerLog_observe (hi : i < observer.handlers) (context : Context)
    (summarize : α → ResponseSummary) (x : Run σ α) (s : σ) :
    handlerLog i (observe observer context summarize x s).effects =
      observer.event context .start :: (handlerLog i (x s).effects ++
        observer.closing context summarize (x s).value) := by
  rw [handlerLog_eq_moments, moments_observe hi, handlerLog_eq_moments]
  show _ :: List.filterMap Moment.event? _ = _
  rw [List.filterMap_append, List.filterMap_map]
  exact congrArg (_ :: _ ++ ·) (List.filterMap_some ..)

/-! ## Runs that only ask -/

/-- Whether the effect is part of asking the service: a request whose body is in `P`, a word to the
listeners of the retry policy or a pause. -/
def Effect.isAsking (P : Json → Bool) : Effect → Bool
  | .sent request => P request.body
  | .retried _ _ | .paused _ => true
  | _ => false

/-- The run does nothing but ask the service, with bodies in `P`. -/
def Run.OnlyAsks (P : Json → Bool) (x : Run σ α) : Prop :=
  Run.Bounded (fun e => !e.isAsking P) (fun _ => True) 0 (fun _ => True) x

variable {P : Json → Bool}

/-- To a handler, a run that only asks consists of the requests. -/
theorem moments_of_isAsking {es : List Effect} (h : ∀ e ∈ es, e.isAsking P = true) :
    moments i es = (sentRequests es).map .sent := by
  induction es with
  | nil => rfl
  | cons e es ih =>
    have hrest := ih fun f hf => h f (List.mem_cons_of_mem _ hf)
    have he := h e List.mem_cons_self
    cases e with
    | sent request => exact congrArg (.sent request :: ·) hrest
    | retried | paused => exact hrest
    | _ => cases he

/-- A run that only asks tells no handler anything. -/
theorem handlerLog_of_isAsking {es : List Effect} (h : ∀ e ∈ es, e.isAsking P = true) :
    handlerLog i es = [] := by
  rw [handlerLog_eq_moments, moments_of_isAsking h, List.filterMap_map]
  exact List.filterMap_eq_nil_iff.2 fun _ _ => rfl

namespace Run.OnlyAsks

/-- In a run that only asks, every effect is part of asking. -/
theorem isAsking {x : Run σ α} (h : x.OnlyAsks P) (s : σ) :
    ∀ e ∈ (x s).effects, e.isAsking P = true := fun e he => by
  simpa using Bounded.eq_false h (s := s) trivial e he

/-- A run that gives a value asks for nothing. -/
theorem pure (a : α) : (Pure.pure a : Run σ α).OnlyAsks P := Bounded.pure trivial

/-- A run that fails asks for nothing. -/
theorem fail (e : Error) : (Run.fail e : Run σ α).OnlyAsks P := Bounded.fail e

/-- A run that stops asks for nothing. -/
theorem halt (h : Halt) : (Run.halt h : Run σ α).OnlyAsks P := Bounded.halt h

/-- A value or an error that is there already asks for nothing. -/
theorem ofExcept (x : Except Error α) : (Run.ofExcept x : Run σ α).OnlyAsks P :=
  Bounded.ofExcept fun _ _ => trivial

/-- Two runs that only ask make one that only asks. -/
theorem bind {x : Run σ α} {f : α → Run σ β} (hx : x.OnlyAsks P) (hf : ∀ a, (f a).OnlyAsks P) :
    (x >>= f).OnlyAsks P :=
  Bounded.quiet_bind hx fun a _ => hf a

/-- Trying again is asking again. -/
theorem execute {x : Run σ α} (h : x.OnlyAsks P) (policy : RetryPolicy) :
    (policy.execute x).OnlyAsks P :=
  Bounded.execute_of_unretried ⟨fun _ _ => rfl, fun _ => rfl⟩ policy h

/-- Sending a request with such a body is asking. -/
theorem send {request : Request} (h : P request.body = true) :
    (Session.send request).OnlyAsks P := by
  intro s _
  unfold Session.send
  cases s.service with
  | unreachable => exact ⟨Nat.le_refl 0, trivial, fun _ _ => trivial⟩
  | script answers => exact ⟨by simp [Effect.isAsking, h], trivial, fun _ _ => trivial⟩

variable {c : Client}

/-- A client's request with such a body is asking, whatever its answer is read as. -/
theorem request {path : String} {body : Json} (h : P body = true) (decode : Json.Decoder α) :
    (c.request path body decode).OnlyAsks P := by
  refine bind (send h) fun answer => ?_
  cases answer with
  | reply => exact ofExcept _
  | drop | hang => exact fail _

/-- Asking for a whole completion is asking. -/
theorem complete {request : Wire.ChatRequest} (h : P request.toJson = true) :
    (c.complete request).OnlyAsks P := by
  unfold Client.complete
  split
  · exact fail _
  · exact OnlyAsks.request h _

/-- Asking for a stream is asking, and its chunks are handed over later. -/
theorem stream {request : Wire.ChatRequest} (h : P request.toJson = true) :
    (c.stream request).OnlyAsks P := by
  unfold Client.stream
  split
  · exact fail _
  · refine bind (send h) fun answer => ?_
    cases answer with
    | reply status pieces breaksOff =>
      simp only
      split
      · exact pure _
      · exact fail _
    | drop => exact fail _
    | hang => exact halt _

/-- Asking for an embedding is asking. -/
theorem embed {request : Wire.EmbeddingRequest} (h : P request.toJson = true) :
    (c.embed request).OnlyAsks P := by
  unfold Client.embed
  split
  · exact fail _
  · exact OnlyAsks.request h _

/-- Asking for an image is asking. -/
theorem draw {request : Wire.ImageRequest} (h : P request.toJson = true) :
    (c.draw request).OnlyAsks P := by
  unfold Client.draw
  split
  · exact fail _
  · exact OnlyAsks.request h _

end Run.OnlyAsks

/-- A round of a call is observed, and inside it only asks. -/
theorem ChatModel.exists_respond_eq_observe (m : ChatModel) (prepared : PreparedRequest) :
    ∃ x : Run Session ChatResponse,
      m.respond prepared = observe m.observer (context prepared.options) summarize x ∧
        x.OnlyAsks fun body => body = prepared.request.toJson := by
  refine ⟨_, rfl, .bind ((Run.OnlyAsks.complete ?_).execute m.retry) fun answer => ?_⟩
  · exact decide_eq_true rfl
  · cases answer <;> exact .pure _

end ModelClient
