import ModelClient.Proofs.HandlerLogs
import ModelClient.Proofs.StreamErrors
import ModelClient.Proofs.ToolAnswers

/-!
# Traces of a stream

The rounds of a stream lie inside one another, and each is observed on its own: what the rounds
inside a round tell, and the items that they hand on, pass through the observation of the round
around them. `StreamTrace` says which effects a stream can leave, without saying how many rounds
there are or what the service answers. Every stream leaves such a trace
(`ChatModel.streamTrace_stream`), so what holds of all streams is proved by induction on it.

The observation of a round adds to what passes through it at three places only: its start comes
before everything, its end comes after everything, and at the first error it reports the error and
stops (`exists_moments_watched`).
-/

namespace ModelClient

open Observation

/-! ## Rounds under an observation -/

/-- The effects of a round under an observation, from its own effects and its end. -/
def watched (observer : Observer) (context : Context) (es : List Effect) (v : Except Stop Unit) :
    List Effect :=
  (watch observer context (fun s => ⟨es, s, v⟩) { service := .unreachable }).effects

/-- The consumer receives an error. -/
def Moment.isFailure : Moment → Bool
  | failed _ => true
  | _ => false

/-- The consumer receives an error only as an item. -/
theorem Effect.exists_of_isFailure {e : Effect} (h : e.isFailure = true) :
    ∃ err, e = .yielded (.error err) := by
  cases e with
  | yielded item =>
    cases item with
    | ok part => cases h
    | error err => exact ⟨err, rfl⟩
  | _ => cases h

/-- To every handler an error is an error. -/
theorem Effect.isFailure_moment? (e : Effect) (i : Nat) :
    (e.moment? i).any Moment.isFailure = e.isFailure := by
  cases e with
  | observed notice =>
    rw [moment?]
    split <;> rfl
  | yielded item => cases item <;> rfl
  | _ => rfl

/-- The first effect comes first, if it is a moment. -/
theorem moments_cons (i : Nat) (e : Effect) (es : List Effect) :
    moments i (e :: es) = (e.moment? i).toList ++ moments i es := by
  rw [moments, List.filterMap_cons]
  cases e.moment? i <;> rfl

/-- There is an error among the moments if there is one among the effects. -/
theorem any_isFailure_moments (i : Nat) (es : List Effect) :
    (moments i es).any Moment.isFailure = es.any Effect.isFailure := by
  induction es with
  | nil => rfl
  | cons e es ih =>
    rw [moments_cons, List.any_append, ih, List.any_cons, ← e.isFailure_moment? i]
    cases e.moment? i <;> simp

/-- The moments of a round as they pass through its observation. An error is reported, and the first
one stops the observation. -/
def Observer.relay (observer : Observer) (context : Context) :
    (stopped : Bool) → List Moment → List Moment
  | _, [] => []
  | stopped, .failed e :: rest =>
    .told (observer.event context (.error e)) ::
      ((if stopped then [] else [.told (observer.event context .stop)]) ++
        .failed e :: observer.relay context true rest)
  | stopped, moment :: rest => moment :: observer.relay context stopped rest

/-- What is no error passes through as it is. -/
theorem Observer.relay_toList_append (observer : Observer) (context : Context) (stopped : Bool)
    {moment? : Option Moment} (h : moment?.any Moment.isFailure = false) (rest : List Moment) :
    observer.relay context stopped (moment?.toList ++ rest) =
      moment?.toList ++ observer.relay context stopped rest := by
  cases moment? with
  | none => rfl
  | some moment =>
    cases moment with
    | failed e => cases h
    | told | sent => rfl

/-- The watch of a round that has failed, or that has not. -/
structure Watch.Of (w : Watch) (observer : Observer) (context : Context) (failed : Bool) :
    Prop where
  observation : w.observation = ⟨observer.convention context, context, observer.handlers, failed⟩
  failed : w.failed = failed

namespace Watch

/-- What is no error passes the watch as it is. -/
theorem pass_of_isFailure_eq_false {e : Effect} (h : e.isFailure = false) (w : Watch) :
    (w.pass e).1 = [e] ∧ (w.pass e).2.observation = w.observation ∧
      (w.pass e).2.failed = w.failed := by
  cases e with
  | yielded item =>
    cases item with
    | ok part => exact ⟨rfl, rfl, rfl⟩
    | error err => cases h
  | _ => exact ⟨rfl, rfl, rfl⟩

namespace Of

variable {w : Watch} {observer : Observer} {context : Context} {failed : Bool} {i : Nat}

/-- What passes is watched, and an error stops the observation. -/
theorem pass (h : w.Of observer context failed) (e : Effect) :
    (w.pass e).2.Of observer context (failed || e.isFailure) := by
  by_cases he : e.isFailure = true
  · obtain ⟨err, rfl⟩ := e.exists_of_isFailure he
    rw [Watch.pass, h.observation, he, Bool.or_true]
    cases failed <;> exact ⟨rfl, rfl⟩
  · have he : e.isFailure = false := by simpa using he
    obtain ⟨-, hobservation, hfailed⟩ := pass_of_isFailure_eq_false he w
    rw [he, Bool.or_false]
    exact ⟨hobservation.trans h.observation, hfailed.trans h.failed⟩

/-- A watch remembers whether an error has passed. -/
theorem passAll (h : w.Of observer context failed) (es : List Effect) :
    (w.passAll es).2.Of observer context (failed || es.any Effect.isFailure) := by
  induction es generalizing w failed with
  | nil =>
    rw [List.any_nil, Bool.or_false]
    exact h
  | cons e es ih =>
    rw [List.any_cons, ← Bool.or_assoc]
    exact ih (h.pass e)

/-- What passes through the watch is what the observation relays. -/
theorem moments_passAll (h : w.Of observer context failed) (hi : i < observer.handlers)
    (es : List Effect) :
    moments i (w.passAll es).1 = observer.relay context failed (moments i es) := by
  induction es generalizing w failed with
  | nil => rfl
  | cons e es ih =>
    have hrest := ih (h.pass e)
    rw [Watch.passAll, moments_append, hrest, moments_cons]
    by_cases he : e.isFailure = true
    · obtain ⟨err, rfl⟩ := e.exists_of_isFailure he
      have hnotices := moments_notices (o := w.observation)
        (hi.trans_eq (by rw [h.observation]))
      rw [he, Bool.or_true, Watch.pass]
      simp only [h.observation] at hnotices ⊢
      cases failed <;>
        simp [Observation.error, Observation.stop, moments_append, moments_effects_append, hnotices]
        <;> rfl
    · have he : e.isFailure = false := by simpa using he
      obtain ⟨hout, -, -⟩ := pass_of_isFailure_eq_false he w
      rw [he, Bool.or_false, hout, observer.relay_toList_append context failed
        ((e.isFailure_moment? i).trans he), moments_cons]
      simp [moments]

/-- At its end a round that has failed, or that never ends, tells nothing more. -/
theorem conclude_eq_nil (h : w.Of observer context failed) {v : Except Stop Unit}
    (hv : failed = true ∨ v = .error (.halt .stalled)) : w.conclude v = [] := by
  obtain ⟨hobservation, hfailed⟩ := h
  rcases hv with rfl | rfl
  · rcases v with (e | h) | u
    · simp [Watch.conclude, hobservation, Observation.stop]
    · cases h <;> simp [Watch.conclude, hobservation, Observation.stop]
    · simp [Watch.conclude, hfailed]
  · rfl

/-- Any other round is stopped. -/
theorem exists_conclude_eq (h : w.Of observer context false) {v : Except Stop Unit}
    (hv : v ≠ .error (.halt .stalled)) :
    ∃ response, w.conclude v = notices ⟨observer.convention context, { context with response },
      observer.handlers, false⟩ .stop := by
  obtain ⟨hobservation, hfailed⟩ := h
  rcases v with (e | h) | u
  · exact ⟨context.response, by simp [Watch.conclude, hobservation, Observation.stop]⟩
  · refine ⟨context.response, ?_⟩
    cases h with
    | stalled => exact absurd rfl hv
    | crashed | abandoned => simp [Watch.conclude, hobservation, Observation.stop]
  · exact ⟨some (ChatModel.summarize w.parts.finish), by
      simp [Watch.conclude, hfailed, hobservation, Observation.stop, setResponse]⟩

end Of

end Watch

/-- What matters to a handler in a round under an observation. It ends with the stop of the
observation, unless this has been told before or the round never ends. -/
theorem exists_moments_watched (observer : Observer) (context : Context) (es : List Effect)
    (v : Except Stop Unit) :
    ∃ closing : List Event,
      ((es.any Effect.isFailure = true ∨ v = .error (.halt .stalled)) ∧ closing = [] ∨
        es.any Effect.isFailure = false ∧ v ≠ .error (.halt .stalled) ∧ ∃ response,
          closing = [⟨.stop, observer.convention context, { context with response }⟩]) ∧
      ∀ i < observer.handlers, moments i (watched observer context es v) =
        .told (observer.event context .start) ::
          (observer.relay context false (moments i es) ++ closing.map .told) := by
  let o : Observation := ⟨observer.convention context, context, observer.handlers, false⟩
  let w : Watch := (Watch.passAll { observation := o } es).2
  have hstart : Watch.Of { observation := o } observer context false := ⟨rfl, rfl⟩
  have hw : w.Of observer context (es.any Effect.isFailure) := by
    have hpassed := hstart.passAll es
    rwa [Bool.false_or] at hpassed
  have hmoments (i : Nat) (hi : i < observer.handlers) {closing : List Event}
      (hclosing : moments i (effects (w.conclude v)) = closing.map .told) :
      moments i (watched observer context es v) = .told (observer.event context .start) ::
        (observer.relay context false (moments i es) ++ closing.map .told) := by
    show moments i (effects (o.notices .start) ++ (Watch.passAll { observation := o } es).1 ++
      effects (w.conclude v)) = _
    rw [moments_append, moments_append, moments_notices hi, hstart.moments_passAll hi, hclosing,
      List.append_assoc]
    rfl
  -- After an error or in a round that never ends, nothing is left to tell.
  by_cases hend : es.any Effect.isFailure = true ∨ v = .error (.halt .stalled)
  · refine ⟨[], .inl ⟨hend, rfl⟩, fun i hi => hmoments i hi ?_⟩
    rw [hw.conclude_eq_nil hend]
    rfl
  · rw [not_or, Bool.not_eq_true] at hend
    obtain ⟨hfailed, hv⟩ := hend
    rw [hfailed] at hw
    obtain ⟨response, hresponse⟩ := hw.exists_conclude_eq hv
    refine ⟨_, .inr ⟨hfailed, hv, response, rfl⟩, fun i hi => hmoments i hi ?_⟩
    rw [hresponse]
    exact moments_notices hi .stop

/-! ## Traces -/

/-- Whether the effect hands an item to the consumer or is part of answering tool calls. -/
def Effect.isRelayed : Effect → Bool
  | .yielded _ | .delegated _ | .ran _ _ => true
  | _ => false

/-- To a handler no such effect matters unless it is an error. -/
theorem Effect.moment?_of_isRelayed {e : Effect} (h : e.isRelayed = true) (i : Nat) :
    e.moment? i = none ∨ ∃ err, e.moment? i = some (.failed err) := by
  cases e with
  | yielded item =>
    cases item with
    | ok part => exact .inl rfl
    | error err => exact .inr ⟨err, rfl⟩
  | delegated | ran => exact .inl rfl
  | _ => cases h

/-- Answering tool calls leaves nothing else. -/
theorem Prompt.isRelayed_afterTools {σ : Type} (prompt : Prompt) (response : ChatResponse)
    (registry : ToolRegistry) (s : σ) :
    ∀ e ∈ (prompt.afterTools response registry s).effects, e.isRelayed = true := by
  have hcost : RoundCost (fun e => !e.isRelayed) registry 0 :=
    ⟨fun _ => Nat.le_refl 0, fun _ _ _ _ => rfl⟩
  intro e he
  have hrelayed := Run.Bounded.eq_false (I := fun _ => True)
    (Run.Bounded.afterTools hcost prompt response) (s := s) trivial e he
  simpa using hrelayed

/-- Answering tool calls never halts. -/
theorem Prompt.exists_attempt_afterTools (prompt : Prompt) (response : ChatResponse)
    (registry : ToolRegistry) (s : Session) :
    ∃ r, ((prompt.afterTools response registry).attempt s).value = .ok r := by
  cases hmessage : response.callingMessage? with
  | none =>
    have hnone : prompt.afterTools response registry s =
        ⟨[.delegated response], s,
          .error (.error (.invalidState "No tool call requested by the chat model"))⟩ := by
      rw [afterTools]
      simp only [hmessage]
      rfl
    exact ⟨_, congrArg Outcome.value (Run.attempt_of_error hnone)⟩
  | some message =>
    rcases registry.runs_or_fails message.toolCalls with
      ⟨runs, hcalls⟩ | ⟨before, call, after, runs, failing, e, hcalls, hbefore, hfails⟩
    · have hruns := afterTools_of_runs hmessage hcalls prompt s
      exact ⟨_, congrArg Outcome.value (Run.attempt_of_ok hruns)⟩
    · have hfailed := afterTools_of_fails hmessage hcalls hbefore hfails prompt s
      exact ⟨_, congrArg Outcome.value (Run.attempt_of_error hfailed)⟩

/-- The effects that a stream of the model can leave, and how it can end. -/
inductive StreamTrace (m : ChatModel) : List Effect → Except Stop Unit → Prop
  /-- Items are handed on and tool calls are answered. -/
  | relayed {es v} (relayed : ∀ e ∈ es, e.isRelayed = true) (ends : v ≠ .error (.halt .stalled)) :
      StreamTrace m es v
  | append {es fs v} (first : StreamTrace m es (.ok ())) (rest : StreamTrace m fs v) :
      StreamTrace m (es ++ fs) v
  /-- A round asks for a streamed answer and goes on, or it stops. -/
  | round {prompt prepared} {asks es : List Effect} {v}
      (prepare : m.prepare prompt true = .ok prepared)
      (asking : ∀ e ∈ asks, e.isAsking (fun body => body = prepared.request.toJson) = true)
      (rest : StreamTrace m es v) :
      StreamTrace m (watched m.observer (ChatModel.context prepared.options) (asks ++ es) v) v
  /-- A round asks and is never answered. -/
  | stalled {prompt prepared} {asks : List Effect} (prepare : m.prepare prompt true = .ok prepared)
      (asking : ∀ e ∈ asks, e.isAsking (fun body => body = prepared.request.toJson) = true) :
      StreamTrace m (watched m.observer (ChatModel.context prepared.options) asks
        (.error (.halt .stalled))) (.error (.halt .stalled))

/-- From every state the run leaves a trace of a stream. -/
def Run.Traced {α : Type} (m : ChatModel) (x : Run Session α) : Prop :=
  ∀ s, StreamTrace m (x s).effects ((x s).value.map fun _ => ())

/-- A run without a result has the value that it has. -/
theorem Run.value_map_unit {σ : Type} (x : Run σ Unit) (s : σ) :
    ((x s).value.map fun _ => ()) = (x s).value := by
  cases (x s).value <;> rfl

namespace Run.Traced

variable {α β : Type} {m : ChatModel}

/-- A run that gives a value leaves a trace without effects. -/
theorem pure (a : α) : (Pure.pure a : Run Session α).Traced m :=
  fun _ => .relayed (fun _ h => absurd h List.not_mem_nil) (by nofun)

/-- Handing an item on leaves a trace. -/
theorem yield (item : Except Error ChatResponse) : (Session.yield item).Traced m := by
  intro s
  refine .relayed (fun e he => ?_) ?_
  · obtain rfl := List.mem_singleton.1 he
    rfl
  · unfold Session.yield
    cases s.isServed item <;> nofun

/-- Two runs that leave traces leave a trace together. -/
theorem bind {x : Run Session α} {f : α → Run Session β} (hx : x.Traced m)
    (hf : ∀ a, (f a).Traced m) : (x >>= f).Traced m := by
  intro s
  have hfirst := hx s
  show StreamTrace m (Run.bind x f s).effects ((Run.bind x f s).value.map _)
  unfold Run.bind
  generalize x s = o at hfirst ⊢
  rcases o with ⟨effects, t, stop | a⟩
  · exact hfirst
  · exact .append hfirst (hf a t)

/-- Answering tool calls leaves only that, and its failure is a value. -/
theorem attempt_afterTools (prompt : Prompt) (response : ChatResponse) (registry : ToolRegistry) :
    ((prompt.afterTools response registry).attempt : Run Session _).Traced m := by
  intro s
  obtain ⟨r, hr⟩ := prompt.exists_attempt_afterTools response registry s
  rw [Run.effects_attempt, hr]
  exact .relayed (prompt.isRelayed_afterTools response registry s) (by nofun)

end Run.Traced

namespace ChatModel

variable {m : ChatModel}

/-- A relay leaves a trace if its follow-ups do. -/
theorem relay_traced {followUp : Prompt → Run Session Unit} (hfollow : ∀ p, (followUp p).Traced m)
    (prompt : Prompt) (prepared : PreparedRequest) (chunks : List (Except Error Wire.Chunk))
    (roles : ChatResponse.Roles) : (relay prompt prepared followUp roles chunks).Traced m := by
  induction chunks generalizing roles with
  | nil => exact .pure ()
  | cons item rest ih =>
    cases item with
    | error e => exact .yield _
    | ok chunk =>
      unfold relay
      simp only
      split
      · refine .bind (.attempt_afterTools _ _ _) fun r => ?_
        cases r with
        | error e => exact .yield _
        | ok next => exact .bind (hfollow next) fun _ => ih _
      · exact .bind (.yield _) fun _ => ih _

/-- What a round does after asking passes through its observation. -/
theorem round_traced {prompt : Prompt} {prepared : PreparedRequest}
    (hprepare : m.prepare prompt true = .ok prepared)
    {f : Except Error (List (Except Error Wire.Chunk)) → Run Session Unit}
    (hf : ∀ r, (f r).Traced m) :
    (watch m.observer (context prepared.options)
      ((m.retry.execute (m.client.stream prepared.request)).attempt >>= f)).Traced m := by
  intro s
  have hasks : ∀ e ∈ (m.retry.execute (m.client.stream prepared.request) s).effects,
      e.isAsking (fun body => body = prepared.request.toJson) = true :=
    ((Run.OnlyAsks.stream (decide_eq_true rfl)).execute m.retry).isAsking s
  rw [Run.value_map_unit]
  suffices hround : ∀ o,
      ((m.retry.execute (m.client.stream prepared.request)).attempt >>= f) s = o →
        StreamTrace m (watched m.observer (context prepared.options) o.effects o.value) o.value from
    hround _ rfl
  rintro o rfl
  rcases hexecute : m.retry.execute (m.client.stream prepared.request) s with
    ⟨asks, t, (e | h) | chunks⟩
  all_goals rw [hexecute] at hasks
  · rw [Run.bind_of_ok (Run.attempt_of_error hexecute)]
    exact .round hprepare hasks (Run.value_map_unit _ t ▸ hf (.error e) t)
  · rw [Run.bind_of_error (Run.attempt_of_halt hexecute)]
    by_cases h : h = .stalled
    · subst h
      exact .stalled hprepare hasks
    -- Any other halt ends a round that has done nothing but ask.
    · have hround := StreamTrace.round hprepare hasks (v := .error (.halt _))
        (.relayed (fun _ h => absurd h List.not_mem_nil) (by simpa using h))
      rwa [List.append_nil] at hround
  · rw [Run.bind_of_ok (Run.attempt_of_ok hexecute)]
    exact .round hprepare hasks (Run.value_map_unit _ t ▸ hf (.ok chunks) t)

/-- **Rounds of a stream.** They leave a trace, one inside another. -/
theorem streamRounds_traced (left : Nat) (prompt : Prompt) :
    (m.streamRounds left prompt).Traced m := by
  induction left generalizing prompt with
  | zero => exact .yield _
  | succ left ih =>
    unfold streamRounds
    split
    · exact .yield _
    · next prepared hprepared =>
      refine round_traced hprepared fun r => ?_
      cases r with
      | error e => exact .yield _
      | ok chunks => exact relay_traced ih prompt prepared chunks {}

/-- Every stream leaves a trace. -/
theorem streamTrace_stream (m : ChatModel) (prompt : Prompt) (s : Session) :
    StreamTrace m (m.stream prompt s).effects (m.stream prompt s).value := by
  rw [← Run.value_map_unit (m.stream prompt) s]
  unfold stream
  split
  · exact Run.Traced.pure () s
  · exact streamRounds_traced maxRounds prompt s

end ChatModel

end ModelClient
