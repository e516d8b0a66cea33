import ModelClient.EmbeddingModel
import ModelClient.ImageModel
import ModelClient.Proofs.StreamTraces

/-!
# Observed options

The handlers are told the options of a request when its observation starts, before it is sent. The
options and the body of the request are made along different ways, so whether they agree is a
question. A chat model applies the options that it reports to its request, and an embedding model
makes its requests from them. An image model starts from a request for the standard model and
applies its options to that, so when no option names a model it asks for one that it does not
report.

In a run the observation of a request is the one that has started last: between its start and the
request the handler is told nothing, and once a stream has failed nothing is sent before the next
start (`Announced`).

## Main statements

* `requestOptions_as_sent`: how the reported options and the sent ones agree, for each model.
-/

namespace ModelClient

open Observation

variable {σ α β : Type} {i : Nat}

/-! ## Agreement -/

/-- A field of a record is the first that has the name and a value. -/
theorem Json.field?_record (name : String) (fields : List (String × Option Json)) :
    (record fields).field? name =
      fields.findSome? fun field => if name = field.1 then field.2 else none := by
  induction fields with
  | nil => rfl
  | cons field rest ih =>
    obtain ⟨first, _ | v⟩ := field
    · simpa [record, field?] using ih
    · by_cases hname : name = first
      · simp [record, field?, hname]
      · have hlookup : (name == first) = false := by simpa using hname
        simpa [record, field?, hname, List.lookup_cons, hlookup] using ih

/-- The options that both the handlers and the service may be told, apart from the model, with the
name among the reported options and the name in the body of a request. -/
def otherFields : List (String × String) :=
  [("max_tokens", "max_tokens"), ("stop", "stop"), ("temperature", "temperature"),
    ("top_p", "top_p"), ("tools", "tools"), ("tool_choice", "tool_choice"), ("user", "user_id"),
    ("request_id", "request_id"), ("do_sample", "do_sample"), ("dimensions", "dimensions")]

/-- The options that both the handlers and the service may be told. -/
def sharedFields : List (String × String) := ("model", "model") :: otherFields

/-- The reported options and a body agree on some fields: a field that one of them has the other
has, with the same value. -/
def Observation.Context.AgreesOn (c : Context) (fields : List (String × String)) (body : Json) :
    Prop :=
  ∀ f ∈ fields, c.requestOptions.field? f.1 = body.field? f.2

/-- The reported options are those of the body, and the model that the observation names is the
model that the body asks for. -/
def Observation.Context.Reports (c : Context) (body : Json) : Prop :=
  c.AgreesOn sharedFields body ∧ c.requestModel? = (body.field? "model").bind Json.str?

instance (c : Context) (body : Json) : Decidable (c.Reports body) :=
  inferInstanceAs (Decidable ((∀ f ∈ sharedFields, _ = _) ∧ _ = _))

/-- If all fields agree, so do the models. -/
theorem Observation.Context.AgreesOn.reports {c : Context} {body : Json}
    (h : c.AgreesOn sharedFields body) : c.Reports body :=
  ⟨h, congrArg (·.bind Json.str?) (h ("model", "model") List.mem_cons_self)⟩

/-- What is reported of a prepared request is what its body says. -/
theorem ChatModel.reports_of_body {m : ChatModel} {prompt : Prompt} {streamed : Bool}
    {prepared : PreparedRequest} (h : m.prepare prompt streamed = .ok prepared) (body : Json)
    (hbody : decide (body = prepared.request.toJson) = true) :
    (context prepared.options).Reports body := by
  obtain ⟨wire, tools, -, -, rfl⟩ := prepare_eq_ok_iff.1 h
  rw [of_decide_eq_true hbody]
  refine Context.AgreesOn.reports ?_
  simp [Context.AgreesOn, sharedFields, otherFields, context, ChatLayer.toJson, ChatLayer.applyTo,
    Wire.ChatRequest.toJson, Json.field?_record, List.findSome?_cons]

/-! ## Requests under observations -/

/-- Every request is sent under an observation: the last event that the handler has been told is a
start, and what is known about the call is related to the body of the request. -/
def SentUnder (R : Context → Json → Prop) (i : Nat) (effects : List Effect) : Prop :=
  ∀ before request after, effects = before ++ .sent request :: after →
    ∃ event, (handlerLog i before).getLast? = some event ∧ event.stage = .start ∧
      R event.context request.body

/-- The moments send requests under observations, if `last` is the last event before them. What was
told before an error does not count after it. -/
def Announced (R : Context → Json → Prop) : (last : Option Event) → List Moment → Prop
  | _, [] => True
  | _, .told event :: rest => Announced R (some event) rest
  | _, .failed _ :: rest => Announced R none rest
  | last, .sent request :: rest =>
    (∃ event ∈ last, event.stage = .start ∧ R event.context request.body) ∧ Announced R last rest

namespace Announced

variable {R : Context → Json → Prop} {last : Option Event} {ms ns : List Moment}

/-- Moments that need no event before them may have one. -/
theorem of_none (h : Announced R none ms) (last : Option Event) : Announced R last ms := by
  cases ms with
  | nil => trivial
  | cons moment ms =>
    cases moment with
    | told | failed => exact h
    | sent request =>
      obtain ⟨⟨event, hevent, -⟩, -⟩ := h
      cases hevent

/-- Moments after others may follow whatever those have told. -/
theorem append (h : Announced R last ms) (h' : Announced R none ns) :
    Announced R last (ms ++ ns) := by
  induction ms generalizing last with
  | nil => exact h'.of_none last
  | cons moment ms ih =>
    cases moment with
    | told | failed => exact ih h
    | sent request => exact ⟨h.1, ih h.2⟩

/-- Telling something sends no request. -/
theorem told (events : List Event) : Announced R last (events.map .told) := by
  induction events generalizing last with
  | nil => trivial
  | cons event events ih => exact ih

/-- Asking the service after the start of an observation. -/
theorem of_isAsking {event : Event} (hstart : event.stage = .start) {P : Json → Bool}
    (hP : ∀ body, P body = true → R event.context body) {es : List Effect}
    (h : ∀ e ∈ es, e.isAsking P = true) : Announced R (some event) (moments i es) := by
  have hrequests : ∀ request ∈ sentRequests es, R event.context request.body :=
    fun request hrequest => hP _ (h _ (mem_sentRequests.1 hrequest))
  rw [moments_of_isAsking h]
  generalize sentRequests es = requests at hrequests
  induction requests with
  | nil => trivial
  | cons request requests ih =>
    obtain ⟨hfirst, hrest⟩ := List.forall_mem_cons.1 hrequests
    exact ⟨⟨event, rfl, hstart, hfirst⟩, ih hrest⟩

/-- An observation around the moments tells more only at errors. -/
theorem relay (h : Announced R last ms) (observer : Observer) (context : Context)
    (stopped : Bool) : Announced R last (observer.relay context stopped ms) := by
  induction ms generalizing last stopped with
  | nil => trivial
  | cons moment ms ih =>
    cases moment with
    | told => exact ih h stopped
    | sent => exact ⟨h.1, ih h.2 stopped⟩
    | failed e =>
      have hrest := ih h true
      cases stopped <;> exact hrest

/-- The event before a request is the last one among the moments before it, or else `last`. -/
theorem exists_start {request : Request} (h : Announced R last (ms ++ .sent request :: ns)) :
    ∃ event, ((ms.filterMap Moment.event?).getLast?.or last) = some event ∧
      event.stage = .start ∧ R event.context request.body := by
  induction ms generalizing last with
  | nil => exact h.1
  | cons moment ms ih =>
    cases moment with
    | told e =>
      obtain ⟨event, hevent, hrest⟩ := ih h
      refine ⟨event, ?_, hrest⟩
      rw [← hevent]
      show ((e :: ms.filterMap Moment.event?).getLast?.or last) = _
      rw [List.getLast?_cons]
      cases (ms.filterMap Moment.event?).getLast? <;> rfl
    | failed e =>
      obtain ⟨event, hevent, hrest⟩ := ih h
      refine ⟨event, ?_, hrest⟩
      rw [Option.or_none] at hevent
      show ((ms.filterMap Moment.event?).getLast?.or last) = _
      rw [hevent]
      rfl
    | sent => exact ih h.2

/-- Every request of such moments is sent under an observation. -/
theorem sentUnder {es : List Effect} (h : Announced R none (moments i es)) : SentUnder R i es := by
  rintro before request after rfl
  rw [moments_append] at h
  obtain ⟨event, hevent, hrest⟩ := exists_start h
  rw [Option.or_none] at hevent
  rw [handlerLog_eq_moments]
  exact ⟨event, hevent, hrest⟩

end Announced

/-- From every state, the run sends its requests under observations. -/
def Run.Announces (R : Context → Json → Prop) (i : Nat) (x : Run σ α) : Prop :=
  ∀ s, Announced R none (moments i (x s).effects)

namespace Run.Announces

variable {R : Context → Json → Prop}

/-- A run that gives a value sends nothing. -/
theorem pure (a : α) : (Pure.pure a : Run σ α).Announces R i := fun _ => trivial

/-- A run that fails sends nothing. -/
theorem fail (e : Error) : (Run.fail e : Run σ α).Announces R i := fun _ => trivial

/-- What follows a value that is there already only has to be looked at for this value. -/
theorem ofExcept_bind {x : Except Error α} {f : α → Run σ β}
    (hf : ∀ a, x = .ok a → (f a).Announces R i) : (Run.ofExcept x >>= f).Announces R i := by
  cases x with
  | ok a => exact hf a rfl
  | error e => exact fun _ => trivial

/-- What follows a run has its own observations. -/
theorem bind {x : Run σ α} {f : α → Run σ β} (hx : x.Announces R i)
    (hf : ∀ a, (f a).Announces R i) : (x >>= f).Announces R i := by
  intro s
  have hfirst := hx s
  show Announced R none (moments i (Run.bind x f s).effects)
  unfold Run.bind
  generalize x s = o at hfirst ⊢
  rcases o with ⟨effects, t, stop | a⟩
  · exact hfirst
  · rw [moments_append]
    exact hfirst.append (hf a t)

/-- An observed run that only asks, with bodies that are related to what is known about the call. -/
theorem observe {observer : Observer} (hi : i < observer.handlers) {context : Context}
    {P : Json → Bool} {x : Run σ α} (hx : x.OnlyAsks P)
    (hP : ∀ body, P body = true → R context body) (summarize : α → ResponseSummary) :
    (ModelClient.observe observer context summarize x).Announces R i := by
  intro s
  rw [moments_observe hi]
  exact (Announced.of_isAsking rfl hP (hx.isAsking s)).append (.told _)

end Run.Announces

/-! ## The chat model -/

/-- Relayed effects send nothing. -/
theorem Announced.of_isRelayed {R : Context → Json → Prop} {es : List Effect}
    (h : ∀ e ∈ es, e.isRelayed = true) (last : Option Event) :
    Announced R last (moments i es) := by
  induction es generalizing last with
  | nil => trivial
  | cons e es ih =>
    have hrest := ih fun f hf => h f (List.mem_cons_of_mem _ hf)
    rw [moments_cons]
    rcases Effect.moment?_of_isRelayed (h e List.mem_cons_self) i with he | ⟨err, he⟩
    · rw [he]
      exact hrest last
    · rw [he]
      exact hrest none

namespace ChatModel

variable {m : ChatModel}

/-- Asking for the response to a prompt. -/
theorem respond_announces {prompt : Prompt} {streamed : Bool} {prepared : PreparedRequest}
    (hprepare : m.prepare prompt streamed = .ok prepared) (hi : i < m.observer.handlers) :
    (m.respond prepared).Announces Context.Reports i := by
  obtain ⟨x, hx, hasks⟩ := m.exists_respond_eq_observe prepared
  rw [hx]
  exact .observe hi hasks (reports_of_body hprepare) summarize

/-- Each round of a call has its own observation. -/
theorem callRounds_announces (m : ChatModel) (hi : i < m.observer.handlers) (left : Nat)
    (prompt : Prompt) :
    (m.callRounds left prompt).Announces Context.Reports i := by
  induction left generalizing prompt with
  | zero => exact .fail _
  | succ left ih =>
    unfold callRounds
    refine .ofExcept_bind fun prepared hprepare => .bind (respond_announces hprepare hi) ?_
    intro response
    by_cases hruns : runsTools prepared response = true
    · rw [if_pos hruns]
      have hrelayed := prompt.isRelayed_afterTools (σ := Session) response prepared.registry
      exact .bind (fun s => .of_isRelayed (hrelayed s) none) ih
    · rw [if_neg hruns]
      exact .pure response

end ChatModel

/-- The moments of a round under an observation, if those of the round follow its start. -/
theorem Announced.watched {R : Context → Json → Prop} {observer : Observer} {context : Context}
    {es : List Effect} {v : Except Stop Unit} (hi : i < observer.handlers)
    (h : Announced R (some (observer.event context .start)) (moments i es)) :
    Announced R none (moments i (watched observer context es v)) := by
  obtain ⟨closing, -, hmoments⟩ := exists_moments_watched observer context es v
  rw [hmoments i hi]
  exact (h.relay observer context false).append (.told closing)

/-- **Streams.** Each request of a stream is sent under the observation of its round. -/
theorem StreamTrace.announced {m : ChatModel} {es : List Effect} {v : Except Stop Unit}
    (h : StreamTrace m es v) (hi : i < m.observer.handlers) :
    Announced Context.Reports none (moments i es) := by
  induction h with
  | relayed hrelayed => exact .of_isRelayed hrelayed none
  | append _ _ ih ih' =>
    rw [moments_append]
    exact ih.append ih'
  | @round prompt prepared _ _ _ hprepare hasking _ ih =>
    refine .watched hi ?_
    rw [moments_append]
    exact (Announced.of_isAsking rfl (ChatModel.reports_of_body hprepare) hasking).append ih
  | stalled hprepare hasking =>
    exact .watched hi (.of_isAsking rfl (ChatModel.reports_of_body hprepare) hasking)

/-! ## The embedding model -/

namespace EmbeddingModel

/-- Embedding some texts only asks with the bodies for these texts. -/
theorem embedAll_onlyAsks (m : EmbeddingModel) {P : Json → Bool} {options : EmbeddingLayer}
    (h : ∀ input, P (options.toRequest input).toJson = true) (usage : Usage)
    (inputs : List String) : (m.embedAll options usage inputs).OnlyAsks P := by
  induction inputs generalizing usage with
  | nil => exact .pure _
  | cons input inputs ih =>
    unfold embedAll
    refine .bind ((Run.OnlyAsks.embed (h input)).execute m.retry) fun answer => ?_
    cases account usage answer with
    | none => exact .halt _
    | some accounted => exact .bind (ih accounted.2) fun rest => .pure _

/-- The options of an embedding request are those that are reported. -/
theorem reports_toRequest (options : EmbeddingLayer) (input : String) :
    Context.Reports
      { operation := .embedding, provider := Client.provider, requestOptions := options.toJson }
      (options.toRequest input).toJson := by
  refine Context.AgreesOn.reports ?_
  simp [Context.AgreesOn, sharedFields, otherFields, EmbeddingLayer.toJson,
    EmbeddingLayer.toRequest, Wire.EmbeddingRequest.toJson, Json.field?_record, List.findSome?_cons]

/-- All requests of a call are sent under its one observation. -/
theorem call_announces (m : EmbeddingModel) (c : EmbeddingCall) (hi : i < m.observer.handlers) :
    (m.call c).Announces Context.Reports i := by
  unfold call
  by_cases hempty : c.inputs.isEmpty = true
  · rw [if_pos hempty]
    exact .fail _
  · rw [if_neg hempty]
    refine .observe hi (P := fun body => Context.Reports _ body) (.bind ?_ ?_)
      (fun body hbody => of_decide_eq_true hbody) summarize
    · have hreports (input : String) :=
        decide_eq_true (reports_toRequest (m.defaults.merge c.options) input)
      exact m.embedAll_onlyAsks hreports {} c.inputs
    · exact fun _ => .pure _

end EmbeddingModel

/-! ## The image model -/

namespace ImageModel

/-- How the report of a request with the given options and its body go together. They agree apart
from the model. The report names the model of the options, the body the standard model if the
options have none, so they agree throughout exactly if the options have one. -/
structure Asks (options : ImageLayer) (c : Context) (body : Json) : Prop where
  others : c.AgreesOn otherFields body
  reported : c.requestOptions.field? "model" = options.model.map .str
  sent : body.field? "model" = some (.str (options.model.getD ImageLayer.defaultModel))
  reports_iff : c.Reports body ↔ options.model.isSome = true

/-- The reports agree with the body exactly if the options name a model. -/
theorem Asks.of_fields {options : ImageLayer} {c : Context} {body : Json}
    (others : c.AgreesOn otherFields body)
    (reported : c.requestOptions.field? "model" = options.model.map .str)
    (sent : body.field? "model" = some (.str (options.model.getD ImageLayer.defaultModel))) :
    Asks options c body := by
  refine ⟨others, reported, sent, fun h => ?_, fun hsome => ?_⟩
  · have hmodel := h.1 ("model", "model") List.mem_cons_self
    rw [reported, sent] at hmodel
    rw [← Option.isSome_map (f := Json.str), hmodel]
    rfl
  · obtain ⟨model, hmodel⟩ := Option.isSome_iff_exists.1 hsome
    refine Context.AgreesOn.reports (List.forall_mem_cons.2 ⟨?_, others⟩)
    rw [reported, sent, hmodel]
    rfl

/-- What is reported of a prepared request differs from its body in the model at most. -/
theorem asks_of_prepare {m : ImageModel} {prompt : ImagePrompt} {request : Wire.ImageRequest}
    (h : m.prepare prompt = .ok request) :
    Asks (m.defaults.merge prompt.options)
      { operation := .image, provider := Client.provider
        requestOptions := (m.defaults.merge prompt.options).toJson } request.toJson := by
  unfold prepare at h
  generalize m.defaults.merge prompt.options = options at h ⊢
  cases hfirst : prompt.instructions.head? with
  | none =>
    rw [hfirst] at h
    cases h
  | some instruction =>
    rw [hfirst] at h
    cases h
    refine Asks.of_fields ?_ ?_ ?_
    · simp [Context.AgreesOn, otherFields, ImageLayer.toJson, ImageLayer.applyTo,
        Wire.ImageRequest.toJson, Json.field?_record, List.findSome?_cons]
    · rcases options with ⟨_ | model, user⟩ <;> simp [ImageLayer.toJson, Json.field?_record]
    · rcases options with ⟨_ | model, user⟩ <;>
        simp [ImageLayer.applyTo, Wire.ImageRequest.toJson, Json.field?_record]

/-- The request of a call is sent under its observation. -/
theorem call_announces (m : ImageModel) (prompt : ImagePrompt) (hi : i < m.observer.handlers) :
    (m.call prompt).Announces (Asks (m.defaults.merge prompt.options)) i := by
  unfold call
  cases hprepare : m.prepare prompt with
  | error e =>
    refine .observe hi (P := fun _ => false) (.bind ?_ fun _ => .pure _) (by simp) _
    exact Run.OnlyAsks.execute (.fail e) m.retry
  | ok request =>
    refine .observe hi (P := fun body => body = request.toJson) (.bind ?_ fun _ => .pure _) ?_ _
    · exact (Run.OnlyAsks.draw (decide_eq_true rfl)).execute m.retry
    · intro body hbody
      rw [of_decide_eq_true hbody]
      exact asks_of_prepare hprepare

end ImageModel

/-! ## All models -/

/-- **Reported options and sent options.** Each request is sent under an observation. In a call or a
stream of a chat model and in a call of an embedding model, the reported options are those of the
request. In a call of an image model this is so if the options name a model; if they name none, the
request asks for the standard model, the report names none, and the rest agrees. -/
theorem requestOptions_as_sent (chat : ChatModel) (prompt : Prompt) (embedding : EmbeddingModel)
    (c : EmbeddingCall) (image : ImageModel) (imagePrompt : ImagePrompt) (s : Session) :
    (∀ i < chat.observer.handlers,
      SentUnder Context.Reports i (chat.call prompt s).effects ∧
        SentUnder Context.Reports i (chat.stream prompt s).effects) ∧
    (∀ i < embedding.observer.handlers,
      SentUnder Context.Reports i (embedding.call c s).effects) ∧
    ∀ i < image.observer.handlers,
      SentUnder (ImageModel.Asks (image.defaults.merge imagePrompt.options)) i
        (image.call imagePrompt s).effects := by
  refine ⟨fun i hi => ⟨?_, ?_⟩, fun i hi => ?_, fun i hi => ?_⟩
  · exact (chat.callRounds_announces hi ChatModel.maxRounds prompt s).sentUnder
  · exact ((chat.streamTrace_stream prompt s).announced hi).sentUnder
  · exact (embedding.call_announces c hi s).sentUnder
  · exact (image.call_announces imagePrompt hi s).sentUnder

namespace Reporting

/-- A chat model with a handler. -/
def chatModel : ChatModel :=
  { ChatModel.ofClient .keyless with observer := { handlers := 1 } }

/-- An image model without options, whose requests are tried once, and a handler. -/
def imageModel : ImageModel :=
  { ImageModel.ofClient .keyless with
    retry := .single
    observer := { handlers := 1 } }

/-- A service that gives an empty answer. -/
def session : Session := { service := .script [.reply 200 [] false] }

end Reporting

open Reporting in
/-- The handler is told the options of the greeting before it is sent. -/
theorem requestOptions_as_sent_greeting : 0 < chatModel.observer.handlers ∧
    ∃ before request after,
      (chatModel.call (.ofText "Hello") session).effects = before ++ .sent request :: after ∧
      ∃ event, (handlerLog 0 before).getLast? = some event ∧ event.context.Reports request.body := by
  have hhandlers : 0 < chatModel.observer.handlers := by decide
  obtain ⟨hchat, -, -⟩ := requestOptions_as_sent chatModel (.ofText "Hello")
    (.ofClient chatModel.client) { inputs := [] } imageModel (.ofText "a lighthouse") session
  obtain ⟨event, hlast, -, hreports⟩ := (hchat 0 hhandlers).1 [_] _ _ rfl
  exact ⟨hhandlers, [_], _, _, rfl, event, hlast, hreports⟩

open Reporting in
/-- The request asks for a model that the handler has not been told. -/
theorem requestOptions_unnamed : ∃ event request after,
    (imageModel.call (.ofText "a lighthouse") session).effects =
        .observed ⟨0, event⟩ :: .sent request :: after ∧
      event.stage = .start ∧ event.context.requestModel? = none ∧
      request.body.field? "model" = some (.str "cogview-3") ∧
      ¬event.context.Reports request.body := by
  refine ⟨_, _, _, rfl, rfl, rfl, rfl, fun h => ?_⟩
  obtain ⟨-, hmodel⟩ := h
  cases hmodel

end ModelClient
