import ModelClient.Config.Environment
import ModelClient.Config.Models
import ModelClient.Proofs.AdvertisedTools

/-!
# The key in a request

The models of a configuration are to send their keys: a section's own key, or else the shared one.
Building the models only looks at whether the key is blank, and a request carries the key in a
header, in which it may not stand if it has a control character other than tab. Then the request is
sent without the header. Every request of a model has what becomes of the model's key
(`Models.authorization_of_sends`), and every model sends some request, unless its policy leaves it
no attempt (`Models.exists_sends`). So the keys are always sent exactly if they may stand in a
header.

## Main statements

* `Models.carryKeys_iff`: what the requests of the models of a configuration carry, and when this is
  the key.
-/

namespace ModelClient

variable {σ α : Type} {p : Effect → Bool} {P : Answer → Prop}

/-- The request carries the key. -/
def Request.Carries (key : String) (request : Request) : Prop :=
  request.authorization = some ("Bearer " ++ key)

/-- The request has what becomes of the key in a header. -/
def Client.Authorizes (key : String) (request : Request) : Prop :=
  request.authorization = authorization? key

/-- A request carries the key exactly if the key may stand in a header. -/
theorem Client.Authorizes.carries_iff {key : String} {request : Request}
    (h : Authorizes key request) : request.Carries key ↔ key.toList.all isHeaderChar = true := by
  rw [Request.Carries, h, authorization?]
  split
  · next hall => exact ⟨fun _ => hall, fun _ => rfl⟩
  · next hall => exact ⟨nofun, fun h => absurd h hall⟩

/-- A request of the client to the path: it goes to the client's address and has what becomes of
the client's key in a header. -/
structure Client.Posts (client : Client) (path : String) (request : Request) : Prop where
  url_eq : request.url = endpoint client.baseUrl path
  authorizes : Authorizes client.apiKey request

/-! ## What the models send -/

/-- A call or a stream of the model sends the request. -/
def ChatModel.Sends (m : ChatModel) (request : Request) : Prop :=
  ∃ prompt s, request ∈ sentRequests (m.call prompt s).effects ∨
    request ∈ sentRequests (m.stream prompt s).effects

/-- Embedding texts, a text or a document sends the request. -/
def EmbeddingModel.Sends (m : EmbeddingModel) (request : Request) : Prop :=
  ∃ s, (∃ c, request ∈ sentRequests (m.call c s).effects) ∨
    (∃ text, request ∈ sentRequests (m.embed text s).effects) ∨
    ∃ document, request ∈ sentRequests (m.embedDocument document s).effects

/-- A call of the model sends the request. -/
def ImageModel.Sends (m : ImageModel) (request : Request) : Prop :=
  ∃ prompt s, request ∈ sentRequests (m.call prompt s).effects

/-- Every request of the run is allowed. -/
def Run.SendsOnly (allowed : Request → Prop) (x : Run Session α) : Prop :=
  Run.Bounded (ChatModel.sentBeyond allowed) (Session.Answers fun _ => True) 0 (fun _ => True) x

namespace Run.SendsOnly

variable {allowed : Request → Prop} {β : Type} {x : Run Session α}

/-- A request of a run is allowed. -/
theorem of_mem (h : x.SendsOnly allowed) {s : Session} {request : Request}
    (hmem : request ∈ sentRequests (x s).effects) : allowed request :=
  ChatModel.forall_of_countP_sentBeyond (h s fun _ _ => trivial).count request hmem

/-- Two runs that only send what is allowed make one that does. -/
theorem bind {f : α → Run Session β} (hx : x.SendsOnly allowed)
    (hf : ∀ a, (f a).SendsOnly allowed) : (x >>= f).SendsOnly allowed :=
  Bounded.quiet_bind hx fun a _ => hf a

/-- Observing a run sends nothing more. -/
theorem observe (observer : Observer) (context : Observation.Context)
    (summarize : α → ResponseSummary) (h : x.SendsOnly allowed) :
    (ModelClient.observe observer context summarize x).SendsOnly allowed :=
  Bounded.observe (ChatModel.actionKind_sentBeyond _).unreported observer context summarize h

/-- What is attempted has to be allowed only if there is an attempt. -/
theorem execute (policy : RetryPolicy) (h : policy.maxAttempts ≠ 0 → x.SendsOnly allowed) :
    (policy.execute x).SendsOnly allowed := by
  by_cases hattempts : policy.maxAttempts = 0
  · rw [RetryPolicy.execute_of_zero hattempts]
    exact Bounded.fail _
  · exact Bounded.execute_quiet (ChatModel.actionKind_sentBeyond _).unreported policy (h hattempts)

variable (c : Client)

/-- Posting a body sends one request. -/
theorem post {path : String} {body : Json}
    (h : allowed ⟨Client.endpoint c.baseUrl path, Client.contentType,
      Client.authorization? c.apiKey, body⟩)
    (decode : Json.Decoder α) : (c.request path body decode).SendsOnly allowed := by
  have hsent := ChatModel.countP_sentBeyond h
  refine Bounded.quiet_bind (Bounded.send ⟨trivial, trivial⟩ hsent) fun answer _ => ?_
  cases answer with
  | reply status pieces breaksOff => exact .ofExcept fun _ _ => trivial
  | drop => exact .fail _
  | hang => exact .fail _

/-- A request of the client goes to its path. -/
theorem request {path : String} (h : ∀ request, c.Posts path request → allowed request)
    (body : Json) (decode : Json.Decoder α) : (c.request path body decode).SendsOnly allowed :=
  .post c (h _ ⟨rfl, rfl⟩) decode

/-- Asking for an embedding goes to the path for embeddings. -/
theorem embed (h : ∀ request, c.Posts Client.embeddingPath request → allowed request)
    (request : Wire.EmbeddingRequest) : (c.embed request).SendsOnly allowed := by
  unfold Client.embed
  split
  · exact Bounded.fail _
  · exact .request c h _ _

/-- Asking for an image goes to the path for images. -/
theorem draw (h : ∀ request, c.Posts Client.imagePath request → allowed request)
    (request : Wire.ImageRequest) : (c.draw request).SendsOnly allowed := by
  unfold Client.draw
  split
  · exact Bounded.fail _
  · exact .request c h _ _

end Run.SendsOnly

/-- A request of a model with the given client and policy: it has what becomes of the client's key
in a header, and the policy leaves an attempt. -/
structure Attempted (client : Client) (policy : RetryPolicy) (request : Request) : Prop where
  authorizes : Client.Authorizes client.apiKey request
  attempts : policy.maxAttempts ≠ 0

namespace ChatModel

/-- Without an attempt a call sends nothing. -/
theorem attempts_of_mem_call {m : ChatModel} {prompt : Prompt} {s : Session} {request : Request}
    (h : request ∈ sentRequests (m.call prompt s).effects) : m.retry.maxAttempts ≠ 0 := by
  intro hzero
  have hbound : Run.Bounded (sentBeyond fun _ => False) (Session.Answers (·.asks ≤ s.mostAsks))
      (maxRounds * 0) (fun _ => True) (m.callRounds maxRounds prompt) :=
    callRounds_bounded_of (J := fun _ _ => True) (fun left next prepared _ hprepared =>
      ⟨0, 0, Nat.le_refl 0,
        (respond_bounded (k := 1) (actionKind_sentBeyond _) (Answer.unscripted_asks s.mostAsks)
          List.countP_le_length).mono (by simp [hzero]) fun _ h => h,
        fun response => (Run.Bounded.afterTools (roundCost_sentBeyond _ _) next response).mono
          (Nat.le_refl 0) fun _ _ => trivial⟩) maxRounds trivial
  exact forall_of_countP_sentBeyond (hbound s s.answers_mostAsks).count request h

/-- Without an attempt a stream sends nothing. -/
theorem attempts_of_mem_stream {m : ChatModel} {prompt : Prompt} {s : Session} {request : Request}
    (h : request ∈ sentRequests (m.stream prompt s).effects) : m.retry.maxAttempts ≠ 0 := by
  intro hzero
  have hbound : Run.Bounded (sentBeyond fun _ => False) (Session.Answers (·.asks ≤ s.mostAsks)) 0
      (fun _ => True) (m.streamRounds maxRounds prompt) :=
    streamRounds_bounded_of (B := fun _ => 0) (actionKind_sentBeyond _) (J := fun _ _ => True)
      (fun left next prepared _ hprepared => ⟨1, 0, by simp [hzero], List.countP_le_length,
        fun response => (Run.Bounded.afterTools (roundCost_sentBeyond _ _) next response).mono
          (Nat.le_refl 0) fun _ _ => trivial⟩) maxRounds trivial
  exact forall_of_countP_sentBeyond (stream_bounded_of hbound s s.answers_mostAsks).count request h

/-- What the chat model sends are requests of its client for chat. -/
theorem posts_of_sends {m : ChatModel} {request : Request} (h : m.Sends request) :
    m.client.Posts Client.chatPath request := by
  obtain ⟨prompt, s, hcall | hstream⟩ := h
  · obtain ⟨_, prepared, -, -, rfl⟩ := asks_of_mem_call request hcall
    exact ⟨rfl, rfl⟩
  · obtain ⟨_, prepared, -, -, rfl⟩ := asks_of_mem_stream request hstream
    exact ⟨rfl, rfl⟩

/-- What the chat model sends has its key and is attempted. -/
theorem attempted_of_sends {m : ChatModel} {request : Request} (h : m.Sends request) :
    Attempted m.client m.retry request := by
  refine ⟨(posts_of_sends h).authorizes, ?_⟩
  obtain ⟨prompt, s, hcall | hstream⟩ := h
  · exact attempts_of_mem_call hcall
  · exact attempts_of_mem_stream hstream

end ChatModel

namespace EmbeddingModel

variable (m : EmbeddingModel)

/-- A request to embed a text, which the policy attempts. -/
def Requests (request : Request) : Prop :=
  m.client.Posts Client.embeddingPath request ∧ m.retry.maxAttempts ≠ 0

/-- Embedding some texts only sends the requests of the model. -/
theorem embedAll_sendsOnly (options : EmbeddingLayer) (usage : Usage) (inputs : List String) :
    (m.embedAll options usage inputs).SendsOnly m.Requests := by
  induction inputs generalizing usage with
  | nil => exact Run.Bounded.pure trivial
  | cons input inputs ih =>
    unfold embedAll
    refine .bind (.execute m.retry fun hattempts => .embed m.client (fun _ h => ⟨h, hattempts⟩) _)
      fun answer => ?_
    cases account usage answer with
    | none => exact Run.Bounded.halt _
    | some accounted => exact .bind (ih accounted.2) fun rest => Run.Bounded.pure trivial

/-- A call only sends the requests of the model. -/
theorem call_sendsOnly (c : EmbeddingCall) : (m.call c).SendsOnly m.Requests := by
  unfold call
  split
  · exact Run.Bounded.fail _
  · exact .observe _ _ _ (.bind (m.embedAll_sendsOnly _ _ _) fun _ => Run.Bounded.pure trivial)

/-- Embedding a text only sends the requests of the model. -/
theorem embed_sendsOnly (text : String) : (m.embed text).SendsOnly m.Requests :=
  .bind (m.call_sendsOnly _) fun _ => Run.Bounded.pure trivial

/-- Whatever is embedded, the requests are those of the model. -/
theorem requests_of_sends {m : EmbeddingModel} {request : Request} (h : m.Sends request) :
    m.Requests request := by
  obtain ⟨s, ⟨c, hcall⟩ | ⟨text, hembed⟩ | ⟨document, hembed⟩⟩ := h
  · exact (m.call_sendsOnly c).of_mem hcall
  · exact (m.embed_sendsOnly text).of_mem hembed
  · exact (m.embed_sendsOnly _).of_mem hembed

/-- What the embedding model sends has its key and is attempted. -/
theorem attempted_of_sends {m : EmbeddingModel} {request : Request} (h : m.Sends request) :
    Attempted m.client m.retry request :=
  ⟨(requests_of_sends h).1.authorizes, (requests_of_sends h).2⟩

end EmbeddingModel

/-- A request for images, which the policy attempts. -/
def ImageModel.Requests (m : ImageModel) (request : Request) : Prop :=
  m.client.Posts Client.imagePath request ∧ m.retry.maxAttempts ≠ 0

/-- The requests of a call are those of the model. -/
theorem ImageModel.requests_of_sends {m : ImageModel} {request : Request} (h : m.Sends request) :
    m.Requests request := by
  obtain ⟨prompt, s, hcall⟩ := h
  have hsends : (m.call prompt).SendsOnly m.Requests := by
    refine .observe _ _ _ (.bind (.execute m.retry fun hattempts => ?_)
      fun _ => Run.Bounded.pure trivial)
    exact .bind (Run.Bounded.ofExcept fun _ _ => trivial)
      fun wire => .draw m.client (fun _ h => ⟨h, hattempts⟩) wire
  exact hsends.of_mem hcall

/-- What the image model sends has its key and is attempted. -/
theorem ImageModel.attempted_of_sends {m : ImageModel} {request : Request} (h : m.Sends request) :
    Attempted m.client m.retry request :=
  ⟨(requests_of_sends h).1.authorizes, (requests_of_sends h).2⟩

/-! ## Every model sends something -/

/-- What the first attempt does is done. -/
theorem RetryPolicy.mem_execute {policy : RetryPolicy} (hattempts : policy.maxAttempts ≠ 0)
    {x : Run σ α} {s : σ} {e : Effect} (h : e ∈ (x s).effects) :
    e ∈ (policy.execute x s).effects := by
  obtain ⟨left, hleft⟩ := policy.exists_maxAttempts_eq_add_one hattempts
  rw [execute, hleft, executeFrom]
  refine Run.mem_bind_of_mem ?_ _
  rwa [Run.effects_attempt]

namespace Authorization

/-- A service that can be reached. -/
def session : Session := { service := .script [] }

/-- A client that asks a service sends a request. -/
theorem exists_sent_request (c : Client) (path : String) (body : Json) (decode : Json.Decoder α) :
    ∃ request, .sent request ∈ (c.request path body decode session).effects :=
  ⟨_, Run.mem_bind_of_mem (List.mem_singleton_self _) _⟩

end Authorization

namespace ChatModel

open Authorization

/-- The request of a prompt is sent. -/
theorem exists_sends_of_prepare {m : ChatModel} (hattempts : m.retry.maxAttempts ≠ 0)
    {prompt : Prompt} {prepared : PreparedRequest} (h : m.prepare prompt false = .ok prepared) :
    ∃ request, m.Sends request := by
  obtain ⟨request, hsent⟩ : ∃ request,
      .sent request ∈ (m.client.complete prepared.request session).effects := by
    rw [Client.complete, prepare_stream h, if_neg Bool.false_ne_true]
    exact exists_sent_request _ _ _ _
  have hrespond : request ∈ sentRequests (m.respond prepared session).effects := by
    rw [respond, sentRequests_observe, mem_sentRequests]
    exact Run.mem_bind_of_mem (RetryPolicy.mem_execute hattempts hsent) _
  refine ⟨request, prompt, session, .inl ?_⟩
  rw [call, maxRounds_eq, callRounds, h, Run.ofExcept_ok_bind, mem_sentRequests]
  exact Run.mem_bind_of_mem (mem_sentRequests.1 hrespond) _

/-- A prompt that brings along every tool that the model enables has a request. -/
theorem exists_prepare_eq_ok (client : Client) (settings : List Setting) :
    ∃ prompt prepared, (configured client settings).prepare prompt false = .ok prepared := by
  let names := (configured client settings).defaults.functions.names
  let prompt : Prompt := { messages := [], options := some { tools := names.map Tool.echo } }
  have hids : prompt.NamesCalls := fun _ h => absurd h List.not_mem_nil
  cases hprepare : (configured client settings).prepare prompt false with
  | ok prepared => exact ⟨prompt, prepared, hprepare⟩
  | error e =>
    exfalso
    obtain ⟨name, henables, hnone⟩ :=
      (exists_prepare_eq_error_iff client settings hids false).1 ⟨e, hprepare⟩
    have hbrought : ∃ t ∈ prompt.brought, t.name = name := by
      rcases henables with ⟨o, ho, hfunctions | htools⟩ | hdefaults
      · cases ho
        cases hfunctions
      · cases ho
        exact htools
      · exact ⟨Tool.echo name, List.mem_map_of_mem hdefaults, rfl⟩
    obtain ⟨t, ht, hname⟩ := hbrought
    exact hnone t (List.mem_append_left _ ht) hname

end ChatModel

open Authorization in
/-- The embedding model sends a request if its policy leaves an attempt. -/
theorem EmbeddingModel.exists_sends {m : EmbeddingModel} (hattempts : m.retry.maxAttempts ≠ 0) :
    ∃ request, m.Sends request := by
  let options := m.defaults.merge none
  obtain ⟨request, hsent⟩ : ∃ request,
      .sent request ∈ (m.client.embed (options.toRequest "Hello") session).effects := by
    have hinput : (options.toRequest "Hello").input ≠ "" := by
      show "Hello" ≠ ""
      decide
    rw [Client.embed, if_neg hinput]
    exact exists_sent_request _ _ _ _
  refine ⟨request, session, .inl ⟨{ inputs := ["Hello"] }, ?_⟩⟩
  have hall : .sent request ∈ (m.embedAll options {} ["Hello"] session).effects :=
    Run.mem_bind_of_mem (RetryPolicy.mem_execute hattempts hsent) _
  rw [call, if_neg (by decide), sentRequests_observe, mem_sentRequests]
  exact Run.mem_bind_of_mem hall _

open Authorization in
/-- The image model sends a request if its policy leaves an attempt. -/
theorem ImageModel.exists_sends {m : ImageModel} (hattempts : m.retry.maxAttempts ≠ 0) :
    ∃ request, m.Sends request := by
  obtain ⟨request, hsent⟩ : ∃ request, .sent request ∈ ((do
      m.client.draw (← Run.ofExcept (m.prepare (.ofText "Hello")))) session).effects := by
    obtain ⟨wire, hprepare, hprompt⟩ : ∃ wire, m.prepare (.ofText "Hello") = .ok wire ∧
        wire.prompt ≠ "" := ⟨_, rfl, by show "Hello" ≠ ""; decide⟩
    rw [hprepare, Run.ofExcept_ok_bind, Client.draw, if_neg hprompt]
    exact exists_sent_request _ _ _ _
  refine ⟨request, .ofText "Hello", session, ?_⟩
  rw [call, sentRequests_observe, mem_sentRequests]
  exact Run.mem_bind_of_mem (RetryPolicy.mem_execute hattempts hsent) _

/-! ## The models of a configuration -/

namespace Config

/-- The key of the chat section. -/
def chatKey (c : Config) : String := ownOrShared c.chat.apiKey c.apiKey

/-- The key of the embedding section. -/
def embeddingKey (c : Config) : String := ownOrShared c.embedding.apiKey c.apiKey

/-- The key of the image section. -/
def imageKey (c : Config) : String := ownOrShared c.image.apiKey c.apiKey

/-- The key belongs to a section that is enabled. -/
inductive Uses (c : Config) : String → Prop where
  | chat : c.chat.enabled = true → Uses c c.chatKey
  | embedding : c.embedding.enabled = true → Uses c c.embeddingKey
  | image : c.image.enabled = true → Uses c c.imageKey

/-- A connection has the section's own key, or else the shared one. -/
theorem apiKey_of_connection {baseUrl apiKey : Option String} {sharedBaseUrl sharedApiKey : String}
    {client : Client} (h : connection baseUrl sharedBaseUrl apiKey sharedApiKey = .ok client) :
    client.apiKey = ownOrShared apiKey sharedApiKey := by
  simp only [connection] at h
  split at h
  · cases h
  split at h
  · cases h
  · cases h
    rfl

end Config

namespace Models

/-- A request that one of the models sends, with the key of the model's section. -/
inductive Sends (c : Config) (models : Models) : String → Request → Prop where
  | chat {m : ChatModel} {request : Request} :
    models.chat = some m → m.Sends request → Sends c models c.chatKey request
  | embedding {m : EmbeddingModel} {request : Request} :
    models.embedding = some m → m.Sends request → Sends c models c.embeddingKey request
  | image {m : ImageModel} {request : Request} :
    models.image = some m → m.Sends request → Sends c models c.imageKey request

/-- Every request of the models carries the key of the model's section. -/
def CarryKeys (c : Config) (models : Models) : Prop :=
  ∀ key request, models.Sends c key request → request.Carries key

/-- An enabled section gives the model of a client with the section's key. -/
theorem ofSection?_eq_ok {α : Type} {c : Config} {enabled : Bool} {baseUrl apiKey : Option String}
    {model : Client → α} {built : Option α}
    (h : ofSection? c enabled baseUrl apiKey model = .ok built) :
    (enabled = true → ∃ client, built = some (model client)) ∧
      ∀ m, built = some m → ∃ client, enabled = true ∧
        client.apiKey = Config.ownOrShared apiKey c.apiKey ∧ m = model client := by
  unfold ofSection? at h
  cases enabled with
  | false =>
    cases h
    exact ⟨nofun, nofun⟩
  | true =>
    cases hconnection : Config.connection baseUrl c.baseUrl apiKey c.apiKey with
    | error e =>
      rw [hconnection] at h
      cases h
    | ok client =>
      rw [hconnection] at h
      cases h
      refine ⟨fun _ => ⟨client, rfl⟩, fun m hm => ?_⟩
      cases hm
      exact ⟨client, rfl, Config.apiKey_of_connection hconnection, rfl⟩

/-- The three models are made one after the other. -/
theorem build_eq_ok {c : Config} {s : Setup} {models : Models} (h : build c s = .ok models) :
    ofSection? c c.chat.enabled c.chat.baseUrl c.chat.apiKey (chatModel c s) = .ok models.chat ∧
    ofSection? c c.embedding.enabled c.embedding.baseUrl c.embedding.apiKey (embeddingModel c s) =
      .ok models.embedding ∧
    ofSection? c c.image.enabled c.image.baseUrl c.image.apiKey (imageModel c s) =
      .ok models.image := by
  simp only [build, bind, Except.bind, pure, Except.pure] at h
  split at h
  · cases h
  next chat hchat =>
  split at h
  · cases h
  next embedding hembedding =>
  split at h
  · cases h
  next image himage =>
  cases h
  exact ⟨hchat, hembedding, himage⟩

/-- A request of the models belongs to an enabled section, has what becomes of the section's key,
and is sent only if there are attempts. -/
theorem attempted_of_sends {c : Config} {s : Setup} {models : Models} (h : build c s = .ok models)
    {key : String} {request : Request} (hsends : models.Sends c key request) :
    c.Uses key ∧ Client.Authorizes key request ∧ (s.retry.getD c.retry).maxAttempts ≠ 0 := by
  obtain ⟨hchat, hembedding, himage⟩ := build_eq_ok h
  cases hsends with
  | chat hm hsends =>
    obtain ⟨client, henabled, hkey, rfl⟩ := (ofSection?_eq_ok hchat).2 _ hm
    have hattempted := ChatModel.attempted_of_sends hsends
    rw [Config.chatKey, ← hkey]
    exact ⟨hkey ▸ .chat henabled, hattempted.authorizes, hattempted.attempts⟩
  | embedding hm hsends =>
    obtain ⟨client, henabled, hkey, rfl⟩ := (ofSection?_eq_ok hembedding).2 _ hm
    have hattempted := EmbeddingModel.attempted_of_sends hsends
    rw [Config.embeddingKey, ← hkey]
    exact ⟨hkey ▸ .embedding henabled, hattempted.authorizes, hattempted.attempts⟩
  | image hm hsends =>
    obtain ⟨client, henabled, hkey, rfl⟩ := (ofSection?_eq_ok himage).2 _ hm
    have hattempted := ImageModel.attempted_of_sends hsends
    rw [Config.imageKey, ← hkey]
    exact ⟨hkey ▸ .image henabled, hattempted.authorizes, hattempted.attempts⟩

/-- The chat model of a configuration sends some request if it has an attempt. -/
theorem chatModel_exists_sends (c : Config) (s : Setup) (client : Client)
    (hattempts : (s.retry.getD c.retry).maxAttempts ≠ 0) :
    ∃ request, (chatModel c s client).Sends request := by
  obtain ⟨prompt, prepared, hprepared⟩ := ChatModel.exists_prepare_eq_ok client
    [.options c.chat.options, .tools s.tools, .retry (s.retry.getD c.retry), .observer s.observer]
  exact ChatModel.exists_sends_of_prepare (m := chatModel c s client) hattempts hprepared

/-- The model of each enabled section sends some request if it has an attempt. -/
theorem exists_sends {c : Config} {s : Setup} {models : Models} (h : build c s = .ok models)
    (hattempts : (s.retry.getD c.retry).maxAttempts ≠ 0) {key : String} (hkey : c.Uses key) :
    ∃ request, models.Sends c key request := by
  obtain ⟨hchat, hembedding, himage⟩ := build_eq_ok h
  cases hkey with
  | chat henabled =>
    obtain ⟨client, hclient⟩ := (ofSection?_eq_ok hchat).1 henabled
    obtain ⟨request, hsends⟩ := chatModel_exists_sends c s client hattempts
    exact ⟨request, .chat hclient hsends⟩
  | embedding henabled =>
    obtain ⟨client, hclient⟩ := (ofSection?_eq_ok hembedding).1 henabled
    obtain ⟨request, hsends⟩ :=
      EmbeddingModel.exists_sends (m := embeddingModel c s client) hattempts
    exact ⟨request, .embedding hclient hsends⟩
  | image henabled =>
    obtain ⟨client, hclient⟩ := (ofSection?_eq_ok himage).1 henabled
    obtain ⟨request, hsends⟩ := ImageModel.exists_sends (m := imageModel c s client) hattempts
    exact ⟨request, .image hclient hsends⟩

/-- **The key in a request.** Every request of the models of a configuration has what becomes of its
section's key in a header: the key, if it has no control character other than tab, and otherwise no
such header at all. So all requests carry their keys exactly if the keys of all enabled sections may
stand in a header, or the retry policy allows no attempt. -/
theorem carryKeys_iff {c : Config} {s : Setup} {models : Models} (h : build c s = .ok models) :
    (∀ key request, models.Sends c key request →
      request.authorization = Client.authorization? key) ∧
    (models.CarryKeys c ↔ (s.retry.getD c.retry).maxAttempts = 0 ∨
      ∀ key, c.Uses key → key.toList.all Client.isHeaderChar = true) := by
  refine ⟨fun key request hsends => (attempted_of_sends h hsends).2.1, fun hcarry => ?_,
    fun hkeys key request hsends => ?_⟩
  · refine Classical.or_iff_not_imp_left.2 fun hattempts key hkey => ?_
    obtain ⟨request, hsends⟩ := exists_sends h hattempts hkey
    exact (attempted_of_sends h hsends).2.1.carries_iff.1 (hcarry key request hsends)
  · obtain ⟨hkey, hauthorizes, hattempts⟩ := attempted_of_sends h hsends
    rcases hkeys with hzero | hkeys
    · exact absurd hzero hattempts
    · exact hauthorizes.carries_iff.2 (hkeys key hkey)

end Models

/-! ## A key that is lost -/

namespace Authorization

/-- The standard configuration with a key from the environment. -/
def keyed (key : String) : Config :=
  (Config.overlay {} fun name => if name = "YTOAI_API_KEY" then some key else none).1

end Authorization

open Authorization in
/-- A key of letters is in every request. -/
theorem Models.carryKeys_letters :
    ∃ models, build (keyed "key") {} = .ok models ∧ models.CarryKeys (keyed "key") := by
  have hbuild : ∃ models, build (keyed "key") {} = .ok models := ⟨_, rfl⟩
  obtain ⟨models, hmodels⟩ := hbuild
  refine ⟨models, hmodels, (carryKeys_iff hmodels).2.2 (.inr fun key hkey => ?_)⟩
  have hletters : key = "key" := by cases hkey <;> rfl
  rw [hletters]
  decide

open Authorization in
/-- A key that was read with the end of its line is in no request, and yet the models are built and
send requests. -/
theorem Models.not_carryKeys_line :
    ∃ models, build (keyed "key\n") {} = .ok models ∧
      (∀ key request, models.Sends (keyed "key\n") key request → request.authorization = none) ∧
      ∃ key request, models.Sends (keyed "key\n") key request ∧ ¬request.Carries key := by
  have hbuild : ∃ models, build (keyed "key\n") {} = .ok models := ⟨_, rfl⟩
  obtain ⟨models, hmodels⟩ := hbuild
  have hnone : ∀ key request, models.Sends (keyed "key\n") key request →
      request.authorization = none := by
    intro key request hsends
    obtain ⟨hkey, hauthorizes, -⟩ := attempted_of_sends hmodels hsends
    have hline : key = "key\n" := by cases hkey <;> rfl
    rw [hauthorizes, hline]
    decide
  refine ⟨models, hmodels, hnone, ?_⟩
  obtain ⟨request, hsends⟩ := exists_sends hmodels (by decide) (.image rfl)
  refine ⟨_, request, hsends, fun hcarries => ?_⟩
  rw [Request.Carries, hnone _ request hsends] at hcarries
  cases hcarries

end ModelClient
