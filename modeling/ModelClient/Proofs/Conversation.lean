import Mathlib.Data.List.Forall2
import ModelClient.Proofs.ToolRounds

/-!
# What the service is told in a conversation

However a prompt is answered, by a call or by a stream, every request tells the service the messages
of the prompt and then some exchanges: the assistant asks for tool calls and each call is answered,
in the same order and under its id and name. Nothing else changes between the requests of a run.

The rounds of a run keep the prompt of the form `prompt.after turns`, with fewer turns than rounds.
Preparing such a prompt (`prepare_after`) gives the request of `prompt` itself with the messages of
the turns added. The wire form of a turn is an exchange (`Turn.exists_exchange`), because an answer
without an id has none.

## Main statements

* `ChatModel.requests_converse`: the requests of every call and of every stream.
-/

namespace ModelClient

/-- Two groups of steps succeed together if each of them does, with one result behind the other. -/
theorem mapM_append_eq_ok_iff {α β : Type} {f : α → Except Error β} {xs ys : List α}
    {results : List β} :
    (xs ++ ys).mapM f = .ok results ↔
      ∃ first rest, xs.mapM f = .ok first ∧ ys.mapM f = .ok rest ∧ results = first ++ rest := by
  rw [List.mapM_append]
  cases xs.mapM f with
  | error e => exact ⟨nofun, fun ⟨_, _, h, _⟩ => by cases h⟩
  | ok first =>
    cases ys.mapM f with
    | error e => exact ⟨nofun, fun ⟨_, _, _, h, _⟩ => by cases h⟩
    | ok rest =>
      refine ⟨fun h => ⟨first, rest, rfl, rfl, (Except.ok.inj h).symm⟩, ?_⟩
      rintro ⟨_, _, hfirst, hrest, rfl⟩
      cases hfirst
      cases hrest
      rfl

/-! ## Exchanges on the wire -/

namespace Wire

/-- The message `answer` is a result of the tool call: it has the call's id, which is not empty, and
the call's name. -/
structure ToolCall.IsAnsweredBy (call : ToolCall) (answer : Message) : Prop where
  role_eq : answer.role = some .tool
  id_eq : ∃ id, id ≠ "" ∧ call.id = some id ∧ answer.toolCallId = some id
  name_eq : ∃ name, call.function.bind FunctionCall.name = some name ∧ answer.name = some name

/-- A message of the assistant that asks for tool calls, and one answer to each call in the order of
the calls. -/
structure Exchange where
  asking : Message
  answers : List Message
  role_eq : asking.role = some .assistant
  calls_ne : asking.calls ≠ []
  answered : List.Forall₂ ToolCall.IsAnsweredBy asking.calls answers

/-- The messages of an exchange. -/
def Exchange.messages (e : Exchange) : List Message := e.asking :: e.answers

end Wire

/-- The call on the wire. -/
def ToolCall.toWire (call : ToolCall) : Wire.ToolCall :=
  { id := some call.id
    kind := some call.kind
    function := some { name := some call.name, arguments := some call.arguments } }

/-- The result on the wire. -/
def ToolResponse.toWire (r : ToolResponse) : Wire.Message :=
  { Wire.Message.ofText r.data .tool with name := some r.name, toolCallId := some r.id }

/-- A message that asks for tool calls, on the wire. -/
def AssistantMessage.asking (m : AssistantMessage) : Wire.Message :=
  { Wire.Message.ofText m.content .assistant with
    toolCalls := some (m.toolCalls.map ToolCall.toWire) }

/-- A message with tool calls asks for them on the wire. -/
theorem Message.toWire_assistant {m : AssistantMessage} (h : m.toolCalls ≠ []) :
    (Message.assistant m).toWire = .ok [m.asking] := by
  have hcalls : m.hasToolCalls = true := by simpa [AssistantMessage.hasToolCalls] using h
  simp only [toWire, hcalls, if_true]
  rfl

/-- Results have a form on the wire exactly if each of them has an id. -/
theorem Message.toWire_tool_eq_ok_iff {responses : List ToolResponse} {wire : List Wire.Message} :
    (Message.tool responses).toWire = .ok wire ↔
      (∀ r ∈ responses, r.id ≠ "") ∧ wire = responses.map ToolResponse.toWire := by
  have hids : responses.any (·.id == "") = true ↔ ¬∀ r ∈ responses, r.id ≠ "" := by simp
  rw [toWire]
  by_cases h : ∀ r ∈ responses, r.id ≠ ""
  · rw [if_neg fun hany => hids.1 hany h]
    exact ⟨fun heq => ⟨h, (Except.ok.inj heq).symm⟩, fun ⟨_, heq⟩ => congrArg _ heq.symm⟩
  · rw [if_pos (hids.2 h)]
    exact ⟨nofun, fun ⟨hne, _⟩ => absurd hne h⟩

/-- The wire form of a turn: the message that asks and the results, if each of them has an id. -/
theorem Turn.mapM_toWire_eq_ok_iff {turn : Turn} {wire : List (List Wire.Message)} :
    turn.messages.mapM Message.toWire = .ok wire ↔
      (∀ r ∈ turn.responses, r.id ≠ "") ∧
        wire = [[turn.message.asking], turn.responses.map ToolResponse.toWire] := by
  rw [messages, List.mapM_cons, Message.toWire_assistant turn.calls_ne, List.mapM_cons,
    List.mapM_nil]
  cases htool : (Message.tool turn.responses).toWire with
  | error e =>
    refine ⟨nofun, fun ⟨hne, _⟩ => ?_⟩
    rw [Message.toWire_tool_eq_ok_iff.2 ⟨hne, rfl⟩] at htool
    cases htool
  | ok results =>
    obtain ⟨hne, rfl⟩ := Message.toWire_tool_eq_ok_iff.1 htool
    exact ⟨fun heq => ⟨hne, (Except.ok.inj heq).symm⟩, fun ⟨_, heq⟩ => congrArg _ heq.symm⟩

/-- Results with ids, on the wire, answer the calls that they are the results of. -/
theorem forall₂_isAnsweredBy {calls : List ToolCall} {responses : List ToolResponse}
    (hid : ∀ r ∈ responses, r.id ≠ "")
    (h : responses.map (fun r => (r.id, r.name)) = calls.map fun c => (c.id, c.name)) :
    List.Forall₂ Wire.ToolCall.IsAnsweredBy (calls.map ToolCall.toWire)
      (responses.map ToolResponse.toWire) := by
  induction calls generalizing responses with
  | nil =>
    obtain rfl : responses = [] := List.map_eq_nil_iff.1 h
    exact .nil
  | cons call calls ih =>
    cases responses with
    | nil => cases h
    | cons r responses =>
      obtain ⟨hfirst, hrest⟩ := List.cons.inj h
      obtain ⟨hcall, hname⟩ := Prod.mk.inj hfirst
      refine .cons ⟨rfl, ⟨call.id, ?_, rfl, ?_⟩, call.name, rfl, ?_⟩
        (ih (fun r hr => hid r (List.mem_cons_of_mem _ hr)) hrest)
      · exact hcall ▸ hid r List.mem_cons_self
      · rw [← hcall]
        rfl
      · rw [← hname]
        rfl

/-- A turn on the wire is an exchange. -/
theorem Turn.exists_exchange {turn : Turn} {wire : List (List Wire.Message)}
    (h : turn.messages.mapM Message.toWire = .ok wire) :
    ∃ e : Wire.Exchange, wire.flatten = e.messages := by
  obtain ⟨hne, rfl⟩ := Turn.mapM_toWire_eq_ok_iff.1 h
  refine ⟨⟨turn.message.asking, turn.responses.map ToolResponse.toWire, rfl, ?_, ?_⟩, ?_⟩
  · simpa [AssistantMessage.asking, Wire.Message.calls] using turn.calls_ne
  · exact forall₂_isAnsweredBy hne turn.answered
  · simp [Wire.Exchange.messages]

/-- Turns on the wire are exchanges, one for each. -/
theorem Turn.exists_exchanges {turns : List Turn} {wire : List (List Wire.Message)}
    (h : (turns.flatMap Turn.messages).mapM Message.toWire = .ok wire) :
    ∃ exchanges : List Wire.Exchange, exchanges.length = turns.length ∧
      wire.flatten = exchanges.flatMap Wire.Exchange.messages := by
  induction turns generalizing wire with
  | nil =>
    cases h
    exact ⟨[], rfl, rfl⟩
  | cons turn turns ih =>
    obtain ⟨first, rest, hfirst, hrest, rfl⟩ := mapM_append_eq_ok_iff.1 h
    obtain ⟨e, he⟩ := Turn.exists_exchange hfirst
    obtain ⟨es, hlength, hes⟩ := ih hrest
    refine ⟨e :: es, congrArg (· + 1) hlength, ?_⟩
    rw [List.flatten_append, he, hes, List.flatMap_cons]

/-! ## Requests for a prompt and some turns -/

namespace ChatModel

variable {m : ChatModel} {prompt : Prompt} {turns : List Turn} {streamed : Bool}

/-- Turns add their messages to the request of the prompt and change nothing else of it. -/
theorem prepare_after_eq_ok_iff {prepared : PreparedRequest} :
    m.prepare (prompt.after turns) streamed = .ok prepared ↔
      ∃ first wire, m.prepare prompt streamed = .ok first ∧
        (turns.flatMap Turn.messages).mapM Message.toWire = .ok wire ∧
        prepared = { first with
          request := { first.request with
            messages := first.request.messages ++ wire.flatten } } := by
  simp only [prepare_eq_ok_iff, Prompt.after, mapM_append_eq_ok_iff]
  constructor
  · rintro ⟨_, tools, ⟨before, wire, hbefore, hwire, rfl⟩, htools, rfl⟩
    refine ⟨_, wire, ⟨before, tools, hbefore, htools, rfl⟩, hwire, ?_⟩
    rw [List.flatten_append]
    rfl
  · rintro ⟨_, wire, ⟨before, tools, hbefore, htools, rfl⟩, hwire, rfl⟩
    refine ⟨_, tools, ⟨before, wire, hbefore, hwire, rfl⟩, htools, ?_⟩
    rw [List.flatten_append]
    rfl

/-- The requests are those of a conversation that the prompt starts: the messages of each are those
of the prompt and at most 19 exchanges, and all else is as in the first one. -/
def Converses (m : ChatModel) (prompt : Prompt) (streamed : Bool) (requests : List Request) :
    Prop :=
  ∀ first ∈ requests.head?, ∃ wire base,
    prompt.messages.mapM Message.toWire = .ok wire ∧ base.stream = streamed ∧
      first = m.client.chatRequest base ∧
      ∀ request ∈ requests, ∃ exchanges : List Wire.Exchange, exchanges.length ≤ 19 ∧
        request = m.client.chatRequest
          { base with messages := wire.flatten ++ exchanges.flatMap Wire.Exchange.messages }

/-- The request is one for the prompt after fewer turns than there are rounds. -/
def Asks (m : ChatModel) (prompt : Prompt) (streamed : Bool) (request : Request) : Prop :=
  ∃ turns prepared, turns.length < maxRounds ∧
    m.prepare (prompt.after turns) streamed = .ok prepared ∧
    request = m.client.chatRequest prepared.request

/-- What a request for the prompt tells the service. -/
theorem Asks.exists_exchanges {first : PreparedRequest} {wire : List (List Wire.Message)}
    (hfirst : m.prepare prompt streamed = .ok first)
    (hwire : prompt.messages.mapM Message.toWire = .ok wire) {request : Request}
    (h : m.Asks prompt streamed request) :
    ∃ exchanges : List Wire.Exchange, exchanges.length ≤ 19 ∧
      request = m.client.chatRequest { first.request with
        messages := wire.flatten ++ exchanges.flatMap Wire.Exchange.messages } := by
  obtain ⟨turns, prepared, hlength, hprepared, rfl⟩ := h
  obtain ⟨first', more, hfirst', hmore, rfl⟩ := prepare_after_eq_ok_iff.1 hprepared
  obtain rfl : first' = first := Except.ok.inj (hfirst'.symm.trans hfirst)
  obtain ⟨exchanges, hexchanges, hflatten⟩ := Turn.exists_exchanges hmore
  have hmessages : first'.request.messages = wire.flatten := by
    obtain ⟨_, _, hwire', -, rfl⟩ := prepare_eq_ok_iff.1 hfirst
    cases hwire.symm.trans hwire'
    rfl
  refine ⟨exchanges, ?_, ?_⟩
  · rw [hexchanges]
    exact Nat.le_of_lt_succ hlength
  · rw [hflatten, hmessages]

/-- Requests that ask for a prompt and some turns are those of a conversation. -/
theorem converses_of_asks {requests : List Request}
    (h : ∀ request ∈ requests, m.Asks prompt streamed request) :
    m.Converses prompt streamed requests := by
  intro request hrequest
  have hmem : request ∈ requests := List.mem_of_mem_head? hrequest
  obtain ⟨turns, prepared, -, hprepared, -⟩ := h request hmem
  obtain ⟨first, -, hfirst, -, -⟩ := prepare_after_eq_ok_iff.1 hprepared
  obtain ⟨wire, -, hwire, -⟩ := prepare_eq_ok_iff.1 hfirst
  obtain ⟨exchanges, -, rfl⟩ := (h request hmem).exists_exchanges hfirst hwire
  -- All requests differ from the prompt's own one in the messages only, so any of them may stand
  -- for the first.
  refine ⟨wire, { first.request with messages := _ }, hwire, ?_, rfl, fun request hrequest => ?_⟩
  · exact prepare_stream hfirst
  · exact (h request hrequest).exists_exchanges hfirst hwire

/-! ## The requests of a run -/

/-- Whether the effect is a request that `allowed` does not allow. -/
noncomputable def sentBeyond (allowed : Request → Prop) : Effect → Bool :=
  open Classical in fun
  | .sent request => decide (¬allowed request)
  | _ => false

/-- A request that is not allowed is an action. -/
theorem actionKind_sentBeyond (allowed : Request → Prop) : ActionKind (sentBeyond allowed) := by
  intro e he
  cases e <;> first | rfl | cases he

/-- A request that is allowed does not count. -/
theorem countP_sentBeyond {allowed : Request → Prop} {request : Request} (h : allowed request) :
    [Effect.sent request].countP (sentBeyond allowed) ≤ 0 := by
  simp [sentBeyond, h]

/-- If no effect counts, every request is allowed. -/
theorem forall_of_countP_sentBeyond {allowed : Request → Prop} {es : List Effect}
    (h : es.countP (sentBeyond allowed) ≤ 0) : ∀ request ∈ sentRequests es, allowed request := by
  intro request hrequest
  have hnone := List.countP_eq_zero.1 (Nat.le_zero.1 h) _ (mem_sentRequests.1 hrequest)
  simpa [sentBeyond] using hnone

/-- Running tools sends nothing. -/
theorem roundCost_sentBeyond (allowed : Request → Prop) (registry : ToolRegistry) :
    RoundCost (sentBeyond allowed) registry 0 :=
  ⟨fun _ => Nat.le_refl 0, fun _ _ _ _ => rfl⟩

/-- The prompt of a round with `left` rounds to go: some turns have been taken, and there are rounds
enough for all of them. -/
def Reached (prompt : Prompt) (left : Nat) (next : Prompt) : Prop :=
  ∃ turns, turns.length + left ≤ maxRounds ∧ next = prompt.after turns

/-- The prompt itself is reached with all rounds left. -/
theorem reached_self (prompt : Prompt) : Reached prompt maxRounds prompt :=
  ⟨[], Nat.le_refl _, prompt.after_nil.symm⟩

/-- The request of a round is one for the prompt. -/
theorem Reached.asks {left : Nat} {next : Prompt} (h : Reached prompt (left + 1) next)
    {prepared : PreparedRequest} (hprepared : m.prepare next streamed = .ok prepared) :
    m.Asks prompt streamed (m.client.chatRequest prepared.request) := by
  obtain ⟨turns, hlength, rfl⟩ := h
  exact ⟨turns, prepared, by omega, hprepared, rfl⟩

/-- Answering tool calls takes a turn. -/
theorem Reached.afterTools {left : Nat} {next : Prompt} (h : Reached prompt (left + 1) next)
    (allowed : Request → Prop) (response : ChatResponse) (registry : ToolRegistry)
    {I : Session → Prop} :
    Run.Bounded (sentBeyond allowed) I 0 (Reached prompt left)
      (next.afterTools response registry) := by
  obtain ⟨turns, hlength, rfl⟩ := h
  refine (Run.Bounded.afterTools (roundCost_sentBeyond allowed registry) _ response).mono
    (Nat.le_refl 0) ?_
  rintro _ ⟨turn, rfl⟩
  refine ⟨turns ++ [turn], ?_, Prompt.after_after prompt turns [turn]⟩
  rw [List.length_append, List.length_singleton]
  omega

/-- Every request of a call asks for the prompt and some turns. -/
theorem asks_of_mem_call {s : Session} :
    ∀ request ∈ sentRequests (m.call prompt s).effects, m.Asks prompt false request := by
  have hbound := callRounds_bounded_of (p := sentBeyond (m.Asks prompt false)) (b := 0)
    (J := Reached prompt) (fun left next prepared hnext hprepared => ⟨0, 0, Nat.le_refl 0,
      (respond_bounded (actionKind_sentBeyond _) (Answer.unscripted_asks s.mostAsks)
        (countP_sentBeyond (hnext.asks hprepared))).mono (Nat.le_refl 0) fun _ h => h,
      fun response => hnext.afterTools _ response _⟩) maxRounds (reached_self prompt)
  exact forall_of_countP_sentBeyond (hbound s s.answers_mostAsks).count

/-- Every request of a stream asks for the prompt and some turns. -/
theorem asks_of_mem_stream {s : Session} :
    ∀ request ∈ sentRequests (m.stream prompt s).effects, m.Asks prompt true request := by
  have hbound := streamRounds_bounded_of (p := sentBeyond (m.Asks prompt true)) (B := fun _ => 0)
    (w := s.mostAsks) (actionKind_sentBeyond _) (J := Reached prompt)
    (fun left next prepared hnext hprepared => ⟨0, 0, Nat.le_refl 0,
      countP_sentBeyond (hnext.asks hprepared),
      fun response => hnext.afterTools _ response _⟩) maxRounds (reached_self prompt)
  exact forall_of_countP_sentBeyond (stream_bounded_of hbound s s.answers_mostAsks).count

/-- **Well-formed conversations.** Whatever the service answers, the requests of a call and those of
a stream are those of a conversation that the prompt starts. -/
theorem requests_converse (m : ChatModel) (prompt : Prompt) (s : Session) :
    m.Converses prompt false (sentRequests (m.call prompt s).effects) ∧
      m.Converses prompt true (sentRequests (m.stream prompt s).effects) :=
  ⟨converses_of_asks asks_of_mem_call, converses_of_asks asks_of_mem_stream⟩

end ChatModel

end ModelClient
