import ModelClient.Proofs.CallHistory
import ModelClient.Proofs.Conversation
import ModelClient.Proofs.StreamedParts

/-!
# What is sent after the tools of an answer have run

When the tools of an answer have run, the next request tells the service the answer and the results.
A call has the whole completion in hand. A stream has the window of the tool calls only: frames that
come before it have been handed to the consumer, and their text is in no later request. So the
follow-up of a stream tells the same as that of a call exactly if the answer has no text.

The effects of either run are some that concern no tools, the answering of the calls, and then those
of a round whose first request is the follow-up (`followUp?_append`, `Run.SendsFirst`).

## Main statements

* `ChatModel.followUps_agree_iff`: what both follow-ups tell, and when they agree.
-/

namespace ModelClient

open Json

/-! ## The first request of a run -/

section

variable {σ α β : Type}

/-- From the state `s` the run sends the request before any other. -/
def Run.SendsFirst (x : Run σ α) (s : σ) (request : Request) : Prop :=
  (sentRequests (x s).effects).head? = some request

namespace Run.SendsFirst

variable {x : Run σ α} {s : σ} {request : Request}

/-- What comes after a run is not sent first. -/
theorem bind (h : x.SendsFirst s request) (f : α → Run σ β) : (x >>= f).SendsFirst s request := by
  obtain ⟨fs, hfs⟩ := exists_effects_bind x f s
  rw [SendsFirst, hfs, sentRequests_append, List.head?_append, h]
  rfl

/-- An attempt sends what the run sends. -/
theorem attempt (h : x.SendsFirst s request) : x.attempt.SendsFirst s request := by
  have heffects : (x.attempt s).effects = (x s).effects := by
    unfold Run.attempt
    rcases x s with ⟨_, _, (_ | _) | _⟩ <;> rfl
  rw [SendsFirst, heffects, h]

/-- The first request is that of the first attempt. -/
theorem execute (h : x.SendsFirst s request) {policy : RetryPolicy}
    (hattempts : policy.maxAttempts ≠ 0) : (policy.execute x).SendsFirst s request := by
  obtain ⟨left, hleft⟩ := policy.exists_maxAttempts_eq_add_one hattempts
  rw [RetryPolicy.execute, hleft, RetryPolicy.executeFrom]
  exact h.attempt.bind _

/-- Observing a run does not change what is sent first. -/
theorem observe (h : x.SendsFirst s request) (observer : Observer) (context : Observation.Context)
    (summarize : α → ResponseSummary) :
    (ModelClient.observe observer context summarize x).SendsFirst s request := by
  rw [SendsFirst, sentRequests_observe]
  exact h

/-- Watching a round does not change what is sent first. -/
theorem watch {round : Run Session Unit} {s : Session} (h : round.SendsFirst s request)
    (observer : Observer) (context : Observation.Context) :
    (ModelClient.watch observer context round).SendsFirst s request := by
  rw [SendsFirst, sentRequests_watch]
  exact h

variable {s : Session} {answers : List Answer}

/-- A service with a script receives what is sent. -/
theorem send (hs : s.service = .script answers) (request : Request) :
    (Session.send request).SendsFirst s request := by
  rw [SendsFirst, Session.send_of_next hs rfl]
  rfl

/-- Asking for a whole completion sends this request first. -/
theorem complete (hs : s.service = .script answers) (c : Client) {request : Wire.ChatRequest}
    (hrequest : request.stream = false) :
    (c.complete request).SendsFirst s (c.chatRequest request) := by
  rw [Client.complete, hrequest, if_neg Bool.false_ne_true]
  exact (send hs _).bind _

/-- Asking for a stream sends this request first. -/
theorem stream (hs : s.service = .script answers) (c : Client) {request : Wire.ChatRequest}
    (hrequest : request.stream = true) :
    (c.stream request).SendsFirst s (c.chatRequest request) := by
  rw [Client.stream, hrequest, if_neg (by decide)]
  exact (send hs _).bind _

end Run.SendsFirst

end

namespace ChatModel

variable {m : ChatModel} {prompt : Prompt} {s : Session} {answers : List Answer}
  {prepared : PreparedRequest}

/-- Asking for the response to a prompt sends the prepared request first. -/
theorem respond_sendsFirst (hprepare : m.prepare prompt false = .ok prepared)
    (hattempts : m.retry.maxAttempts ≠ 0) (hs : s.service = .script answers) :
    (m.respond prepared).SendsFirst s (m.client.chatRequest prepared.request) :=
  (((Run.SendsFirst.complete hs m.client (prepare_stream hprepare)).execute hattempts).bind
    _).observe _ _ _

/-- The rounds of a call begin with the request of the prompt. -/
theorem callRounds_sendsFirst (hprepare : m.prepare prompt false = .ok prepared)
    (hattempts : m.retry.maxAttempts ≠ 0) (hs : s.service = .script answers) (left : Nat) :
    (m.callRounds (left + 1) prompt).SendsFirst s (m.client.chatRequest prepared.request) := by
  rw [callRounds, hprepare]
  exact (respond_sendsFirst hprepare hattempts hs).bind _

/-- The rounds of a stream begin with the request of the prompt. -/
theorem streamRounds_sendsFirst (hprepare : m.prepare prompt true = .ok prepared)
    (hattempts : m.retry.maxAttempts ≠ 0) (hs : s.service = .script answers) (left : Nat) :
    (m.streamRounds (left + 1) prompt).SendsFirst s (m.client.chatRequest prepared.request) := by
  have hstream := (Run.SendsFirst.stream hs m.client (prepare_stream hprepare)).execute hattempts
  rw [streamRounds]
  simp only [hprepare]
  exact (hstream.attempt.bind _).watch _ _

end ChatModel

/-! ## The follow-up of a run -/

/-- The requests and the answering of tool calls among some effects. -/
def actions (effects : List Effect) : List Effect := effects.filter Effect.isAction

/-- The first request after tools have been called for the first time. -/
def followUp? (effects : List Effect) : Option Request :=
  (sentRequests ((actions effects).dropWhile fun e => !e.concernsTools)).head?

/-- The messages that a request tells the service. -/
def Request.messages? (r : Request) : Option Json := r.body.field? "messages"

/-- The actions of two parts are those of the first and then those of the second. -/
theorem actions_append (es fs : List Effect) : actions (es ++ fs) = actions es ++ actions fs :=
  List.filter_append es fs

/-- Watching a round adds no actions. -/
theorem actions_watch (observer : Observer) (context : Observation.Context)
    (round : Run Session Unit) (s : Session) :
    actions (watch observer context round s).effects = actions (round s).effects :=
  filter_watch (fun _ => rfl) observer context round s

/-- The requests are among the actions. -/
theorem sentRequests_actions (effects : List Effect) :
    sentRequests (actions effects) = sentRequests effects := by
  rw [sentRequests, actions, List.filterMap_filter]
  refine congrFun (congrArg List.filterMap (funext fun e => ?_)) effects
  cases e <;> rfl

/-- If tools are called for the first time, the follow-up is the first request after that. -/
theorem followUp?_append {es : List Effect} (h : ∀ e ∈ es, e.concernsTools = false)
    (response : ChatResponse) (fs : List Effect) :
    followUp? (es ++ .delegated response :: fs) = (sentRequests fs).head? := by
  have hdrop : (actions (es ++ .delegated response :: fs)).dropWhile (fun e => !e.concernsTools) =
      .delegated response :: actions fs := by
    rw [actions_append, List.dropWhile_append_of_pos]
    · rfl
    · intro e he
      rw [h e (List.mem_filter.1 he).1]
      rfl
  rw [followUp?, hdrop]
  show (sentRequests (actions fs)).head? = _
  rw [sentRequests_actions]

/-- An observation does not change the follow-up. -/
theorem followUp?_watch (observer : Observer) (context : Observation.Context)
    (round : Run Session Unit) (s : Session) :
    followUp? (watch observer context round s).effects = followUp? (round s).effects := by
  rw [followUp?, actions_watch, followUp?]

/-! ## What a follow-up tells -/

/-- The assistant's message with the calls of a choice and the given text, as a follow-up tells it.
-/
def Wire.Choice.asking (choice : Wire.Choice) (text : String) : Wire.Message :=
  { Wire.Message.ofText text .assistant with
    toolCalls := some (choice.message.calls.map fun call => call.received.toWire) }

/-- The message of the assistant tells its text. -/
theorem Wire.Choice.toJson_asking_inj {choice : Wire.Choice} {text other : String} :
    (choice.asking text).toJson = (choice.asking other).toJson ↔ text = other := by
  refine ⟨fun h => ?_, fun h => by rw [h]⟩
  have hcontent := congrArg (Json.field? "content") h
  exact Json.str.inj (Option.some.inj hcontent)

/-- Calls that are run have their results in the same order, under their ids and names. -/
theorem ToolRegistry.map_response_of_runs {registry : ToolRegistry} {calls : List ToolCall}
    {runs : List ToolRun} (h : List.Forall₂ registry.Runs calls runs) :
    (runs.map ToolRun.response).map (fun r => (r.id, r.name)) =
      calls.map fun c => (c.id, c.name) := by
  induction h with
  | nil => rfl
  | cons hrun _ ih =>
    obtain ⟨t, arguments, result, -, -, -⟩ := hrun
    rw [List.map_cons, List.map_cons, List.map_cons, ih]

/-- The turn in which the calls of a message are run. -/
def Turn.ofRuns {registry : ToolRegistry} (message : AssistantMessage) (runs : List ToolRun)
    (hne : message.toolCalls ≠ []) (h : List.Forall₂ registry.Runs message.toolCalls runs) : Turn :=
  ⟨message, runs.map ToolRun.response, hne, ToolRegistry.map_response_of_runs h⟩

/-- The results of a turn have ids if the calls have. -/
theorem Turn.id_ne_of_calls {turn : Turn} (h : ∀ call ∈ turn.message.toolCalls, call.id ≠ "") :
    ∀ r ∈ turn.responses, r.id ≠ "" := by
  intro r hr
  have hmem : (r.id, r.name) ∈ turn.message.toolCalls.map fun c => (c.id, c.name) :=
    turn.answered ▸ List.mem_map_of_mem hr
  obtain ⟨call, hcall, heq⟩ := List.mem_map.1 hmem
  exact (Prod.mk.inj heq).1 ▸ h call hcall

/-- A response with one generation asks with the message of that generation. -/
theorem ChatResponse.callingMessage?_of_generations_eq {r : ChatResponse} {choice : Wire.Choice}
    {id role : String} (h : r.generations = [.ofChoice choice id role])
    (hcalls : choice.message.calls ≠ []) :
    r.callingMessage? = some (Generation.ofChoice choice id role).output := by
  have hhas : (Generation.ofChoice choice id role).output.hasToolCalls = true := by
    rw [AssistantMessage.hasToolCalls, Generation.toolCalls_ofChoice]
    simpa using hcalls
  rw [callingMessage?, h, List.map_singleton, List.find?_cons_of_pos hhas]

/-- A completion with one choice gives a response with one generation. -/
theorem ChatResponse.exists_generations_ofCompletion {c : Wire.Completion} {choice : Wire.Choice}
    (h : c.choices = [choice]) :
    ∃ id role, (ofCompletion c).generations = [.ofChoice choice id role] := by
  rw [ofCompletion, h]
  exact ⟨_, _, rfl⟩

/-- A frame of a stream gives a response with one generation. -/
theorem ChatResponse.exists_generations_ofStreamed (roles : Roles) (f : Wire.Frame) :
    ∃ id role, (ofStreamed roles f.chunk.toCompletion).1.generations =
      [.ofChoice f.toChoice id role] :=
  ⟨_, _, rfl⟩

/-- A chat request tells the messages that it is made of. -/
theorem Client.messages?_chatRequest (c : Client) (request : Wire.ChatRequest) :
    (c.chatRequest request).messages? =
      some (.arr (request.messages.map Wire.Message.toJson)) := by
  rw [Request.messages?, chatRequest, Wire.ChatRequest.toJson]
  cases request.doSample <;> cases request.maxTokens <;> rfl

namespace ChatModel

variable {m : ChatModel} {prompt : Prompt} {prepared : PreparedRequest} {streamed : Bool}
  {choice : Wire.Choice} {c : Wire.Completion} {runs : List ToolRun}

/-- A choice asks for tools: it has calls with ids and gives them as the reason for having stopped.
-/
structure Calls (choice : Wire.Choice) : Prop where
  calls_ne : choice.message.calls ≠ []
  ids : ∀ call ∈ choice.message.calls, ∃ id, id ≠ "" ∧ call.id = some id
  reason : choice.finishReason = some .toolCalls

/-- The follow-up tells the history of the prompt, the calls of the choice with a text, and the
results. -/
def Tells (prompt : Prompt) (choice : Wire.Choice) (runs : List ToolRun) (text : String)
    (request : Request) : Prop :=
  ∃ history, prompt.messages.mapM Message.toWire = .ok history ∧
    request.messages? = some (.arr ((history.flatten ++
      choice.asking text :: runs.map (·.response.toWire)).map Wire.Message.toJson))

/-- Two requests that tell the calls with a text each tell the same exactly if the texts are equal.
-/
theorem Tells.messages?_eq_iff {text other : String} {first second : Request}
    (hfirst : Tells prompt choice runs text first)
    (hsecond : Tells prompt choice runs other second) :
    first.messages? = second.messages? ↔ text = other := by
  obtain ⟨history, hhistory, hmessages⟩ := hfirst
  obtain ⟨history', hhistory', hmessages'⟩ := hsecond
  obtain rfl : history = history' := Except.ok.inj (hhistory.symm.trans hhistory')
  rw [hmessages, hmessages', Option.some.injEq, Json.arr.injEq, List.map_append, List.map_append,
    List.append_cancel_left_eq, List.map_cons, List.map_cons, List.cons.injEq,
    Wire.Choice.toJson_asking_inj]
  exact and_iff_left rfl

/-- The messages of a request are those of the prompt on the wire. -/
theorem exists_messages_eq_flatten (h : m.prepare prompt streamed = .ok prepared) :
    ∃ history, prompt.messages.mapM Message.toWire = .ok history ∧
      prepared.request.messages = history.flatten := by
  obtain ⟨history, tools, hhistory, -, rfl⟩ := prepare_eq_ok_iff.1 h
  exact ⟨history, hhistory, rfl⟩

/-- The prompt that goes on after the calls have been run has a request, which tells them with the
text of the message. -/
theorem exists_prepare_tells (hprepare : m.prepare prompt streamed = .ok prepared)
    (hchoice : Calls choice) {message : AssistantMessage}
    (hcalls : message.toolCalls = choice.message.calls.map Wire.ToolCall.received)
    {registry : ToolRegistry}
    (hruns : List.Forall₂ registry.Runs message.toolCalls runs) :
    ∃ next, m.prepare { prompt with
        messages := prompt.messages ++ [.assistant message, .tool (runs.map ToolRun.response)] }
          streamed = .ok next ∧
      Tells prompt choice runs message.content (m.client.chatRequest next.request) := by
  have hne : message.toolCalls ≠ [] := by
    rw [hcalls]
    simpa using hchoice.calls_ne
  have hids : ∀ call ∈ message.toolCalls, call.id ≠ "" := by
    intro call hcall
    rw [hcalls] at hcall
    obtain ⟨received, hreceived, rfl⟩ := List.mem_map.1 hcall
    obtain ⟨id, hid, hsome⟩ := hchoice.ids received hreceived
    rwa [Wire.ToolCall.received, hsome]
  -- A result without an id would have no form on the wire.
  let turn := Turn.ofRuns message runs hne hruns
  have hwire := Turn.mapM_toWire_eq_ok_iff.2 ⟨turn.id_ne_of_calls hids, rfl⟩
  have hnext := prepare_after_eq_ok_iff.2 ⟨prepared, _, hprepare, by
    rw [List.flatMap_singleton]
    exact hwire, rfl⟩
  obtain ⟨history, hhistory, hmessages⟩ := exists_messages_eq_flatten hprepare
  have hasking : message.asking = choice.asking message.content := by
    rw [AssistantMessage.asking, hcalls, List.map_map]
    rfl
  have hflatten : [[message.asking], (runs.map ToolRun.response).map ToolResponse.toWire].flatten =
      choice.asking message.content :: runs.map (·.response.toWire) := by
    rw [hasking, List.map_map]
    exact congrArg _ (List.append_nil _)
  refine ⟨_, hnext, history, hhistory, ?_⟩
  rw [Client.messages?_chatRequest, ← hmessages, ← hflatten]
  rfl

/-- The follow-up of a call tells the calls with the text of the completion. -/
theorem exists_followUp_call {s : Session} (hchoices : c.choices = [choice])
    (hchoice : Calls choice) (hproxies : ¬m.Proxies prompt)
    (hruns : List.Forall₂ (m.toolsFor prompt.options).Runs
      (choice.message.calls.map Wire.ToolCall.received) runs)
    (hcall : m.Completes prompt s c) :
    ∃ request, followUp? (m.call prompt s).effects = some request ∧
      Tells prompt choice runs choice.message.text request := by
  obtain ⟨prepared, es, answers, hprepare, hexecute⟩ := hcall
  obtain ⟨asking, hrespond⟩ := exists_respond_eq hexecute
  obtain ⟨id, role, hgenerations⟩ := ChatResponse.exists_generations_ofCompletion hchoices
  have hcalls := Generation.toolCalls_ofChoice choice id role
  have hunsettled : ¬Settled prepared (.ofCompletion c) := by
    rintro (hproxied | hsettled)
    · exact hproxies ((proxiesToolCalls_of_prepare hprepare).1 hproxied)
    · have hne : (Generation.ofChoice choice id role).output.toolCalls ≠ [] := by
        rw [hcalls]
        simpa using hchoice.calls_ne
      refine (hsettled _ (hgenerations ▸ List.mem_singleton_self _) hne).1 ?_
      rw [Generation.ofChoice, hchoice.reason]
      rfl
  rw [← prepare_registry hprepare, ← hcalls] at hruns
  -- The answer makes a round that runs the calls; the follow-up is the first request of the next.
  have htakes : m.Takes prompt s ⟨asking, .ofCompletion c, _, runs⟩ _ prepared :=
    ⟨hprepare, hrespond, hunsettled,
      ChatResponse.callingMessage?_of_generations_eq hgenerations hchoice.calls_ne, hruns⟩
  obtain ⟨next, hnext, htells⟩ := exists_prepare_tells hprepare hchoice hcalls hruns
  have hquiet : ∀ e ∈ asking, e.concernsTools = false := by
    have hasking := concernsTools_respond m prepared s
    rwa [hrespond] at hasking
  refine ⟨_, ?_, htells⟩
  rw [call, maxRounds_eq, callRounds_of_takes htakes]
  show followUp? (asking ++ .delegated _ :: runs.map ToolRun.effect ++ _) = _
  rw [List.append_assoc, List.cons_append, followUp?_append hquiet, sentRequests_append,
    sentRequests_runs, List.nil_append]
  exact callRounds_sendsFirst hnext (maxAttempts_ne_zero_of_execute hexecute) rfl 18

/-- A round that receives a choice in fragments hands the text frames to the consumer, runs the
calls of the window and goes on with a message that has them and no text. -/
theorem exists_relay_received (prompt : Prompt) (followUp : Prompt → Run Session Unit) {u : Session}
    (F : Wire.Fragmentation choice) (hchoice : Calls choice)
    (hproxied : prepared.proxiesToolCalls = false)
    (hruns : List.Forall₂ prepared.registry.Runs
      (choice.message.calls.map Wire.ToolCall.received) runs) (hdemand : u.demand = none) :
    ∃ (parts : List ChatResponse) (response : ChatResponse) (message : AssistantMessage)
      (fs : List Effect), message.content = "" ∧
      message.toolCalls = choice.message.calls.map Wire.ToolCall.received ∧
      (relay prompt prepared followUp {} ((F.received.map Wire.Frame.chunk).map .ok) u).effects =
        parts.map (fun part => .yielded (.ok part)) ++ .delegated response ::
          (runs.map ToolRun.effect ++ ((followUp { prompt with
            messages := prompt.messages ++
              [.assistant message, .tool (runs.map ToolRun.response)] } u).effects ++ fs)) := by
  obtain ⟨f, hwindow, hframes, hne⟩ := F.exists_received_eq hchoice.calls_ne
  have hrelay : relay prompt prepared followUp {}
      ((F.texts.map Wire.Frame.chunk).map .ok ++ [.ok f.chunk]) u = _ :=
    relay_of_forall_settled prompt followUp (.inr F.asks_texts) hdemand {} [.ok f.chunk]
  generalize ChatResponse.parts {} (F.texts.map Wire.Frame.chunk) = parts at hrelay
  -- The window comes after the text frames and asks for the tools.
  obtain ⟨id, role, hgenerations⟩ := ChatResponse.exists_generations_ofStreamed parts.2 f
  have hcalls := Generation.toolCalls_ofChoice f.toChoice id role
  rw [Wire.Frame.message_toChoice, F.calls_window hwindow] at hcalls
  rw [← hcalls] at hruns
  have hafter := Prompt.afterTools_of_runs
    (ChatResponse.callingMessage?_of_generations_eq hgenerations hne) hruns prompt u
  have hasks := f.asks_chunk_of_toolCalls hne
    ((F.finishReason_window hwindow).trans hchoice.reason)
  obtain ⟨fs, hfs⟩ := relay_of_runsTools followUp hproxied hasks hafter []
  refine ⟨parts.1, (ChatResponse.ofStreamed parts.2 f.chunk.toCompletion).1, _, fs,
    F.text_window hwindow, hcalls, ?_⟩
  rw [hframes, List.map_append, List.map_append]
  exact (congrArg Outcome.effects hrelay).trans (congrArg _ hfs)

/-- The follow-up of a stream tells the calls without any text. -/
theorem exists_followUp_stream {t : Session} (F : Wire.Fragmentation choice)
    (hchoice : Calls choice) (hproxies : ¬m.Proxies prompt)
    (hruns : List.Forall₂ (m.toolsFor prompt.options).Runs
      (choice.message.calls.map Wire.ToolCall.received) runs)
    (hstream : m.Streams prompt t F.frames) (hdemand : t.demand = none) :
    ∃ request, followUp? (m.stream prompt t).effects = some request ∧
      Tells prompt choice runs "" request := by
  have hattempts : m.retry.maxAttempts ≠ 0 := by
    obtain ⟨_, _, _, _, -, hexecute, -⟩ := hstream
    exact maxAttempts_ne_zero_of_execute hexecute
  obtain ⟨prepared, round, es, answers, hprepare, hround, hquiet, heffects⟩ :=
    exists_round_of_streams hstream hdemand F.windowsFrom_frames
  have hproxied : prepared.proxiesToolCalls = false :=
    Bool.eq_false_iff.2 fun h => hproxies ((proxiesToolCalls_of_prepare hprepare).1 h)
  rw [← prepare_registry hprepare] at hruns
  obtain ⟨parts, response, message, fs, htext, hcalls, hrelay⟩ :=
    exists_relay_received prompt (m.streamRounds 19) (u := { t with service := .script answers }) F
      hchoice hproxied hruns hdemand
  rw [← hcalls] at hruns
  obtain ⟨next, hnext, htells⟩ := exists_prepare_tells hprepare hchoice hcalls hruns
  rw [htext] at htells
  -- Nothing before the window concerns tools: neither the asking nor the parts of the text frames.
  have hbefore : ∀ e ∈ es ++ parts.map (fun part => .yielded (.ok part)),
      e.concernsTools = false := by
    intro e he
    rcases List.mem_append.1 he with hasking | hpart
    · exact (hquiet e hasking).2
    · obtain ⟨part, -, rfl⟩ := List.mem_map.1 hpart
      rfl
  refine ⟨_, ?_, htells⟩
  rw [hround, followUp?_watch, heffects, hrelay, ← List.append_assoc, followUp?_append hbefore,
    sentRequests_append, sentRequests_runs, List.nil_append, sentRequests_append,
    List.head?_append, streamRounds_sendsFirst hnext hattempts rfl 18]
  rfl

/-- **Follow-ups.** An answer that asks for tools is received by a call in one piece and by a stream
in fragments. After the tools have run, both send a follow-up that tells the history of the prompt,
the calls and the results. The follow-up of the call tells the text of the answer too and that of
the stream does not, so they tell the same exactly if the answer has no text. -/
theorem followUps_agree_iff {s t : Session} (F : Wire.Fragmentation choice)
    (hchoices : c.choices = [choice]) (hchoice : Calls choice) (hproxies : ¬m.Proxies prompt)
    (hruns : List.Forall₂ (m.toolsFor prompt.options).Runs
      (choice.message.calls.map Wire.ToolCall.received) runs)
    (hcall : m.Completes prompt s c) (hstream : m.Streams prompt t F.frames)
    (hdemand : t.demand = none) :
    ∃ whole streamed, followUp? (m.call prompt s).effects = some whole ∧
      followUp? (m.stream prompt t).effects = some streamed ∧
      Tells prompt choice runs choice.message.text whole ∧ Tells prompt choice runs "" streamed ∧
      (streamed.messages? = whole.messages? ↔ choice.message.text = "") := by
  obtain ⟨whole, hwhole, htellsWhole⟩ :=
    exists_followUp_call hchoices hchoice hproxies hruns hcall
  obtain ⟨streamed, hstreamed, htellsStreamed⟩ :=
    exists_followUp_stream F hchoice hproxies hruns hstream hdemand
  exact ⟨whole, streamed, hwhole, hstreamed, htellsWhole, htellsStreamed,
    (htellsStreamed.messages?_eq_iff htellsWhole).trans eq_comm⟩

end ChatModel

/-! ## The follow-ups of a greeting -/

namespace Greeting

/-- A model with the tool of the greeting. -/
def answering : ChatModel :=
  (ChatModel.ofClient .keyless).withOptions
    { callbacks := [Tool.echo "again"] }

/-- The run of the greeting's call. -/
def run : ToolRun := ⟨"again", .arr [], ⟨"1", "again", "[]"⟩⟩

/-- The choice of the greeting calls a tool, with an id. -/
theorem calls_choice : ChatModel.Calls choice where
  calls_ne := by decide
  ids call hcall := by
    obtain rfl := List.mem_singleton.1 hcall
    exact ⟨"1", by decide, rfl⟩
  reason := rfl

/-- The model of the greeting runs its tools itself. -/
theorem not_proxies : ¬answering.Proxies (.ofText "Hello") := Bool.false_ne_true

/-- The tool of the greeting gives back its arguments as text. -/
theorem runs_call : List.Forall₂ (answering.toolsFor none).Runs
    (choice.message.calls.map Wire.ToolCall.received) [run] := by
  have hread : Json.ofString? "[]" = some (.arr []) := by decide
  exact .cons (.intro (Tool.echo "again") (.arr []) (.arr []) rfl hread rfl) .nil

end Greeting

namespace ChatModel

/-- Both follow-ups of the greeting are sent. -/
theorem followUps_agree_iff_greeting :
    ∃ whole streamed,
      followUp? (Greeting.answering.call (.ofText "Hello") Greeting.whole).effects = some whole ∧
      followUp? (Greeting.answering.stream (.ofText "Hello") Greeting.streamed).effects =
        some streamed ∧
      Tells (.ofText "Hello") Greeting.choice [Greeting.run] "Hi" whole ∧
      Tells (.ofText "Hello") Greeting.choice [Greeting.run] "" streamed ∧
      (streamed.messages? = whole.messages? ↔ Greeting.choice.message.text = "") :=
  followUps_agree_iff Greeting.fragmentation rfl Greeting.calls_choice Greeting.not_proxies
    Greeting.runs_call (Greeting.completes rfl (by decide))
    (Greeting.streams rfl (by decide)) rfl

/-- The follow-up of the call has the greeting's text and that of the stream has not. -/
theorem followUps_differ_greeting :
    ∃ whole streamed,
      followUp? (Greeting.answering.call (.ofText "Hello") Greeting.whole).effects = some whole ∧
      followUp? (Greeting.answering.stream (.ofText "Hello") Greeting.streamed).effects =
        some streamed ∧ streamed.messages? ≠ whole.messages? := by
  obtain ⟨whole, hwhole, htellsWhole⟩ := exists_followUp_call (c := Greeting.completion) rfl
    Greeting.calls_choice Greeting.not_proxies Greeting.runs_call
    (Greeting.completes rfl (by decide))
  obtain ⟨streamed, hstreamed, htellsStreamed⟩ := exists_followUp_stream Greeting.fragmentation
    Greeting.calls_choice Greeting.not_proxies Greeting.runs_call
    (Greeting.streams rfl (by decide)) rfl
  refine ⟨whole, streamed, hwhole, hstreamed, fun heq => ?_⟩
  exact absurd ((htellsStreamed.messages?_eq_iff htellsWhole).1 heq) (by decide)

end ChatModel

end ModelClient
