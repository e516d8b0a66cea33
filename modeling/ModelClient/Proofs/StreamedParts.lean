import ModelClient.Proofs.EventLines
import ModelClient.Proofs.Fragmentation
import ModelClient.Proofs.ToolRounds

/-!
# The parts of a streamed answer

What a round of a stream does with the chunks of an answer. A chunk whose tool calls are not run
becomes a part that the consumer receives (`relay_of_forall_settled`); a chunk that asks for tools
is answered and followed by other rounds (`relay_of_runsTools`).

`ChatModel.Completes` and `ChatModel.Streams` say that the first request of a call or of a stream is
answered with a completion, or with frames, after however many attempts.
-/

namespace ModelClient

/-! ## Choices of frames -/

/-- The choice of a frame as the choice of a completion. -/
def Wire.Frame.toChoice (f : Wire.Frame) : Wire.Choice := f.choice.toChoice

/-- The message of a frame is its delta. -/
theorem Wire.Frame.message_toChoice (f : Wire.Frame) : f.toChoice.message = f.delta := rfl

/-- The reason of a frame is the reason of its choice. -/
theorem Wire.Frame.finishReason_toChoice (f : Wire.Frame) :
    f.toChoice.finishReason = f.finishReason :=
  rfl

/-- The calls of a choice are received one by one. -/
theorem Generation.toolCalls_ofChoice (choice : Wire.Choice) (id role : String) :
    (ofChoice choice id role).output.toolCalls =
      choice.message.calls.map Wire.ToolCall.received := by
  refine List.map_congr_left fun call _ => ?_
  rw [Wire.ToolCall.received, Wire.ToolCall.functionName?, Wire.ToolCall.argumentText]
  cases call.function <;> rfl

namespace Wire.Frame

variable {f : Wire.Frame}

/-- Whether a frame asks for tools depends on its only choice. -/
theorem asks_chunk (f : Wire.Frame) :
    f.chunk.asks = (Generation.ofChoice f.toChoice "" "").callsTools ChatModel.toolReasons := by
  rw [Chunk.asks, ChatResponse.callsTools, ChatResponse.ofStreamed, ChatResponse.any_generationsOf]
  exact Bool.or_false _

/-- A frame asks for tools if it has calls and gives that as its reason. -/
theorem asks_chunk_of_toolCalls (hcalls : f.delta.calls ≠ [])
    (hreason : f.finishReason = some .toolCalls) : f.chunk.asks = true := by
  have hhas : (Generation.ofChoice f.toChoice "" "").output.hasToolCalls = true := by
    rw [AssistantMessage.hasToolCalls, Generation.toolCalls_ofChoice, message_toChoice]
    simpa using hcalls
  have hfinish : (Generation.ofChoice f.toChoice "" "").metadata.finishReason =
      some "tool_calls" := by
    rw [Generation.ofChoice, finishReason_toChoice, hreason]
    rfl
  have hany : ChatModel.toolReasons.any (equalIgnoringCase · "tool_calls") = true := by decide
  rw [asks_chunk, Generation.callsTools, hhas, hfinish]
  exact hany

/-- A frame without calls asks for nothing. -/
theorem asks_chunk_of_calls_eq_nil (hcalls : f.delta.calls = []) : f.chunk.asks = false := by
  have hhas : (Generation.ofChoice f.toChoice "" "").output.hasToolCalls = false := by
    rw [AssistantMessage.hasToolCalls, Generation.toolCalls_ofChoice, message_toChoice, hcalls]
    rfl
  rw [asks_chunk, Generation.callsTools, hhas]
  rfl

end Wire.Frame

/-- Frames of text ask for nothing. -/
theorem Wire.Fragmentation.asks_texts {choice : Wire.Choice} (F : Wire.Fragmentation choice) :
    ∀ chunk ∈ F.texts.map Wire.Frame.chunk, chunk.asks = false := by
  intro chunk hchunk
  obtain ⟨f, hf, rfl⟩ := List.mem_map.1 hchunk
  exact f.asks_chunk_of_calls_eq_nil (F.calls_texts f hf)

/-! ## Parts for the consumer -/

/-- The item that the consumer of a stream receives, if the effect hands one over. -/
def Effect.item? : Effect → Option (Except Error ChatResponse)
  | .yielded item => some item
  | _ => none

/-- The items that the consumer of a stream receives, in order. -/
def yielded (effects : List Effect) : List (Except Error ChatResponse) :=
  effects.filterMap Effect.item?

/-- The consumer receives the items of the first part and then those of the second. -/
theorem yielded_append (es fs : List Effect) : yielded (es ++ fs) = yielded es ++ yielded fs :=
  List.filterMap_append

/-- Parts that are handed over are received. -/
theorem yielded_map_ok (parts : List ChatResponse) :
    yielded (parts.map fun part => .yielded (.ok part)) = parts.map .ok := by
  rw [yielded, List.filterMap_map]
  exact congrFun (List.filterMap_eq_map (f := Except.ok)) parts

/-- Watching a round hands nothing over. -/
theorem yielded_watch (observer : Observer) (context : Observation.Context)
    (round : Run Session Unit) (s : Session) :
    yielded (watch observer context round s).effects = yielded (round s).effects :=
  filterMap_watch (fun _ => rfl) observer context round s

/-- Asking for a response runs no tools. -/
theorem concernsTools_respond (m : ChatModel) (prepared : PreparedRequest) (s : Session) :
    ∀ e ∈ (m.respond prepared s).effects, e.concernsTools = false := by
  have hkind : ToolKind Effect.concernsTools := fun _ h => h
  exact (ChatModel.respond_quiet hkind (Answer.unscripted_asks s.mostAsks) prepared).eq_false
    s.answers_mostAsks

/-- Asking for a streamed answer hands nothing to the consumer and runs no tools. -/
theorem execute_stream_quiet (policy : RetryPolicy) (client : Client) (request : Wire.ChatRequest)
    (s : Session) :
    ∀ e ∈ (policy.execute (client.stream request) s).effects,
      e.item? = none ∧ e.concernsTools = false := by
  have hunreported : Unreported fun e => e.item?.isSome || e.concernsTools := by
    intro e he
    cases e <;> first | rfl | cases he
  have hstream : Run.Bounded (fun e => e.item?.isSome || e.concernsTools) _ 0 _
      (client.stream request) :=
    .stream (Answer.unscripted_asks s.mostAsks) (Nat.le_refl 0)
  intro e he
  have hquiet := (Run.Bounded.execute_quiet hunreported policy hstream).eq_false
    s.answers_mostAsks e he
  simpa using hquiet

namespace ChatResponse

/-- The parts that some chunks stand for, and the roles known after them. -/
def parts : Roles → List Wire.Chunk → List ChatResponse × Roles
  | roles, [] => ([], roles)
  | roles, chunk :: rest =>
    let (part, roles) := ofStreamed roles chunk.toCompletion
    let (more, roles) := parts roles rest
    (part :: more, roles)

end ChatResponse

/-- A consumer who wants everything goes on after a part. -/
theorem Session.yield_of_demand_eq_none {s : Session} (h : s.demand = none) (part : ChatResponse) :
    Session.yield (.ok part) s = ⟨[.yielded (.ok part)], s, .ok ()⟩ := by
  obtain ⟨service, demand, leaves⟩ := s
  cases h
  rfl

namespace ChatModel

variable {m : ChatModel} {prompt : Prompt} {prepared : PreparedRequest} {s : Session}

/-- Chunks whose tool calls are not run are handed to the consumer as parts, one for each. -/
theorem relay_of_forall_settled (prompt : Prompt) (followUp : Prompt → Run Session Unit)
    {chunks : List Wire.Chunk}
    (h : prepared.proxiesToolCalls = true ∨ ∀ chunk ∈ chunks, chunk.asks = false)
    (hs : s.demand = none) (roles : ChatResponse.Roles) (rest : List (Except Error Wire.Chunk)) :
    relay prompt prepared followUp roles (chunks.map .ok ++ rest) s =
      let after := relay prompt prepared followUp (ChatResponse.parts roles chunks).2 rest s
      ⟨(ChatResponse.parts roles chunks).1.map (fun part => .yielded (.ok part)) ++ after.effects,
        after.state, after.value⟩ := by
  induction chunks generalizing roles with
  | nil => rfl
  | cons chunk chunks ih =>
    -- Whether tools are run does not depend on the roles known so far.
    have hsettled : runsTools prepared (ChatResponse.ofStreamed roles chunk.toCompletion).1 =
        false := by
      rw [runsTools, ChatResponse.callsTools_ofStreamed]
      rcases h with hproxies | hasks
      · rw [hproxies]
        rfl
      · rw [hasks chunk List.mem_cons_self, Bool.and_false]
    have hmore := ih (h.imp_right fun hasks c hc => hasks c (List.mem_cons_of_mem _ hc))
    rw [List.map_cons, List.cons_append, relay]
    simp only [hsettled, Bool.false_eq_true, if_false]
    rw [Run.bind_of_ok (Session.yield_of_demand_eq_none hs _), hmore]
    rfl

/-- A chunk that asks for tools is answered, and then other rounds follow. -/
theorem relay_of_runsTools (followUp : Prompt → Run Session Unit) {roles : ChatResponse.Roles}
    {chunk : Wire.Chunk} (hproxies : prepared.proxiesToolCalls = false)
    (hasks : chunk.asks = true) {es : List Effect} {t : Session} {next : Prompt}
    (hafter : prompt.afterTools (ChatResponse.ofStreamed roles chunk.toCompletion).1
      prepared.registry s = ⟨es, t, .ok next⟩) (rest : List (Except Error Wire.Chunk)) :
    ∃ fs, (relay prompt prepared followUp roles (.ok chunk :: rest) s).effects =
      es ++ ((followUp next t).effects ++ fs) := by
  have hruns : runsTools prepared (ChatResponse.ofStreamed roles chunk.toCompletion).1 = true := by
    rw [runsTools, ChatResponse.callsTools_ofStreamed, hproxies, hasks]
    rfl
  obtain ⟨fs, hfs⟩ := Run.exists_effects_bind (followUp next) (fun _ =>
    relay prompt prepared followUp (ChatResponse.ofStreamed roles chunk.toCompletion).2 rest) t
  refine ⟨fs, ?_⟩
  rw [relay]
  simp only [hruns, if_true]
  rw [Run.bind_of_ok (Run.attempt_of_ok hafter), ← hfs]

/-! ## Answers to the first request -/

/-- The first request of a call of the prompt is answered with a completion, after however many
attempts. -/
def Completes (m : ChatModel) (prompt : Prompt) (s : Session) (c : Wire.Completion) : Prop :=
  ∃ prepared es answers, m.prepare prompt false = .ok prepared ∧
    m.retry.execute (m.client.complete prepared.request) s =
      ⟨es, { s with service := .script answers }, .ok (some c)⟩

/-- The first request of a stream of the prompt is answered with lines that hold the given frames,
after however many attempts. -/
def Streams (m : ChatModel) (prompt : Prompt) (s : Session) (frames : List Wire.Frame) : Prop :=
  ∃ prepared es answers lines, m.prepare prompt true = .ok prepared ∧
    m.retry.execute (m.client.stream prepared.request) s =
      ⟨es, { s with service := .script answers }, .ok (Wire.chunks lines)⟩ ∧
    Wire.frames lines = (frames.map Wire.Frame.chunk).map .ok

/-- The tool calls of a prompt are left to the caller. -/
def Proxies (m : ChatModel) (prompt : Prompt) : Prop :=
  proxiesToolCalls (prompt.options.bind ChatOptions.proxyToolCalls) m.defaults.proxyToolCalls = true

/-- A completion becomes the response to a request. -/
theorem exists_respond_eq {es : List Effect} {t : Session} {c : Wire.Completion}
    (h : m.retry.execute (m.client.complete prepared.request) s = ⟨es, t, .ok (some c)⟩) :
    ∃ fs, m.respond prepared s = ⟨fs, t, .ok (.ofCompletion c)⟩ :=
  observe_of_ok _ _ _ (Run.bind_eq_of_ok h rfl)

/-- A prepared prompt proxies its tool calls if the prompt or the model says so. -/
theorem proxiesToolCalls_of_prepare {streamed : Bool}
    (h : m.prepare prompt streamed = .ok prepared) :
    prepared.proxiesToolCalls = true ↔ m.Proxies prompt := by
  obtain ⟨wire, tools, -, -, rfl⟩ := prepare_eq_ok_iff.1 h
  rfl

/-- A round whose request is answered asks for the answer and then relays its chunks, all of it under
an observation. -/
theorem exists_round_of_execute {s t : Session} {es : List Effect}
    {chunks : List (Except Error Wire.Chunk)} (hprepare : m.prepare prompt true = .ok prepared)
    (h : m.retry.execute (m.client.stream prepared.request) s = ⟨es, t, .ok chunks⟩)
    (left : Nat) :
    let relayed := relay prompt prepared (m.streamRounds left) {} chunks t
    ∃ round, m.streamRounds (left + 1) prompt s =
        watch m.observer (context prepared.options) round s ∧
      round s = ⟨es ++ relayed.effects, relayed.state, relayed.value⟩ := by
  rw [streamRounds]
  simp only [hprepare]
  exact ⟨_, rfl, Run.bind_of_ok (Run.attempt_of_ok h) _⟩

/-- A stream whose first request is answered relays the chunks of the answer. -/
theorem exists_round_of_streams {t : Session} {frames : List Wire.Frame} {chunks : List Wire.Chunk}
    (h : m.Streams prompt t frames) (hdemand : t.demand = none)
    (hchunks : Wire.windowsFrom none ((frames.map Wire.Frame.chunk).map .ok) = chunks.map .ok) :
    ∃ prepared round es answers, m.prepare prompt true = .ok prepared ∧
      m.stream prompt t = watch m.observer (context prepared.options) round t ∧
      (∀ e ∈ es, e.item? = none ∧ e.concernsTools = false) ∧
      (round t).effects = es ++ (relay prompt prepared (m.streamRounds 19) {} (chunks.map .ok)
        { t with service := .script answers }).effects := by
  obtain ⟨prepared, es, answers, lines, hprepare, hexecute, hlines⟩ := h
  have hquiet := execute_stream_quiet m.retry m.client prepared.request t
  rw [Wire.chunks, hlines, hchunks] at hexecute
  rw [hexecute] at hquiet
  obtain ⟨round, hround, hrelay⟩ := exists_round_of_execute hprepare hexecute 19
  refine ⟨prepared, round, es, answers, hprepare, ?_, hquiet, congrArg Outcome.effects hrelay⟩
  rw [stream, hdemand, if_neg (Option.some_ne_none 0).symm, maxRounds_eq, hround]

/-- A policy under which something succeeds has attempts. -/
theorem maxAttempts_ne_zero_of_execute {σ α : Type} {policy : RetryPolicy} {x : Run σ α} {s t : σ}
    {es : List Effect} {a : α} (h : policy.execute x s = ⟨es, t, .ok a⟩) :
    policy.maxAttempts ≠ 0 := by
  intro hzero
  rw [RetryPolicy.execute_of_zero hzero] at h
  cases h

variable {answers rest : List Answer}

/-- A call whose service answers with the text of a completion. -/
theorem completes_of_render (hprepare : m.prepare prompt false = .ok prepared)
    (hattempts : m.retry.maxAttempts ≠ 0) {v : Json} (hv : v.ReadsBack) {c : Wire.Completion}
    (hvalue : Wire.Completion.decode v.toDoc = some c) (hs : s.service = .script answers)
    (hnext : Service.next answers = (.reply 200 [Text.encode v.render] false, rest)) :
    m.Completes prompt s c := by
  have hsuccess : Client.isSuccess 200 = true := rfl
  have hread := Client.readBody_render hv hvalue hsuccess
  obtain ⟨sent, hsent⟩ :=
    Client.complete_of_readBody hs hnext hread m.client (prepare_stream hprepare)
  obtain ⟨told, htold⟩ := m.retry.execute_of_ok hattempts hsent
  exact ⟨prepared, _, rest, hprepare, htold⟩

/-- A stream whose service answers with the event lines of frames. -/
theorem streams_of_eventBytes (hprepare : m.prepare prompt true = .ok prepared)
    (hattempts : m.retry.maxAttempts ≠ 0) {vs : List Json} (hvs : ∀ v ∈ vs, v.ReadsBack)
    {frames : List Wire.Frame}
    (hvalues : vs.map (fun v => Wire.Chunk.decode v.toDoc) =
      (frames.map Wire.Frame.chunk).map some) (hs : s.service = .script answers)
    (hnext : Service.next answers = (.reply 200 (vs.map Json.eventBytes) false, rest)) :
    m.Streams prompt s frames := by
  obtain ⟨sent, hsent⟩ := Client.stream_of_reply hs hnext rfl m.client (prepare_stream hprepare)
  obtain ⟨told, htold⟩ := m.retry.execute_of_ok hattempts hsent
  rw [Client.chunks_eventBytes hvs] at htold
  exact ⟨prepared, _, rest, _, hprepare, htold, Wire.frames_eventLines hvs hvalues⟩

end ChatModel

/-! ## A greeting with a tool call -/

namespace Greeting

open Json

/-- The call of a tool on an empty list. -/
def call : Wire.ToolCall :=
  { id := some "1"
    kind := some "function"
    function := some { name := some "again", arguments := some "[]" } }

/-- The beginning of the call. -/
def opening : Wire.ToolCall :=
  { call with function := some { name := some "again", arguments := some "[" } }

/-- The end of the call. -/
def closing : Wire.ToolCall := { function := some { arguments := some "]" } }

/-- A greeting that calls the tool. -/
def choice : Wire.Choice :=
  { finishReason := some .toolCalls
    index := none
    message := {
      content := some (.text "Hi")
      role := some .assistant
      toolCalls := some [call] }
    logprobs := none }

/-- The completion of the greeting. -/
def completion : Wire.Completion := { id := some "c", choices := [choice] }

/-- The frames of the greeting's text. -/
def texts : List Wire.Frame :=
  [{ id := some "c", delta := { content := some (.text "H"), role := some .assistant } },
    { id := some "c", delta := { content := some (.text "i") } }]

/-- The frame that opens the window. -/
def opened : Wire.Frame := { id := some "c", delta := { toolCalls := some [opening] } }

/-- The frame that closes the window. -/
def closed : Wire.Frame :=
  { id := some "c", finishReason := some .toolCalls, delta := { toolCalls := some [closing] } }

/-- The greeting in four frames. -/
def fragmentation : Wire.Fragmentation choice where
  texts := texts
  pieces := [opened, closed]
  segments := [[opening, closing]]
  calls_texts := by decide
  text_texts := by decide
  calls_pieces := by decide
  calls_head := by decide
  text_pieces := by decide
  fragments := by decide
  spells := .cons ⟨rfl, rfl, by decide, by decide, by decide⟩ .nil
  reason := ⟨texts ++ [opened], closed, rfl, by decide, rfl, rfl⟩

/-- The service's answer in one piece. -/
def whole : Session :=
  { service := .script [.reply 200 [Text.encode completion.toJson.render] false] }

/-- The service's answer in frames. -/
def streamed : Session :=
  { service := .script [.reply 200
      ((fragmentation.frames.map fun f => f.chunk.toJson).map eventBytes) false] }

/-- The completion of the greeting is read back from its text. -/
theorem readsBack_completion : completion.toJson.ReadsBack := .of_isPlain rfl

/-- Its frames are read back from their texts. -/
theorem readsBack_frame {f : Wire.Frame} (h : f ∈ fragmentation.frames) :
    f.chunk.toJson.ReadsBack := by
  have hmem : f ∈ texts ++ [opened, closed] := h
  simp only [texts, List.cons_append, List.nil_append, List.mem_cons, List.not_mem_nil,
    or_false] at hmem
  rcases hmem with rfl | rfl | rfl | rfl <;> exact .of_isPlain rfl

variable {m : ChatModel} {prompt : Prompt} {prepared : PreparedRequest}

/-- A call of any model receives the greeting in one piece. -/
theorem completes (hprepare : m.prepare prompt false = .ok prepared)
    (hattempts : m.retry.maxAttempts ≠ 0) : m.Completes prompt whole completion := by
  have hvalue : Wire.Completion.decode completion.toJson.toDoc = some completion := rfl
  exact ChatModel.completes_of_render hprepare hattempts readsBack_completion hvalue rfl rfl

/-- A stream of any model receives the greeting in frames. -/
theorem streams (hprepare : m.prepare prompt true = .ok prepared)
    (hattempts : m.retry.maxAttempts ≠ 0) : m.Streams prompt streamed fragmentation.frames := by
  refine ChatModel.streams_of_eventBytes hprepare hattempts (fun v hv => ?_) ?_ rfl rfl
  · obtain ⟨f, hf, rfl⟩ := List.mem_map.1 hv
    exact readsBack_frame hf
  · rfl

end Greeting

end ModelClient
