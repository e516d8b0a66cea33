import ModelClient.Proofs.Runs

/-!
# The cost of tool rounds

A call of a model goes through its rounds one after the other, and a stream goes through the rounds
that its chunks ask for, one inside another. If handing a response over to the tools leaves at most
`k` effects of a kind (`RoundCost`), a call with `left` rounds leaves at most `left * k` of them
(`callRounds_bounded`). For a stream the number of rounds depends on how many chunks of one answer
ask for tools: if there are at most `w`, a stream `left` rounds deep leaves at most
`k * (w + w ^ 2 + … + w ^ left)` (`streamRounds_bounded`, `nestedRounds`).
-/

namespace ModelClient

variable {p : Effect → Bool} {k b w : Nat} {registry : ToolRegistry}

/-- A tool that gives back its arguments. -/
def Tool.echo (name : String) : Tool :=
  { name, description := "", schema := .obj [], run := .ok }

/-! ## Turns of a conversation -/

/-- A turn of the conversation: the assistant asks for tool calls and gets their results. There is a
result for every call, in the same order and with its id and name. -/
structure Turn where
  message : AssistantMessage
  responses : List ToolResponse
  calls_ne : message.toolCalls ≠ []
  answered : responses.map (fun r => (r.id, r.name)) = message.toolCalls.map fun c => (c.id, c.name)

/-- The messages of a turn. -/
def Turn.messages (t : Turn) : List Message := [.assistant t.message, .tool t.responses]

/-- The prompt after some turns. -/
def Prompt.after (p : Prompt) (turns : List Turn) : Prompt :=
  { p with messages := p.messages ++ turns.flatMap Turn.messages }

/-- Without turns the prompt is as it was. -/
theorem Prompt.after_nil (p : Prompt) : p.after [] = p := by
  rw [after, List.flatMap_nil, List.append_nil]

/-- Turns after others are turns in a row. -/
theorem Prompt.after_after (p : Prompt) (turns more : List Turn) :
    (p.after turns).after more = p.after (turns ++ more) := by
  rw [after, after, after, List.flatMap_append, List.append_assoc]

/-- A message that is picked because it asks for tool calls has some. -/
theorem ChatResponse.toolCalls_ne_nil {r : ChatResponse} {m : AssistantMessage}
    (h : r.callingMessage? = some m) : m.toolCalls ≠ [] := by
  intro hnil
  have hcalls : m.hasToolCalls = true := List.find?_some h
  rw [AssistantMessage.hasToolCalls, hnil] at hcalls
  cases hcalls

/-! ## One round trip -/

/-- Handing a response over to the tools of `registry` leaves at most `k` effects in `p`: `k` for
the response and none for the tools. -/
structure RoundCost (p : Effect → Bool) (registry : ToolRegistry) (k : Nat) : Prop where
  delegated : ∀ response, [Effect.delegated response].countP p ≤ k
  ran : ∀ name tool arguments, registry.get? name = some tool → p (.ran tool.name arguments) = false

namespace Run.Bounded

variable {σ : Type} {I : σ → Prop}

/-- If running the tool does not count, a call of it leaves nothing that counts. -/
theorem tool (t : Tool) (h : ∀ arguments, p (.ran t.name arguments) = false) (text : String) :
    Bounded p I 0 (fun _ => True) (t.call text : Run σ String) := by
  unfold Tool.call
  refine quiet_bind (ofExcept fun _ _ => trivial) fun arguments _ => ?_
  refine quiet_bind (emit _ ?_) fun _ _ => ?_
  · simp [h arguments]
  · exact quiet_bind (ofExcept fun _ _ => trivial) fun _ _ => pure trivial

/-- The result of a call has the call's id and name. -/
theorem answer (h : RoundCost p registry k) (call : ToolCall) :
    Bounded p I 0 (fun r => (r.id, r.name) = (call.id, call.name))
      (registry.answer call : Run σ ToolResponse) := by
  unfold ToolRegistry.answer
  split
  · exact fail _
  · next t ht => exact quiet_bind (tool t (fun _ => h.ran _ t _ ht) _) fun _ _ => pure rfl

/-- The results of some calls have the ids and names of the calls, in order. -/
theorem answerAll (h : RoundCost p registry k) (calls : List ToolCall) :
    Bounded p I 0
      (fun rs => rs.map (fun r => (r.id, r.name)) = calls.map fun c => (c.id, c.name))
      (registry.answerAll calls : Run σ (List ToolResponse)) := by
  induction calls with
  | nil => exact pure rfl
  | cons call rest ih =>
    unfold ToolRegistry.answerAll
    refine quiet_bind (answer h call) fun r hr => quiet_bind ih fun rs hrs => pure ?_
    rw [List.map_cons, List.map_cons, hr, hrs]

/-- Answering the tool calls of a response adds a turn to the conversation. -/
theorem afterTools (h : RoundCost p registry k) (prompt : Prompt) (response : ChatResponse) :
    Bounded p I k (fun next => ∃ turn, next = prompt.after [turn])
      (prompt.afterTools response registry : Run σ Prompt) := by
  unfold Prompt.afterTools
  refine bind (k := 0) (emit _ (h.delegated response)) fun _ _ => ?_
  split
  · exact fail _
  · next message hmessage =>
    refine quiet_bind (answerAll h _) fun responses hresponses => pure ?_
    exact ⟨⟨message, responses, ChatResponse.toolCalls_ne_nil hmessage, hresponses⟩, rfl⟩

end Run.Bounded

namespace ChatModel

/-! ## Preparing a prompt -/

/-- The tools that an answer to a prompt with the given options may call. -/
def toolsFor (m : ChatModel) (options : Option ChatOptions) : ToolRegistry :=
  m.registry.registerAll ((options.map ChatOptions.tools).getD [])

/-- Preparing a prompt succeeds when its messages have a form on the wire and its enabled tools are
registered. -/
theorem prepare_eq_ok_iff {m : ChatModel} {prompt : Prompt} {stream : Bool}
    {prepared : PreparedRequest} :
    m.prepare prompt stream = .ok prepared ↔
      ∃ wire tools, prompt.messages.mapM Message.toWire = .ok wire ∧
        toolLayer? (m.toolsFor prompt.options)
          (m.enabledNames (prompt.options.map ChatLayer.ofOptions)) = .ok tools ∧
        prepared =
          { request :=
              (ChatLayer.resolve tools (prompt.options.map ChatLayer.ofOptions)
                m.defaults).applyTo { messages := wire.flatten, stream }
            options :=
              ChatLayer.resolve tools (prompt.options.map ChatLayer.ofOptions) m.defaults
            registry := m.toolsFor prompt.options
            proxiesToolCalls :=
              ModelClient.proxiesToolCalls (prompt.options.bind ChatOptions.proxyToolCalls)
                m.defaults.proxyToolCalls } := by
  have hregistry : m.registry.registerAll
      (((prompt.options.map ChatLayer.ofOptions).map ChatLayer.callbacks).getD []) =
        m.toolsFor prompt.options := by
    unfold toolsFor
    cases prompt.options <;> rfl
  have hproxies : (prompt.options.map ChatLayer.ofOptions).bind ChatLayer.proxyToolCalls =
      prompt.options.bind ChatOptions.proxyToolCalls := by
    cases prompt.options <;> rfl
  simp only [prepare, hregistry, hproxies, bind, Except.bind, pure, Except.pure]
  constructor
  · intro h
    split at h
    · cases h
    next wire hwire =>
    split at h
    · cases h
    next tools htools => exact ⟨wire, tools, hwire, htools, (Except.ok.inj h).symm⟩
  · rintro ⟨wire, tools, hwire, htools, rfl⟩
    simp only [hwire, htools]

/-- An answer to a prepared prompt may call the tools of the prompt's options. -/
theorem prepare_registry {m : ChatModel} {prompt : Prompt} {stream : Bool}
    {prepared : PreparedRequest} (h : m.prepare prompt stream = .ok prepared) :
    prepared.registry = m.toolsFor prompt.options := by
  obtain ⟨wire, tools, -, -, rfl⟩ := prepare_eq_ok_iff.1 h
  rfl

/-- A prepared request asks for a stream if one is wanted. -/
theorem prepare_stream {m : ChatModel} {prompt : Prompt} {stream : Bool}
    {prepared : PreparedRequest} (h : m.prepare prompt stream = .ok prepared) :
    prepared.request.stream = stream := by
  obtain ⟨wire, tools, -, -, rfl⟩ := prepare_eq_ok_iff.1 h
  rfl

/-! ## Rounds one after the other -/

/-- The first round, and as many as may follow it. -/
theorem maxRounds_eq : maxRounds = 19 + 1 := rfl

variable {m : ChatModel} {o : Option ChatOptions} {P : Answer → Prop}

/-- The attempts of a request, each of which costs at most `k`. -/
theorem respond_bounded (hp : ActionKind p) (hP : Answer.Unscripted P) {prepared : PreparedRequest}
    (hsent : [Effect.sent (m.client.chatRequest prepared.request)].countP p ≤ k) :
    Run.Bounded p (Session.Answers P) (m.retry.maxAttempts.toNat * k) (fun _ => True)
      (m.respond prepared) := by
  unfold respond
  refine .observe hp.unreported _ _ _
    (.bind (k := 0) (.execute hp.unreported _ (.complete hP hsent)) fun c _ => ?_)
  cases c <;> exact .pure trivial

/-- Asking for a response does nothing that concerns tools. -/
theorem respond_quiet (hp : ToolKind p) (hP : Answer.Unscripted P) (prepared : PreparedRequest) :
    Run.Bounded p (Session.Answers P) 0 (fun _ => True) (m.respond prepared) :=
  respond_bounded (k := 0) hp.actionKind hP (Nat.le_of_eq (hp.countP_sent _))

/-- **Rounds one after the other.** If a round keeps `J` of the prompt and costs at most `b`, then
`left` rounds cost at most `left * b`. -/
theorem callRounds_bounded_of {J : Nat → Prompt → Prop} {I : Session → Prop}
    (hround : ∀ left prompt prepared, J (left + 1) prompt → m.prepare prompt false = .ok prepared →
      ∃ a k, a + k ≤ b ∧ Run.Bounded p I a (fun _ => True) (m.respond prepared) ∧
        ∀ response, Run.Bounded p I k (J left) (prompt.afterTools response prepared.registry))
    (left : Nat) {prompt : Prompt} (hprompt : J left prompt) :
    Run.Bounded p I (left * b) (fun _ => True) (m.callRounds left prompt) := by
  induction left generalizing prompt with
  | zero => exact .of_quiet (.fail _)
  | succ left ih =>
    unfold callRounds
    refine .quiet_bind (.ofExcept fun _ h => h) fun prepared hprepared => ?_
    obtain ⟨a, k, hle, hrespond, hafter⟩ := hround left prompt prepared hprompt hprepared
    have htotal : a + (k + left * b) ≤ (left + 1) * b := by
      rw [Nat.succ_mul, ← Nat.add_assoc, Nat.add_comm]
      exact Nat.add_le_add_left hle _
    refine (Run.Bounded.bind hrespond fun response _ => ?_).mono htotal fun _ h => h
    split
    · exact .bind (hafter response) fun next hnext => ih hnext
    · exact .of_quiet (.pure trivial)

/-- A call with `left` rounds, each of which costs at most `k`. -/
theorem callRounds_bounded (hp : ToolKind p) (hP : Answer.Unscripted P)
    (hcost : RoundCost p (m.toolsFor o) k) (left : Nat) (prompt : Prompt)
    (ho : prompt.options = o) :
    Run.Bounded p (Session.Answers P) (left * k) (fun _ => True) (m.callRounds left prompt) := by
  refine callRounds_bounded_of (J := fun _ prompt => prompt.options = o)
    (fun left prompt prepared ho hprepared => ⟨0, k, ?_, ?_, fun response => ?_⟩) left ho
  · exact Nat.le_of_eq (Nat.zero_add k)
  · exact respond_quiet hp hP prepared
  · rw [prepare_registry hprepared, ho]
    refine (Run.Bounded.afterTools hcost prompt response).mono (Nat.le_refl k) ?_
    rintro _ ⟨turn, rfl⟩
    exact ho

end ChatModel

/-! ## Rounds one inside another -/

/-- Whether the chunk asks for tools that are to be run. -/
def Wire.Chunk.asks (c : Wire.Chunk) : Bool :=
  (ChatResponse.ofStreamed {} c.toCompletion).1.callsTools ChatModel.toolReasons

/-- How many chunks of a stream ask for tools. -/
def asks (chunks : List (Except Error Wire.Chunk)) : Nat :=
  chunks.countP fun
    | .ok chunk => chunk.asks
    | .error _ => false

/-- How many chunks of a streamed answer ask for tools. -/
def Answer.asks : Answer → Nat
  | .reply status pieces breaksOff =>
    if Client.isSuccess status then ModelClient.asks (Client.chunks pieces breaksOff) else 0
  | .drop | .hang => 0

/-- An answer that needs no script asks for no tools. -/
theorem Answer.unscripted_asks (w : Nat) : Answer.Unscripted (fun a => a.asks ≤ w) :=
  ⟨Nat.zero_le w, Nat.zero_le w⟩

/-- How often an answer of the session's service asks for tools, at most. -/
def Session.mostAsks (s : Session) : Nat := (s.answers.map Answer.asks).max?.getD 0

/-- No answer of the session asks for tools more often than the most there is. -/
theorem Session.answers_mostAsks (s : Session) : s.Answers (·.asks ≤ s.mostAsks) :=
  fun _ ha => List.le_max?_getD_of_mem (List.mem_map_of_mem ha)

/-- How many rounds a stream has at most: every answer leads to `w` rounds inside it, down to the
given depth. -/
def nestedRounds (w : Nat) : (depth : Nat) → Nat
  | 0 => 0
  | depth + 1 => w * (1 + nestedRounds w depth)

/-- If every answer asks for tools at most once, there are as many rounds as the depth allows. -/
theorem nestedRounds_one (depth : Nat) : nestedRounds 1 depth = depth := by
  induction depth with
  | zero => rfl
  | succ depth ih =>
    rw [nestedRounds, ih, Nat.one_mul, Nat.add_comm]

/-- Answers that ask more often may lead to more rounds. -/
theorem nestedRounds_mono {v w : Nat} (h : v ≤ w) (depth : Nat) :
    nestedRounds v depth ≤ nestedRounds w depth := by
  induction depth with
  | zero => exact Nat.le_refl 0
  | succ depth ih => exact Nat.mul_le_mul h (Nat.add_le_add_left ih 1)

namespace ChatResponse

/-- What is run does not depend on ids and roles. -/
theorem any_generationsOf (id : String) (roles : Roles) (choices : List Wire.Choice) :
    (generationsOf id roles choices).1.any (Generation.callsTools ChatModel.toolReasons) =
      choices.any fun c => (Generation.ofChoice c "" "").callsTools ChatModel.toolReasons := by
  induction choices generalizing roles with
  | nil => rfl
  | cons choice rest ih =>
    simp only [generationsOf, List.any_cons]
    rw [ih]
    rfl

/-- Whether a chunk asks for tools does not depend on the roles known before it. -/
theorem callsTools_ofStreamed (roles : Roles) (c : Wire.Chunk) :
    (ofStreamed roles c.toCompletion).1.callsTools ChatModel.toolReasons = c.asks := by
  simp only [Wire.Chunk.asks, callsTools, ofStreamed]
  rw [any_generationsOf, any_generationsOf]

end ChatResponse

namespace ChatModel

variable {m : ChatModel} {o : Option ChatOptions} {P : Answer → Prop}

/-- A chunk that asks for tools is answered; the rounds that follow it come in between, and then the
rest of the chunks. -/
theorem relay_of_followUp {prompt next : Prompt} {prepared : PreparedRequest}
    {followUp : Prompt → Run Session Unit} {roles : ChatResponse.Roles} {chunk : Wire.Chunk}
    {s t u : Session} {es fs : List Effect} (hproxies : prepared.proxiesToolCalls = false)
    (hasks : chunk.asks = true)
    (hafter : prompt.afterTools (ChatResponse.ofStreamed roles chunk.toCompletion).1
      prepared.registry s = ⟨es, t, .ok next⟩)
    (hfollow : followUp next t = ⟨fs, u, .ok ()⟩) (rest : List (Except Error Wire.Chunk)) :
    relay prompt prepared followUp roles (.ok chunk :: rest) s =
      let after := relay prompt prepared followUp
        (ChatResponse.ofStreamed roles chunk.toCompletion).2 rest u
      ⟨es ++ (fs ++ after.effects), after.state, after.value⟩ := by
  have hruns : runsTools prepared (ChatResponse.ofStreamed roles chunk.toCompletion).1 = true := by
    rw [runsTools, ChatResponse.callsTools_ofStreamed, hproxies, hasks]
    rfl
  rw [relay]
  simp only [hruns, if_true]
  rw [Run.bind_of_ok (Run.attempt_of_ok hafter)]
  simp only
  rw [Run.bind_of_ok hfollow]

/-- Each chunk that asks for tools costs a round trip and the rounds that follow it. -/
theorem relay_bounded (hp : ActionKind p) {K : Prompt → Prop} {prompt : Prompt}
    {prepared : PreparedRequest}
    (hafter : ∀ response, Run.Bounded p (Session.Answers P) k K
      (prompt.afterTools response prepared.registry))
    {followUp : Prompt → Run Session Unit}
    (hfollow : ∀ next, K next →
      Run.Bounded p (Session.Answers P) b (fun _ => True) (followUp next))
    (roles : ChatResponse.Roles) (chunks : List (Except Error Wire.Chunk)) :
    Run.Bounded p (Session.Answers P) (asks chunks * (k + b)) (fun _ => True)
      (relay prompt prepared followUp roles chunks) := by
  induction chunks generalizing roles with
  | nil => exact .of_quiet (.pure trivial)
  | cons chunk rest ih =>
    cases chunk with
    | error e => exact .of_quiet (.yield hp _)
    | ok chunk =>
      have hrest : asks (.ok chunk :: rest) = asks rest + if chunk.asks then 1 else 0 :=
        List.countP_cons
      have hcalls := ChatResponse.callsTools_ofStreamed roles chunk
      unfold relay
      simp only [runsTools, hcalls]
      by_cases hruns : (!prepared.proxiesToolCalls && chunk.asks) = true
      · have hasks : chunk.asks = true := (Bool.and_eq_true_iff.1 hruns).2
        have htotal : asks (.ok chunk :: rest) * (k + b) = k + (b + asks rest * (k + b)) := by
          rw [hrest, if_pos hasks, Nat.succ_mul, Nat.add_comm, Nat.add_assoc]
        rw [if_pos hruns, htotal]
        -- `k` for handing the part over, `b` for the rounds after it, and the rest of the chunks.
        refine .bind (hafter _).attempt fun r hr => ?_
        cases r with
        | error e => exact .of_quiet (.yield hp _)
        | ok next => exact .bind (hfollow next (hr next rfl)) fun _ _ => ih _
      · rw [if_neg hruns]
        have hle : asks rest * (k + b) ≤ asks (.ok chunk :: rest) * (k + b) := by
          rw [hrest]
          exact Nat.mul_le_mul_right _ (Nat.le_add_right _ _)
        exact (Run.Bounded.quiet_bind (.yield hp _) fun _ _ => ih _).mono hle fun _ h => h

/-- **Rounds one inside another.** If a round keeps `J` of the prompt, and `B` allows for it and for
`w` times what its answer asks for, then a stream `left` rounds deep costs at most `B left`. -/
theorem streamRounds_bounded_of (hp : ActionKind p) {J : Nat → Prompt → Prop} {B : Nat → Nat}
    (hround : ∀ left prompt prepared, J (left + 1) prompt → m.prepare prompt true = .ok prepared →
      ∃ a k, m.retry.maxAttempts.toNat * a + w * (k + B left) ≤ B (left + 1) ∧
        [Effect.sent (m.client.chatRequest prepared.request)].countP p ≤ a ∧
        ∀ response, Run.Bounded p (Session.Answers (·.asks ≤ w)) k (J left)
          (prompt.afterTools response prepared.registry))
    (left : Nat) {prompt : Prompt} (hprompt : J left prompt) :
    Run.Bounded p (Session.Answers (·.asks ≤ w)) (B left) (fun _ => True)
      (m.streamRounds left prompt) := by
  induction left generalizing prompt with
  | zero => exact .of_quiet (.yield hp _)
  | succ left ih =>
    unfold streamRounds
    split
    · exact .of_quiet (.yield hp _)
    · next prepared hprepared =>
      obtain ⟨a, k, hle, hsent, hafter⟩ := hround left prompt prepared hprompt hprepared
      have hstream := Run.Bounded.stream (Answer.unscripted_asks w) hsent
      refine .watch hp.unreported _ _ ((Run.Bounded.bind
        (.attempt (.execute hp.unreported _ hstream)) fun r hr => ?_).mono hle fun _ h => h)
      cases r with
      | error e => exact .of_quiet (.yield hp _)
      | ok chunks =>
        -- However many attempts there were, the chunks are those of one answer.
        obtain ⟨status, pieces, breaksOff, hw, hsuccess, rfl⟩ := hr _ rfl
        have hasks : asks (Client.chunks pieces breaksOff) ≤ w := by
          simpa [Answer.asks, hsuccess] using hw
        exact (relay_bounded hp hafter (fun next hnext => ih hnext) _ _).mono
          (Nat.mul_le_mul_right _ hasks) fun _ h => h

/-- A stream whose answers ask for tools at most `w` times each. -/
theorem streamRounds_bounded (hp : ToolKind p) (hcost : RoundCost p (m.toolsFor o) k)
    (left : Nat) (prompt : Prompt) (ho : prompt.options = o) :
    Run.Bounded p (Session.Answers (·.asks ≤ w)) (k * nestedRounds w left) (fun _ => True)
      (m.streamRounds left prompt) := by
  refine streamRounds_bounded_of hp.actionKind (J := fun _ prompt => prompt.options = o)
    (B := fun left => k * nestedRounds w left)
    (fun left prompt prepared ho hprepared => ⟨0, k, ?_, ?_, fun response => ?_⟩) left ho
  · have hround : k + k * nestedRounds w left = k * (1 + nestedRounds w left) := by
      rw [Nat.mul_add, Nat.mul_one]
    refine Nat.le_of_eq ?_
    rw [Nat.mul_zero, Nat.zero_add, hround, nestedRounds, Nat.mul_left_comm k w]
  · exact Nat.le_of_eq (hp.countP_sent _)
  · rw [prepare_registry hprepared, ho]
    refine (Run.Bounded.afterTools hcost prompt response).mono (Nat.le_refl k) ?_
    rintro _ ⟨turn, rfl⟩
    exact ho

/-- A consumer who wants no items makes nothing happen. -/
theorem stream_bounded_of {I : Session → Prop} {prompt : Prompt}
    (h : Run.Bounded p I b (fun _ => True) (m.streamRounds maxRounds prompt)) :
    Run.Bounded p I b (fun _ => True) (m.stream prompt) := by
  intro s hs
  unfold stream
  split
  · exact ⟨Nat.zero_le _, hs, fun _ _ => trivial⟩
  · exact h s hs

/-- **Streams.** A stream is bounded by the cost of a round and the number of rounds inside it. -/
theorem stream_bounded (hp : ToolKind p) (prompt : Prompt)
    (hcost : RoundCost p (m.toolsFor prompt.options) k) :
    Run.Bounded p (Session.Answers (·.asks ≤ w)) (k * nestedRounds w maxRounds) (fun _ => True)
      (m.stream prompt) :=
  stream_bounded_of (streamRounds_bounded hp hcost maxRounds prompt rfl)

/-! ## Prompts whose tool calls are not run -/

/-- The model sends the prompt and runs the tools that the answers call. -/
def RunsTools (m : ChatModel) (prompt : Prompt) : Prop :=
  m.retry.maxAttempts ≠ 0 ∧
    ∃ prepared, m.prepare prompt false = .ok prepared ∧ prepared.proxiesToolCalls = false

/-- A prompt that can be prepared, whole or streamed, and does not proxy its calls has its tools
run. -/
theorem RunsTools.of_prepare {prompt : Prompt} {stream : Bool} {prepared : PreparedRequest}
    (hattempts : m.retry.maxAttempts ≠ 0) (h : m.prepare prompt stream = .ok prepared)
    (hproxies : prepared.proxiesToolCalls = false) : m.RunsTools prompt := by
  obtain ⟨wire, tools, hwire, htools, rfl⟩ := prepare_eq_ok_iff.1 h
  exact ⟨hattempts, _, prepare_eq_ok_iff.2 ⟨wire, tools, hwire, htools, rfl⟩, hproxies⟩

/-- The chunks of a prompt that proxies its calls are relayed without any follow-up. -/
theorem relay_of_proxies (hp : ToolKind p) {prompt : Prompt} {prepared : PreparedRequest}
    (hproxies : prepared.proxiesToolCalls = true) {followUp : Prompt → Run Session Unit}
    (roles : ChatResponse.Roles) (chunks : List (Except Error Wire.Chunk)) :
    Run.Bounded p (Session.Answers P) 0 (fun _ => True)
      (relay prompt prepared followUp roles chunks) := by
  induction chunks generalizing roles with
  | nil => exact .pure trivial
  | cons chunk rest ih =>
    cases chunk with
    | error e => exact .yield hp.actionKind _
    | ok chunk =>
      unfold relay
      simp only [runsTools, hproxies]
      exact .quiet_bind (.yield hp.actionKind _) fun _ _ => ih _

/-- A call of a prompt whose tools are not run leaves nothing of their kind. -/
theorem call_of_not_runsTools (hp : ToolKind p) (hP : Answer.Unscripted P) {prompt : Prompt}
    (h : ¬m.RunsTools prompt) :
    Run.Bounded p (Session.Answers P) 0 (fun _ => True) (m.call prompt) := by
  rw [call, maxRounds_eq, callRounds]
  refine .quiet_bind (.ofExcept fun prepared hprepared => hprepared) fun prepared hprepared => ?_
  by_cases hattempts : m.retry.maxAttempts = 0
  · have hrespond : Run.Bounded p (Session.Answers P) 0 (fun _ => False) (m.respond prepared) := by
      unfold respond
      rw [RetryPolicy.execute_of_zero hattempts]
      exact .observe hp.actionKind.unreported _ _ _
        (.quiet_bind (Q := fun _ => False) (.fail _) fun _ h => h.elim)
    exact .quiet_bind hrespond fun _ h => h.elim
  · have hproxies : prepared.proxiesToolCalls = true :=
      eq_true_of_ne_false fun hfalse => h (.of_prepare hattempts hprepared hfalse)
    refine .quiet_bind (respond_quiet hp hP prepared) fun response _ => ?_
    simp only [runsTools, hproxies]
    exact .pure trivial

/-- A stream of a prompt whose tools are not run leaves nothing of their kind. -/
theorem stream_of_not_runsTools (hp : ToolKind p) {prompt : Prompt} (h : ¬m.RunsTools prompt) :
    Run.Bounded p (Session.Answers (·.asks ≤ w)) 0 (fun _ => True) (m.stream prompt) := by
  refine stream_bounded_of ?_
  rw [maxRounds_eq, streamRounds]
  split
  · exact .yield hp.actionKind _
  · next prepared hprepared =>
    refine .watch hp.actionKind.unreported _ _ ?_
    by_cases hattempts : m.retry.maxAttempts = 0
    · rw [RetryPolicy.execute_of_zero hattempts]
      refine .quiet_bind (.attempt (Q := fun _ => False) (.fail _)) fun r hr => ?_
      cases r with
      | error e => exact .yield hp.actionKind _
      | ok chunks => exact (hr chunks rfl).elim
    · have hproxies : prepared.proxiesToolCalls = true :=
        eq_true_of_ne_false fun hfalse => h (.of_prepare hattempts hprepared hfalse)
      have hstream := Run.Bounded.stream (n := 0) (Answer.unscripted_asks w)
        (Nat.le_of_eq (hp.countP_sent (m.client.chatRequest prepared.request)))
      have hexecute := Run.Bounded.execute_quiet hp.actionKind.unreported m.retry hstream
      refine .quiet_bind (.attempt hexecute) fun r _ => ?_
      cases r with
      | error e => exact .yield hp.actionKind _
      | ok chunks => exact relay_of_proxies hp hproxies _ _

end ChatModel

end ModelClient
