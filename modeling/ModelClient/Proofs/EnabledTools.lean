import ModelClient.Proofs.EventLines
import ModelClient.Proofs.ToolRounds

/-!
# Which tools are run

A prompt enables tools: those that its options name, those that it brings along, and those that the
model's own options name. Only these are offered to the service. But the tools that an answer calls
are looked up among all that are registered with the model, so a tool that is registered and not
enabled is run when the service calls it by its name all the same.

## Main statements

* `ChatModel.executes_exactly`: every tool that is run is enabled or registered, and only enabled
  tools are run exactly if every registered tool is enabled, or the model runs no tools for the
  prompt at all.
-/

namespace ModelClient

open Json

/-! ## Registries -/

namespace ToolRegistry

/-- A tool that is registered replaces the tool of its name, and no other one. -/
theorem get?_register (r : ToolRegistry) (t : Tool) (name : String) :
    (r.register t).get? name = if name = t.name then some t else r.get? name :=
  r.get?_insert t.name name t

/-- A tool that is found after some were registered is one of them or was there before. -/
theorem get?_registerAll {r : ToolRegistry} {tools : List Tool} {name : String} {t : Tool}
    (h : (r.registerAll tools).get? name = some t) :
    (t ∈ tools ∧ t.name = name) ∨ r.get? name = some t := by
  induction tools generalizing r with
  | nil => exact .inr h
  | cons first rest ih =>
    rcases ih h with ⟨hrest, hname⟩ | hfirst
    · exact .inl ⟨List.mem_cons_of_mem _ hrest, hname⟩
    · rw [get?_register] at hfirst
      split at hfirst
      · next hname =>
        cases hfirst
        exact .inl ⟨List.mem_cons_self, hname.symm⟩
      · exact .inr hfirst

/-- Registering tools of other names leaves the one of a name as it is. -/
theorem get?_registerAll_of_ne {r : ToolRegistry} {tools : List Tool} {name : String}
    (h : ∀ t ∈ tools, t.name ≠ name) : (r.registerAll tools).get? name = r.get? name := by
  induction tools generalizing r with
  | nil => rfl
  | cons first rest ih =>
    have hfirst : name ≠ first.name := fun heq => h first List.mem_cons_self heq.symm
    show (registerAll (r.register first) rest).get? name = _
    rw [ih fun t ht => h t (List.mem_cons_of_mem _ ht), get?_register, if_neg hfirst]

/-- Every tool is registered under its own name. -/
def Keyed (r : ToolRegistry) : Prop := ∀ name t, r.get? name = some t → t.name = name

/-- Registering tools keeps every tool under its own name. -/
theorem Keyed.registerAll {r : ToolRegistry} (h : r.Keyed) (tools : List Tool) :
    (r.registerAll tools).Keyed := by
  intro name t ht
  rcases get?_registerAll ht with ⟨-, hname⟩ | hbefore
  · exact hname
  · exact h name t hbefore

end ToolRegistry

/-! ## Models as they are set up -/

/-- A step in setting up a model. -/
inductive Setting where
  | options (options : ChatLayer)
  | tools (tools : List Tool)
  | retry (policy : RetryPolicy)
  | observer (observer : Observer)

namespace ChatModel

/-- The model after one more step. -/
def configure (m : ChatModel) : Setting → ChatModel
  | .options options => m.withOptions options
  | .tools tools => m.withTools tools
  | .retry retry => { m with retry }
  | .observer observer => { m with observer }

/-- The model of a client after some steps. -/
def configured (client : Client) (settings : List Setting) : ChatModel :=
  settings.foldl configure (ofClient client)

/-- However a model is set up, its tools are registered under their names. -/
theorem configured_keyed (client : Client) (settings : List Setting) :
    (configured client settings).registry.Keyed := by
  have hall : ∀ (settings : List Setting) (m : ChatModel), m.registry.Keyed →
      (settings.foldl configure m).registry.Keyed := by
    intro settings
    induction settings with
    | nil => exact fun _ h => h
    | cons setting rest ih =>
      intro m h
      refine ih _ ?_
      cases setting with
      | options options => exact h.registerAll _
      | tools tools => exact h.registerAll _
      | retry _ => exact h
      | observer _ => exact h
  exact hall settings (ofClient client) fun _ _ h => by cases h

/-- The tool of a name is among those that a prompt enables: its options name it or bring it along,
or the model's options name it. -/
def Enables (m : ChatModel) (prompt : Prompt) (name : String) : Prop :=
  (∃ o, prompt.options = some o ∧ (name ∈ o.functions.names ∨ ∃ t ∈ o.tools, t.name = name)) ∨
    name ∈ m.defaults.functions.names

/-- A tool of the name is registered with the model. -/
def Registers (m : ChatModel) (name : String) : Prop := ∃ t, m.registry.get? name = some t

/-- A call or a stream of the prompt runs a tool of the name. -/
def Executes (m : ChatModel) (prompt : Prompt) (s : Session) (name : String) : Prop :=
  ∃ arguments, .ran name arguments ∈ (m.call prompt s).effects ∨
    .ran name arguments ∈ (m.stream prompt s).effects

/-! ## Tools that may be run -/

/-- Whether the effect is the run of a tool whose name is not in `allowed`. -/
noncomputable def ranBeyond (allowed : String → Prop) : Effect → Bool :=
  open Classical in fun
  | .ran name _ => decide (¬allowed name)
  | _ => false

/-- Running a tool concerns tools. -/
theorem toolKind_ranBeyond (allowed : String → Prop) : ToolKind (ranBeyond allowed) := by
  intro e he
  cases e <;> first | rfl | cases he

/-- If no effect counts, every tool that was run is allowed. -/
theorem allowed_of_ran {allowed : String → Prop} {es : List Effect}
    (h : es.countP (ranBeyond allowed) ≤ 0) {name : String} {arguments : Json}
    (hran : .ran name arguments ∈ es) : allowed name := by
  have hnone := List.countP_eq_zero.1 (Nat.le_zero.1 h) _ hran
  simpa [ranBeyond] using hnone

/-- What the model looks up is enabled by the prompt or registered with the model. -/
theorem roundCost_ranBeyond {m : ChatModel} (hm : m.registry.Keyed) (prompt : Prompt) :
    RoundCost (ranBeyond fun name => m.Enables prompt name ∨ m.Registers name)
      (m.toolsFor prompt.options) 0 := by
  refine ⟨fun _ => Nat.le_refl 0, fun name t arguments ht => ?_⟩
  have hallowed : m.Enables prompt t.name ∨ m.Registers t.name := by
    unfold toolsFor at ht
    rcases ToolRegistry.get?_registerAll ht with ⟨hmem, -⟩ | hregistered
    · cases ho : prompt.options with
      | none =>
        rw [ho] at hmem
        cases hmem
      | some o =>
        rw [ho] at hmem
        exact .inl (.inl ⟨o, ho, .inr ⟨t, hmem, rfl⟩⟩)
    · rw [hm name t hregistered]
      exact .inr ⟨t, hregistered⟩
  simp [ranBeyond, hallowed]

/-- A tool that is run is enabled by the prompt or registered with the model. -/
theorem executes_enabled_or_registered {m : ChatModel} (hm : m.registry.Keyed) {prompt : Prompt}
    {s : Session} {name : String} (h : m.Executes prompt s name) :
    m.Enables prompt name ∨ m.Registers name := by
  have hkind := toolKind_ranBeyond fun name => m.Enables prompt name ∨ m.Registers name
  have hcost := roundCost_ranBeyond hm prompt
  obtain ⟨arguments, hcall | hstream⟩ := h
  · have hbound := callRounds_bounded hkind (Answer.unscripted_asks s.mostAsks) hcost maxRounds
      prompt rfl s s.answers_mostAsks
    exact allowed_of_ran hbound.count hcall
  · have hbound := stream_bounded hkind prompt hcost s s.answers_mostAsks
    rw [Nat.zero_mul] at hbound
    exact allowed_of_ran hbound.count hstream

end ChatModel

/-! ## A service that calls any tool -/

namespace Calling

/-- The body of an answer that calls the tool of a name. -/
def body (name : String) : Json :=
  .obj [("choices", .arr [.obj [
    ("finish_reason", .str "tool_calls"),
    ("message", .obj [("tool_calls", .arr [.obj [("function", .obj [("name", .str name)])]])])]])]

/-- The completion that calls the tool of a name. -/
def completion (name : String) : Wire.Completion :=
  { choices := [{
      finishReason := some .toolCalls
      index := none
      message := { toolCalls := some [{ function := some { name := some name } }] }
      logprobs := none }] }

/-- A service that calls the tool of a name whatever it is asked. -/
def session (name : String) : Session :=
  { service := .script [.reply 200 [Text.encode (body name).render] false] }

/-- The body is read as the completion. -/
theorem readBody_body (name : String) :
    Client.readBody Wire.Completion.decode 200 [Text.encode (body name).render] false =
      .ok (some (completion name)) := by
  have hbody : (body name).ReadsBack := .of_isPlain rfl
  have hvalue : Wire.Completion.decode (body name).toDoc = some (completion name) := rfl
  exact Client.readBody_render hbody hvalue rfl

end Calling

namespace ChatModel

/-- The service's answer reaches the model. -/
theorem respond_calling {m : ChatModel} (hattempts : m.retry.maxAttempts ≠ 0)
    {prepared : PreparedRequest} (hstream : prepared.request.stream = false) (name : String) :
    ∃ es, m.respond prepared (Calling.session name) =
      ⟨es, Calling.session name, .ok (.ofCompletion (Calling.completion name))⟩ := by
  obtain ⟨sent, hsent⟩ := Client.complete_of_readBody (s := Calling.session name) rfl rfl
    (Calling.readBody_body name) m.client hstream
  obtain ⟨told, htold⟩ := RetryPolicy.execute_of_ok m.retry hattempts hsent
  exact observe_of_ok _ _ _ (Run.bind_eq_of_ok htold rfl)

end ChatModel

namespace Calling

/-- A call without arguments runs the tool on an empty object. -/
theorem ran_mem_call {σ : Type} (t : Tool) {text : String} (h : Text.isBlank text = true) (s : σ) :
    .ran t.name (.obj []) ∈ (t.call text s).effects := by
  have harguments : (Run.ofExcept (t.arguments text) : Run σ Json) s = ⟨[], s, .ok (.obj [])⟩ := by
    rw [Tool.arguments, if_pos h]
    rfl
  rw [Tool.call, Run.bind_of_ok harguments]
  exact List.mem_append_right [] (Run.mem_bind_of_mem List.mem_cons_self _)

/-- The first tool that a response calls is run if it is found. -/
theorem ran_mem_afterTools {σ : Type} {registry : ToolRegistry} {response : ChatResponse}
    {message : AssistantMessage} {call : ToolCall} {rest : List ToolCall} {t : Tool}
    (hmessage : response.callingMessage? = some message) (hcalls : message.toolCalls = call :: rest)
    (harguments : Text.isBlank call.arguments = true) (ht : registry.get? call.name = some t)
    (prompt : Prompt) (s : σ) :
    .ran t.name (.obj []) ∈ (prompt.afterTools response registry s).effects := by
  have hanswer : .ran t.name (.obj []) ∈
      ((registry.answer call : Run σ ToolResponse) s).effects := by
    simp only [ToolRegistry.answer, ht]
    exact Run.mem_bind_of_mem (ran_mem_call t harguments s) _
  have hanswers : .ran t.name (.obj []) ∈
      ((registry.answerAll message.toolCalls : Run σ (List ToolResponse)) s).effects := by
    rw [hcalls, ToolRegistry.answerAll]
    exact Run.mem_bind_of_mem hanswer _
  have hemit : (Run.emit (.delegated response) : Run σ Unit) s =
      ⟨[.delegated response], s, .ok ()⟩ := rfl
  rw [Prompt.afterTools, Run.bind_of_ok hemit]
  simp only [hmessage]
  exact List.mem_append_right _ (Run.mem_bind_of_mem hanswers _)

end Calling

namespace ChatModel

/-- A tool that is registered and not enabled is run if the service calls it. -/
theorem executes_of_registers {m : ChatModel} (hm : m.registry.Keyed) {prompt : Prompt}
    (hruns : m.RunsTools prompt) {name : String} (hregisters : m.Registers name)
    (hnot : ¬m.Enables prompt name) : m.Executes prompt (Calling.session name) name := by
  obtain ⟨hattempts, prepared, hprepared, hproxies⟩ := hruns
  obtain ⟨t, ht⟩ := hregisters
  have hfound : prepared.registry.get? name = some t := by
    rw [prepare_registry hprepared, toolsFor, ToolRegistry.get?_registerAll_of_ne, ht]
    -- A tool of the same name that the prompt brings along would enable the name.
    intro other hother heq
    cases ho : prompt.options with
    | none =>
      rw [ho] at hother
      cases hother
    | some o =>
      rw [ho] at hother
      exact hnot (.inl ⟨o, ho, .inr ⟨other, hother, heq⟩⟩)
  obtain ⟨es, hes⟩ := respond_calling hattempts (prepare_stream hprepared) name
  have hcalls : runsTools prepared (.ofCompletion (Calling.completion name)) = true := by
    have hreason : toolReasons.any (equalIgnoringCase · "tool_calls") = true := by decide
    rw [runsTools, hproxies]
    show (!false && (true && toolReasons.any (equalIgnoringCase · "tool_calls") || false)) = true
    rw [hreason]
    rfl
  have hprepare : (Run.ofExcept (m.prepare prompt false) : Run Session PreparedRequest)
      (Calling.session name) = ⟨[], Calling.session name, .ok prepared⟩ := by
    rw [hprepared]
    rfl
  have hmessage : (ChatResponse.ofCompletion (Calling.completion name)).callingMessage? =
      some (Generation.ofChoice _ "" "").output := rfl
  have hran := Calling.ran_mem_afterTools hmessage rfl rfl hfound prompt (Calling.session name)
  rw [hm name t ht] at hran
  refine ⟨.obj [], .inl ?_⟩
  -- The first round runs the tool, whatever becomes of the rounds after it.
  rw [call, maxRounds_eq, callRounds, Run.bind_of_ok hprepare, Run.bind_of_ok hes]
  simp only [hcalls, if_true]
  exact List.mem_append_right _ (List.mem_append_right _ (Run.mem_bind_of_mem hran _))

/-- Where the tools of a prompt are not run, no tool is. -/
theorem not_executes_of_not_runsTools {m : ChatModel} {prompt : Prompt} (h : ¬m.RunsTools prompt)
    {s : Session} {name : String} : ¬m.Executes prompt s name := by
  have hkind := toolKind_ranBeyond fun _ => False
  rintro ⟨arguments, hcall | hstream⟩
  · have hbound := call_of_not_runsTools hkind (Answer.unscripted_asks s.mostAsks) h s
      s.answers_mostAsks
    exact allowed_of_ran hbound.count hcall
  · have hbound := stream_of_not_runsTools hkind h s s.answers_mostAsks
    exact allowed_of_ran hbound.count hstream

/-- **Which tools are run.** Every tool that a call or a stream runs is enabled by the prompt or
registered with the model. Only enabled tools are run, whatever the service answers, exactly if the
model runs no tools for the prompt or every registered tool is enabled. -/
theorem executes_exactly (client : Client) (settings : List Setting) (prompt : Prompt) :
    (∀ s name, (configured client settings).Executes prompt s name →
      (configured client settings).Enables prompt name ∨
        (configured client settings).Registers name) ∧
    ((∀ s name, (configured client settings).Executes prompt s name →
      (configured client settings).Enables prompt name) ↔
      ((configured client settings).RunsTools prompt →
        ∀ name, (configured client settings).Registers name →
          (configured client settings).Enables prompt name)) := by
  have hkeyed := configured_keyed client settings
  generalize configured client settings = m at hkeyed ⊢
  refine ⟨fun s name h => executes_enabled_or_registered hkeyed h,
    fun h hruns name hregisters => ?_, fun h s name hexecutes => ?_⟩
  · refine Classical.byContradiction fun hnot => hnot ?_
    exact h _ name (executes_of_registers hkeyed hruns hregisters hnot)
  · by_cases hruns : m.RunsTools prompt
    · rcases executes_enabled_or_registered hkeyed hexecutes with henables | hregisters
      · exact henables
      · exact h hruns name hregisters
    · exact (not_executes_of_not_runsTools hruns hexecutes).elim

end ChatModel

/-! ## A tool that no prompt enables -/

namespace Calling

/-- A model with a tool that is registered and not enabled. -/
def model : ChatModel :=
  (ChatModel.ofClient .keyless).withTools [Tool.echo "secret"]

end Calling

/-- A prompt without options enables nothing, and yet the registered tool is run. -/
theorem ChatModel.executes_secret :
    Calling.model.Executes (.ofText "Hello") (Calling.session "secret") "secret" ∧
      ¬Calling.model.Enables (.ofText "Hello") "secret" := by
  have hnot : ¬Calling.model.Enables (.ofText "Hello") "secret" := by
    rintro (⟨o, ho, -⟩ | h)
    · cases ho
    · cases h
  have hkeyed : Calling.model.registry.Keyed :=
    configured_keyed .keyless [.tools [Tool.echo "secret"]]
  have hruns : Calling.model.RunsTools (.ofText "Hello") := ⟨by decide, _, rfl, rfl⟩
  exact ⟨executes_of_registers hkeyed hruns ⟨Tool.echo "secret", rfl⟩ hnot, hnot⟩

end ModelClient
