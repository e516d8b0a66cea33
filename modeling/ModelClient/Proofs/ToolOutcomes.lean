import ModelClient.Proofs.ToolAnswers

/-!
# What becomes of a response that asks for tools

A response that is handed over to the tools of a registry has its calls answered one after the
other, up to the first one that fails. The calls that count are those of the first generation that
has any (`ChatResponse.CallsFirst`).

`Prompt.Continues` lists the ways in which this ends, with the tools that have run until then: there
are no calls, one of them fails after those before it have been answered, or all are answered and
the conversation goes on. It says nothing about how the tools are looked up and run, and every
hand-over ends in one of its ways.

## Main statements

* `Prompt.afterTools_eq_iff`: what handing a response over does and gives.
-/

namespace ModelClient

/-- A message has tool calls unless there are none. -/
theorem AssistantMessage.hasToolCalls_eq_false_iff {m : AssistantMessage} :
    m.hasToolCalls = false ↔ m.toolCalls = [] := by
  simp [hasToolCalls]

namespace ChatResponse

open AssistantMessage (hasToolCalls_eq_false_iff)

/-- The message is that of the first generation that has tool calls. -/
def CallsFirst (r : ChatResponse) (message : AssistantMessage) : Prop :=
  ∃ before g after, r.generations = before ++ g :: after ∧
    (∀ b ∈ before, b.output.toolCalls = []) ∧ g.output = message ∧ message.toolCalls ≠ []

/-- The message that is answered is that of the first generation with tool calls. -/
theorem callingMessage?_eq_some_iff {r : ChatResponse} {message : AssistantMessage} :
    r.callingMessage? = some message ↔ r.CallsFirst message := by
  have hcalls : message.hasToolCalls = true ↔ message.toolCalls ≠ [] := by
    rw [ne_eq, ← hasToolCalls_eq_false_iff, Bool.not_eq_false]
  rw [callingMessage?, List.find?_eq_some_iff_append, hcalls]
  constructor
  · rintro ⟨hmessage, before, after, hgenerations, hbefore⟩
    obtain ⟨first, rest, hsplit, rfl, hrest⟩ := List.map_eq_append_iff.1 hgenerations
    obtain ⟨g, last, rfl, hg, rfl⟩ := List.map_eq_cons_iff.1 hrest
    refine ⟨first, g, last, hsplit, fun b hb => hasToolCalls_eq_false_iff.1 ?_, hg, hmessage⟩
    simpa using hbefore _ (List.mem_map_of_mem hb)
  · rintro ⟨before, g, after, hgenerations, hbefore, rfl, hmessage⟩
    refine ⟨hmessage, before.map Generation.output, after.map Generation.output, ?_, ?_⟩
    · rw [hgenerations, List.map_append, List.map_cons]
    · intro m hm
      obtain ⟨b, hb, rfl⟩ := List.mem_map.1 hm
      rw [Bool.not_eq_true']
      exact hasToolCalls_eq_false_iff.2 (hbefore b hb)

/-- No message is answered if no generation has tool calls. -/
theorem callingMessage?_eq_none_iff {r : ChatResponse} :
    r.callingMessage? = none ↔ ∀ g ∈ r.generations, g.output.toolCalls = [] := by
  simp [callingMessage?, hasToolCalls_eq_false_iff]

end ChatResponse

namespace Prompt

variable {σ : Type} {registry : ToolRegistry} {p : Prompt} {response : ChatResponse}

/-- The ways in which handing a response over to the tools of a registry ends: the tools that have
run, and the prompt that goes on or the error. -/
inductive Continues (registry : ToolRegistry) (p : Prompt) (response : ChatResponse) :
    List Effect → Except Error Prompt → Prop
  /-- No generation has tool calls. -/
  | uncalled (uncalled : ∀ g ∈ response.generations, g.output.toolCalls = []) :
      Continues registry p response []
        (.error (.invalidState "No tool call requested by the chat model"))
  /-- A call fails. Those before it have been answered, and those after it are left alone. -/
  | failed {message before call after runs failing e} (first : response.CallsFirst message)
      (calls : message.toolCalls = before ++ call :: after)
      (ran : List.Forall₂ registry.Runs before runs) (fails : registry.Fails call failing e) :
      Continues registry p response (runs.map ToolRun.effect ++ failing) (.error e)
  /-- All calls are answered. -/
  | answered {message runs} (first : response.CallsFirst message)
      (ran : List.Forall₂ registry.Runs message.toolCalls runs) :
      Continues registry p response (runs.map ToolRun.effect)
        (.ok { p with
          messages := p.messages ++ [.assistant message, .tool (runs.map ToolRun.response)] })

/-- A hand-over ends in one of the ways. -/
theorem exists_continues (registry : ToolRegistry) (p : Prompt) (response : ChatResponse) :
    ∃ done result, Continues registry p response done result := by
  cases hmessage : response.callingMessage? with
  | none => exact ⟨_, _, .uncalled (ChatResponse.callingMessage?_eq_none_iff.1 hmessage)⟩
  | some message =>
    have hfirst := ChatResponse.callingMessage?_eq_some_iff.1 hmessage
    rcases registry.runs_or_fails message.toolCalls with
      ⟨runs, hruns⟩ | ⟨before, call, after, runs, failing, e, hcalls, hbefore, hfails⟩
    · exact ⟨_, _, .answered hfirst hruns⟩
    · exact ⟨_, _, .failed hfirst hcalls hbefore hfails⟩

/-- What a hand-over does and gives is what its ending says, and the state stays as it is. -/
theorem afterTools_of_continues {done : List Effect} {result : Except Error Prompt}
    (h : Continues registry p response done result) (s : σ) :
    p.afterTools response registry s =
      ⟨.delegated response :: done, s, result.mapError .error⟩ := by
  cases h with
  | uncalled huncalled =>
    rw [afterTools, Run.emit_bind, ChatResponse.callingMessage?_eq_none_iff.2 huncalled]
    rfl
  | failed hfirst hcalls hbefore hfails =>
    exact afterTools_of_fails (ChatResponse.callingMessage?_eq_some_iff.2 hfirst) hcalls hbefore
      hfails p s
  | answered hfirst hruns =>
    exact afterTools_of_runs (ChatResponse.callingMessage?_eq_some_iff.2 hfirst) hruns p s

/-- **Handing a response over to its tools.** It fails without running anything if no generation has
tool calls. Otherwise the calls of the first generation that has any are answered in order up to the
first one that fails, which has run its tool only if there is one and its arguments could be read;
if none fails, the conversation goes on with the message and one result for each of its calls, under
the call's id and name. Nothing else is done, and nothing else can come of it. -/
theorem afterTools_eq_iff (p : Prompt) (response : ChatResponse) (registry : ToolRegistry)
    (s t : σ) (effects : List Effect) (value : Except Stop Prompt) :
    p.afterTools response registry s = ⟨effects, t, value⟩ ↔
      t = s ∧ ∃ done result, Continues registry p response done result ∧
        effects = .delegated response :: done ∧ value = result.mapError .error := by
  constructor
  · intro h
    obtain ⟨done, result, hends⟩ := exists_continues registry p response
    rw [afterTools_of_continues hends] at h
    cases h
    exact ⟨rfl, done, result, hends, rfl, rfl⟩
  · rintro ⟨rfl, done, result, hends, rfl, rfl⟩
    exact afterTools_of_continues hends t

end Prompt

namespace Answered

/-- A tool whose result is a string. -/
def greet : Tool :=
  { name := "greet"
    description := ""
    schema := .obj []
    run := fun _ => .ok (.str "Say \"hi\"") }

/-- A tool whose result is an object. -/
def count : Tool :=
  { name := "count"
    description := ""
    schema := .obj []
    run := fun arguments => .ok (.obj
      [("given", arguments), ("share", .float (.ofFraction false 1 2)), ("total", .nat 2)]) }

/-- Both tools. -/
def registry : ToolRegistry := .registerAll {} [greet, count]

/-- A message that calls the second tool and then the first one. -/
def message : AssistantMessage :=
  { toolCalls := [⟨"1", "function", "count", "[7, null]"⟩, ⟨"2", "function", "greet", " "⟩] }

/-- A response with the message. -/
def response : ChatResponse := { generations := [{ output := message }] }

/-- The runs of the two calls. The string goes back without quotes, the object in its compact text.
-/
def runs : List ToolRun :=
  [⟨"count", .arr [.nat 7, .null],
      ⟨"1", "count", "\x7b\"given\":[7,null],\"share\":0.5,\"total\":2\x7d"⟩⟩,
    ⟨"greet", .obj [], ⟨"2", "greet", "Say \"hi\""⟩⟩]

/-- Both calls are run. -/
theorem runs_message : List.Forall₂ registry.Runs message.toolCalls runs := by
  have hread : ToolCall.argumentValue? ⟨"1", "function", "count", "[7, null]"⟩ =
      some (.arr [.nat 7, .null]) := by decide
  have htext : Json.shown (.obj [("given", .arr [.nat 7, .null]),
      ("share", .float (.ofFraction false 1 2)), ("total", .nat 2)]) =
      "\x7b\"given\":[7,null],\"share\":0.5,\"total\":2\x7d" := by decide
  have hcount := ToolRegistry.Runs.intro count _ _ (r := registry) rfl hread rfl
  rw [htext] at hcount
  exact .cons hcount (.cons (.intro greet (.obj []) (.str "Say \"hi\"") rfl (by decide) rfl) .nil)

end Answered

open Answered in
/-- Two calls are answered, one with an object and one with a string. -/
theorem Prompt.afterTools_eq_iff_texts :
    (Prompt.ofText "Hello").afterTools response registry () =
      ⟨[.delegated response, .ran "count" (.arr [.nat 7, .null]), .ran "greet" (.obj [])], (),
        .ok { messages := [.user "Hello" [], .assistant message,
          .tool [⟨"1", "count", "\x7b\"given\":[7,null],\"share\":0.5,\"total\":2\x7d"⟩,
            ⟨"2", "greet", "Say \"hi\""⟩]] }⟩ := by
  have hfirst : response.CallsFirst message :=
    ⟨[], ⟨message, {}⟩, [], rfl, nofun, rfl, List.cons_ne_nil _ _⟩
  exact (afterTools_eq_iff (.ofText "Hello") response registry () () _ _).2
    ⟨rfl, _, _, .answered hfirst runs_message, rfl, rfl⟩

end ModelClient
