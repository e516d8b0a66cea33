import Mathlib.Data.List.Forall2
import ModelClient.Proofs.CompactTexts
import ModelClient.Proofs.Runs

/-!
# Answering tool calls

The calls of a message are answered one after the other. `ToolRegistry.Runs` says what the run of
one call is and `ToolRegistry.Fails` in which ways a call can fail: no tool has its name, its
arguments cannot be read, or the tool itself fails. Either all calls are run, or those before the
first one that fails (`ToolRegistry.runs_or_fails`); either way nothing else happens.
-/

namespace ModelClient

open Json

/-- One run of a tool: its name and arguments as they are recorded, and its result. -/
structure ToolRun where
  tool : String
  arguments : Json
  response : ToolResponse

/-- The effect of running a tool. -/
def ToolRun.effect (run : ToolRun) : Effect := .ran run.tool run.arguments

/-- The arguments of a call as JSON, if they can be read: blank text stands for no arguments. -/
def ToolCall.argumentValue? (call : ToolCall) : Option Json :=
  if Text.isBlank call.arguments then some (.obj []) else Json.ofString? call.arguments

/-- A tool is run on the arguments of a call if they can be read. -/
theorem Tool.arguments_eq_ok_iff {t : Tool} {call : ToolCall} {arguments : Json} :
    t.arguments call.arguments = .ok arguments ↔ call.argumentValue? = some arguments := by
  unfold Tool.arguments ToolCall.argumentValue?
  split
  · simp
  · cases Json.ofString? call.arguments <;> simp

/-- Arguments that cannot be read are an error of the tool. -/
theorem Tool.arguments_eq_error {t : Tool} {call : ToolCall} (h : call.argumentValue? = none) :
    t.arguments call.arguments = .error (.toolExecution t.name "invalid arguments") := by
  unfold ToolCall.argumentValue? at h
  unfold Tool.arguments
  split
  · next hblank =>
    rw [if_pos hblank] at h
    cases h
  · next hblank =>
    rw [if_neg hblank] at h
    rw [h]

namespace ToolRegistry

/-- `run` is the run of a call: the tool of the call's name has run on the call's arguments, and its
result goes back under the call's id and name. A string goes back as it is, any other result in its
compact text (`Json.shown`). -/
inductive Runs (r : ToolRegistry) (call : ToolCall) : ToolRun → Prop
  | intro (t : Tool) (arguments result : Json) (found : r.get? call.name = some t)
      (read : call.argumentValue? = some arguments) (ran : t.run arguments = .ok result) :
      Runs r call ⟨t.name, arguments, ⟨call.id, call.name, result.shown⟩⟩

/-- A call fails with an error, after some effects. Only a tool that itself fails has run. -/
inductive Fails (r : ToolRegistry) (call : ToolCall) : List Effect → Error → Prop
  | unknown (missing : r.get? call.name = none) :
      Fails r call []
        (.invalidState s!"No function callback found for function name: {call.name}")
  | illegible (t : Tool) (found : r.get? call.name = some t)
      (unread : call.argumentValue? = none) :
      Fails r call [] (.toolExecution t.name "invalid arguments")
  | failed (t : Tool) (arguments : Json) (e : Error) (found : r.get? call.name = some t)
      (read : call.argumentValue? = some arguments) (failed : t.run arguments = .error e) :
      Fails r call [.ran t.name arguments] e

variable {σ : Type} {r : ToolRegistry}

/-- A call is run or fails. -/
theorem exists_runs_or_fails (r : ToolRegistry) (call : ToolCall) :
    (∃ run, r.Runs call run) ∨ ∃ es e, r.Fails call es e := by
  cases hfound : r.get? call.name with
  | none => exact .inr ⟨_, _, .unknown hfound⟩
  | some t =>
    cases hread : call.argumentValue? with
    | none => exact .inr ⟨_, _, .illegible t hfound hread⟩
    | some arguments =>
      cases hran : t.run arguments with
      | error e => exact .inr ⟨_, _, .failed t arguments e hfound hread hran⟩
      | ok result => exact .inl ⟨_, .intro t arguments result hfound hread hran⟩

/-- A call that is run has one effect and is answered. -/
theorem answer_of_runs {call : ToolCall} {run : ToolRun} (h : r.Runs call run) (s : σ) :
    (r.answer call : Run σ ToolResponse) s = ⟨[run.effect], s, .ok run.response⟩ := by
  obtain ⟨t, arguments, result, hfound, hread, hran⟩ := h
  have harguments : t.arguments call.arguments = .ok arguments := Tool.arguments_eq_ok_iff.2 hread
  have hcall : (t.call call.arguments : Run σ String) s =
      ⟨[.ran t.name arguments], s, .ok result.shown⟩ := by
    rw [Tool.call, harguments, Run.ofExcept_ok_bind, Run.emit_bind, hran, ← result.plain_eq_shown]
    rfl
  rw [answer, hfound]
  exact Run.bind_eq_of_ok hcall rfl

/-- A call that fails has the effects and the error of its failure. -/
theorem answer_of_fails {call : ToolCall} {es : List Effect} {e : Error} (h : r.Fails call es e)
    (s : σ) : (r.answer call : Run σ ToolResponse) s = ⟨es, s, .error (.error e)⟩ := by
  rw [answer]
  cases h with
  | unknown hmissing =>
    rw [hmissing]
    rfl
  | illegible t hfound hunread =>
    rw [hfound]
    refine Run.bind_of_error ?_ _
    rw [Tool.call, Tool.arguments_eq_error hunread]
    rfl
  | failed t arguments e hfound hread hfailed =>
    have harguments : t.arguments call.arguments = .ok arguments :=
      Tool.arguments_eq_ok_iff.2 hread
    rw [hfound]
    refine Run.bind_of_error ?_ _
    rw [Tool.call, harguments, Run.ofExcept_ok_bind, Run.emit_bind, hfailed]
    rfl

/-- Calls that are all run leave their runs and nothing else. -/
theorem answerAll_of_runs {calls : List ToolCall} {runs : List ToolRun}
    (h : List.Forall₂ r.Runs calls runs) (s : σ) :
    (r.answerAll calls : Run σ (List ToolResponse)) s =
      ⟨runs.map ToolRun.effect, s, .ok (runs.map ToolRun.response)⟩ := by
  induction h with
  | nil => rfl
  | @cons call run calls runs hrun _ ih =>
    rw [answerAll, Run.bind_of_ok (answer_of_runs hrun s), Run.bind_of_ok ih]
    simp only [pure, Run.pure, List.append_nil]
    rfl

/-- Calls of which one fails: those before it are run, and nothing comes after the failure. -/
theorem answerAll_of_fails {before : List ToolCall} {runs : List ToolRun}
    (h : List.Forall₂ r.Runs before runs) {call : ToolCall} {es : List Effect} {e : Error}
    (hcall : r.Fails call es e) (after : List ToolCall) (s : σ) :
    (r.answerAll (before ++ call :: after) : Run σ (List ToolResponse)) s =
      ⟨runs.map ToolRun.effect ++ es, s, .error (.error e)⟩ := by
  induction h with
  | nil => exact Run.bind_of_error (answer_of_fails hcall s) _
  | @cons first run before runs hrun _ ih =>
    rw [List.cons_append, answerAll, Run.bind_of_ok (answer_of_runs hrun s), Run.bind_of_error ih]
    rfl

/-- Either all calls are run, or there is a first one that fails. -/
theorem runs_or_fails (r : ToolRegistry) (calls : List ToolCall) :
    (∃ runs, List.Forall₂ r.Runs calls runs) ∨
    ∃ before call after runs es e, calls = before ++ call :: after ∧
      List.Forall₂ r.Runs before runs ∧ r.Fails call es e := by
  induction calls with
  | nil => exact .inl ⟨[], .nil⟩
  | cons first rest ih =>
    rcases r.exists_runs_or_fails first with ⟨run, hrun⟩ | ⟨es, e, hfails⟩
    · rcases ih with ⟨runs, hruns⟩ | ⟨before, call, after, runs, es, e, rfl, hruns, hfails⟩
      · exact .inl ⟨run :: runs, .cons hrun hruns⟩
      · exact .inr ⟨first :: before, call, after, run :: runs, es, e, rfl, .cons hrun hruns, hfails⟩
    · exact .inr ⟨[], first, rest, [], es, e, rfl, .nil, hfails⟩

end ToolRegistry

/-! ## Answering a response -/

/-- A response that is not settled has a message that asks for tool calls. -/
theorem ChatResponse.exists_callingMessage {r : ChatResponse} {reasons : List String}
    (h : r.callsTools reasons = true) : ∃ message, r.callingMessage? = some message := by
  obtain ⟨g, hg, hcalls⟩ := List.any_eq_true.1 h
  have hsome : r.callingMessage?.isSome = true := by
    rw [callingMessage?, List.find?_isSome]
    exact ⟨g.output, List.mem_map_of_mem hg, (Bool.and_eq_true_iff.1 hcalls).1⟩
  exact Option.isSome_iff_exists.1 hsome

namespace Prompt

variable {σ : Type} {registry : ToolRegistry} {response : ChatResponse}
  {message : AssistantMessage} {runs : List ToolRun}

/-- What is left of answering a response after it has been handed over. -/
theorem afterTools_apply (hmessage : response.callingMessage? = some message) (p : Prompt)
    (s : σ) :
    p.afterTools response registry s =
      ((Run.emit (.delegated response) : Run σ Unit) >>= fun _ =>
        registry.answerAll message.toolCalls >>= fun responses =>
          pure { p with messages := p.messages ++ [.assistant message, .tool responses] }) s := by
  rw [afterTools]
  simp only [hmessage]

/-- If all calls are run, the conversation goes on with their results. -/
theorem afterTools_of_runs (hmessage : response.callingMessage? = some message)
    (h : List.Forall₂ registry.Runs message.toolCalls runs) (p : Prompt) (s : σ) :
    p.afterTools response registry s =
      ⟨.delegated response :: runs.map ToolRun.effect, s,
        .ok { p with
          messages := p.messages ++ [.assistant message, .tool (runs.map ToolRun.response)] }⟩ := by
  rw [afterTools_apply hmessage, Run.emit_bind,
    Run.bind_of_ok (ToolRegistry.answerAll_of_runs h s)]
  simp only [pure, Run.pure, List.append_nil]

/-- If a call fails, its error ends the round. -/
theorem afterTools_of_fails (hmessage : response.callingMessage? = some message)
    {before after : List ToolCall} {call : ToolCall}
    (hcalls : message.toolCalls = before ++ call :: after)
    (h : List.Forall₂ registry.Runs before runs) {es : List Effect} {e : Error}
    (hcall : registry.Fails call es e) (p : Prompt) (s : σ) :
    p.afterTools response registry s =
      ⟨.delegated response :: (runs.map ToolRun.effect ++ es), s, .error (.error e)⟩ := by
  rw [afterTools_apply hmessage, hcalls, Run.emit_bind,
    Run.bind_of_error (ToolRegistry.answerAll_of_fails h hcall after s)]

end Prompt

end ModelClient
