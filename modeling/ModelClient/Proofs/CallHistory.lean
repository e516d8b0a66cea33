import ModelClient.Proofs.EnabledTools
import ModelClient.Proofs.ToolAnswers

/-!
# The history of a call

A call goes through rounds. In each one it prepares a request, gets a response, however often that
has to be tried, and if the response is not settled it runs the tools that are called and goes on
with their results. `ChatModel.Takes` says what such a round is and `ChatModel.Rounds` what it is to
go through some of them. `ChatModel.Ends` lists the ways in which a call ends: with a settled
response, with the first failure, or because there are no rounds left.

Every call has such a history, and its effects are those of the rounds and of the ending one after
the other (`ChatModel.exists_history`). What is run and what is sent can then be read off it.

## Main statements

* `ChatModel.call_history`: the history of a call, the tools it runs and how much it sends.
-/

namespace ModelClient

open Json

/-! ## Settled responses -/

/-- The names of two reasons are those after which tools are run. -/
theorem any_equalIgnoringCase_name (reason : Wire.FinishReason) :
    ChatModel.toolReasons.any (equalIgnoringCase · reason.name) = true ↔
      some reason.name = some "tool_calls" ∨ some reason.name = some "stop" := by
  cases reason <;> decide

/-- A generation made from a choice asks for tools to be run exactly if it has calls and gives one
of the two reasons for having stopped. The service writes them in small letters. -/
theorem Generation.callsTools_ofChoice_iff (choice : Wire.Choice) (id role : String) :
    (ofChoice choice id role).callsTools ChatModel.toolReasons = true ↔
      (ofChoice choice id role).output.toolCalls ≠ [] ∧
        ((ofChoice choice id role).metadata.finishReason = some "tool_calls" ∨
          (ofChoice choice id role).metadata.finishReason = some "stop") := by
  have hcalls : (ofChoice choice id role).output.hasToolCalls = true ↔
      (ofChoice choice id role).output.toolCalls ≠ [] := by
    simp [AssistantMessage.hasToolCalls]
  rw [callsTools, Bool.and_eq_true, hcalls]
  refine and_congr_right fun _ => ?_
  cases hreason : choice.finishReason with
  | none => simp [ofChoice, hreason]
  | some reason =>
    have hname : (ofChoice choice id role).metadata.finishReason = some reason.name := by
      cases reason <;> simp [ofChoice, hreason, Wire.FinishReason.name]
    rw [hname]
    exact any_equalIgnoringCase_name reason

namespace ChatModel

/-- Nothing is left to do about a response: its tool calls are left to the caller, or no generation
that has tool calls has stopped for a reason after which they are run. -/
def Settled (prepared : PreparedRequest) (r : ChatResponse) : Prop :=
  prepared.proxiesToolCalls = true ∨
    ∀ g ∈ r.generations, g.output.toolCalls ≠ [] →
      g.metadata.finishReason ≠ some "tool_calls" ∧ g.metadata.finishReason ≠ some "stop"

/-- What the service answers is a completion or nothing. -/
theorem eq_ofCompletion_of_respond {m : ChatModel} {prepared : PreparedRequest} {s : Session}
    {r : ChatResponse} (h : (m.respond prepared s).value = .ok r) :
    r = {} ∨ ∃ c, r = .ofCompletion c := by
  obtain ⟨answer, t, hanswer⟩ := Run.exists_of_bind_value h
  cases answer with
  | none => exact .inl (Except.ok.inj hanswer).symm
  | some c => exact .inr ⟨c, (Except.ok.inj hanswer).symm⟩

/-- The tools of a response are run exactly if it is not settled. -/
theorem settled_iff_of_respond {m : ChatModel} {prepared : PreparedRequest} {s : Session}
    {r : ChatResponse} (h : (m.respond prepared s).value = .ok r) :
    Settled prepared r ↔ runsTools prepared r = false := by
  have hcalls : r.callsTools toolReasons = false ↔
      ∀ g ∈ r.generations, g.output.toolCalls ≠ [] →
        g.metadata.finishReason ≠ some "tool_calls" ∧ g.metadata.finishReason ≠ some "stop" := by
    rw [ChatResponse.callsTools, List.any_eq_false]
    rcases eq_ofCompletion_of_respond h with rfl | ⟨c, rfl⟩
    · exact ⟨fun _ _ hg => (List.not_mem_nil hg).elim, fun _ _ hg => (List.not_mem_nil hg).elim⟩
    · refine forall₂_congr fun g hg => ?_
      obtain ⟨choice, -, rfl⟩ := List.mem_map.1 hg
      rw [Generation.callsTools_ofChoice_iff, not_and, not_or]
  rw [Settled, ← hcalls, runsTools, Bool.and_eq_false_iff, Bool.not_eq_false']

/-! ## Rounds and endings -/

/-- A round whose response is not settled: what was done to get the response, the response, its
message with tool calls, and their runs. -/
structure Round where
  asking : List Effect
  response : ChatResponse
  message : AssistantMessage
  runs : List ToolRun

namespace Round

/-- The tool calls that are run in the round. -/
def calls (r : Round) : List ToolCall := r.message.toolCalls

/-- The effects of the round. -/
def effects (r : Round) : List Effect :=
  r.asking ++ .delegated r.response :: r.runs.map ToolRun.effect

/-- The messages that the round adds to the conversation. -/
def messages (r : Round) : List Message :=
  [.assistant r.message, .tool (r.runs.map ToolRun.response)]

end Round

/-- From a prompt and a session the model takes a round, which leaves the session `t`: the request
is prepared, the response arrives and is not settled, and all calls of its first message with tool
calls are run. -/
structure Takes (m : ChatModel) (prompt : Prompt) (s : Session) (r : Round) (t : Session)
    (prepared : PreparedRequest) : Prop where
  prepare : m.prepare prompt false = .ok prepared
  respond : m.respond prepared s = ⟨r.asking, t, .ok r.response⟩
  unsettled : ¬Settled prepared r.response
  message : r.response.callingMessage? = some r.message
  runs : List.Forall₂ prepared.registry.Runs r.calls r.runs

/-- The prompt that goes on after the round. -/
def Round.next (r : Round) (prompt : Prompt) : Prompt :=
  { prompt with messages := prompt.messages ++ r.messages }

/-- From a prompt and a session the model goes through some rounds to another prompt and session. -/
inductive Rounds (m : ChatModel) : Prompt → Session → List Round → Prompt → Session → Prop
  | nil {prompt s} : Rounds m prompt s [] prompt s
  | cons {prompt s r t prepared rounds last u} (first : m.Takes prompt s r t prepared)
      (rest : Rounds m (r.next prompt) t rounds last u) :
      Rounds m prompt s (r :: rounds) last u

/-- How a call ends after its rounds. -/
inductive Ending where
  /-- There are no rounds left. -/
  | exhausted
  /-- The request cannot be prepared. -/
  | unprepared (e : Error)
  /-- The service gives no response, whatever was done to get one. -/
  | unanswered (asking : List Effect) (stop : Stop)
  /-- The response is settled. -/
  | settled (asking : List Effect) (response : ChatResponse)
  /-- A tool call of the response fails after some have been run. -/
  | toolFailed (asking : List Effect) (response : ChatResponse) (runs : List ToolRun)
      (failing : List Effect) (e : Error)

namespace Ending

/-- The effects of the ending. -/
def effects : Ending → List Effect
  | exhausted | unprepared _ => []
  | unanswered asking _ | settled asking _ => asking
  | toolFailed asking response runs failing _ =>
    asking ++ .delegated response :: (runs.map ToolRun.effect ++ failing)

/-- What the caller gets. -/
def value : Ending → Except Stop ChatResponse
  | exhausted => .error (.error (.invalidState "Tool calls did not settle after 20 rounds"))
  | unprepared e => .error (.error e)
  | unanswered _ stop => .error stop
  | settled _ response => .ok response
  | toolFailed _ _ _ _ e => .error (.error e)

/-- How many rounds have begun to ask for a response since the last complete one. -/
def asks : Ending → Nat
  | exhausted | unprepared _ => 0
  | unanswered _ _ | settled _ _ | toolFailed _ _ _ _ _ => 1

/-- Whether a tool call fails. -/
def isToolFailure : Ending → Bool
  | toolFailed _ _ _ _ _ => true
  | _ => false

end Ending

/-- From a prompt and a session, with `left` rounds left, the model ends in the given way. -/
inductive Ends (m : ChatModel) (prompt : Prompt) (s : Session) : (left : Nat) → Ending → Prop
  | exhausted : Ends m prompt s 0 .exhausted
  | unprepared {left e} (prepare : m.prepare prompt false = .error e) :
      Ends m prompt s (left + 1) (.unprepared e)
  | unanswered {left prepared asking t stop} (prepare : m.prepare prompt false = .ok prepared)
      (respond : m.respond prepared s = ⟨asking, t, .error stop⟩) :
      Ends m prompt s (left + 1) (.unanswered asking stop)
  | settled {left prepared asking t response} (prepare : m.prepare prompt false = .ok prepared)
      (respond : m.respond prepared s = ⟨asking, t, .ok response⟩)
      (settled : Settled prepared response) :
      Ends m prompt s (left + 1) (.settled asking response)
  | toolFailed {left prepared asking t response message before call after runs failing e}
      (prepare : m.prepare prompt false = .ok prepared)
      (respond : m.respond prepared s = ⟨asking, t, .ok response⟩)
      (unsettled : ¬Settled prepared response)
      (calling : response.callingMessage? = some message)
      (calls : message.toolCalls = before ++ call :: after)
      (ran : List.Forall₂ prepared.registry.Runs before runs)
      (fails : prepared.registry.Fails call failing e) :
      Ends m prompt s (left + 1) (.toolFailed asking response runs failing e)

variable {m : ChatModel} {prompt : Prompt} {s t : Session} {prepared : PreparedRequest}
  {asking : List Effect} {response : ChatResponse}

/-- A round that gets no response. -/
theorem callRounds_of_respond_error (hprepare : m.prepare prompt false = .ok prepared) {stop : Stop}
    (hrespond : m.respond prepared s = ⟨asking, t, .error stop⟩) (left : Nat) :
    m.callRounds (left + 1) prompt s = ⟨asking, t, .error stop⟩ := by
  rw [callRounds, hprepare, Run.ofExcept_ok_bind]
  exact Run.bind_of_error hrespond _

/-- A round that gets a settled response. -/
theorem callRounds_of_settled (hprepare : m.prepare prompt false = .ok prepared)
    (hrespond : m.respond prepared s = ⟨asking, t, .ok response⟩)
    (hsettled : Settled prepared response) (left : Nat) :
    m.callRounds (left + 1) prompt s = ⟨asking, t, .ok response⟩ := by
  have hruns : runsTools prepared response = false :=
    (settled_iff_of_respond (congrArg Outcome.value hrespond)).1 hsettled
  rw [callRounds, hprepare, Run.ofExcept_ok_bind, Run.bind_of_ok hrespond, hruns,
    if_neg Bool.false_ne_true]
  simp only [pure, Run.pure, List.append_nil]

/-- A response that is not settled has its tools run. -/
theorem runsTools_of_not_settled (hrespond : m.respond prepared s = ⟨asking, t, .ok response⟩)
    (hunsettled : ¬Settled prepared response) : runsTools prepared response = true := by
  rw [settled_iff_of_respond (congrArg Outcome.value hrespond)] at hunsettled
  exact Bool.not_eq_false _ ▸ hunsettled

/-- A round whose response is not settled hands it over to the tools. -/
theorem callRounds_of_not_settled (hprepare : m.prepare prompt false = .ok prepared)
    (hrespond : m.respond prepared s = ⟨asking, t, .ok response⟩)
    (hunsettled : ¬Settled prepared response) {left : Nat} {es : List Effect} {u : Session}
    {v : Except Stop ChatResponse}
    (hrest : (prompt.afterTools response prepared.registry >>= m.callRounds left) t = ⟨es, u, v⟩) :
    m.callRounds (left + 1) prompt s = ⟨asking ++ es, u, v⟩ := by
  rw [callRounds, hprepare, Run.ofExcept_ok_bind]
  refine Run.bind_eq_of_ok hrespond ?_
  rw [runsTools_of_not_settled hrespond hunsettled, if_pos rfl]
  exact hrest

/-- A round that is complete is followed by the rounds that are left. -/
theorem callRounds_of_takes {r : Round} (h : m.Takes prompt s r t prepared) (left : Nat) :
    m.callRounds (left + 1) prompt s =
      ⟨r.effects ++ (m.callRounds left (r.next prompt) t).effects,
        (m.callRounds left (r.next prompt) t).state,
        (m.callRounds left (r.next prompt) t).value⟩ := by
  have hrest := Run.bind_of_ok (Prompt.afterTools_of_runs h.message h.runs prompt t)
    (m.callRounds left)
  rw [callRounds_of_not_settled h.prepare h.respond h.unsettled hrest, Round.effects,
    List.append_assoc]
  rfl

/-- A call that ends leaves the effects of the ending and its value. -/
theorem callRounds_of_ends {left : Nat} {ending : Ending} (h : m.Ends prompt s left ending) :
    (m.callRounds left prompt s).effects = ending.effects ∧
      (m.callRounds left prompt s).value = ending.value := by
  cases h with
  | exhausted => exact ⟨rfl, rfl⟩
  | unprepared hprepare =>
    rw [callRounds, hprepare]
    exact ⟨rfl, rfl⟩
  | unanswered hprepare hrespond =>
    rw [callRounds_of_respond_error hprepare hrespond]
    exact ⟨rfl, rfl⟩
  | settled hprepare hrespond hsettled =>
    rw [callRounds_of_settled hprepare hrespond hsettled]
    exact ⟨rfl, rfl⟩
  | toolFailed hprepare hrespond hunsettled hmessage hcalls hruns hfails =>
    have hfailed (t : Session) :=
      Prompt.afterTools_of_fails hmessage hcalls hruns hfails prompt t
    rw [callRounds_of_not_settled hprepare hrespond hunsettled (Run.bind_of_error (hfailed _) _)]
    exact ⟨rfl, rfl⟩

/-- With rounds left, the model takes a round or ends. -/
theorem takes_or_ends (m : ChatModel) (left : Nat) (prompt : Prompt) (s : Session) :
    (∃ r t prepared, m.Takes prompt s r t prepared) ∨
      ∃ ending, m.Ends prompt s (left + 1) ending := by
  cases hprepare : m.prepare prompt false with
  | error e => exact .inr ⟨_, .unprepared hprepare⟩
  | ok prepared =>
    rcases hrespond : m.respond prepared s with ⟨asking, t, stop | response⟩
    · exact .inr ⟨_, .unanswered hprepare hrespond⟩
    by_cases hsettled : Settled prepared response
    · exact .inr ⟨_, .settled hprepare hrespond hsettled⟩
    have hruns := runsTools_of_not_settled hrespond hsettled
    obtain ⟨message, hmessage⟩ :=
      ChatResponse.exists_callingMessage (Bool.and_eq_true_iff.1 hruns).2
    -- A response that is not settled ends the call only if one of its tool calls fails.
    rcases prepared.registry.runs_or_fails message.toolCalls with
      ⟨runs, hcalls⟩ | ⟨before, call, after, runs, failing, e, hcalls, hbefore, hfails⟩
    · exact .inl ⟨⟨asking, response, message, runs⟩, t, prepared,
        ⟨hprepare, hrespond, hsettled, hmessage, hcalls⟩⟩
    · exact .inr ⟨_, .toolFailed hprepare hrespond hsettled hmessage hcalls hbefore hfails⟩

/-- Every call goes through rounds and ends, and does nothing else. -/
theorem exists_history (m : ChatModel) (left : Nat) (prompt : Prompt) (s : Session) :
    ∃ rounds last t rest ending, rounds.length + rest = left ∧
      m.Rounds prompt s rounds last t ∧ m.Ends last t rest ending ∧
      (m.callRounds left prompt s).effects = rounds.flatMap Round.effects ++ ending.effects ∧
      (m.callRounds left prompt s).value = ending.value := by
  have hend (left prompt s ending) (h : m.Ends prompt s left ending) :
      ∃ rounds last t rest ending, rounds.length + rest = left ∧
        m.Rounds prompt s rounds last t ∧ m.Ends last t rest ending ∧
        (m.callRounds left prompt s).effects = rounds.flatMap Round.effects ++ ending.effects ∧
        (m.callRounds left prompt s).value = ending.value :=
    ⟨[], prompt, s, left, ending, Nat.zero_add _, .nil, h, callRounds_of_ends h⟩
  induction left generalizing prompt s with
  | zero => exact hend 0 prompt s _ .exhausted
  | succ left ih =>
    rcases m.takes_or_ends left prompt s with ⟨r, t, prepared, hround⟩ | ⟨ending, hends⟩
    · obtain ⟨rounds, last, u, rest, ending, hlength, hrounds, hends, heffects, hvalue⟩ :=
        ih (r.next prompt) t
      refine ⟨r :: rounds, last, u, rest, ending, ?_, .cons hround hrounds, hends, ?_, ?_⟩
      · rw [List.length_cons, Nat.add_right_comm, hlength]
      · rw [callRounds_of_takes hround, heffects, List.flatMap_cons, List.append_assoc]
      · rw [callRounds_of_takes hround, hvalue]
    · exact hend _ prompt s ending hends

end ChatModel

/-! ## What is run and what is sent -/

/-- The run of a tool, by name and arguments, if the effect is one. -/
def Effect.toolRun? : Effect → Option (String × Json)
  | .ran name arguments => some (name, arguments)
  | _ => none

/-- The tools that some effects run, in order. -/
def toolLog (effects : List Effect) : List (String × Json) := effects.filterMap Effect.toolRun?

/-- The tools of two parts are those of the first and then those of the second. -/
theorem toolLog_append (es fs : List Effect) : toolLog (es ++ fs) = toolLog es ++ toolLog fs :=
  List.filterMap_append

/-- The entry that the call leaves in the log when it is run. -/
def ToolCall.logged? (call : ToolCall) : Option (String × Json) :=
  call.argumentValue?.map (call.name, ·)

/-- A call that is run is logged, if every tool goes by its own name. -/
theorem ToolRegistry.Keyed.logged?_eq_some {r : ToolRegistry} (hr : r.Keyed) {call : ToolCall}
    {run : ToolRun} (h : r.Runs call run) : call.logged? = some (run.tool, run.arguments) := by
  obtain ⟨t, arguments, result, hfound, hread, -⟩ := h
  rw [ToolCall.logged?, hread, hr _ _ hfound]
  rfl

/-- Calls that are run are logged, one for one, if every tool goes by its own name. -/
theorem ToolRegistry.Keyed.mapM_logged? {r : ToolRegistry} (hr : r.Keyed) {calls : List ToolCall}
    {runs : List ToolRun} (h : List.Forall₂ r.Runs calls runs) :
    calls.mapM ToolCall.logged? = some (toolLog (runs.map ToolRun.effect)) := by
  induction h with
  | nil => rfl
  | cons hrun _ ih =>
    rw [List.mapM_cons, hr.logged?_eq_some hrun, ih]
    rfl

namespace ChatModel

/-- Asking for a response runs no tools. -/
theorem toolLog_respond (m : ChatModel) (prepared : PreparedRequest) (s : Session) :
    toolLog (m.respond prepared s).effects = [] := by
  have hkind : ToolKind fun e => e.toolRun?.isSome := by
    intro e he
    cases e <;> first | rfl | cases he
  have hquiet := respond_quiet hkind (Answer.unscripted_asks s.mostAsks) (m := m) prepared s
    s.answers_mostAsks
  rw [toolLog, ← List.length_eq_zero_iff, List.length_filterMap_eq_countP]
  exact Nat.le_zero.1 hquiet.count

/-- Asking for a response sends at most as many requests as the retry policy has attempts. -/
theorem length_sentRequests_respond (m : ChatModel) (prepared : PreparedRequest) (s : Session) :
    (sentRequests (m.respond prepared s).effects).length ≤ m.retry.maxAttempts.toNat := by
  have hkind : ActionKind fun e => e.request?.isSome := by
    intro e he
    cases e <;> first | rfl | cases he
  have hbound : Run.Bounded (fun e => e.request?.isSome) _ (m.retry.maxAttempts.toNat * 1)
      (fun _ => True) (m.respond prepared) :=
    respond_bounded hkind (Answer.unscripted_asks s.mostAsks) (Nat.le_refl 1)
  rw [sentRequests, List.length_filterMap_eq_countP, ← Nat.mul_one m.retry.maxAttempts.toNat]
  exact (hbound s s.answers_mostAsks).count

/-- Running tools sends nothing. -/
theorem sentRequests_runs (runs : List ToolRun) :
    sentRequests (runs.map ToolRun.effect) = [] := by
  refine List.filterMap_eq_nil_iff.2 fun e he => ?_
  obtain ⟨run, -, rfl⟩ := List.mem_map.1 he
  rfl

variable {m : ChatModel} {prompt : Prompt} {s t : Session}

/-- The tools of a prompt are registered under their names. -/
theorem keyed_of_prepare (hm : m.registry.Keyed) {streamed : Bool} {prepared : PreparedRequest}
    (h : m.prepare prompt streamed = .ok prepared) : prepared.registry.Keyed := by
  rw [prepare_registry h]
  exact hm.registerAll _

namespace Takes

variable {r : Round} {prepared : PreparedRequest}

/-- A round logs its calls, however often its request had to be sent. -/
theorem mapM_logged? (h : m.Takes prompt s r t prepared) (hm : m.registry.Keyed) :
    r.calls.mapM ToolCall.logged? = some (toolLog r.effects) := by
  have hasking : toolLog r.asking = [] := by
    rw [← toolLog_respond m prepared s, h.respond]
  rw [(keyed_of_prepare hm h.prepare).mapM_logged? h.runs, Round.effects, toolLog_append, hasking]
  rfl

/-- A round asks no more often than the policy allows. -/
theorem length_sentRequests (h : m.Takes prompt s r t prepared) :
    (sentRequests r.effects).length ≤ m.retry.maxAttempts.toNat := by
  have hasking := length_sentRequests_respond m prepared s
  rw [h.respond] at hasking
  have hruns : sentRequests (.delegated r.response :: r.runs.map ToolRun.effect) = [] :=
    sentRequests_runs r.runs
  rwa [Round.effects, sentRequests_append, hruns, List.append_nil]

end Takes

namespace Rounds

variable {rounds : List Round} {last : Prompt}

/-- What is run in some rounds are the calls of the rounds, in order. -/
theorem mapM_logged? (h : m.Rounds prompt s rounds last t) (hm : m.registry.Keyed) :
    (rounds.flatMap Round.calls).mapM ToolCall.logged? =
      some (toolLog (rounds.flatMap Round.effects)) := by
  induction h with
  | nil => rfl
  | cons first _ ih =>
    rw [List.flatMap_cons, List.mapM_append, first.mapM_logged? hm, ih, List.flatMap_cons,
      toolLog_append]
    rfl

/-- Some rounds ask no more often than the policy allows each of them. -/
theorem length_sentRequests (h : m.Rounds prompt s rounds last t) :
    (sentRequests (rounds.flatMap Round.effects)).length ≤
      rounds.length * m.retry.maxAttempts.toNat := by
  induction h with
  | nil => exact Nat.zero_le _
  | cons first _ ih =>
    rw [List.flatMap_cons, sentRequests_append, List.length_append, List.length_cons, Nat.succ_mul,
      Nat.add_comm]
    exact Nat.add_le_add ih first.length_sentRequests

end Rounds

namespace Ends

variable {left : Nat} {ending : Ending}

/-- Unless a tool call fails, the end of a call runs no tools. -/
theorem toolLog_effects (h : m.Ends prompt s left ending) (hfail : ending.isToolFailure = false) :
    toolLog ending.effects = [] := by
  cases h with
  | exhausted | unprepared => rfl
  | @unanswered _ prepared asking _ _ _ hrespond =>
    have hasking := toolLog_respond m prepared s
    rwa [hrespond] at hasking
  | @settled _ prepared asking _ _ _ hrespond =>
    have hasking := toolLog_respond m prepared s
    rwa [hrespond] at hasking
  | toolFailed => cases hfail

/-- An ending asks no more often than the policy allows. -/
theorem length_sentRequests (h : m.Ends prompt s left ending) :
    (sentRequests ending.effects).length ≤ ending.asks * m.retry.maxAttempts.toNat := by
  cases h with
  | exhausted | unprepared => exact Nat.zero_le _
  | @unanswered _ prepared asking _ _ _ hrespond =>
    have hasking := length_sentRequests_respond m prepared s
    rw [hrespond] at hasking
    rwa [Ending.asks, Nat.one_mul]
  | @settled _ prepared asking _ _ _ hrespond =>
    have hasking := length_sentRequests_respond m prepared s
    rw [hrespond] at hasking
    rwa [Ending.asks, Nat.one_mul]
  | @toolFailed _ prepared asking _ response _ _ _ _ runs failing _ _ hrespond _ _ _ _ hfails =>
    have hasking := length_sentRequests_respond m prepared s
    rw [hrespond] at hasking
    have hfailing : sentRequests failing = [] := by
      cases hfails <;> rfl
    have htools :
        sentRequests (.delegated response :: (runs.map ToolRun.effect ++ failing)) = [] := by
      show sentRequests (runs.map ToolRun.effect ++ failing) = []
      rw [sentRequests_append, sentRequests_runs, hfailing]
      rfl
    rwa [Ending.effects, Ending.asks, Nat.one_mul, sentRequests_append, htools, List.append_nil]

end Ends

/-- **The history of a call.** A call goes through at most 20 rounds whose responses are not settled
and ends: with the first settled response, with the first failure, or with an error after 20 rounds.
Its effects are those of the rounds and of the ending. Unless a tool call fails, the tools that are
run are those that the rounds call, each of them once; and a round sends at most as many requests as
the retry policy has attempts. -/
theorem call_history (client : Client) (settings : List Setting) (prompt : Prompt) (s : Session) :
    ∃ rounds last t left ending, rounds.length + left = 20 ∧
      (configured client settings).Rounds prompt s rounds last t ∧
      (configured client settings).Ends last t left ending ∧
      ((configured client settings).call prompt s).effects =
        rounds.flatMap Round.effects ++ ending.effects ∧
      ((configured client settings).call prompt s).value = ending.value ∧
      (ending.isToolFailure = false →
        (rounds.flatMap Round.calls).mapM ToolCall.logged? =
          some (toolLog ((configured client settings).call prompt s).effects)) ∧
      (sentRequests ((configured client settings).call prompt s).effects).length ≤
        (rounds.length + ending.asks) * (configured client settings).retry.maxAttempts.toNat := by
  have hm := configured_keyed client settings
  generalize configured client settings = m at hm ⊢
  obtain ⟨rounds, last, t, left, ending, hlength, hrounds, hends, heffects, hvalue⟩ :=
    m.exists_history maxRounds prompt s
  have hcall : (m.call prompt s).effects = rounds.flatMap Round.effects ++ ending.effects :=
    heffects
  refine ⟨rounds, last, t, left, ending, hlength, hrounds, hends, hcall, hvalue, fun hfail => ?_,
    ?_⟩
  · rw [hcall, toolLog_append, hends.toolLog_effects hfail, List.append_nil]
    exact hrounds.mapM_logged? hm
  · rw [hcall, sentRequests_append, List.length_append, Nat.add_mul]
    exact Nat.add_le_add hrounds.length_sentRequests hends.length_sentRequests

end ChatModel

end ModelClient
