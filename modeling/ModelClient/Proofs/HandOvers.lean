import ModelClient.Proofs.FollowUp

/-!
# Which generations have their tool calls run

A response may have several generations, each with tool calls and a reason of its own for having
stopped. Whether any calls are run is asked of all generations together: one that has calls and has
stopped in order to have them run is enough. But the calls that are run are those of the first
generation that has some, and nobody asks why that one has stopped.

The tool calls of a run are answered in hand-overs: a response is handed over, and some tools run
for it before the next one is. `HandsOver P` says that every hand-over is in `P`, and
`Run.HandsOver` is the rule by which that composes.

## Main statements

* `ChatModel.handsOver_settled_iff`: what a hand-over of a call or a stream is, and for which models
  and prompts only calls of settled generations are run.
-/

namespace ModelClient

open Json

/-! ## Hand-overs -/

/-- A response that is handed over to the tools, and the tools that are run for it, each with its
name and arguments. -/
structure HandOver where
  response : ChatResponse
  runs : List (String × Json)

namespace HandOver

/-- The effects of the hand-over. -/
def effects (h : HandOver) : List Effect :=
  .delegated h.response :: h.runs.map fun run => .ran run.1 run.2

end HandOver

/-- The first of the generation's tool calls, however many, are logged as the given runs. -/
def Generation.Logs (g : Generation) (runs : List (String × Json)) : Prop :=
  ∃ calls, calls <+: g.output.toolCalls ∧ calls.mapM ToolCall.logged? = some runs

namespace HandOver

/-- The runs are calls of a generation that has stopped in order to have its calls run. -/
def Settled (h : HandOver) : Prop :=
  ∃ g ∈ h.response.generations, g.callsTools ChatModel.toolReasons = true ∧ g.Logs h.runs

/-- Some generation has stopped in order to have its calls run, and the runs are calls of the first
generation that has any. -/
def IsFirst (h : HandOver) : Prop :=
  h.response.callsTools ChatModel.toolReasons = true ∧
    ∃ g, h.response.generations.find? (·.output.hasToolCalls) = some g ∧ g.Logs h.runs

/-- If only one generation has calls, it is the one that has stopped in order to have them run. -/
theorem IsFirst.settled {h : HandOver} (hfirst : h.IsFirst)
    (hone : (h.response.generations.filter (·.output.hasToolCalls)).length ≤ 1) : h.Settled := by
  obtain ⟨hany, g, hg, hlogs⟩ := hfirst
  obtain ⟨other, hother, hcalls⟩ := List.any_eq_true.1 hany
  have hmem : g ∈ h.response.generations := List.mem_of_find?_eq_some hg
  have hcalling : g.output.hasToolCalls = true := by simpa using List.find?_some hg
  have hin := List.mem_filter (p := (·.output.hasToolCalls)).2 ⟨hmem, hcalling⟩
  have hin' := List.mem_filter (p := (·.output.hasToolCalls)).2
    ⟨hother, (Bool.and_eq_true_iff.1 hcalls).1⟩
  generalize h.response.generations.filter (·.output.hasToolCalls) = calling at hone hin hin'
  match calling, hone with
  | [only], _ =>
    rw [List.mem_singleton.1 hin'] at hcalls
    exact ⟨g, hmem, List.mem_singleton.1 hin ▸ hcalls, hlogs⟩

/-- A hand-over that runs nothing runs nothing else. -/
theorem IsFirst.settled_of_runs_eq_nil {h : HandOver} (hfirst : h.IsFirst) (hruns : h.runs = []) :
    h.Settled := by
  obtain ⟨g, hmem, hcalls⟩ := List.any_eq_true.1 hfirst.1
  exact ⟨g, hmem, hcalls, [], List.nil_prefix, hruns ▸ rfl⟩

end HandOver

variable {P P' : HandOver → Prop} {es fs : List Effect}

/-- The effects that concern tools are those of some hand-overs in `P`, one after the other. -/
def HandsOver (P : HandOver → Prop) (effects : List Effect) : Prop :=
  ∃ hs : List HandOver, effects.filter Effect.concernsTools = hs.flatMap HandOver.effects ∧
    ∀ h ∈ hs, P h

namespace HandsOver

/-- What all hand-overs are in may be made larger. -/
theorem mono (h : HandsOver P es) (hP : ∀ h, P h → P' h) : HandsOver P' es := by
  obtain ⟨hs, heffects, hall⟩ := h
  exact ⟨hs, heffects, fun h hh => hP h (hall h hh)⟩

/-- Where nothing concerns tools, nothing is handed over. -/
theorem of_quiet (h : ∀ e ∈ es, e.concernsTools = false) : HandsOver P es :=
  ⟨[], List.filter_eq_nil_iff.2 fun e he => Bool.eq_false_iff.1 (h e he),
    fun _ h => absurd h List.not_mem_nil⟩

/-- The hand-overs of two parts are those of the first and then those of the second. -/
theorem append (hes : HandsOver P es) (hfs : HandsOver P fs) : HandsOver P (es ++ fs) := by
  obtain ⟨hs, heffects, hall⟩ := hes
  obtain ⟨more, hmore, hallMore⟩ := hfs
  refine ⟨hs ++ more, ?_, List.forall_mem_append.2 ⟨hall, hallMore⟩⟩
  rw [List.filter_append, heffects, hmore, List.flatMap_append]

/-- The effects of one hand-over are handed over as it says. -/
theorem singleton {h : HandOver} (hP : P h) : HandsOver P h.effects := by
  refine ⟨[h], ?_, by simpa using hP⟩
  rw [List.flatMap_singleton, List.filter_eq_self]
  intro e he
  rcases List.mem_cons.1 he with rfl | he
  · rfl
  · obtain ⟨run, -, rfl⟩ := List.mem_map.1 he
    rfl

/-- An observation hands nothing over. -/
theorem watch {observer : Observer} {context : Observation.Context} {round : Run Session Unit}
    {s : Session} (h : HandsOver P (round s).effects) :
    HandsOver P (ModelClient.watch observer context round s).effects := by
  obtain ⟨hs, heffects, hall⟩ := h
  exact ⟨hs, (filter_watch (fun _ => rfl) observer context round s).trans heffects, hall⟩

/-- The first hand-over of some effects, if a tool runs for it. -/
theorem exists_of_filter_eq (h : HandsOver P es) {response : ChatResponse} {name : String}
    {arguments : Json} {more : List Effect} (heffects : es.filter Effect.concernsTools =
      .delegated response :: .ran name arguments :: more) :
    ∃ runs, P ⟨response, (name, arguments) :: runs⟩ := by
  obtain ⟨hs, hall, hP⟩ := h
  rw [heffects] at hall
  match hs with
  | [] => cases hall
  | ⟨_, []⟩ :: [] => cases hall
  | ⟨_, []⟩ :: _ :: _ => cases hall
  | ⟨_, run :: runs⟩ :: _ =>
    cases hall
    exact ⟨runs, hP _ List.mem_cons_self⟩

end HandsOver

/-! ## Runs and their hand-overs -/

namespace Run

variable {σ α β : Type} {Q : α → Prop} {R : β → Prop}

/-- From every state, the run hands over as `P` says, and its value is in `Q`. -/
def HandsOver (P : HandOver → Prop) (Q : α → Prop) (x : Run σ α) : Prop :=
  ∀ s, ModelClient.HandsOver P (x s).effects ∧ ∀ a, (x s).value = .ok a → Q a

namespace HandsOver

/-- A run that gives a value hands nothing over. -/
theorem pure {a : α} (h : Q a) : HandsOver P Q (Pure.pure a : Run σ α) :=
  fun _ => ⟨.of_quiet (fun _ h => absurd h List.not_mem_nil), fun _ ha => Except.ok.inj ha ▸ h⟩

/-- A run that fails hands nothing over. -/
theorem fail (e : Error) : HandsOver P Q (Run.fail e : Run σ α) :=
  fun _ => ⟨.of_quiet (fun _ h => absurd h List.not_mem_nil), nofun⟩

/-- A run without effects that concern tools hands nothing over. -/
theorem of_quiet {x : Run σ α} (h : ∀ s, ∀ e ∈ (x s).effects, e.concernsTools = false) :
    HandsOver P (fun _ => True) x :=
  fun s => ⟨.of_quiet (h s), fun _ _ => trivial⟩

/-- A value or an error that is there already hands nothing over. -/
theorem ofExcept {x : Except Error α} (h : ∀ a, x = .ok a → Q a) :
    HandsOver P Q (Run.ofExcept x : Run σ α) := by
  cases x with
  | ok a => exact pure (h a rfl)
  | error e => exact fail e

/-- One run after another. -/
theorem bind {x : Run σ α} {f : α → Run σ β} (hx : HandsOver P Q x)
    (hf : ∀ a, Q a → HandsOver P R (f a)) : HandsOver P R (x >>= f) := by
  intro s
  obtain ⟨heffects, hvalue⟩ := hx s
  show ModelClient.HandsOver P (Run.bind x f s).effects ∧
    ∀ b, (Run.bind x f s).value = .ok b → R b
  unfold Run.bind
  generalize x s = o at heffects hvalue
  rcases o with ⟨effects, t, stop | a⟩
  · exact ⟨heffects, nofun⟩
  · have hrest := hf a (hvalue a rfl) t
    exact ⟨heffects.append hrest.1, hrest.2⟩

/-- A failure as a value leaves the same effects. -/
theorem attempt {x : Run σ α} (h : HandsOver P Q x) :
    HandsOver P (fun r => ∀ a, r = .ok a → Q a) x.attempt := by
  intro s
  obtain ⟨heffects, hvalue⟩ := h s
  unfold Run.attempt
  generalize x s = o at heffects hvalue
  rcases o with ⟨effects, t, (e | e) | a⟩
  · exact ⟨heffects, fun r hr => by cases hr; nofun⟩
  · exact ⟨heffects, nofun⟩
  · refine ⟨heffects, fun r hr b hb => ?_⟩
    cases hr
    cases hb
    exact hvalue a rfl

/-- An item for the consumer is no hand-over. -/
theorem yield (item : Except Error ChatResponse) :
    HandsOver P (fun _ => True) (Session.yield item) :=
  fun _ => ⟨.of_quiet fun _ he => List.mem_singleton.1 he ▸ rfl, fun _ _ => trivial⟩

/-- Watching a round changes nothing about its hand-overs. -/
theorem watch {Q : Unit → Prop} {round : Run Session Unit} (h : HandsOver P Q round)
    (observer : Observer) (context : Observation.Context) :
    HandsOver P Q (ModelClient.watch observer context round) :=
  fun s => ⟨(h s).1.watch, (h s).2⟩

end HandsOver

end Run

/-! ## Answering a response -/

/-- The first generation that has calls is the one whose message is picked. -/
theorem ChatResponse.exists_generation {r : ChatResponse} {message : AssistantMessage}
    (h : r.callingMessage? = some message) :
    ∃ g, r.generations.find? (·.output.hasToolCalls) = some g ∧ g.output = message := by
  rw [callingMessage?, List.find?_map] at h
  exact Option.map_eq_some_iff.1 h

namespace ToolRegistry

variable {σ : Type} {r : ToolRegistry}

/-- A call that fails is logged if its tool has run. -/
theorem Keyed.logged?_of_fails (hr : r.Keyed) {call : ToolCall} {es : List Effect} {e : Error}
    (h : r.Fails call es e) :
    es = [] ∨ ∃ entry, call.logged? = some entry ∧ (r.get? entry.1).isSome ∧
      es = [.ran entry.1 entry.2] := by
  cases h with
  | unknown => exact .inl rfl
  | illegible => exact .inl rfl
  | failed t arguments e hfound hread hfailed =>
    refine .inr ⟨(call.name, arguments), ?_, ?_, ?_⟩
    · rw [ToolCall.logged?, hread]
      rfl
    · rw [hfound]
      rfl
    · rw [hr _ _ hfound]

/-- Answering calls runs the first ones, up to the first that fails, and logs them. -/
theorem Keyed.exists_logged (hr : r.Keyed) (calls : List ToolCall) (s : σ) :
    ∃ first runs, first <+: calls ∧ first.mapM ToolCall.logged? = some runs ∧
      (∀ run ∈ runs, (r.get? run.1).isSome) ∧
      ((r.answerAll calls : Run σ (List ToolResponse)) s).effects =
        runs.map fun run => .ran run.1 run.2 := by
  induction calls with
  | nil => exact ⟨[], [], List.nil_prefix, rfl, nofun, rfl⟩
  | cons call rest ih =>
    rcases r.exists_runs_or_fails call with ⟨run, hrun⟩ | ⟨es, e, hfails⟩
    · obtain ⟨first, runs, hprefix, hlogged, hfound, heffects⟩ := ih
      have hfoundRun : (r.get? run.tool).isSome := by
        obtain ⟨t, _, _, hfound, -, -⟩ := hrun
        rw [hr _ _ hfound, hfound]
        rfl
      refine ⟨call :: first, (run.tool, run.arguments) :: runs,
        List.cons_prefix_cons.2 ⟨rfl, hprefix⟩, ?_, List.forall_mem_cons.2 ⟨hfoundRun, hfound⟩, ?_⟩
      · rw [List.mapM_cons, hr.logged?_eq_some hrun, hlogged]
        rfl
      · rw [answerAll, Run.bind_of_ok (answer_of_runs hrun s), Run.effects_bind_pure, heffects]
        rfl
    · rw [answerAll, Run.bind_of_error (answer_of_fails hfails s)]
      -- A tool that fails has run, so its call is logged, too.
      rcases hr.logged?_of_fails hfails with rfl | ⟨entry, hlogged, hfound, rfl⟩
      · exact ⟨[], [], List.nil_prefix, rfl, nofun, rfl⟩
      · refine ⟨[call], [entry], List.cons_prefix_cons.2 ⟨rfl, List.nil_prefix⟩, ?_, ?_, rfl⟩
        · rw [List.mapM_cons, hlogged]
          rfl
        · simpa using hfound

end ToolRegistry

/-- A hand-over to the tools of a registry: calls of the first generation that has any are run. -/
structure HandOver.To (registry : ToolRegistry) (h : HandOver) : Prop where
  first : h.IsFirst
  found : ∀ run ∈ h.runs, (registry.get? run.1).isSome

namespace Prompt

variable {σ : Type} {registry : ToolRegistry} {response : ChatResponse}

/-- The conversation goes on with the options of the prompt. -/
theorem options_of_afterTools {p next : Prompt} {s : σ}
    (h : (p.afterTools response registry s).value = .ok next) : next.options = p.options := by
  have hcost : RoundCost (fun _ => false) registry 0 := ⟨fun _ => Nat.le_refl 0, fun _ _ _ _ => rfl⟩
  have hbounded := Run.Bounded.afterTools (I := fun _ => True) hcost p response s trivial
  obtain ⟨turn, rfl⟩ := hbounded.value next h
  rfl

/-- Answering the tool calls of a response is a hand-over. -/
theorem exists_handOver (hr : registry.Keyed)
    (hcalls : response.callsTools ChatModel.toolReasons = true) (p : Prompt) (s : σ) :
    ∃ h : HandOver, h.To registry ∧ (p.afterTools response registry s).effects = h.effects := by
  obtain ⟨message, hmessage⟩ := ChatResponse.exists_callingMessage hcalls
  obtain ⟨g, hg, rfl⟩ := ChatResponse.exists_generation hmessage
  obtain ⟨first, runs, hprefix, hlogged, hfound, heffects⟩ := hr.exists_logged g.output.toolCalls s
  refine ⟨⟨response, runs⟩, ⟨⟨hcalls, g, hg, first, hprefix, hlogged⟩, hfound⟩, ?_⟩
  rw [afterTools_apply hmessage, Run.emit_bind, Run.effects_bind_pure, heffects]
  rfl

end Prompt

/-! ## The hand-overs of a call and of a stream -/

namespace ChatModel

variable {m : ChatModel} {o : Option ChatOptions} {prompt : Prompt} {prepared : PreparedRequest}

/-- Answering a response that calls tools is a hand-over to them, and the options stay. -/
theorem afterTools_handsOver {registry : ToolRegistry} (hr : registry.Keyed)
    {response : ChatResponse} (hcalls : response.callsTools toolReasons = true) (p : Prompt) :
    Run.HandsOver (HandOver.To registry) (fun next => next.options = p.options)
      (p.afterTools response registry : Run Session Prompt) := by
  intro s
  obtain ⟨h, hto, heffects⟩ := Prompt.exists_handOver hr hcalls p s
  exact ⟨heffects ▸ .singleton hto, fun _ hnext => Prompt.options_of_afterTools hnext⟩

/-- **Rounds of a call.** Every hand-over is to the tools of the prompt's options. -/
theorem callRounds_handsOver (hm : m.registry.Keyed) (left : Nat) (ho : prompt.options = o) :
    Run.HandsOver (HandOver.To (m.toolsFor o)) (fun _ => True) (m.callRounds left prompt) := by
  induction left generalizing prompt with
  | zero => exact .fail _
  | succ left ih =>
    unfold callRounds
    refine .bind (.ofExcept fun _ h => h) fun prepared hprepared => ?_
    refine .bind (.of_quiet (concernsTools_respond m prepared)) fun response _ => ?_
    have hregistry : prepared.registry = m.toolsFor o := ho ▸ prepare_registry hprepared
    split
    · next hruns =>
      rw [hregistry]
      refine .bind (afterTools_handsOver (hm.registerAll _) (Bool.and_eq_true_iff.1 hruns).2 prompt)
        fun next hnext => ih (hnext.trans ho)
    · exact .pure trivial

/-- A relay of chunks hands over what its chunks call for and what its follow-ups hand over. -/
theorem relay_handsOver {P : HandOver → Prop} {K : Prompt → Prop}
    {followUp : Prompt → Run Session Unit}
    (hafter : ∀ response, response.callsTools toolReasons = true →
      Run.HandsOver P K (prompt.afterTools response prepared.registry : Run Session Prompt))
    (hfollow : ∀ next, K next → Run.HandsOver P (fun _ => True) (followUp next))
    (roles : ChatResponse.Roles) (chunks : List (Except Error Wire.Chunk)) :
    Run.HandsOver P (fun _ => True) (relay prompt prepared followUp roles chunks) := by
  induction chunks generalizing roles with
  | nil => exact .pure trivial
  | cons item rest ih =>
    cases item with
    | error e => exact .yield _
    | ok chunk =>
      unfold relay
      simp only
      split
      · next hruns =>
        refine .bind (hafter _ (Bool.and_eq_true_iff.1 hruns).2).attempt fun r hr => ?_
        cases r with
        | error e => exact .yield _
        | ok next => exact .bind (hfollow next (hr next rfl)) fun _ _ => ih _
      · exact .bind (.yield _) fun _ _ => ih _

/-- **Rounds of a stream.** Every hand-over is to the tools of the prompt's options. -/
theorem streamRounds_handsOver (hm : m.registry.Keyed) (left : Nat) (ho : prompt.options = o) :
    Run.HandsOver (HandOver.To (m.toolsFor o)) (fun _ => True) (m.streamRounds left prompt) := by
  induction left generalizing prompt with
  | zero => exact .yield _
  | succ left ih =>
    unfold streamRounds
    split
    · exact .yield _
    · next prepared hprepared =>
      have hregistry : prepared.registry = m.toolsFor o := ho ▸ prepare_registry hprepared
      have hexecute : Run.HandsOver (HandOver.To (m.toolsFor o)) (fun _ => True)
          (m.retry.execute (m.client.stream prepared.request)) :=
        .of_quiet fun s e he => (execute_stream_quiet m.retry m.client prepared.request s e he).2
      refine .watch (.bind hexecute.attempt fun r _ => ?_) _ _
      cases r with
      | error e => exact .yield _
      | ok chunks =>
        refine relay_handsOver (K := fun next => next.options = o) (fun response hcalls => ?_)
          (fun next hnext => ih hnext) _ _
        rw [hregistry, ← ho]
        exact afterTools_handsOver (hm.registerAll _) hcalls prompt

/-- Every hand-over of a call is to the tools of the prompt. -/
theorem call_handsOver (hm : m.registry.Keyed) (prompt : Prompt) (s : Session) :
    HandsOver (HandOver.To (m.toolsFor prompt.options)) (m.call prompt s).effects :=
  (callRounds_handsOver hm maxRounds rfl s).1

/-- Every hand-over of a stream is to the tools of the prompt. -/
theorem stream_handsOver (hm : m.registry.Keyed) (prompt : Prompt) (s : Session) :
    HandsOver (HandOver.To (m.toolsFor prompt.options)) (m.stream prompt s).effects := by
  unfold stream
  split
  · exact .of_quiet fun _ h => absurd h List.not_mem_nil
  · exact (streamRounds_handsOver hm maxRounds rfl s).1

end ChatModel

/-! ## A service whose first choice has not stopped for its calls -/

namespace CutShort

/-- A choice that calls the tool of a name, in the body of an answer. -/
def choiceBody (reason name : String) : Json :=
  .obj [("finish_reason", .str reason),
    ("message", .obj [("tool_calls", .arr [.obj [("function", .obj [("name", .str name)])]])])]

/-- The body of an answer with two choices. The first one has run out of tokens. -/
def body (name other : String) : Json :=
  .obj [("choices", .arr [choiceBody "length" name, choiceBody "tool_calls" other])]

/-- A choice that calls the tool of a name. -/
def choice (reason : Wire.FinishReason) (name : String) : Wire.Choice :=
  { finishReason := some reason
    index := none
    message := { toolCalls := some [{ function := some { name := some name } }] }
    logprobs := none }

/-- The completion with the two choices. -/
def completion (name other : String) : Wire.Completion :=
  { choices := [choice .length name, choice .toolCalls other] }

/-- A service that answers with the two choices whatever it is asked. -/
def session (name other : String) : Session :=
  { service := .script [.reply 200 [Text.encode (body name other).render] false] }

/-- The body is read back from its text. -/
theorem readsBack_body (name other : String) : (body name other).ReadsBack := .of_isPlain rfl

/-- The body is read as the completion. -/
theorem decode_body (name other : String) :
    Wire.Completion.decode (body name other).toDoc = some (completion name other) := rfl

/-- The generations of the completion. -/
def generations (name other : String) : List Generation :=
  [.ofChoice (choice .length name) "" "", .ofChoice (choice .toolCalls other) "" ""]

/-- The choices of the completion are the generations of the response. -/
theorem generations_ofCompletion (name other : String) :
    (ChatResponse.ofCompletion (completion name other)).generations = generations name other := rfl

/-- The first generation has not stopped for its calls. -/
theorem callsTools_first (name : String) :
    (Generation.ofChoice (choice .length name) "" "").callsTools ChatModel.toolReasons = false := by
  have hreason : (Generation.ofChoice (choice .length name) "" "").metadata.finishReason =
      some "length" := rfl
  rw [Bool.eq_false_iff, ne_eq, Generation.callsTools_ofChoice_iff, hreason]
  exact fun h => absurd h.2 (by decide)

/-- The second generation has stopped for its calls. -/
theorem callsTools_second (other : String) :
    (Generation.ofChoice (choice .toolCalls other) "" "").callsTools ChatModel.toolReasons = true :=
  (Generation.callsTools_ofChoice_iff _ _ _).2 ⟨List.cons_ne_nil _ _, .inl rfl⟩

/-- So the response as a whole calls for tools. -/
theorem callsTools_completion (name other : String) :
    (ChatResponse.ofCompletion (completion name other)).callsTools ChatModel.toolReasons = true := by
  rw [ChatResponse.callsTools, generations_ofCompletion, generations, List.any_cons, List.any_cons,
    callsTools_second, Bool.true_or, Bool.or_true]

/-- A run of the first choice's tool is no call of the choice that has stopped for its calls. -/
theorem not_settled {name other : String} (hne : name ≠ other) (runs : List (String × Json)) :
    ¬HandOver.Settled ⟨.ofCompletion (completion name other), (name, .obj []) :: runs⟩ := by
  rintro ⟨g, hg, hcalls, calls, hprefix, hlogged⟩
  have hgenerations : g ∈ generations name other := hg
  rcases List.mem_pair.1 hgenerations with rfl | rfl
  · rw [callsTools_first] at hcalls
    cases hcalls
  · match calls, hprefix with
    | [], _ => cases hlogged
    | call :: rest, hprefix =>
      obtain ⟨rfl, -⟩ := List.cons_prefix_cons.1 hprefix
      rw [List.mapM_cons] at hlogged
      cases hrest : rest.mapM ToolCall.logged? with
      | none =>
        rw [hrest] at hlogged
        cases hlogged
      | some entries =>
        rw [hrest] at hlogged
        exact hne (congrArg Prod.fst (List.cons.inj (Option.some.inj hlogged)).1).symm

end CutShort

namespace ChatModel

variable {m : ChatModel} {prompt : Prompt} {prepared : PreparedRequest}

/-- The tool that the first choice calls is run. -/
theorem afterTools_cutShort {σ : Type} {registry : ToolRegistry} {name : String} {t : Tool}
    (hfound : registry.get? name = some t) (other : String) (prompt : Prompt) (s : σ) :
    (prompt.afterTools (.ofCompletion (CutShort.completion name other)) registry s).effects =
      [.delegated (.ofCompletion (CutShort.completion name other)), .ran t.name (.obj [])] := by
  have hmessage : (ChatResponse.ofCompletion (CutShort.completion name other)).callingMessage? =
      some (Generation.ofChoice (CutShort.choice .length name) "" "").output := rfl
  cases hran : t.run (.obj []) with
  | ok result =>
    have hruns : registry.Runs ⟨"", "function", name, ""⟩ _ :=
      .intro t (.obj []) result hfound rfl hran
    rw [Prompt.afterTools_of_runs hmessage (.cons hruns .nil)]
    rfl
  | error e =>
    have hfails : registry.Fails ⟨"", "function", name, ""⟩ _ _ :=
      .failed t (.obj []) e hfound rfl hran
    have hcalls : (Generation.ofChoice (CutShort.choice .length name) "" "").output.toolCalls =
        [] ++ [⟨"", "function", name, ""⟩] := rfl
    rw [Prompt.afterTools_of_fails hmessage hcalls .nil hfails]
    rfl

/-- A model that runs tools and knows one runs it for the choice that has run out of tokens. -/
theorem exists_filter_call_cutShort (hm : m.registry.Keyed) (hruns : m.RunsTools prompt)
    {name : String} {t : Tool} (hfound : (m.toolsFor prompt.options).get? name = some t)
    (other : String) :
    ∃ more, (m.call prompt (CutShort.session name other)).effects.filter Effect.concernsTools =
      .delegated (.ofCompletion (CutShort.completion name other)) ::
        .ran name (.obj []) :: more := by
  obtain ⟨hattempts, prepared, hprepare, hproxies⟩ := hruns
  obtain ⟨_, es, answers, hprepare', hexecute⟩ := completes_of_render hprepare hattempts
    (CutShort.readsBack_body name other) (CutShort.decode_body name other)
    (s := CutShort.session name other) rfl rfl
  obtain rfl := Except.ok.inj (hprepare.symm.trans hprepare')
  obtain ⟨asking, u, hrespond⟩ : ∃ asking u, m.respond prepared (CutShort.session name other) =
      ⟨asking, u, .ok (.ofCompletion (CutShort.completion name other))⟩ :=
    (exists_respond_eq hexecute).imp fun _ h => ⟨_, h⟩
  have hunsettled : ¬Settled prepared (.ofCompletion (CutShort.completion name other)) := by
    rw [settled_iff_of_respond (congrArg Outcome.value hrespond), runsTools, hproxies,
      CutShort.callsTools_completion]
    decide
  have hasking : asking.filter Effect.concernsTools = [] := by
    have hquiet := concernsTools_respond m prepared (CutShort.session name other)
    rw [hrespond] at hquiet
    exact List.filter_eq_nil_iff.2 fun e he => Bool.eq_false_iff.1 (hquiet e he)
  rw [← prepare_registry hprepare] at hfound
  -- The round runs the tool, whatever becomes of the rounds after it.
  obtain ⟨fs, hfs⟩ := Run.exists_effects_bind (prompt.afterTools
    (.ofCompletion (CutShort.completion name other)) prepared.registry) (m.callRounds 19) u
  rcases hround : (prompt.afterTools (.ofCompletion (CutShort.completion name other))
    prepared.registry >>= m.callRounds 19) u with ⟨rounds, v, value⟩
  rw [hround, afterTools_cutShort hfound, keyed_of_prepare hm hprepare name t hfound] at hfs
  refine ⟨fs.filter Effect.concernsTools, ?_⟩
  rw [call, maxRounds_eq, callRounds_of_not_settled hprepare hrespond hunsettled hround]
  show (asking ++ rounds).filter Effect.concernsTools = _
  rw [List.filter_append, hasking, show rounds = _ from hfs]
  rfl

/-- Whatever the service answers, every hand-over of a call or a stream of the prompt is in `P`. -/
def HandsOverOnly (m : ChatModel) (prompt : Prompt) (P : HandOver → Prop) : Prop :=
  ∀ s, HandsOver P (m.call prompt s).effects ∧ HandsOver P (m.stream prompt s).effects

/-- What holds of every hand-over to the tools of a prompt holds of all there are. -/
theorem handsOverOnly_of_to (hm : m.registry.Keyed) {P : HandOver → Prop}
    (hP : ∀ h : HandOver, h.To (m.toolsFor prompt.options) → P h) : m.HandsOverOnly prompt P :=
  fun s => ⟨(call_handsOver hm prompt s).mono hP, (stream_handsOver hm prompt s).mono hP⟩

/-- A model that runs no tools for the prompt hands nothing over. -/
theorem handsOverOnly_of_not_runsTools (h : ¬m.RunsTools prompt) (P : HandOver → Prop) :
    m.HandsOverOnly prompt P := by
  have hkind : ToolKind Effect.concernsTools := fun _ h => h
  intro s
  have hcall := call_of_not_runsTools hkind (Answer.unscripted_asks s.mostAsks) h
  exact ⟨.of_quiet (hcall.eq_false s.answers_mostAsks),
    .of_quiet ((stream_of_not_runsTools hkind h).eq_false s.answers_mostAsks)⟩

/-- **Which generations have their tool calls run.** Every hand-over of a call or a stream runs
calls of the first generation that has any, if some generation has stopped in order to have its
calls run; that is the same one if no other generation has calls. Whatever the service answers, only
calls of generations that have stopped for it are run exactly if the model runs no tools for the
prompt or knows none. -/
theorem handsOver_settled_iff (client : Client) (settings : List Setting) (prompt : Prompt) :
    (configured client settings).HandsOverOnly prompt HandOver.IsFirst ∧
    (configured client settings).HandsOverOnly prompt (fun h =>
      (h.response.generations.filter (·.output.hasToolCalls)).length ≤ 1 → h.Settled) ∧
    ((configured client settings).HandsOverOnly prompt HandOver.Settled ↔
      ((configured client settings).RunsTools prompt →
        ∀ name, ((configured client settings).toolsFor prompt.options).get? name = none)) := by
  have hm := configured_keyed client settings
  generalize configured client settings = m at hm ⊢
  refine ⟨handsOverOnly_of_to hm fun h hto => hto.first,
    handsOverOnly_of_to hm fun h hto => hto.first.settled, fun hall hruns name => ?_,
    fun hnone => ?_⟩
  · cases hfound : (m.toolsFor prompt.options).get? name with
    | none => rfl
    | some t =>
      -- The other choice calls a tool of any other name.
      have hne : name ≠ name ++ "?" := fun heq => by
        have hlength := congrArg String.length heq
        simp at hlength
      obtain ⟨more, hmore⟩ := exists_filter_call_cutShort hm hruns hfound (name ++ "?")
      obtain ⟨runs, hsettled⟩ := (hall _).1.exists_of_filter_eq hmore
      exact absurd hsettled (CutShort.not_settled hne runs)
  · by_cases hruns : m.RunsTools prompt
    · refine handsOverOnly_of_to hm fun h hto => hto.first.settled_of_runs_eq_nil ?_
      refine List.eq_nil_iff_forall_not_mem.2 fun run hrun => ?_
      have hsome := hto.found run hrun
      rw [hnone hruns run.1] at hsome
      cases hsome
    · exact handsOverOnly_of_not_runsTools hruns _

/-- A call of a generation that has run out of tokens is run. -/
theorem not_handsOver_settled_greeting :
    ¬HandsOver HandOver.Settled (Greeting.answering.call (.ofText "Hello")
      (CutShort.session "again" "other")).effects := by
  have hkeyed : Greeting.answering.registry.Keyed :=
    configured_keyed .keyless [.options { callbacks := [Tool.echo "again"] }]
  have hruns : Greeting.answering.RunsTools (.ofText "Hello") := ⟨by decide, _, rfl, rfl⟩
  have hfound : (Greeting.answering.toolsFor none).get? "again" = some (Tool.echo "again") := rfl
  obtain ⟨more, hmore⟩ := exists_filter_call_cutShort hkeyed hruns hfound "other"
  intro hall
  obtain ⟨runs, hsettled⟩ := hall.exists_of_filter_eq hmore
  exact CutShort.not_settled (by decide) runs hsettled

end ChatModel

end ModelClient
