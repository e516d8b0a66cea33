import ModelClient.Proofs.FollowUp

/-!
# What comes after the error of a stream

A stream hands its errors to the consumer as items. Preparing a prompt, asking for an answer, the
frames of an answer and the tools each have an exit of their own, and nothing is done after it. But
a round does not see how the rounds inside it end: after an error of the follow-up it goes on with
the chunks that are left of its own answer. So an error is the last thing that a stream does if no
answer has chunks after one that asks for tools. Whatever the answers are, it is so exactly if there
never is a follow-up.

Handlers are told about an error and about the end of each round around it, so what they are told
does not count here.

## Main statements

* `ChatModel.errorsAreLast_iff`: for which answers, and for which models and prompts whatever the
  answers are, the errors of a stream come last.
-/

namespace ModelClient

open Json

/-! ## Errors among the effects of a run -/

/-- Whether a handler is told something. -/
def Effect.isObserved : Effect → Bool
  | .observed _ => true
  | _ => false

/-- Whether the consumer of a stream receives an error. -/
def Effect.isFailure : Effect → Bool
  | .yielded (.error _) => true
  | _ => false

/-- What is done apart from telling handlers. -/
def deeds (effects : List Effect) : List Effect := effects.filter fun e => !e.isObserved

/-- Nothing is done after the consumer has received an error. -/
def ErrorsAreLast (effects : List Effect) : Prop :=
  (deeds effects).Pairwise fun e _ => e.isFailure = false

/-- What is done in two parts is what is done in the first and then in the second. -/
theorem deeds_append (es fs : List Effect) : deeds (es ++ fs) = deeds es ++ deeds fs :=
  List.filter_append ..

/-- Watching a round does nothing but tell handlers. -/
theorem deeds_watch (observer : Observer) (context : Observation.Context)
    (round : Run Session Unit) (s : Session) :
    deeds (watch observer context round s).effects = deeds (round s).effects :=
  filter_watch (fun _ => rfl) observer context round s

/-- After a single effect there is nothing. -/
theorem errorsAreLast_singleton (e : Effect) : ErrorsAreLast [e] :=
  (List.pairwise_singleton _ e).filter _

/-- Without errors nothing comes after one. -/
theorem errorsAreLast_of_forall {es : List Effect} (h : ∀ e ∈ es, e.isFailure = false) :
    ErrorsAreLast es :=
  List.pairwise_iff_forall_sublist.2 fun hpair =>
    h _ (List.mem_of_mem_filter (hpair.subset List.mem_cons_self))

/-- After effects without an error others may come. -/
theorem ErrorsAreLast.append {es fs : List Effect} (hes : ∀ e ∈ es, e.isFailure = false)
    (hfs : ErrorsAreLast fs) : ErrorsAreLast (es ++ fs) := by
  rw [ErrorsAreLast, deeds_append, List.pairwise_append]
  exact ⟨errorsAreLast_of_forall hes, hfs, fun e he _ _ => hes e (List.mem_of_mem_filter he)⟩

/-- Only the last item of the consumer may be an error. -/
theorem ErrorsAreLast.pairwise_yielded {es : List Effect} (h : ErrorsAreLast es) :
    (yielded es).Pairwise fun item _ => ∃ part, item = .ok part := by
  have hitems : yielded es = (deeds es).filterMap Effect.item? := by
    rw [yielded, deeds, List.filterMap_filter]
    refine List.filterMap_congr fun e _ => ?_
    cases e <;> rfl
  rw [hitems, List.pairwise_filterMap]
  refine h.imp fun {e} _ hfine item hitem _ _ => ?_
  cases e <;> cases hitem
  cases item with
  | ok part => exact ⟨part, rfl⟩
  | error _ => cases hfine

/-! ## Runs whose errors come last -/

namespace Run

variable {σ α β : Type} {I : σ → Prop} {Q : α → Prop}

/-- From every state in `I`, the run does nothing after an error. -/
def FailsLast (I : σ → Prop) (x : Run σ α) : Prop := ∀ s, I s → ErrorsAreLast (x s).effects

namespace FailsLast

/-- A run without errors. -/
theorem of_quiet {x : Run σ α} (h : Bounded Effect.isFailure I 0 Q x) : FailsLast I x :=
  fun _ hs => errorsAreLast_of_forall (h.eq_false hs)

/-- A run without errors and then another. -/
theorem quiet_bind {x : Run σ α} {f : α → Run σ β} (hx : Bounded Effect.isFailure I 0 Q x)
    (hf : ∀ a, Q a → FailsLast I (f a)) : FailsLast I (x >>= f) := by
  intro s hs
  have hbefore := hx.eq_false hs
  have hwithin := hx s hs
  show ErrorsAreLast (Run.bind x f s).effects
  unfold Run.bind
  generalize x s = o at hbefore hwithin
  rcases o with ⟨effects, t, stop | a⟩
  · exact errorsAreLast_of_forall hbefore
  · exact .append hbefore (hf a (hwithin.value a rfl) t hwithin.state)

/-- Nothing comes after the run. -/
theorem bind_pure {x : Run σ α} (h : FailsLast I x) (b : β) :
    FailsLast I (x >>= fun _ => Pure.pure b) := by
  intro s hs
  rw [effects_bind_pure]
  exact h s hs

/-- An item is handed over, and nothing is done after it. -/
theorem yield {I : Session → Prop} (item : Except Error ChatResponse) :
    FailsLast I (Session.yield item) :=
  fun _ _ => errorsAreLast_singleton _

/-- An observation does nothing of its own. -/
theorem watch {I : Session → Prop} {round : Run Session Unit} (h : FailsLast I round)
    (observer : Observer) (context : Observation.Context) :
    FailsLast I (ModelClient.watch observer context round) := by
  intro s hs
  rw [ErrorsAreLast, deeds_watch]
  exact h s hs

end FailsLast

/-- A part is no error. -/
theorem Bounded.yield_ok {P : Answer → Prop} (part : ChatResponse) :
    Bounded Effect.isFailure (Session.Answers P) 0 (fun _ => True) (Session.yield (.ok part)) :=
  fun _ hs => ⟨Nat.le_refl 0, hs, fun _ _ => trivial⟩

/-- What every value of the run satisfies may be added to a bound. -/
theorem Bounded.and_value {p : Effect → Bool} {n : Nat} {R : α → Prop} {x : Run σ α}
    (h : Bounded p I n Q x) (hvalue : ∀ s a, (x s).value = .ok a → R a) :
    Bounded p I n (fun a => Q a ∧ R a) x := fun s hs =>
  ⟨(h s hs).count, (h s hs).state, fun a ha => ⟨(h s hs).value a ha, hvalue s a ha⟩⟩

end Run

/-- A report is no error for the consumer. -/
theorem unreported_isFailure : Unreported Effect.isFailure := by
  intro e he
  cases e <;> first | rfl | cases he

/-- Answering tool calls hands the consumer no error. -/
theorem roundCost_isFailure (registry : ToolRegistry) : RoundCost Effect.isFailure registry 0 :=
  ⟨fun _ => Nat.le_refl 0, fun _ _ _ _ => rfl⟩

/-- If the conversation goes on after a response, a call has been run. -/
theorem Prompt.exists_runs_of_afterTools {σ : Type} {p next : Prompt} {response : ChatResponse}
    {registry : ToolRegistry} {s : σ}
    (h : (p.afterTools response registry s).value = .ok next) :
    ∃ call run, registry.Runs call run := by
  cases hmessage : response.callingMessage? with
  | none =>
    rw [afterTools, Run.emit_bind, hmessage] at h
    cases h
  | some message =>
    rcases registry.runs_or_fails message.toolCalls with
      ⟨runs, hruns⟩ | ⟨before, call, after, runs, es, e, hcalls, hruns, hfails⟩
    · cases hcalls : message.toolCalls with
      | nil => exact absurd hcalls (ChatResponse.toolCalls_ne_nil hmessage)
      | cons call rest =>
        rw [hcalls] at hruns
        obtain ⟨run, _, hrun, -, -⟩ := List.forall₂_cons_left_iff.1 hruns
        exact ⟨call, run, hrun⟩
    · rw [afterTools_of_fails hmessage hcalls hruns hfails] at h
      cases h

/-! ## Chunks that ask for tools -/

/-- Only the last chunk of a stream may ask for tools. -/
def AsksLast (chunks : List (Except Error Wire.Chunk)) : Prop :=
  chunks.Pairwise fun item _ => ∀ chunk, item = .ok chunk → chunk.asks = false

/-- Nothing follows the chunk that asks for tools. -/
theorem AsksLast.eq_nil {chunk : Wire.Chunk} {rest : List (Except Error Wire.Chunk)}
    (h : AsksLast (.ok chunk :: rest)) (hasks : chunk.asks = true) : rest = [] := by
  refine List.eq_nil_iff_forall_not_mem.2 fun item hitem => ?_
  have hnot := (List.pairwise_cons.1 h).1 item hitem chunk rfl
  rw [hasks] at hnot
  cases hnot

/-- Only the last chunk of a streamed answer may ask for tools. -/
def Answer.AsksLast : Answer → Prop
  | .reply status pieces breaksOff =>
    Client.isSuccess status = true → ModelClient.AsksLast (Client.chunks pieces breaksOff)
  | .drop | .hang => True

namespace ChatModel

variable {m : ChatModel} {prompt : Prompt} {prepared : PreparedRequest} {P : Answer → Prop}

/-- The model runs tools for the prompt, and one of them can answer a call. -/
def GoesOn (m : ChatModel) (prompt : Prompt) : Prop :=
  m.RunsTools prompt ∧ ∃ call run, (m.toolsFor prompt.options).Runs call run

/-- A round does nothing after an error if the conversation only goes on after its last chunk. -/
theorem relay_failsLast {K : Prompt → Prop} {followUp : Prompt → Run Session Unit}
    (hfollow : ∀ next, K next → Run.FailsLast (Session.Answers P) (followUp next))
    (roles : ChatResponse.Roles) {chunks : List (Except Error Wire.Chunk)}
    (hafter : prepared.proxiesToolCalls = false → ∀ response,
      Run.Bounded Effect.isFailure (Session.Answers P) 0 (fun next => K next ∧ AsksLast chunks)
        (prompt.afterTools response prepared.registry)) :
    Run.FailsLast (Session.Answers P) (relay prompt prepared followUp roles chunks) := by
  induction chunks generalizing roles with
  | nil => exact .of_quiet (.pure (Q := fun _ => True) trivial)
  | cons item rest ih =>
    cases item with
    | error e => exact .yield _
    | ok chunk =>
      have hcalls := ChatResponse.callsTools_ofStreamed roles chunk
      unfold relay
      simp only [runsTools, hcalls]
      by_cases hruns : (!prepared.proxiesToolCalls && chunk.asks) = true
      · obtain ⟨hproxies, hasks⟩ := Bool.and_eq_true_iff.1 hruns
        rw [if_pos hruns]
        refine .quiet_bind (hafter (by simpa using hproxies) _).attempt fun r hr => ?_
        cases r with
        | error e => exact .yield _
        | ok next =>
          obtain ⟨hnext, hlast⟩ := hr next rfl
          -- The follow-up comes after the last chunk, so the round ends with it.
          obtain rfl := hlast.eq_nil hasks
          exact (hfollow next hnext).bind_pure ()
      · rw [if_neg hruns]
        refine .quiet_bind (.yield_ok _) fun _ _ => ih _ fun hproxies response => ?_
        exact (hafter hproxies response).mono (Nat.le_refl 0) fun next h =>
          ⟨h.1, (List.pairwise_cons.1 h.2).2⟩

/-- Rounds for the prompt do nothing after an error if only last chunks ask for tools, or if the
conversation never goes on. -/
theorem streamRounds_failsLast (m : ChatModel) (prompt : Prompt) (left : Nat) (turns : List Turn) :
    Run.FailsLast (Session.Answers fun a => m.GoesOn prompt → a.AsksLast)
      (m.streamRounds left (prompt.after turns)) := by
  induction left generalizing turns with
  | zero => exact .yield _
  | succ left ih =>
    unfold streamRounds
    split
    · exact .yield _
    · next prepared hprepared =>
      obtain ⟨first, wire, hfirst, -, hnext⟩ := prepare_after_eq_ok_iff.1 hprepared
      have hregistry : prepared.registry = m.toolsFor (prompt.after turns).options :=
        prepare_registry hprepared
      have hfirstProxies : first.proxiesToolCalls = prepared.proxiesToolCalls := by rw [hnext]
      have hP : Answer.Unscripted fun a => m.GoesOn prompt → a.AsksLast :=
        ⟨fun _ => trivial, fun _ => nofun⟩
      refine .watch ?_ _ _
      -- Without an attempt there are no chunks, whatever the service would answer.
      by_cases hattempts : m.retry.maxAttempts = 0
      · rw [RetryPolicy.execute_of_zero hattempts]
        refine .quiet_bind (.attempt (Q := fun _ => False) (.fail _)) fun r hr => ?_
        cases r with
        | error e => exact .yield _
        | ok chunks => exact (hr chunks rfl).elim
      · have hstream : Run.Bounded Effect.isFailure _ 0 _ (m.client.stream prepared.request) :=
          .stream hP (Nat.le_refl 0)
        refine .quiet_bind (.attempt (.execute_quiet unreported_isFailure _ hstream)) fun r hr => ?_
        cases r with
        | error e => exact .yield _
        | ok chunks =>
          obtain ⟨status, pieces, breaksOff, hlast, hsuccess, rfl⟩ := hr _ rfl
          -- A follow-up is the prompt after one more turn, and only a conversation that goes on has
          -- one.
          refine relay_failsLast (K := fun next => ∃ turns, next = prompt.after turns) ?_ _
            fun hproxies response => ?_
          · rintro _ ⟨turns, rfl⟩
            exact ih turns
          · refine ((Run.Bounded.afterTools (roundCost_isFailure _) _ response).and_value
              (R := fun _ => m.GoesOn prompt) fun s next hnext => ?_).mono (Nat.le_refl 0) ?_
            · obtain ⟨call, run, hrun⟩ := Prompt.exists_runs_of_afterTools hnext
              exact ⟨.of_prepare hattempts hfirst (hfirstProxies.trans hproxies), call, run,
                hregistry ▸ hrun⟩
            · rintro _ ⟨⟨turn, rfl⟩, hgoesOn⟩
              exact ⟨⟨_, prompt.after_after turns [turn]⟩, hlast hgoesOn hsuccess⟩

/-- A stream of the prompt does nothing after an error if only last chunks ask for tools, or if the
conversation never goes on. -/
theorem stream_failsLast :
    Run.FailsLast (Session.Answers fun a => m.GoesOn prompt → a.AsksLast) (m.stream prompt) := by
  intro s hs
  unfold stream
  split
  · exact .nil
  · have hrounds := streamRounds_failsLast m prompt maxRounds [] s hs
    rwa [Prompt.after_nil] at hrounds

end ChatModel

/-! ## A follow-up that breaks off -/

namespace BrokenOff

/-- A frame that calls a tool. -/
def asking (name arguments : String) : Wire.Frame :=
  { finishReason := some .toolCalls
    delta := { toolCalls := some [{
      id := some "1"
      function := some { name := some name, arguments := some arguments } }] } }

/-- A frame of text. -/
def text : Wire.Frame := { delta := { content := some (.text "Hi") } }

/-- The service's answer to a follow-up: the connection breaks before anything arrives. -/
def rest : Session := { service := .script [.reply 200 [] true] }

/-- A service that calls a tool and then says something, in one answer. -/
def session (name arguments : String) : Session :=
  { service := .script [.reply 200
      (([asking name arguments, text].map fun f => f.chunk.toJson).map eventBytes) false,
      .reply 200 [] true] }

/-- The frames are read back from their text. -/
theorem readsBack_frame {name arguments : String} {f : Wire.Frame}
    (h : f ∈ [asking name arguments, text]) : f.chunk.toJson.ReadsBack := by
  rcases List.mem_pair.1 h with rfl | rfl <;> exact .of_isPlain rfl

/-- The answer has the two chunks, and something comes after the call. -/
theorem chunks_session (name arguments : String) :
    Client.chunks (([asking name arguments, text].map fun f => f.chunk.toJson).map eventBytes)
      false = [.ok (asking name arguments).chunk, .ok text.chunk] := by
  have hvs : ∀ v ∈ [asking name arguments, text].map fun f => f.chunk.toJson, v.ReadsBack := by
    intro v hv
    obtain ⟨f, hf, rfl⟩ := List.mem_map.1 hv
    exact readsBack_frame hf
  have hchunks : ([asking name arguments, text].map fun f => f.chunk.toJson).map
      (fun v => Wire.Chunk.decode v.toDoc) =
        [(asking name arguments).chunk, text.chunk].map some := rfl
  rw [Client.chunks_eventBytes hvs, Wire.chunks, Wire.frames_eventLines hvs hchunks]
  rfl

/-- The call of the frame. -/
def call (name arguments : String) : ToolCall := ⟨"1", "function", name, arguments⟩

/-- The call of the frame is run if any call of this name with these arguments is. -/
theorem exists_runs_call {registry : ToolRegistry} {other : ToolCall} {run : ToolRun}
    (h : registry.Runs other run) :
    ∃ run, registry.Runs (call other.name other.arguments) run := by
  obtain ⟨t, arguments, result, hfound, hread, hran⟩ := h
  exact ⟨_, .intro t arguments result hfound hread hran⟩

/-- The tool answers the call, and the conversation can go on. -/
theorem exists_afterTools_asking {registry : ToolRegistry} {name arguments : String}
    {run : ToolRun} (hrun : registry.Runs (call name arguments) run) (prompt : Prompt)
    (roles : ChatResponse.Roles) (s : Session) :
    ∃ es next, prompt.afterTools (ChatResponse.ofStreamed roles
        (asking name arguments).chunk.toCompletion).1 registry s = ⟨es, s, .ok next⟩ ∧
      yielded es = [] := by
  obtain ⟨id, role, hgenerations⟩ :=
    ChatResponse.exists_generations_ofStreamed roles (asking name arguments)
  have hmessage := ChatResponse.callingMessage?_of_generations_eq hgenerations
    (List.cons_ne_nil _ _)
  exact ⟨_, _, Prompt.afterTools_of_runs hmessage (.cons hrun .nil) prompt s, rfl⟩

end BrokenOff

namespace ChatModel

variable {m : ChatModel} {prompt : Prompt} {prepared : PreparedRequest}

/-- Asking for an answer hands nothing to the consumer. -/
theorem yielded_execute_stream {s t : Session} {es : List Effect}
    {chunks : List (Except Error Wire.Chunk)}
    (h : m.retry.execute (m.client.stream prepared.request) s = ⟨es, t, .ok chunks⟩) :
    yielded es = [] := by
  have hquiet := execute_stream_quiet m.retry m.client prepared.request s
  rw [h] at hquiet
  exact List.filterMap_eq_nil_iff.2 fun e he => (hquiet e he).1

/-- A follow-up that breaks off hands an error to the consumer and nothing else. -/
theorem streamRounds_brokenOff (hattempts : m.retry.maxAttempts ≠ 0) (left : Nat)
    (next : Prompt) :
    ∃ es e, m.streamRounds left next BrokenOff.rest = ⟨es, BrokenOff.rest, .ok ()⟩ ∧
      yielded es = [.error e] := by
  cases left with
  | zero => exact ⟨_, _, rfl, rfl⟩
  | succ left =>
    cases hprepare : m.prepare next true with
    | error e =>
      rw [streamRounds, hprepare]
      exact ⟨_, e, rfl, rfl⟩
    | ok prepared =>
      have hchunks : Client.chunks [] true = [.error .network] := rfl
      obtain ⟨sent, hsent⟩ := Client.stream_of_reply (s := BrokenOff.rest) rfl rfl rfl m.client
        (prepare_stream hprepare)
      obtain ⟨told, htold⟩ := m.retry.execute_of_ok hattempts hsent
      rw [hchunks] at htold
      obtain ⟨round, hround, hrelay⟩ := exists_round_of_execute hprepare htold left
      have hitems := yielded_watch m.observer (context prepared.options) round BrokenOff.rest
      obtain ⟨fs, hfs, -⟩ := watch_of_ok unreported_isFailure m.observer
        (context prepared.options) hrelay
      rw [hfs, hrelay, yielded_append, yielded_execute_stream htold] at hitems
      exact ⟨fs, .network, hround.trans hfs, hitems⟩

/-- The round goes on with the text after the error of the follow-up. -/
theorem relay_brokenOff (hattempts : m.retry.maxAttempts ≠ 0)
    (hproxies : prepared.proxiesToolCalls = false) {name arguments : String} {run : ToolRun}
    (hrun : prepared.registry.Runs (BrokenOff.call name arguments) run) :
    ∃ es e part, relay prompt prepared (m.streamRounds 19) {}
        [.ok (BrokenOff.asking name arguments).chunk, .ok BrokenOff.text.chunk]
          BrokenOff.rest = ⟨es, BrokenOff.rest, .ok ()⟩ ∧
      yielded es = [.error e, .ok part] := by
  obtain ⟨es, next, hafter, hquiet⟩ :=
    BrokenOff.exists_afterTools_asking hrun prompt {} BrokenOff.rest
  obtain ⟨fs, e, hfollow, hitems⟩ := streamRounds_brokenOff (m := m) hattempts 19 next
  have hasks := (BrokenOff.asking name arguments).asks_chunk_of_toolCalls
    (List.cons_ne_nil _ _) rfl
  have htext : ∀ chunk ∈ [BrokenOff.text.chunk], chunk.asks = false := by
    simpa using BrokenOff.text.asks_chunk_of_calls_eq_nil rfl
  obtain ⟨part, hpart⟩ : ∃ part, relay prompt prepared (m.streamRounds 19)
      (ChatResponse.ofStreamed {} (BrokenOff.asking name arguments).chunk.toCompletion).2
        [.ok BrokenOff.text.chunk] BrokenOff.rest =
      ⟨[.yielded (.ok part)], BrokenOff.rest, .ok ()⟩ :=
    ⟨_, relay_of_forall_settled prompt _ (.inr htext) rfl _ []⟩
  refine ⟨es ++ (fs ++ [.yielded (.ok part)]), e, part, ?_, ?_⟩
  · rw [relay_of_followUp hproxies hasks hafter hfollow, hpart]
  · rw [yielded_append, yielded_append, hquiet, hitems]
    rfl

/-- If a conversation can go on, a service can make the stream go on after an error. -/
theorem yielded_stream_brokenOff (hattempts : m.retry.maxAttempts ≠ 0)
    (hprepare : m.prepare prompt true = .ok prepared) (hproxies : prepared.proxiesToolCalls = false)
    {name arguments : String} {run : ToolRun}
    (hrun : (m.toolsFor prompt.options).Runs (BrokenOff.call name arguments) run) :
    ∃ e part, yielded (m.stream prompt (BrokenOff.session name arguments)).effects =
      [.error e, .ok part] := by
  obtain ⟨sent, hsent⟩ := Client.stream_of_reply
    (s := BrokenOff.session name arguments) rfl rfl rfl m.client
      (prepare_stream hprepare)
  obtain ⟨told, htold⟩ := m.retry.execute_of_ok hattempts hsent
  rw [BrokenOff.chunks_session] at htold
  obtain ⟨round, hround, hrelay⟩ := exists_round_of_execute hprepare htold 19
  obtain ⟨es, e, part, hchunks, hitems⟩ := relay_brokenOff hattempts hproxies
    (prepare_registry hprepare ▸ hrun)
  refine ⟨e, part, ?_⟩
  have hstream : m.stream prompt (BrokenOff.session name arguments) = _ := hround
  rw [hstream, yielded_watch, hrelay, yielded_append, yielded_execute_stream htold,
    List.nil_append, ← hitems]
  exact congrArg _ (congrArg Outcome.effects hchunks)

/-- Whether tools are run does not depend on how the prompt is asked. -/
theorem RunsTools.exists_prepare (h : m.RunsTools prompt) :
    ∃ prepared, m.prepare prompt true = .ok prepared ∧ prepared.proxiesToolCalls = false := by
  obtain ⟨-, prepared, hprepare, hproxies⟩ := h
  obtain ⟨wire, tools, hwire, htools, rfl⟩ := prepare_eq_ok_iff.1 hprepare
  exact ⟨_, prepare_eq_ok_iff.2 ⟨wire, tools, hwire, htools, rfl⟩, hproxies⟩

/-- **Errors come last.** After the error of a stream no item is handed to the consumer, no tool is
run and no request is sent, if only the last chunk of an answer asks for tools. It is so whatever
the service answers exactly if the conversation of the prompt never goes on: the model runs no tools
for the prompt, or none of them can answer a call. -/
theorem errorsAreLast_iff (m : ChatModel) (prompt : Prompt) :
    (∀ s, (m.GoesOn prompt → ∀ a ∈ s.answers, a.AsksLast) →
      ErrorsAreLast (m.stream prompt s).effects) ∧
    ((∀ s, ErrorsAreLast (m.stream prompt s).effects) ↔ ¬m.GoesOn prompt) := by
  have hlast : ∀ s, (m.GoesOn prompt → ∀ a ∈ s.answers, a.AsksLast) →
      ErrorsAreLast (m.stream prompt s).effects := fun s hs =>
    stream_failsLast s fun a ha hgoesOn => hs hgoesOn a ha
  refine ⟨hlast, fun hall hgoesOn => ?_, fun hnot s => hlast s fun hgoesOn => absurd hgoesOn hnot⟩
  obtain ⟨hruns, call, run, hrun⟩ := hgoesOn
  obtain ⟨prepared, hprepare, hproxies⟩ := hruns.exists_prepare
  obtain ⟨_, hreceived⟩ := BrokenOff.exists_runs_call hrun
  obtain ⟨e, part, hitems⟩ := yielded_stream_brokenOff hruns.1 hprepare hproxies hreceived
  -- The consumer receives an error and then a part.
  have hpair := (hall (BrokenOff.session call.name call.arguments)).pairwise_yielded
  rw [hitems] at hpair
  obtain ⟨_, herror⟩ := (List.pairwise_cons.1 hpair).1 _ List.mem_cons_self
  cases herror

/-- The follow-up to the tool's result breaks off, and the text after the call still arrives. -/
theorem yielded_stream_after_error :
    ∃ e part, yielded (Greeting.answering.stream (.ofText "Hello")
      (BrokenOff.session "again" "[]")).effects = [.error e, .ok part] := by
  have hread : Json.ofString? "[]" = some (.arr []) := by decide
  have hrun : (Greeting.answering.toolsFor none).Runs (BrokenOff.call "again" "[]") _ :=
    .intro (Tool.echo "again") (.arr []) (.arr []) rfl hread rfl
  have hattempts : Greeting.answering.retry.maxAttempts ≠ 0 := by decide
  have hruns : Greeting.answering.RunsTools (.ofText "Hello") := ⟨hattempts, _, rfl, rfl⟩
  obtain ⟨prepared, hprepare, hproxies⟩ := hruns.exists_prepare
  exact yielded_stream_brokenOff hattempts hprepare hproxies hrun

end ChatModel

end ModelClient
