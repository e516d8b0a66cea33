import ModelClient.Proofs.EventLines
import ModelClient.Proofs.ToolRounds

/-!
# How many round trips a prompt takes

A round trip hands a response over to the tools that it asks for. A call makes at most `maxRounds`
of them. A stream counts how deep its rounds are nested, not how many there are, so the limit bounds
it only as long as no answer asks for tools more than once. In general a stream makes at most
`nestedRounds w maxRounds` round trips if its answers ask `w` times each, and a service that always
gives the same answer makes it reach that number.

## Main statements

* `ChatModel.roundTrips_limits`: the limit of a call, the limit of a stream, both attained, and for
  which answers the limit of a stream is `maxRounds`.
-/

namespace ModelClient

open Json

/-- Whether the effect hands a response over to the tools. -/
def Effect.isDelegated : Effect → Bool
  | .delegated _ => true
  | _ => false

/-- How many round trips some effects contain. -/
def roundTrips (effects : List Effect) : Nat := effects.countP Effect.isDelegated

/-- The round trips of two parts add up. -/
theorem roundTrips_append (es fs : List Effect) :
    roundTrips (es ++ fs) = roundTrips es + roundTrips fs :=
  List.countP_append

/-- Handing a response over is part of answering its calls. -/
theorem toolKind_isDelegated : ToolKind Effect.isDelegated := by
  intro e he
  cases e <;> first | rfl | cases he

/-- A hand-over is one round trip, and running the tools is none. -/
theorem roundCost_isDelegated (registry : ToolRegistry) :
    RoundCost Effect.isDelegated registry 1 :=
  ⟨fun _ => Nat.le_refl 1, fun _ _ _ _ => rfl⟩

namespace ChatModel

/-- **Calls.** A call makes no more round trips than it has rounds. -/
theorem roundTrips_call_le (m : ChatModel) (prompt : Prompt) (s : Session) :
    roundTrips (m.call prompt s).effects ≤ maxRounds := by
  have h := callRounds_bounded toolKind_isDelegated (Answer.unscripted_asks s.mostAsks)
    (roundCost_isDelegated (m.toolsFor prompt.options)) maxRounds prompt rfl s s.answers_mostAsks
  rw [Nat.mul_one] at h
  exact h.count

/-- **Streams.** A stream makes no more round trips than it has rounds, one inside another. -/
theorem roundTrips_stream_le (m : ChatModel) (prompt : Prompt) (s : Session) :
    roundTrips (m.stream prompt s).effects ≤ nestedRounds s.mostAsks maxRounds := by
  have h := stream_bounded (m := m) toolKind_isDelegated prompt (roundCost_isDelegated _) s
    s.answers_mostAsks
  rw [Nat.one_mul] at h
  exact h.count

end ChatModel

/-! ## A service that asks again and again -/

namespace Insatiable

/-- A model with a tool that is registered and enabled. -/
def model : ChatModel :=
  (ChatModel.ofClient .keyless).withOptions
    { callbacks := [Tool.echo "again"] }

/-- A frame that calls the tool and gives that as the reason for having stopped. -/
def frame : Json :=
  .obj [("choices", .arr [.obj [
    ("delta", .obj [("tool_calls", .arr [.obj [
      ("function", .obj [("name", .str "again")]), ("id", .str "1")]])]),
    ("finish_reason", .str "tool_calls")]])]

/-- The chunk of the frame. -/
def chunk : Wire.Chunk :=
  { choices := [{
      finishReason := some .toolCalls
      delta := some { toolCalls := some [{ id := some "1", function := some { name := "again" } }] }
    }] }

/-- The line of the frame. -/
def line : String := "data: " ++ frame.render

/-- An answer with the frame `w` times. -/
def answer (w : Nat) : Answer :=
  .reply 200 (List.replicate w (Text.encode line ++ [Sse.newline])) false

/-- A service with the given answers, and a consumer who wants everything. -/
def session (answers : List Answer) : Session := { service := .script answers }

/-- The frame is read back from its text. -/
theorem readsBack_frame : frame.ReadsBack := .of_isPlain rfl

/-- The frame is read as the chunk. -/
theorem decode_frame : Wire.Chunk.decode frame.toDoc = some chunk := rfl

/-- Each chunk is a window of its own, since it gives a reason for having stopped. -/
theorem windowsFrom_chunk (w : Nat) :
    Wire.windowsFrom none (List.replicate w (.ok chunk)) = List.replicate w (.ok chunk) := by
  induction w with
  | zero => rfl
  | succ w ih =>
    show .ok chunk :: Wire.windowsFrom none (List.replicate w (.ok chunk)) = _
    rw [ih]
    rfl

/-- The answer consists of the chunk, again and again. -/
theorem chunks_answer (w : Nat) :
    Client.chunks (List.replicate w (Text.encode line ++ [Sse.newline])) false =
      List.replicate w (.ok chunk) := by
  have hevents : ∀ v ∈ List.replicate w frame, v.ReadsBack := fun v hv =>
    List.eq_of_mem_replicate hv ▸ readsBack_frame
  have hchunks : (List.replicate w frame).map (fun v => Wire.Chunk.decode v.toDoc) =
      (List.replicate w chunk).map some := by
    rw [List.map_replicate, List.map_replicate, decode_frame]
  have hframes := Wire.frames_eventLines hevents hchunks
  have hlines := Client.chunks_eventBytes hevents
  rw [List.map_replicate, Wire.chunks, hframes, List.map_replicate, windowsFrom_chunk] at hlines
  exact hlines

/-- The answer asks for tools as often as it has chunks. -/
theorem mostAsks_session (w : Nat) : (session [answer w]).mostAsks = w := by
  have hasks : chunk.asks = true := by decide
  show ModelClient.asks (Client.chunks _ false) = w
  rw [chunks_answer]
  unfold ModelClient.asks
  simp [List.countP_replicate, hasks]

/-- A prompt without options whose messages have a form on the wire. -/
def Ready (prompt : Prompt) : Prop :=
  prompt.options = none ∧ ∃ wire, prompt.messages.mapM Message.toWire = .ok wire

/-- Every such prompt can be prepared, and its calls are run by the model. -/
theorem exists_prepare_eq_ok {prompt : Prompt} (h : Ready prompt) :
    ∃ prepared, model.prepare prompt true = .ok prepared ∧ prepared.proxiesToolCalls = false := by
  obtain ⟨messages, options⟩ := prompt
  obtain ⟨rfl, wire, hwire⟩ := h
  exact ⟨_, ChatModel.prepare_eq_ok_iff.2 ⟨wire, _, hwire, rfl, rfl⟩, rfl⟩

/-- The tool answers the call, and the conversation can go on. -/
theorem afterTools_chunk {prompt : Prompt} (h : Ready prompt) (roles : ChatResponse.Roles)
    (s : Session) :
    ∃ es next, prompt.afterTools (ChatResponse.ofStreamed roles chunk.toCompletion).1
        (model.toolsFor none) s = ⟨es, s, .ok next⟩ ∧ roundTrips es = 1 ∧ Ready next := by
  obtain ⟨hoptions, wire, hwire⟩ := h
  refine ⟨_, _, rfl, rfl, hoptions, ?_⟩
  rw [List.mapM_append, hwire]
  exact ⟨_, rfl⟩

/-- Every chunk of the answer takes a round trip and what follows it. -/
theorem relay_chunks {prompt : Prompt} (hprompt : Ready prompt) {prepared : PreparedRequest}
    (hregistry : prepared.registry = model.toolsFor none)
    (hproxies : prepared.proxiesToolCalls = false) {followUp : Prompt → Run Session Unit}
    {s : Session} {b : Nat}
    (hfollow : ∀ next, Ready next →
      ∃ es, followUp next s = ⟨es, s, .ok ()⟩ ∧ roundTrips es = b)
    (w : Nat) (roles : ChatResponse.Roles) :
    ∃ es, ChatModel.relay prompt prepared followUp roles (List.replicate w (.ok chunk)) s =
        ⟨es, s, .ok ()⟩ ∧ roundTrips es = w * (1 + b) := by
  induction w generalizing roles with
  | zero => exact ⟨[], rfl, (Nat.zero_mul _).symm⟩
  | succ w ih =>
    obtain ⟨round, next, hafter, hround, hnext⟩ := afterTools_chunk hprompt roles s
    obtain ⟨inner, hinner, hb⟩ := hfollow next hnext
    obtain ⟨rest, hrest, hw⟩ := ih (ChatResponse.ofStreamed roles chunk.toCompletion).2
    rw [← hregistry] at hafter
    refine ⟨round ++ (inner ++ rest), ?_, ?_⟩
    · rw [List.replicate_succ, ChatModel.relay_of_followUp hproxies (by decide) hafter hinner, hrest]
    · rw [roundTrips_append, roundTrips_append, hround, hb, hw, ← Nat.add_assoc, Nat.succ_mul,
        Nat.add_comm]

/-- An answer of the service reaches the model at the first attempt. -/
theorem exists_execute_stream_eq {request : Wire.ChatRequest} (h : request.stream = true)
    {answers rest : List Answer} {w : Nat} (hnext : Service.next answers = (answer w, rest)) :
    ∃ es, model.retry.execute (model.client.stream request) (session answers) =
      ⟨es, session rest, .ok (List.replicate w (.ok chunk))⟩ ∧ roundTrips es = 0 := by
  obtain ⟨sent, hsent⟩ := Client.stream_of_reply (s := session answers) rfl hnext rfl model.client h
  rw [chunks_answer] at hsent
  obtain ⟨told, htold⟩ := RetryPolicy.execute_of_ok model.retry (by decide) hsent
  exact ⟨_, htold, rfl⟩

/-- One round takes as many round trips as its answer asks for, each with the rounds after it. -/
theorem streamRounds_succ {answers rest : List Answer} {w : Nat}
    (hnext : Service.next answers = (answer w, rest)) {left b : Nat}
    (hfollow : ∀ next, Ready next →
      ∃ es, model.streamRounds left next (session rest) = ⟨es, session rest, .ok ()⟩ ∧
        roundTrips es = b)
    {prompt : Prompt} (hprompt : Ready prompt) :
    ∃ es, model.streamRounds (left + 1) prompt (session answers) = ⟨es, session rest, .ok ()⟩ ∧
      roundTrips es = w * (1 + b) := by
  obtain ⟨prepared, hprepared, hproxies⟩ := exists_prepare_eq_ok hprompt
  have hregistry : prepared.registry = model.toolsFor none :=
    hprompt.1 ▸ ChatModel.prepare_registry hprepared
  obtain ⟨setup, hsetup, hsetupTrips⟩ :=
    exists_execute_stream_eq (ChatModel.prepare_stream hprepared) hnext
  obtain ⟨es, hes, htrips⟩ := relay_chunks hprompt hregistry hproxies hfollow w {}
  -- The observer adds nothing that counts, whatever is done with the answer.
  have hround {f : Except Error (List (Except Error Wire.Chunk)) → Run Session Unit}
      (hf : f (.ok (List.replicate w (.ok chunk))) (session rest) = ⟨es, session rest, .ok ()⟩) :
      ∃ told, watch model.observer (ChatModel.context prepared.options)
          ((model.retry.execute (model.client.stream prepared.request)).attempt >>= f)
            (session answers) = ⟨told, session rest, .ok ()⟩ ∧
        roundTrips told = w * (1 + b) := by
    obtain ⟨told, htold, hcount⟩ := watch_of_ok toolKind_isDelegated.actionKind.unreported
      model.observer (ChatModel.context prepared.options)
      (Run.bind_eq_of_ok (Run.attempt_of_ok hsetup) hf)
    have htotal : roundTrips told = roundTrips (setup ++ es) := hcount
    exact ⟨told, htold, by rw [htotal, roundTrips_append, hsetupTrips, htrips, Nat.zero_add]⟩
  rw [ChatModel.streamRounds]
  simp only [hprepared]
  exact hround hes

/-- If every answer is the same, the rounds of a stream are as many as can be nested. -/
theorem streamRounds_session (w left : Nat) {prompt : Prompt} (hprompt : Ready prompt) :
    ∃ es, model.streamRounds left prompt (session [answer w]) =
        ⟨es, session [answer w], .ok ()⟩ ∧ roundTrips es = nestedRounds w left := by
  induction left generalizing prompt with
  | zero => exact ⟨_, rfl, rfl⟩
  | succ left ih => exact streamRounds_succ rfl (fun _ hnext => ih hnext) hprompt

/-- A prompt of one message. -/
def prompt : Prompt := .ofText "Go on."

/-- The prompt is one of these. -/
theorem ready_prompt : Ready prompt := ⟨rfl, _, rfl⟩

/-- A stream of the prompt goes through its rounds. -/
theorem stream_session (answers : List Answer) :
    model.stream prompt (session answers) =
      model.streamRounds ChatModel.maxRounds prompt (session answers) :=
  rfl

/-- **A service that asks again and again.** The stream makes as many round trips as are possible.
-/
theorem roundTrips_stream (w : Nat) :
    roundTrips (model.stream prompt (session [answer w])).effects =
      nestedRounds w ChatModel.maxRounds := by
  obtain ⟨es, hes, htrips⟩ := streamRounds_session w ChatModel.maxRounds ready_prompt
  rw [stream_session, hes, htrips]

end Insatiable

/-- **The limits of a prompt's round trips.** A call makes at most `maxRounds` of them. If no answer
of the service asks for tools more than `w` times, a stream makes at most as many as can be nested,
`maxRounds` deep with `w` in each answer, and it can make that many. So `maxRounds` limits a stream
too exactly if no answer asks for tools more than once. -/
theorem ChatModel.roundTrips_limits (w : Nat) :
    (∀ (m : ChatModel) (prompt : Prompt) (s : Session),
      roundTrips (m.call prompt s).effects ≤ maxRounds) ∧
    (∀ (m : ChatModel) (prompt : Prompt) (s : Session), s.mostAsks ≤ w →
      roundTrips (m.stream prompt s).effects ≤ nestedRounds w maxRounds) ∧
    (∃ (m : ChatModel) (prompt : Prompt) (s : Session), s.mostAsks = w ∧
      roundTrips (m.stream prompt s).effects = nestedRounds w maxRounds) ∧
    ((∀ (m : ChatModel) (prompt : Prompt) (s : Session), s.mostAsks ≤ w →
      roundTrips (m.stream prompt s).effects ≤ maxRounds) ↔ w ≤ 1) := by
  have hbound : ∀ (m : ChatModel) (prompt : Prompt) (s : Session) (v : Nat), s.mostAsks ≤ v →
      roundTrips (m.stream prompt s).effects ≤ nestedRounds v maxRounds := fun m prompt s v hs =>
    Nat.le_trans (roundTrips_stream_le m prompt s) (nestedRounds_mono hs maxRounds)
  refine ⟨roundTrips_call_le, fun m prompt s hs => hbound m prompt s w hs,
    ⟨_, _, _, Insatiable.mostAsks_session w, Insatiable.roundTrips_stream w⟩, fun h => ?_, ?_⟩
  · refine Nat.not_lt.1 fun hw => ?_
    have htwo : (Insatiable.session [Insatiable.answer 2]).mostAsks ≤ w := by
      rw [Insatiable.mostAsks_session]
      exact hw
    -- Two calls for tools in an answer are enough to go beyond the limit.
    have hle := h Insatiable.model Insatiable.prompt _ htwo
    rw [Insatiable.roundTrips_stream] at hle
    exact absurd hle (by decide)
  · intro hw m prompt s hs
    have hone := hbound m prompt s 1 (Nat.le_trans hs hw)
    rwa [nestedRounds_one] at hone

/-- A stream whose first answer asks for tools twenty-one times, and whose other answers are empty,
goes beyond the limit. -/
theorem ChatModel.roundTrips_stream_twentyOne :
    maxRounds < roundTrips (Insatiable.model.stream Insatiable.prompt
      (Insatiable.session [Insatiable.answer 21, Insatiable.answer 0])).effects := by
  have hnext : Service.next [Insatiable.answer 21, Insatiable.answer 0] =
      (Insatiable.answer 21, [Insatiable.answer 0]) := rfl
  obtain ⟨es, hes, htrips⟩ := Insatiable.streamRounds_succ hnext
    (fun _ hnext => Insatiable.streamRounds_session 0 _ hnext) Insatiable.ready_prompt
  rw [Insatiable.stream_session, maxRounds_eq, hes, htrips]
  decide

end ModelClient
