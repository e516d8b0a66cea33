import ModelClient.Proofs.CallHistory
import ModelClient.Proofs.Dictionaries
import ModelClient.Proofs.StreamedParts

/-!
# A streamed answer folded together

A completion can be told in fragments whose frames all carry its header and of which the first names
the role. If no tools are run, the consumer of a stream receives a part for each text frame and one
for the window of the tool calls, and folding the parts gives the response that a call gets for the
whole completion.

Each stage has an invariant of its own. Merging keeps the header and the role
(`Frame.sharesHeader_mergeAll`, `Frame.role_mergeAll`), the memory of roles gives every part the
role of the first one (`ChatResponse.parts_eq`), and the fold has the text and the calls of the
parts so far and the metadata of the latest one (`Aggregate.Tells`).

## Main statements

* `ChatModel.complete_stream_eq_call`: the parts of a stream make up the response of a call.
-/

namespace ModelClient

open Json

/-! ## Headers and roles of frames -/

namespace Wire

/-- The frame carries the header of the completion. -/
structure Frame.SharesHeader (f : Frame) (c : Completion) : Prop where
  id : f.id = c.id
  model : f.model = c.model
  created : f.created = c.created
  systemFingerprint : f.systemFingerprint = c.systemFingerprint

namespace Frame

variable {c : Completion}

/-- Merging two frames keeps the header. -/
theorem SharesHeader.merge {f g : Frame} (hf : f.SharesHeader c) (hg : g.SharesHeader c) :
    (f.merge g).SharesHeader c := by
  obtain ⟨hfid, hfmodel, hfcreated, hffingerprint⟩ := hf
  obtain ⟨hgid, hgmodel, hgcreated, hgfingerprint⟩ := hg
  refine ⟨?_, ?_, ?_, ?_⟩
  · simp [Frame.merge, hfid, hgid]
  · simp [Frame.merge, hfmodel, hgmodel]
  · simp [Frame.merge, hfcreated, hgcreated]
  · simp [Frame.merge, hffingerprint, hgfingerprint]

/-- Merging some frames keeps the header. -/
theorem sharesHeader_mergeAll {f : Frame} {more : List Frame}
    (h : ∀ g ∈ f :: more, g.SharesHeader c) : (f.mergeAll more).SharesHeader c :=
  mergeAll_induction (P := (·.SharesHeader c)) (h f List.mem_cons_self) fun _ ha g hg =>
    ha.merge (h g (List.mem_cons_of_mem _ hg))

/-- The role of the first frame stays if no other frame names another one. -/
theorem role_mergeAll {f : Frame} {more : List Frame} (hf : f.delta.role = some .assistant)
    (h : ∀ g ∈ more, g.delta.role = none ∨ g.delta.role = some .assistant) :
    (f.mergeAll more).delta.role = some .assistant := by
  refine mergeAll_induction (P := fun a => a.delta.role = some .assistant) hf fun a ha g hg => ?_
  show some ((g.delta.role <|> a.delta.role).getD .assistant) = _
  rcases h g hg with hrole | hrole <;> simp [hrole, ha]

end Frame

/-- The fragmentation tells the choice of the completion: its frames carry the completion's header,
the first one names the assistant as the speaker and no other one names anyone else. -/
structure Fragmentation.Tells {choice : Choice} (F : Fragmentation choice) (c : Completion) : Prop
    where
  header : ∀ f ∈ F.frames, f.SharesHeader c
  role_head : ∀ f ∈ F.frames.head?, f.delta.role = some .assistant
  role : ∀ f ∈ F.frames, f.delta.role = none ∨ f.delta.role = some .assistant

namespace Fragmentation

variable {choice : Choice} {F : Fragmentation choice} {c : Completion}

/-- What is received has the completion's header. -/
theorem Tells.header_received (h : F.Tells c) {f : Frame} (hf : f ∈ F.received) :
    f.SharesHeader c := by
  rcases List.mem_append.1 hf with htext | hwindow
  · exact h.header f (List.mem_append_left _ htext)
  · obtain ⟨first, more, hpieces, rfl⟩ := F.exists_of_mem_window (Option.mem_toList.1 hwindow)
    refine Frame.sharesHeader_mergeAll fun g hg => h.header g (List.mem_append_right _ ?_)
    rwa [hpieces]

/-- What is received first names the assistant. -/
theorem Tells.role_received_head (h : F.Tells c) {f : Frame} (hf : f ∈ F.received.head?) :
    f.delta.role = some .assistant := by
  have hhead := h.role_head
  rw [frames] at hhead
  rw [received] at hf
  cases htexts : F.texts with
  | cons first texts =>
    rw [htexts] at hf hhead
    exact hhead f hf
  | nil =>
    rw [htexts] at hf hhead
    obtain ⟨first, more, hpieces, rfl⟩ :=
      F.exists_of_mem_window (Option.mem_toList.1 (List.mem_of_mem_head? hf))
    rw [hpieces] at hhead
    refine Frame.role_mergeAll (hhead first rfl) fun g hg => h.role g (List.mem_append_right _ ?_)
    rw [hpieces]
    exact List.mem_cons_of_mem _ hg

/-- The last frame that is received gives the reason of the choice. -/
theorem exists_received_eq_concat (F : Fragmentation choice) :
    ∃ front last, F.received = front ++ [last] ∧ last.finishReason = choice.finishReason := by
  cases hwindow : F.window? with
  | some f =>
    exact ⟨F.texts, f, by rw [received, hwindow]; rfl, F.finishReason_window hwindow⟩
  | none =>
    have hpieces : F.pieces = [] := by
      cases hpieces : F.pieces with
      | nil => rfl
      | cons first more =>
        rw [F.window?_eq_some hpieces] at hwindow
        cases hwindow
    obtain ⟨front, last, hframes, -, -, hreason⟩ := F.reason
    refine ⟨front, last, ?_, hreason⟩
    rw [received, hwindow, ← hframes, hpieces]
    rfl

/-- The texts of the frames that are received make up the text of the choice. -/
theorem join_text_received (F : Fragmentation choice) :
    String.join (F.received.map (·.delta.text)) = choice.message.text := by
  have hwindow : String.join (F.window?.toList.map (·.delta.text)) = "" := by
    cases h : F.window? with
    | none => rfl
    | some f =>
      rw [Option.toList_some, List.map_singleton, F.text_window h]
      rfl
  rw [received, List.map_append, String.join_append, hwindow, String.append_empty, F.text_texts]

/-- The calls of the frames that are received are those of the choice. -/
theorem flatMap_calls_received (F : Fragmentation choice) :
    F.received.flatMap (fun f => f.delta.calls.map ToolCall.received) =
      choice.message.calls.map ToolCall.received := by
  have htexts : F.texts.flatMap (fun f => f.delta.calls.map ToolCall.received) = [] := by
    refine List.flatMap_eq_nil_iff.2 fun f hf => ?_
    rw [F.calls_texts f hf]
    rfl
  rw [received, List.flatMap_append, htexts, List.nil_append]
  cases h : F.window? with
  | none =>
    rw [F.window?_eq_none_iff.1 h]
    rfl
  | some f => rw [Option.toList_some, List.flatMap_singleton, F.calls_window h]

end Fragmentation

end Wire

/-! ## The parts of the frames -/

namespace ChatResponse

/-- The part that a frame with the completion's header stands for. -/
def part (c : Wire.Completion) (f : Wire.Frame) : ChatResponse :=
  { generations := [.ofChoice f.toChoice (c.id.getD "") Wire.Role.assistant.name]
    metadata := .ofCompletion c }

/-- A role that is known stays, and one that is not known is learned. -/
theorem Roles.get?_remember (roles : Roles) (id : String) (role : Option Wire.Role) :
    (roles.remember id role).get? id = (roles.get? id <|> role) := by
  unfold remember
  cases role with
  | none => cases roles.get? id <;> rfl
  | some role =>
    cases h : roles.get? id with
    | some known => exact h
    | none =>
      simp only [Dict.get?_insert, if_true]
      rfl

variable {c : Wire.Completion}

/-- A frame of the assistant becomes its part, and the role is known after it. -/
theorem ofStreamed_chunk (husage : c.usage = none) {roles : Roles} {f : Wire.Frame}
    (hf : f.SharesHeader c)
    (hrole : (roles.get? (c.id.getD "") <|> f.delta.role) = some .assistant) :
    ∃ next : Roles, next.get? (c.id.getD "") = some .assistant ∧
      ofStreamed roles f.chunk.toCompletion = (part c f, next) := by
  obtain ⟨hid, hmodel, hcreated, hfingerprint⟩ := hf
  have hknown : (roles.remember (f.id.getD "") f.delta.role).get? (f.id.getD "") =
      some .assistant := by
    rw [Roles.get?_remember, hid, hrole]
  refine ⟨roles.remember (f.id.getD "") f.delta.role, hid ▸ hknown, ?_⟩
  have hmetadata : ResponseMetadata.ofCompletion f.chunk.toCompletion = .ofCompletion c := by
    simp only [ResponseMetadata.ofCompletion, Wire.Chunk.toCompletion, Wire.Frame.chunk, hid,
      hmodel, hcreated, hfingerprint, husage]
  have hgenerations : generationsOf (f.chunk.toCompletion.id.getD "") roles
      f.chunk.toCompletion.choices =
        ([.ofChoice f.toChoice (f.id.getD "") Wire.Role.assistant.name],
          roles.remember (f.id.getD "") f.delta.role) := by
    show generationsOf (f.id.getD "") roles [f.toChoice] = _
    simp only [generationsOf, Wire.Frame.message_toChoice, hknown]
    rfl
  rw [ofStreamed, hgenerations, hmetadata, part, hid]

/-- Frames that carry the header become parts of the assistant, once the role is known or if the
first of them names it. -/
theorem parts_eq (husage : c.usage = none) {frames : List Wire.Frame}
    (h : ∀ f ∈ frames, f.SharesHeader c) {roles : Roles}
    (hrole : roles.get? (c.id.getD "") = some .assistant ∨
      roles.get? (c.id.getD "") = none ∧ ∀ f ∈ frames.head?, f.delta.role = some .assistant) :
    (parts roles (frames.map Wire.Frame.chunk)).1 = frames.map (part c) := by
  induction frames generalizing roles with
  | nil => rfl
  | cons f frames ih =>
    have hfirst : (roles.get? (c.id.getD "") <|> f.delta.role) = some .assistant := by
      rcases hrole with hknown | ⟨hunknown, hhead⟩
      · rw [hknown]
        rfl
      · rw [hunknown, hhead f rfl]
        rfl
    obtain ⟨next, hnext, hpart⟩ := ofStreamed_chunk husage (h f List.mem_cons_self) hfirst
    have hrest := ih (fun f hf => h f (List.mem_cons_of_mem _ hf)) (.inl hnext)
    rw [List.map_cons, parts, List.map_cons, ← hrest, hpart]

end ChatResponse

/-! ## The fold -/

/-- A message made from a choice has metadata under three names. -/
theorem Generation.get?_metadata_ofChoice_eq_none_iff {choice : Wire.Choice} {id role : String}
    {name : String} :
    (ofChoice choice id role).output.metadata.get? name = none ↔
      name ≠ "id" ∧ name ≠ "role" ∧ name ≠ "finishReason" := by
  have hmetadata : (ofChoice choice id role).output.metadata =
      ((Dict.empty.insert "id" (.str id)).insert "role" (.str role)).insert "finishReason"
        (.str ((choice.finishReason.map Wire.FinishReason.name).getD "")) := rfl
  have hempty : (Dict.empty : Dict Json).get? name = none := rfl
  rw [hmetadata, Dict.get?_insert, Dict.get?_insert, Dict.get?_insert, hempty]
  by_cases hid : name = "id" <;> by_cases hrole : name = "role" <;>
    by_cases hreason : name = "finishReason" <;> simp [hid, hrole, hreason]

/-- The metadata of a message take the place of those of an earlier one. -/
theorem Generation.union_metadata_ofChoice (earlier choice : Wire.Choice)
    (id role id' role' : String) :
    (ofChoice earlier id role).output.metadata.union (ofChoice choice id' role').output.metadata =
      (ofChoice choice id' role').output.metadata :=
  Dict.union_eq_right fun _ hname => get?_metadata_ofChoice_eq_none_iff.2
    (get?_metadata_ofChoice_eq_none_iff.1 hname)

/-- Metadata that are laid over nothing stay as they are. -/
theorem Generation.empty_union_metadata_ofChoice (choice : Wire.Choice) (id role : String) :
    ({} : Dict Json).union (Generation.ofChoice choice id role).output.metadata =
      (Generation.ofChoice choice id role).output.metadata :=
  Dict.union_eq_right fun _ _ => rfl

namespace Aggregate

/-- The fold has the text and the calls of the frames so far, and its metadata are those of a
message, if there are any. -/
structure Tells (a : Aggregate) (frames : List Wire.Frame) : Prop where
  content : a.output.content = String.join (frames.map (·.delta.text))
  toolCalls : a.output.toolCalls =
    frames.flatMap fun f => f.delta.calls.map Wire.ToolCall.received
  metadata : a.output.metadata = {} ∨
    ∃ choice id role, a.output.metadata = (Generation.ofChoice choice id role).output.metadata
  extra : a.generation.extra = {}

/-- Nothing has been told at first. -/
theorem tells_nil : Tells {} [] := ⟨rfl, rfl, .inl rfl, rfl⟩

variable {c : Wire.Completion} {a : Aggregate} {frames : List Wire.Frame}

/-- The fold with one more part: the text and the calls are added, and the metadata are those of the
part. Only a missing reason for having stopped leaves the one that is known. -/
theorem Tells.push_part (h : a.Tells frames) (hid : c.id.getD "" ≠ "") (f : Wire.Frame) :
    a.push (ChatResponse.part c f) =
      let g := Generation.ofChoice f.toChoice (c.id.getD "") Wire.Role.assistant.name
      { output := {
          content := a.output.content ++ f.delta.text
          toolCalls := a.output.toolCalls ++ f.delta.calls.map Wire.ToolCall.received
          metadata := g.output.metadata }
        generation := {
          finishReason := g.metadata.finishReason <|> a.generation.finishReason
          extra := {} }
        response := .ofCompletion c } := by
  -- With its id the completion's metadata are not empty, so every part hands them on.
  have hknown : (ResponseMetadata.ofCompletion c).isEmpty = false := by
    simp [ResponseMetadata.isEmpty, ResponseMetadata.ofCompletion, hid]
  have hmetadata : a.output.metadata.union
      (Generation.ofChoice f.toChoice (c.id.getD "") Wire.Role.assistant.name).output.metadata =
      (Generation.ofChoice f.toChoice (c.id.getD "") Wire.Role.assistant.name).output.metadata := by
    rcases h.metadata with hnone | ⟨choice, id, role, hsome⟩
    · rw [hnone, Generation.empty_union_metadata_ofChoice]
    · rw [hsome, Generation.union_metadata_ofChoice]
  have hextra : a.generation.extra.union ({} : Dict Json) = {} := by
    rw [h.extra]
    rfl
  have hpush : a.push (ChatResponse.part c f) =
      ({ a with response := .ofCompletion c } : Aggregate).pushGeneration
        (.ofChoice f.toChoice (c.id.getD "") Wire.Role.assistant.name) := by
    rw [push]
    simp only [ChatResponse.part, hknown]
    rfl
  rw [hpush, pushGeneration]
  simp only [hmetadata, Generation.toolCalls_ofChoice, Wire.Frame.message_toChoice]
  rw [Aggregate.mk.injEq, GenerationMetadata.mk.injEq]
  exact ⟨rfl, ⟨rfl, hextra⟩, rfl⟩

/-- **One more part.** The fold tells the frames so far and the one that the part stands for. -/
theorem Tells.push (h : a.Tells frames) (hid : c.id.getD "" ≠ "") (f : Wire.Frame) :
    (a.push (ChatResponse.part c f)).Tells (frames ++ [f]) := by
  rw [h.push_part hid f]
  refine ⟨?_, ?_, .inr ⟨_, _, _, rfl⟩, rfl⟩
  · rw [h.content, List.map_append, String.join_append]
    simp
  · rw [h.toolCalls, List.flatMap_append, List.flatMap_singleton]

/-- **All parts.** The fold of the parts tells their frames. -/
theorem tells_ofParts (hid : c.id.getD "" ≠ "") (frames : List Wire.Frame) :
    (ofParts (frames.map (ChatResponse.part c))).Tells frames := by
  induction frames using List.reverseRecOn with
  | nil => exact tells_nil
  | append_singleton frames f ih =>
    have hpush := ih.push hid f
    rwa [ofParts, List.map_append, List.foldl_append]

/-- Parts without an error make up a response. -/
theorem complete?_map_ok (parts : List ChatResponse) :
    complete? (parts.map .ok) = some (ofParts parts).finish := by
  have hparts : (parts.map Except.ok).mapM (Except.toOption : Except Error _ → _) = some parts := by
    induction parts with
    | nil => rfl
    | cons part parts ih =>
      rw [List.map_cons, List.mapM_cons, ih]
      rfl
  rw [complete?, hparts]
  rfl

/-- Parts that have the text and the calls of a choice, and of which the last one has its reason,
make up the response of a completion with that choice. -/
theorem finish_ofParts {choice : Wire.Choice} (hchoices : c.choices = [choice])
    (hrole : choice.message.role = some .assistant) (hreason : choice.finishReason.isSome)
    (hid : c.id.getD "" ≠ "") {front : List Wire.Frame} {last : Wire.Frame}
    (hlast : last.finishReason = choice.finishReason)
    (htext : String.join ((front ++ [last]).map (·.delta.text)) = choice.message.text)
    (hcalls : (front ++ [last]).flatMap (fun f => f.delta.calls.map Wire.ToolCall.received) =
      choice.message.calls.map Wire.ToolCall.received) :
    (ofParts ((front ++ [last]).map (ChatResponse.part c))).finish = .ofCompletion c := by
  obtain ⟨reason, hreason⟩ := Option.isSome_iff_exists.1 hreason
  have hfront := tells_ofParts hid front
  have hparts : ofParts ((front ++ [last]).map (ChatResponse.part c)) =
      (ofParts (front.map (ChatResponse.part c))).push (ChatResponse.part c last) := by
    rw [ofParts, List.map_append, List.foldl_append]
    rfl
  have hcontent : (ofParts (front.map (ChatResponse.part c))).output.content ++ last.delta.text =
      choice.message.text := by
    rw [hfront.content, ← htext, List.map_append, String.join_append]
    simp
  have htoolCalls : (ofParts (front.map (ChatResponse.part c))).output.toolCalls ++
      last.delta.calls.map Wire.ToolCall.received =
      choice.message.calls.map Wire.ToolCall.received := by
    rw [hfront.toolCalls, ← hcalls, List.flatMap_append, List.flatMap_singleton]
  -- The reason of the last part counts, whatever the parts before it gave.
  have hname : reason.name ≠ "" := by cases reason <;> decide
  have hwhole : ChatResponse.ofCompletion c =
      { generations := [.ofChoice choice (c.id.getD "") Wire.Role.assistant.name]
        metadata := .ofCompletion c } := by
    rw [ChatResponse.ofCompletion, hchoices, List.map_singleton, hrole]
    rfl
  rw [hparts, hfront.push_part hid last, hwhole, finish]
  simp only [hcontent, htoolCalls, Generation.ofChoice, Wire.Frame.finishReason_toChoice, hlast,
    hreason, ← Generation.toolCalls_ofChoice choice "" ""]
  simp [hname]

end Aggregate

namespace ChatModel

variable {m : ChatModel} {prompt : Prompt} {c : Wire.Completion} {choice : Wire.Choice}

/-- A call whose first answer needs no tools gives that answer. -/
theorem value_call_of_completes {s : Session} (h : m.Completes prompt s c)
    (hchoices : c.choices = [choice]) (hsettled : m.Proxies prompt ∨ choice.message.calls = []) :
    (m.call prompt s).value = .ok (.ofCompletion c) := by
  obtain ⟨prepared, es, answers, hprepare, hexecute⟩ := h
  obtain ⟨fs, hrespond⟩ := exists_respond_eq hexecute
  have hdone : Settled prepared (.ofCompletion c) := by
    refine hsettled.imp (proxiesToolCalls_of_prepare hprepare).2 fun hcalls g hg hne => ?_
    rw [ChatResponse.ofCompletion, hchoices, List.map_singleton, List.mem_singleton] at hg
    rw [hg, Generation.toolCalls_ofChoice, hcalls] at hne
    exact absurd rfl hne
  rw [call, maxRounds_eq, callRounds_of_settled hprepare hrespond hdone]

/-- A stream whose first answer needs no tools hands on the parts of that answer. -/
theorem yielded_stream_of_streams {t : Session} {frames : List Wire.Frame}
    {chunks : List Wire.Chunk} (h : m.Streams prompt t frames) (hdemand : t.demand = none)
    (hchunks : Wire.windowsFrom none ((frames.map Wire.Frame.chunk).map .ok) = chunks.map .ok)
    (hsettled : m.Proxies prompt ∨ ∀ chunk ∈ chunks, chunk.asks = false) :
    yielded (m.stream prompt t).effects = (ChatResponse.parts {} chunks).1.map .ok := by
  obtain ⟨prepared, round, es, answers, hprepare, hround, hquiet, heffects⟩ :=
    exists_round_of_streams h hdemand hchunks
  have hasking : yielded es = [] := List.filterMap_eq_nil_iff.2 fun e he => (hquiet e he).1
  have hrelay := relay_of_forall_settled prompt (m.streamRounds 19)
    (s := { t with service := .script answers })
    (hsettled.imp_left (proxiesToolCalls_of_prepare hprepare).2) hdemand {} []
  rw [List.append_nil] at hrelay
  rw [hround, yielded_watch, heffects, hrelay, yielded_append, hasking, List.nil_append,
    yielded_append, yielded_map_ok]
  exact List.append_nil _

/-- **A streamed answer folded together.** If no tools are run, a completion that a call receives in
one piece and the same completion told in fragments give the same response: the call returns it, and
the parts of the stream make it up. -/
theorem complete_stream_eq_call {s t : Session} (F : Wire.Fragmentation choice)
    (hchoices : c.choices = [choice]) (hrole : choice.message.role = some .assistant)
    (hid : ∃ id, c.id = some id ∧ id ≠ "") (husage : c.usage = none) (hF : F.Tells c)
    (hsettled : m.Proxies prompt ∨ choice.message.calls = [])
    (hcall : m.Completes prompt s c) (hstream : m.Streams prompt t F.frames)
    (hdemand : t.demand = none) :
    (m.call prompt s).value = .ok (.ofCompletion c) ∧
      Aggregate.complete? (yielded (m.stream prompt t).effects) = some (.ofCompletion c) := by
  refine ⟨value_call_of_completes hcall hchoices hsettled, ?_⟩
  have hknown : c.id.getD "" ≠ "" := by
    obtain ⟨id, hsome, hne⟩ := hid
    rwa [hsome]
  have hasks : m.Proxies prompt ∨
      ∀ chunk ∈ F.received.map Wire.Frame.chunk, chunk.asks = false := by
    refine hsettled.imp_right fun hcalls => ?_
    rw [Wire.Fragmentation.received, F.window?_eq_none_iff.2 hcalls, Option.toList_none,
      List.append_nil]
    exact F.asks_texts
  -- The consumer receives a part for each frame that passes, with the role that the first names.
  have hitems := yielded_stream_of_streams hstream hdemand F.windowsFrom_frames hasks
  rw [ChatResponse.parts_eq husage (fun f hf => hF.header_received hf)
    (.inr ⟨rfl, fun f hf => hF.role_received_head hf⟩)] at hitems
  -- The reason and the metadata of the fold come from the last part.
  obtain ⟨front, last, hreceived, hlast⟩ := F.exists_received_eq_concat
  have hreason : choice.finishReason.isSome := by
    obtain ⟨_, last, -, -, hsome, hlast⟩ := F.reason
    rwa [← hlast]
  have htext := F.join_text_received
  have hcalls := F.flatMap_calls_received
  rw [hreceived] at htext hcalls
  have hfinish := Aggregate.finish_ofParts hchoices hrole hreason hknown hlast htext hcalls
  rw [hitems, Aggregate.complete?_map_ok, hreceived, hfinish]

end ChatModel

namespace Greeting

/-- A model that leaves tool calls to the caller. -/
def proxying : ChatModel :=
  (ChatModel.ofClient .keyless).withOptions { proxyToolCalls := some true }

/-- The fragments of the greeting tell its completion. -/
theorem tells_completion : fragmentation.Tells completion where
  header f hf := by
    have hmem : f ∈ texts ++ [opened, closed] := hf
    simp only [texts, List.cons_append, List.nil_append, List.mem_cons, List.not_mem_nil,
      or_false] at hmem
    rcases hmem with rfl | rfl | rfl | rfl <;> exact ⟨rfl, rfl, rfl, rfl⟩
  role_head := by decide
  role := by decide

end Greeting

/-- The greeting in four frames makes up the response of the whole greeting. -/
theorem ChatModel.complete_stream_eq_call_greeting :
    (Greeting.proxying.call (.ofText "Hello") Greeting.whole).value =
        .ok (.ofCompletion Greeting.completion) ∧
      Aggregate.complete?
          (yielded (Greeting.proxying.stream (.ofText "Hello") Greeting.streamed).effects) =
        some (.ofCompletion Greeting.completion) :=
  complete_stream_eq_call Greeting.fragmentation rfl rfl ⟨"c", rfl, by decide⟩ rfl
    Greeting.tells_completion (.inl rfl) (Greeting.completes rfl (by decide))
    (Greeting.streams rfl (by decide)) rfl

end ModelClient
