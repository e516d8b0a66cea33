import ModelClient.ChatResponse
import ModelClient.Proofs.RoundTrips
import ModelClient.Proofs.Timestamps
import ModelClient.Proofs.WrittenChunks
import ModelClient.Wire.ChatRequest
import ModelClient.Wire.Embedding
import ModelClient.Wire.Image

/-!
# Requests, answers and messages round-trip

Every type that is written and read is followed through its parts. A type whose parts are texts,
integers and lists of such types is always read back (`reads_toJson`). A type that keeps a value as
the document had it, log probabilities, parameters of a function, metadata, or a number in double
precision, is read back if it was read from a document of finite numbers (`roundTrips`). What is
left out when it is empty is what a reader takes for empty when it is missing, and a point in time
is read back from its text.

## Main statements

* `recovers_of_finite`: what each of the types recovers from a document.
-/

namespace ModelClient

open Json Json.Decode

namespace Wire

/-! ## Completions -/

/-- The usage of an answer is read back. -/
theorem Usage.reads_toJson (u : Usage) : Reads decode u.toJson u :=
  reads_record (by simp) (fun _ => rfl) fun r hr => by
    have hprompt := (hr "prompt_tokens" (by decide) _ rfl).defaulted (reads_uint32 _) 0
    have hcompletion := (hr "completion_tokens" (by decide) _ rfl).defaulted (reads_uint32 _) 0
    have htotal := (hr "total_tokens" (by decide) _ rfl).defaulted (reads_uint32 _) 0
    exact Option.bind_eq_some_iff.2 ⟨_, hprompt, Option.bind_eq_some_iff.2 ⟨_, hcompletion,
      Option.bind_eq_some_iff.2 ⟨_, htotal, rfl⟩⟩⟩

/-- A choice that was read from finite numbers is read back. -/
theorem Choice.roundTrips : RoundTrips decode toJson := by
  intro d c hd h
  simp only [decode, Option.bind_eq_bind, Option.bind_eq_some_iff] at h
  obtain ⟨r, hr, _, -, _, -, _, -, _, hlogprobs, ⟨⟩⟩ := h
  have hlogprobs := (hd.of_record? hr).optional_json hlogprobs
  refine reads_record (by simp) (fun _ => rfl) fun r hr => ?_
  have hfinish := (hr "finish_reason" (by decide) _ rfl).optional_orNull
    fun r _ => r.reads_toJson
  have hindex := (hr "index" (by decide) _ rfl).optional_orNull fun n _ => reads_uint32 n
  have hmessage := (hr "message" (by decide) _ rfl).defaulted (Message.reads_toJson _) {}
  have hlogprobs := (hr "logprobs" (by decide) _ rfl).optional_orNull hlogprobs
  simp only [hfinish, hindex, hmessage, hlogprobs, Option.bind_eq_bind, Option.bind_some]

/-- A completion that was read from finite numbers is read back. -/
theorem Completion.roundTrips : RoundTrips decode toJson := by
  intro d c hd h
  simp only [decode, Option.bind_eq_bind, Option.bind_eq_some_iff] at h
  obtain ⟨r, hr, _, -, _, hchoices, _, -, _, -, _, -, _, -, _, -, ⟨⟩⟩ := h
  have hchoices := (hd.of_record? hr).defaulted_list Choice.roundTrips hchoices
  refine reads_record (by simp) (fun _ => rfl) fun r hr => ?_
  have hid := (hr "id" (by decide) _ rfl).optional_orNull fun s _ => reads_str s
  have hchoices := (hr "choices" (by decide) _ rfl).defaulted hchoices []
  have hcreated := (hr "created" (by decide) _ rfl).optional_orNull fun n _ => reads_int64 n
  have hmodel := (hr "model" (by decide) _ rfl).optional_orNull fun s _ => reads_str s
  have hfingerprint := (hr "system_fingerprint" (by decide) _ rfl).optional_orNull
    fun s _ => reads_str s
  have hobject := (hr "object" (by decide) _ rfl).optional_orNull fun s _ => reads_str s
  have husage := (hr "usage" (by decide) _ rfl).optional_orNull fun u _ => u.reads_toJson
  simp only [hid, hchoices, hcreated, hmodel, hfingerprint, hobject, husage, Option.bind_eq_bind,
    Option.bind_some]

/-- A chunk that was read from finite numbers is read back. -/
theorem Chunk.roundTrips : RoundTrips decode toJson := by
  rintro d c ⟨limit, hfits⟩ h
  exact reads_toJson (isHeld_of_decode (hfits.mono (Nat.le_add_right limit 3)) h)

/-! ## Requests -/

/-- A function that was read with its parameters is read back. -/
theorem FunctionDefinition.roundTrips : RoundTrips decode toJson := by
  intro d f hd h
  simp only [decode, Option.bind_eq_bind, Option.bind_eq_some_iff] at h
  obtain ⟨r, hr, _, -, _, -, _, hparameters, ⟨⟩⟩ := h
  have hparameters := (hd.of_record? hr).required_json hparameters
  refine reads_record (by simp) (fun _ => rfl) fun r hr => ?_
  have hdescription := (hr "description" (by decide) _ rfl).required (reads_str _)
  have hname := (hr "name" (by decide) _ rfl).required (reads_str _)
  have hparameters := (hr "parameters" (by decide) _ rfl).required_of_forall hparameters
  simp only [hdescription, hname, hparameters, Option.bind_eq_bind, Option.bind_some]

/-- A tool that was read with its function is read back. -/
theorem ToolDefinition.roundTrips : RoundTrips decode toJson := by
  intro d t hd h
  simp only [decode, Option.bind_eq_bind, Option.bind_eq_some_iff] at h
  obtain ⟨r, hr, _, -, _, hfunction, ⟨⟩⟩ := h
  have hfunction := (hd.of_record? hr).required FunctionDefinition.roundTrips hfunction
  refine reads_record (by simp) (fun _ => rfl) fun r hr => ?_
  have hread : Reads (choice fun s => if s = "function" then some () else none) (.str "function")
      () := reads_choice rfl
  have hkind := (hr "type" (by decide) _ rfl).required hread
  have hfunction := (hr "function" (by decide) _ rfl).required hfunction
  simp only [hkind, hfunction, Option.bind_eq_bind, Option.bind_some]

/-- A chat request that was read is read back, field by field. -/
theorem ChatRequest.roundTrips : RoundTrips decode toJson := by
  intro d request hd h
  obtain ⟨r, hr, h⟩ := Option.bind_eq_some_iff.1 h
  obtain ⟨_, -, h⟩ := Option.bind_eq_some_iff.1 h
  obtain ⟨_, -, h⟩ := Option.bind_eq_some_iff.1 h
  obtain ⟨_, -, h⟩ := Option.bind_eq_some_iff.1 h
  obtain ⟨_, -, h⟩ := Option.bind_eq_some_iff.1 h
  obtain ⟨_, -, h⟩ := Option.bind_eq_some_iff.1 h
  obtain ⟨_, htemperature, h⟩ := Option.bind_eq_some_iff.1 h
  obtain ⟨_, htopP, h⟩ := Option.bind_eq_some_iff.1 h
  obtain ⟨_, htools, h⟩ := Option.bind_eq_some_iff.1 h
  obtain ⟨_, -, h⟩ := Option.bind_eq_some_iff.1 h
  obtain ⟨_, -, h⟩ := Option.bind_eq_some_iff.1 h
  obtain ⟨_, -, h⟩ := Option.bind_eq_some_iff.1 h
  obtain ⟨_, -, h⟩ := Option.bind_eq_some_iff.1 h
  cases h
  have hfields := hd.of_record? hr
  have htemperature := hfields.optional roundTrips_float htemperature
  have htopP := hfields.optional roundTrips_float htopP
  have htools := hfields.optional ToolDefinition.roundTrips.list htools
  refine reads_record (by simp) (fun _ => rfl) fun r hr => ?_
  have hmessages := (hr "messages" (by decide) _ rfl).required
    (reads_list fun m _ => m.reads_toJson)
  have hmodel := (hr "model" (by decide) _ rfl).optional_map fun s _ => reads_str s
  have hmaxTokens := (hr "max_tokens" (by decide) _ rfl).optional_map fun n _ => reads_uint32 n
  have hstop := (hr "stop" (by decide) _ rfl).optional_map
    fun _ _ => reads_list fun s _ => reads_str s
  have hstream := (hr "stream" (by decide) _ rfl).defaulted (reads_bool _) false
  have htemperature := (hr "temperature" (by decide) _ rfl).optional_map htemperature
  have htopP := (hr "top_p" (by decide) _ rfl).optional_map htopP
  have htools := (hr "tools" (by decide) _ rfl).optional_map htools
  have htoolChoice := (hr "tool_choice" (by decide) _ rfl).optional_map fun s _ => reads_str s
  have huser := (hr "user_id" (by decide) _ rfl).optional_map fun s _ => reads_str s
  have hrequestId := (hr "request_id" (by decide) _ rfl).optional_map fun s _ => reads_str s
  have hdoSample := (hr "do_sample" (by decide) _ rfl).optional_map fun b _ => reads_bool b
  simp only [hmessages, hmodel, hmaxTokens, hstop, hstream, htemperature, htopP, htools,
    htoolChoice, huser, hrequestId, hdoSample, Option.bind_eq_bind, Option.bind_some]

/-- An embedding request is read back. -/
theorem EmbeddingRequest.reads_toJson (request : EmbeddingRequest) :
    Reads decode request.toJson request :=
  reads_record (by simp) (fun _ => rfl) fun r hr => by
    have hinput := (hr "input" (by decide) _ rfl).required (reads_str _)
    have hmodel := (hr "model" (by decide) _ rfl).optional_map fun s _ => reads_str s
    have hdimensions := (hr "dimensions" (by decide) _ rfl).optional_map fun n _ => reads_uint32 n
    simp only [hinput, hmodel, hdimensions, Option.bind_eq_bind, Option.bind_some]

/-- An image request is read back. -/
theorem ImageRequest.reads_toJson (request : ImageRequest) :
    Reads decode request.toJson request :=
  reads_record (by simp) (fun _ => rfl) fun r hr => by
    have hprompt := (hr "prompt" (by decide) _ rfl).required (reads_str _)
    have hmodel := (hr "model" (by decide) _ rfl).optional_map fun s _ => reads_str s
    have huser := (hr "user_id" (by decide) _ rfl).optional_map fun s _ => reads_str s
    simp only [hprompt, hmodel, huser, Option.bind_eq_bind, Option.bind_some]

/-- The response of the image endpoint is read back. -/
theorem ImageResponse.reads_toJson (response : ImageResponse) :
    Reads decode response.toJson response :=
  reads_record (by simp) (fun _ => rfl) fun r hr => by
    have hurl : ∀ url : String, Reads decodeUrl (record [("url", some (.str url))]) url :=
      fun url => reads_record (by simp) (fun _ => rfl) fun r hr =>
        (hr "url" (by decide) _ rfl).required (reads_str url)
    have hcreated := (hr "created" (by decide) _ rfl).optional_orNull fun n _ => reads_int64 n
    have hurls := (hr "data" (by decide) _ rfl).defaulted (reads_list fun url _ => hurl url) []
    simp only [hcreated, hurls, Option.bind_eq_bind, Option.bind_some]

end Wire

/-! ## Messages of a conversation -/

/-- A content is an object from the name of its kind. -/
theorem MediaData.reads_toJson (data : MediaData) : Reads decode data.toJson data where
  ne_null := by cases data <;> nofun
  decode_eq w hw := by
    cases data with
    | bytes bs =>
      obtain ⟨w', hw', hvariant⟩ := exists_variant? hw
      have hbytes := (reads_list fun b _ => reads_uint8 b : Reads _ _ bs).decode_eq w' hw'
      rw [decode, hvariant]
      show (list uint8 w'.toDoc).map bytes = _
      rw [hbytes]
      rfl
    | url s =>
      obtain ⟨w', rfl, hvariant⟩ := exists_variant? hw
      rw [decode, hvariant]
      rfl

/-- A medium is read back. -/
theorem Media.reads_toJson (m : Media) : Reads decode m.toJson m :=
  reads_record (by simp) (fun _ => rfl) fun r hr => by
    have hmimeType := (hr "mime_type" (by decide) _ rfl).required (reads_str _)
    have hdata := (hr "data" (by decide) _ rfl).required m.data.reads_toJson
    simp only [hmimeType, hdata, Option.bind_eq_bind, Option.bind_some]

/-- A tool call of a message is read back. -/
theorem ToolCall.reads_toJson (c : ToolCall) : Reads decode c.toJson c :=
  reads_record (by simp) (fun _ => rfl) fun r hr => by
    have hid := (hr "id" (by decide) _ rfl).required (reads_str _)
    have hkind := (hr "type" (by decide) _ rfl).required (reads_str _)
    have hname := (hr "name" (by decide) _ rfl).required (reads_str _)
    have harguments := (hr "arguments" (by decide) _ rfl).required (reads_str _)
    simp only [hid, hkind, hname, harguments, Option.bind_eq_bind, Option.bind_some]

/-- The response of a tool is read back. -/
theorem ToolResponse.reads_toJson (response : ToolResponse) :
    Reads decode response.toJson response :=
  reads_record (by simp) (fun _ => rfl) fun r hr => by
    have hid := (hr "id" (by decide) _ rfl).required (reads_str _)
    have hname := (hr "name" (by decide) _ rfl).required (reads_str _)
    have hdata := (hr "response_data" (by decide) _ rfl).required (reads_str _)
    simp only [hid, hname, hdata, Option.bind_eq_bind, Option.bind_some]

/-- An assistant message that was read with its metadata is read back. -/
theorem AssistantMessage.roundTrips : RoundTrips decode toJson := by
  intro d m hd h
  simp only [decode, Option.bind_eq_bind, Option.bind_eq_some_iff] at h
  obtain ⟨r, hr, _, -, _, -, _, hmetadata, ⟨⟩⟩ := h
  have hmetadata := (hd.of_record? hr).defaulted_dict hmetadata
  refine reads_record (by simp [fields, callsField]) (fun _ => rfl) fun r hr => ?_
  have hcontent := (hr "content" (by decide) _ rfl).required (reads_str _)
  have htoolCalls := (hr "tool_calls" (by decide) _ rfl).defaulted_ite List.isEmpty_iff.1
    fun _ => reads_list fun c _ => c.reads_toJson
  have hmetadata := (hr "metadata" (by decide) _ rfl).defaulted_ite Dict.eq_empty_of_isEmpty
    fun _ => hmetadata
  simp only [hcontent, htoolCalls, hmetadata, Option.bind_eq_bind, Option.bind_some]

/-- Without its tag a message is a record. -/
theorem Message.reads_toJson {m : Message}
    (hassistant : ∀ a, m = .assistant a → Reads AssistantMessage.decode a.toJson a) :
    Reads decode m.toJson m where
  ne_null := by cases m <;> nofun
  decode_eq w hw := by
    cases m with
    | system content =>
      obtain ⟨rest, htagged, hrest⟩ := exists_tagged? (by simp) "role" rfl hw
      obtain ⟨r, hr, hgives⟩ := exists_record? (by simp) hrest ["content"]
      have hcontent := (hgives "content" (by decide) _ rfl).required (reads_str content)
      rw [decode, htagged]
      simp only [Option.bind_eq_bind, Option.bind_some, string, hr, hcontent]
    | user content media =>
      obtain ⟨rest, htagged, hrest⟩ := exists_tagged? (by simp) "role" rfl hw
      obtain ⟨r, hr, hgives⟩ := exists_record? (by simp) hrest ["content", "media"]
      have hcontent := (hgives "content" (by decide) _ rfl).required (reads_str content)
      have hmedia := (hgives "media" (by decide) _ rfl).defaulted_ite List.isEmpty_iff.1
        fun _ => reads_list fun m _ => m.reads_toJson
      rw [decode, htagged]
      simp only [Option.bind_eq_bind, Option.bind_some, string, hr, hcontent, hmedia]
    | assistant a =>
      obtain ⟨rest, htagged, hrest⟩ := exists_tagged? (by simp [AssistantMessage.fields,
        AssistantMessage.callsField]) "role" rfl hw
      have hread := (hassistant a rfl).decode_eq rest hrest
      rw [decode, htagged]
      simp only [Option.bind_eq_bind, Option.bind_some, string, hread, Option.map_some]
    | tool responses =>
      obtain ⟨rest, htagged, hrest⟩ := exists_tagged? (by simp) "role" rfl hw
      obtain ⟨r, hr, hgives⟩ := exists_record? (by simp) hrest ["responses"]
      have hresponses := (hgives "responses" (by decide) _ rfl).required
        (reads_list fun response _ => response.reads_toJson)
      rw [decode, htagged]
      simp only [Option.bind_eq_bind, Option.bind_some, string, hr, hresponses]

/-- A message of any of the four kinds that was read is read back. -/
theorem Message.roundTrips : RoundTrips decode toJson := by
  intro d m hd h
  obtain ⟨⟨tag, rest⟩, htagged, h⟩ := Option.bind_eq_some_iff.1 h
  obtain ⟨role, -, h⟩ := Option.bind_eq_some_iff.1 h
  refine reads_toJson fun a ha => ?_
  subst ha
  split at h
  case h_3 =>
    obtain ⟨read, hread, heq⟩ := Option.map_eq_some_iff.1 h
    cases heq
    exact AssistantMessage.roundTrips _ _ (hd.of_tagged? htagged) hread
  -- The other roles have no assistant's message.
  all_goals simp [Option.bind_eq_some_iff] at h

/-! ## Responses -/

/-- The metadata of a generation that was read is read back. -/
theorem GenerationMetadata.roundTrips : RoundTrips decode toJson := by
  intro d m hd h
  simp only [decode, Option.bind_eq_bind, Option.bind_eq_some_iff] at h
  obtain ⟨r, hr, _, -, _, hextra, ⟨⟩⟩ := h
  have hextra := (hd.of_record? hr).defaulted_dict hextra
  refine reads_record (by simp) (fun _ => rfl) fun r hr => ?_
  have hfinish := (hr "finish_reason" (by decide) _ rfl).nullable_orNull fun s _ => reads_str s
  have hextra := (hr "extra" (by decide) _ rfl).defaulted_ite Dict.eq_empty_of_isEmpty
    fun _ => hextra
  simp only [hfinish, hextra, Option.bind_eq_bind, Option.bind_some]

/-- A generation that was read is read back. -/
theorem Generation.roundTrips : RoundTrips decode toJson := by
  intro d g hd h
  simp only [decode, Option.bind_eq_bind, Option.bind_eq_some_iff] at h
  obtain ⟨r, hr, _, houtput, _, hmetadata, ⟨⟩⟩ := h
  have houtput := (hd.of_record? hr).required AssistantMessage.roundTrips houtput
  have hmetadata := (hd.of_record? hr).required GenerationMetadata.roundTrips hmetadata
  refine reads_record (by simp) (fun _ => rfl) fun r hr => ?_
  have houtput := (hr "output" (by decide) _ rfl).required houtput
  have hmetadata := (hr "metadata" (by decide) _ rfl).required hmetadata
  simp only [houtput, hmetadata, Option.bind_eq_bind, Option.bind_some]

/-- The usage of a response is read back. -/
theorem Usage.reads_toJson (u : Usage) : Reads decode u.toJson u :=
  reads_record (by simp) (fun _ => rfl) fun r hr => by
    have hprompt := (hr "prompt_tokens" (by decide) _ rfl).required (reads_uint32 _)
    have hgeneration := (hr "generation_tokens" (by decide) _ rfl).required (reads_uint32 _)
    have htotal := (hr "total_tokens" (by decide) _ rfl).required (reads_uint32 _)
    simp only [hprompt, hgeneration, htotal, Option.bind_eq_bind, Option.bind_some]

/-- A point in time is read back from its text. -/
theorem Timestamp.reads_render (t : Timestamp) :
    Reads (fun d => do read? (← string d)) (.str t.render) t where
  ne_null h := by cases h
  decode_eq := by
    rintro _ rfl
    show Option.bind (some t.render) read? = some t
    rw [Option.bind_some, read?_render]

/-- The metadata of a response is read back. -/
theorem ResponseMetadata.reads_toJson (m : ResponseMetadata) : Reads decode m.toJson m :=
  reads_record (by simp) (fun _ => rfl) fun r hr => by
    have hid := (hr "id" (by decide) _ rfl).required (reads_str _)
    have hmodel := (hr "model" (by decide) _ rfl).required (reads_str _)
    have husage := (hr "usage" (by decide) _ rfl).required m.usage.reads_toJson
    have hcreated := (hr "created" (by decide) _ rfl).optional_map fun t _ => t.reads_render
    have hfingerprint := (hr "system_fingerprint" (by decide) _ rfl).optional_map
      fun s _ => reads_str s
    simp only [Option.bind_eq_bind] at hcreated
    simp only [hid, hmodel, husage, hcreated, hfingerprint, Option.bind_eq_bind, Option.bind_some]

/-- A response that was read is read back. -/
theorem ChatResponse.roundTrips : RoundTrips decode toJson := by
  intro d response hd h
  simp only [decode, Option.bind_eq_bind, Option.bind_eq_some_iff] at h
  obtain ⟨r, hr, _, hgenerations, _, -, ⟨⟩⟩ := h
  have hgenerations := (hd.of_record? hr).required Generation.roundTrips.list hgenerations
  refine reads_record (by simp) (fun _ => rfl) fun r hr => ?_
  have hgenerations := (hr "generations" (by decide) _ rfl).required hgenerations
  have hmetadata := (hr "metadata" (by decide) _ rfl).required
    (ResponseMetadata.reads_toJson _)
  simp only [hgenerations, hmetadata, Option.bind_eq_bind, Option.bind_some]

/-! ## All of them -/

/-- **Round trips.** Whatever a document of finite numbers is read as, be it a parsed text
(`Json.Doc.finite_of_parse?`) or a tree (`Json.Held.fits_toDoc`), is written as a tree that is read
as the same, and that is written as the same tree. -/
theorem recovers_of_finite {d : Doc} (hd : d.Finite) :
    Recovers Wire.Completion.decode Wire.Completion.toJson d ∧
      Recovers Wire.Chunk.decode Wire.Chunk.toJson d ∧
      Recovers Wire.Message.decode Wire.Message.toJson d ∧
      Recovers Wire.ChatRequest.decode Wire.ChatRequest.toJson d ∧
      Recovers Wire.ToolDefinition.decode Wire.ToolDefinition.toJson d ∧
      Recovers Wire.EmbeddingRequest.decode Wire.EmbeddingRequest.toJson d ∧
      Recovers Wire.ImageRequest.decode Wire.ImageRequest.toJson d ∧
      Recovers Wire.ImageResponse.decode Wire.ImageResponse.toJson d ∧
      Recovers Message.decode Message.toJson d ∧
      Recovers ChatResponse.decode ChatResponse.toJson d :=
  ⟨Wire.Completion.roundTrips.recovers hd, Wire.Chunk.roundTrips.recovers hd,
    (RoundTrips.of_reads Wire.Message.reads_toJson).recovers hd,
    Wire.ChatRequest.roundTrips.recovers hd, Wire.ToolDefinition.roundTrips.recovers hd,
    (RoundTrips.of_reads Wire.EmbeddingRequest.reads_toJson).recovers hd,
    (RoundTrips.of_reads Wire.ImageRequest.reads_toJson).recovers hd,
    (RoundTrips.of_reads Wire.ImageResponse.reads_toJson).recovers hd,
    Message.roundTrips.recovers hd, ChatResponse.roundTrips.recovers hd⟩

namespace RoundTripFrame

/-- A frame with a reason that has no name of its own and with log probabilities. -/
def tree : Json :=
  .obj [("choices", .arr [.obj [("finish_reason", .str "tired"), ("logprobs", .arr [.int 0])]]),
    ("created", .int 1)]

/-- The chunk of the frame. -/
def chunk : Wire.Chunk :=
  { choices := [{ finishReason := some .unknown, logprobs := some (.arr [.int 0]) }]
    created := some 1 }

/-- The frame is a value that a document of this depth holds. -/
theorem held_tree : tree.Held 4 := by
  have hchoice :
      (Json.obj [("finish_reason", .str "tired"), ("logprobs", .arr [.int 0])]).Held 2 :=
    ⟨List.pairwise_pair.2 (by decide), List.forall_mem_cons.2
      ⟨trivial, List.forall_mem_singleton.2 (List.forall_mem_singleton.2 trivial)⟩⟩
  exact ⟨List.pairwise_pair.2 (by decide), List.forall_mem_cons.2
    ⟨List.forall_mem_singleton.2 hchoice, List.forall_mem_singleton.2 trivial⟩⟩

end RoundTripFrame

open RoundTripFrame in
/-- The frame is read as the chunk, and so is what the chunk is written as. -/
theorem recovers_frame : ∃ b, Wire.Chunk.decode chunk.toJson.toDoc = some b ∧ b = chunk ∧
    b.toJson = chunk.toJson := by
  have hchunk : Wire.Chunk.decode tree.toDoc = some chunk := by decide +kernel
  exact (recovers_of_finite ⟨4, held_tree.fits_toDoc⟩).2.1 chunk hchunk

end ModelClient
