import ModelClient.Proofs.Records
import ModelClient.Wire.Completion

/-!
# Chunks that are written and read

A chunk that was read from some text may be written again, with the fields of its objects in any
order, and is read as the same chunk. Its fields are texts, names, integers and lists of records;
only the log probabilities of a choice are whatever the text had there, so what they are like is
taken from the document that the chunk was read from: it fits into the limit of the parser
(`Json.Doc.fits_of_parse?`), and so does what is written for the chunk.

## Main statements

* `Wire.Chunk.reads_toJson`: a chunk is read back.
* `Wire.Chunk.isHeld_of_decode`, `Wire.Chunk.depth_toJson_le`: the chunk of a parsed document, and
  how deep the value nests that is written for it.
-/

namespace ModelClient

namespace Wire

open Json Json.Decode

/-! ## Parts of a chunk -/

/-- A finish reason is read back from its name. -/
theorem FinishReason.reads_toJson (r : FinishReason) : Reads decode r.toJson r :=
  reads_choice (by rw [ofName?_name]; rfl)

/-- A role is read back from its name. -/
theorem Role.reads_toJson (r : Role) : Reads decode r.toJson r :=
  reads_choice (ofName?_name r)

/-- A reference to an image is read back. -/
theorem ImageReference.reads_toJson (i : ImageReference) : Reads decode i.toJson i :=
  reads_record (by simp) (fun _ => rfl) fun r hr => by
    have hurl := (hr "url" (by decide) _ rfl).required (reads_str i.url)
    have hdetail := (hr "detail" (by decide) _ rfl).optional_map fun s _ => reads_str s
    exact Option.bind_eq_some_iff.2 ⟨_, hurl, Option.bind_eq_some_iff.2 ⟨_, hdetail, rfl⟩⟩

/-- Without its tag a part is a record of one field. -/
theorem Part.reads_toJson (p : Part) : Reads decode p.toJson p where
  ne_null := by cases p <;> nofun
  decode_eq w hw := by
    cases p with
    | text s =>
      obtain ⟨rest, htagged, hrest⟩ := exists_tagged? (by simp) "type" rfl hw
      obtain ⟨r, hr, hgives⟩ := exists_record? (by simp) hrest ["text"]
      have htext := (hgives "text" (by decide) _ rfl).required (reads_str s)
      rw [decode, htagged]
      exact Option.bind_eq_some_iff.2 ⟨_, rfl, Option.bind_eq_some_iff.2 ⟨.str "text", rfl,
        Option.bind_eq_some_iff.2 ⟨r, hr, Option.bind_eq_some_iff.2 ⟨s, htext, rfl⟩⟩⟩⟩
    | image i =>
      obtain ⟨rest, htagged, hrest⟩ := exists_tagged? (by simp) "type" rfl hw
      obtain ⟨r, hr, hgives⟩ := exists_record? (by simp) hrest ["image_url"]
      have himage := (hgives "image_url" (by decide) _ rfl).required i.reads_toJson
      rw [decode, htagged]
      exact Option.bind_eq_some_iff.2 ⟨_, rfl, Option.bind_eq_some_iff.2 ⟨.str "image_url", rfl,
        Option.bind_eq_some_iff.2 ⟨r, hr, Option.bind_eq_some_iff.2 ⟨i, himage, rfl⟩⟩⟩⟩

/-- Content is read back, as a text or as parts. -/
theorem Content.reads_toJson (c : Content) : Reads decode c.toJson c where
  ne_null := by cases c <;> nofun
  decode_eq w hw := by
    rw [decode, sound?_toDoc]
    cases c with
    | text s =>
      cases hw
      rfl
    | parts ps =>
      have hread := (reads_list fun p _ => p.reads_toJson : Reads _ _ ps).decode_eq w hw
      obtain ⟨others, -, rfl⟩ := rearranged_arr_iff.1 hw
      show (list Part.decode _).map parts = _
      rw [hread]
      rfl

/-- The function of a call is read back. -/
theorem FunctionCall.reads_toJson (f : FunctionCall) : Reads decode f.toJson f :=
  reads_record (by simp) (fun _ => rfl) fun r hr => by
    have hname := (hr "name" (by decide) _ rfl).optional_map fun s _ => reads_str s
    have harguments := (hr "arguments" (by decide) _ rfl).optional_map fun s _ => reads_str s
    exact Option.bind_eq_some_iff.2 ⟨_, hname, Option.bind_eq_some_iff.2 ⟨_, harguments, rfl⟩⟩

/-- A tool call is read back. -/
theorem ToolCall.reads_toJson (c : ToolCall) : Reads decode c.toJson c :=
  reads_record (by simp) (fun _ => rfl) fun r hr => by
    have hindex := (hr "index" (by decide) _ rfl).optional_map fun n _ => reads_uint32 n
    have hid := (hr "id" (by decide) _ rfl).optional_map fun s _ => reads_str s
    have hkind := (hr "type" (by decide) _ rfl).optional_map fun s _ => reads_str s
    have hfunction := (hr "function" (by decide) _ rfl).optional_map fun f _ => f.reads_toJson
    exact Option.bind_eq_some_iff.2 ⟨_, hindex, Option.bind_eq_some_iff.2 ⟨_, hid,
      Option.bind_eq_some_iff.2 ⟨_, hkind, Option.bind_eq_some_iff.2 ⟨_, hfunction, rfl⟩⟩⟩⟩

/-- A message is read back. -/
theorem Message.reads_toJson (m : Message) : Reads decode m.toJson m :=
  reads_record (by simp) (fun _ => rfl) fun r hr => by
    have hcontent := (hr "content" (by decide) _ rfl).optional_map fun c _ => c.reads_toJson
    have hrole := (hr "role" (by decide) _ rfl).optional_map fun r _ => r.reads_toJson
    have hname := (hr "name" (by decide) _ rfl).optional_map fun s _ => reads_str s
    have htoolCallId := (hr "tool_call_id" (by decide) _ rfl).optional_map fun s _ => reads_str s
    have htoolCalls := (hr "tool_calls" (by decide) _ rfl).optional_map
      fun (calls : List ToolCall) _ => reads_list fun c _ => c.reads_toJson
    exact Option.bind_eq_some_iff.2 ⟨_, hcontent, Option.bind_eq_some_iff.2 ⟨_, hrole,
      Option.bind_eq_some_iff.2 ⟨_, hname, Option.bind_eq_some_iff.2 ⟨_, htoolCallId,
        Option.bind_eq_some_iff.2 ⟨_, htoolCalls, rfl⟩⟩⟩⟩⟩

/-! ## Choices and chunks -/

/-- The log probabilities are a value that a document holds, and not `null`. -/
def ChunkChoice.IsHeld (limit : Nat) (c : ChunkChoice) : Prop :=
  ∀ v ∈ c.logprobs, v.Held limit ∧ v ≠ .null

/-- So are those of every choice. -/
def Chunk.IsHeld (limit : Nat) (c : Chunk) : Prop := ∀ choice ∈ c.choices, choice.IsHeld limit

/-- A choice is read back if its log probabilities are. -/
theorem ChunkChoice.reads_toJson {limit : Nat} {c : ChunkChoice} (h : c.IsHeld limit) :
    Reads decode c.toJson c :=
  reads_record (by simp) (fun _ => rfl) fun r hr => by
    have hfinish := (hr "finish_reason" (by decide) _ rfl).optional_orNull
      fun r _ => r.reads_toJson
    have hindex := (hr "index" (by decide) _ rfl).optional_orNull fun n _ => reads_uint32 n
    have hdelta := (hr "delta" (by decide) _ rfl).optional_orNull fun m _ => m.reads_toJson
    have hlogprobs := (hr "logprobs" (by decide) _ rfl).optional_orNull
      fun v hv => reads_json (h v hv).1 (h v hv).2
    exact Option.bind_eq_some_iff.2 ⟨_, hfinish, Option.bind_eq_some_iff.2 ⟨_, hindex,
      Option.bind_eq_some_iff.2 ⟨_, hdelta, Option.bind_eq_some_iff.2 ⟨_, hlogprobs, rfl⟩⟩⟩⟩

/-- A chunk is read back, in whatever order its fields are written. -/
theorem Chunk.reads_toJson {limit : Nat} {c : Chunk} (h : c.IsHeld limit) :
    Reads decode c.toJson c :=
  reads_record (by simp) (fun _ => rfl) fun r hr => by
    have hid := (hr "id" (by decide) _ rfl).optional_orNull fun s _ => reads_str s
    have hchoices := (hr "choices" (by decide) _ rfl).defaulted (reads_list
      fun choice hchoice => ChunkChoice.reads_toJson (h choice hchoice)) []
    have hcreated := (hr "created" (by decide) _ rfl).optional_orNull fun n _ => reads_int64 n
    have hmodel := (hr "model" (by decide) _ rfl).optional_orNull fun s _ => reads_str s
    have hfingerprint := (hr "system_fingerprint" (by decide) _ rfl).optional_orNull
      fun s _ => reads_str s
    have hobject := (hr "object" (by decide) _ rfl).optional_orNull fun s _ => reads_str s
    exact Option.bind_eq_some_iff.2 ⟨_, hid, Option.bind_eq_some_iff.2 ⟨_, hchoices,
      Option.bind_eq_some_iff.2 ⟨_, hcreated, Option.bind_eq_some_iff.2 ⟨_, hmodel,
        Option.bind_eq_some_iff.2 ⟨_, hfingerprint, Option.bind_eq_some_iff.2 ⟨_, hobject,
          rfl⟩⟩⟩⟩⟩⟩

/-! ## Nesting -/

/-- A part is a record, with one record in it at most. -/
theorem Part.depth_toJson_le (p : Part) : p.toJson.depth ≤ 2 := by
  cases p with
  | text s => exact depth_record_le (by simp [depth])
  | image i =>
    have hreference : i.toJson.depth ≤ 1 := depth_record_le (by simp [depth])
    exact depth_record_le (by simpa [depth] using hreference)

/-- Content adds a list around its parts. -/
theorem Content.depth_toJson_le (c : Content) : c.toJson.depth ≤ 3 := by
  cases c with
  | text s => exact Nat.zero_le 3
  | parts ps => exact depth_arr_map_le fun p _ => p.depth_toJson_le

/-- A tool call is a record with a record in it. -/
theorem ToolCall.depth_toJson_le (c : ToolCall) : c.toJson.depth ≤ 2 := by
  refine depth_record_le ?_
  simp only [List.forall_mem_cons]
  exact ⟨depth_map_le fun f _ => depth_record_le (by simp [depth]),
    depth_map_le fun _ _ => Nat.zero_le 1, depth_map_le fun _ _ => Nat.zero_le 1,
    depth_map_le fun _ _ => Nat.zero_le 1, nofun⟩

/-- A message holds content and tool calls, and content is the deeper of them. -/
theorem Message.depth_toJson_le (m : Message) : m.toJson.depth ≤ 4 := by
  refine depth_record_le ?_
  simp only [List.forall_mem_cons]
  exact ⟨depth_map_le fun c _ => c.depth_toJson_le, depth_map_le fun _ _ => Nat.zero_le 3,
    depth_map_le fun _ _ => Nat.zero_le 3, depth_map_le fun _ _ => Nat.zero_le 3,
    depth_map_le fun _ _ => depth_arr_map_le fun c _ => c.depth_toJson_le, nofun⟩

/-- What a choice nests comes from its message or from its log probabilities. -/
theorem ChunkChoice.depth_toJson_le {limit : Nat} {c : ChunkChoice} (h : c.IsHeld limit)
    (hlimit : 4 ≤ limit) : c.toJson.depth ≤ limit + 1 := by
  refine depth_record_le ?_
  simp only [List.forall_mem_cons]
  exact ⟨depth_orNull_le fun m _ => Nat.le_trans m.depth_toJson_le hlimit,
    depth_orNull_le fun _ _ => Nat.zero_le limit, depth_orNull_le fun _ _ => Nat.zero_le limit,
    depth_orNull_le fun v hv => (h v hv).1.depth_le, nofun⟩

/-- The log probabilities stand below an object, an array and an object again. -/
theorem Chunk.depth_toJson_le {limit : Nat} {c : Chunk} (h : c.IsHeld limit)
    (hlimit : 4 ≤ limit) : c.toJson.depth ≤ limit + 3 := by
  have hchoices : ∀ v ∈ some (arr (c.choices.map ChunkChoice.toJson)), v.depth ≤ limit + 2 := by
    rintro _ ⟨⟩
    exact depth_arr_map_le fun choice hchoice =>
      ChunkChoice.depth_toJson_le (h choice hchoice) hlimit
  refine depth_record_le ?_
  simp only [List.forall_mem_cons]
  exact ⟨hchoices, depth_orNull_le fun _ _ => Nat.zero_le _,
    depth_orNull_le fun _ _ => Nat.zero_le _, depth_orNull_le fun _ _ => Nat.zero_le _,
    depth_orNull_le fun _ _ => Nat.zero_le _, depth_orNull_le fun _ _ => Nat.zero_le _, nofun⟩

/-! ## Chunks of a parsed document -/

/-- The log probabilities of a choice are a part of the document that it was read from. -/
theorem ChunkChoice.isHeld_of_decode {limit : Nat} {d : Doc} (hd : d.Fits (limit + 1))
    {c : ChunkChoice} (h : decode d = some c) : c.IsHeld limit := by
  obtain ⟨r, hr, h⟩ := Option.bind_eq_some_iff.1 h
  obtain ⟨_, -, h⟩ := Option.bind_eq_some_iff.1 h
  obtain ⟨_, -, h⟩ := Option.bind_eq_some_iff.1 h
  obtain ⟨_, -, h⟩ := Option.bind_eq_some_iff.1 h
  obtain ⟨logprobs, hlogprobs, h⟩ := Option.bind_eq_some_iff.1 h
  cases h
  rintro v ⟨⟩
  unfold Record.optional Record.defaulted at hlogprobs
  split at hlogprobs
  · cases hlogprobs
  · next field hfield =>
    have hfits := hd.of_record? hr hfield
    obtain ⟨hne, hvalue⟩ := Decode.eq_some_of_nullable hlogprobs
    refine ⟨held_of_toJson? hfits hvalue, ?_⟩
    rintro rfl
    exact hne (eq_null_of_toJson? hfits hvalue)

/-- The choices of a chunk are items of a list in the document that it was read from. -/
theorem Chunk.isHeld_of_decode {limit : Nat} {d : Doc} (hd : d.Fits (limit + 3)) {c : Chunk}
    (h : decode d = some c) : c.IsHeld limit := by
  obtain ⟨r, hr, h⟩ := Option.bind_eq_some_iff.1 h
  obtain ⟨_, -, h⟩ := Option.bind_eq_some_iff.1 h
  obtain ⟨choices, hchoices, h⟩ := Option.bind_eq_some_iff.1 h
  obtain ⟨_, -, h⟩ := Option.bind_eq_some_iff.1 h
  obtain ⟨_, -, h⟩ := Option.bind_eq_some_iff.1 h
  obtain ⟨_, -, h⟩ := Option.bind_eq_some_iff.1 h
  obtain ⟨_, -, h⟩ := Option.bind_eq_some_iff.1 h
  cases h
  intro choice hchoice
  unfold Record.defaulted at hchoices
  split at hchoices
  · cases hchoices
    cases hchoice
  · next field hfield =>
    obtain ⟨item, hitem, hread⟩ := (hd.of_record? hr hfield).of_list hchoices hchoice
    exact ChunkChoice.isHeld_of_decode hitem hread

end Wire

end ModelClient
