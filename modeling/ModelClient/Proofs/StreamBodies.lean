import ModelClient.Proofs.Blocks
import ModelClient.Proofs.EndMark
import ModelClient.Proofs.EventLines
import ModelClient.Proofs.Numerals
import ModelClient.Proofs.Runs
import ModelClient.Proofs.Segments
import ModelClient.Proofs.WrittenChunks

/-!
# The body of a stream and its chunks

A service streams chunks as events: each is written as the data of a line with a blank line after
it, and the mark of the end comes last. Such a body is cut into the lines that were written, however
it arrives, because a written chunk has no newline; the line of a chunk is read as the chunk, and
the other lines carry none. Chunks without a tool call open no window, so they reach the consumer
one by one.

The chunks are any that were read from some text themselves. Their integers are read back as they
are (`Json.Number.legible_of_isSome_toInt?`); a double-precision number has to be one that its text
stands for.

## Main statements

* `Client.stream_streamBody`: a stream gives the chunks that its body was written for.
-/

namespace ModelClient

/-! ## Events -/

/-- The bytes of an event with the given data. -/
def Sse.event (data : String) : List UInt8 := Text.encode ("data: " ++ data ++ "\n\n")

/-- The body of a stream whose events say some values. -/
def Json.streamBody (vs : List Json) : List UInt8 :=
  vs.flatMap (fun v => Sse.event v.render) ++ Sse.event "[DONE]"

namespace Sse

/-- An event is cut into its line and a blank one. -/
theorem cut_event_append {data : String} (h : newline ∉ Text.encode ("data: " ++ data))
    (rest : List UInt8) :
    cut (event data ++ rest) =
      (Text.encode ("data: " ++ data) :: [] :: (cut rest).1, (cut rest).2) := by
  have hend : Text.encode "\n\n" = [newline, newline] := rfl
  have hevent : event data ++ rest =
      Text.encode ("data: " ++ data) ++ newline :: newline :: rest := by
    rw [event, Text.encode, String.toList_append, List.flatMap_append]
    show Text.encode ("data: " ++ data) ++ Text.encode "\n\n" ++ rest = _
    rw [hend, List.append_assoc]
    rfl
  rw [hevent, cut_append_newline h, cut_cons_newline]

end Sse

namespace Json

open Sse

/-- The body of a stream is cut into the lines of its values and of the mark, and blank ones. -/
theorem cut_streamBody {vs : List Json} (h : ∀ v ∈ vs, v.ReadsBack) :
    cut (streamBody vs) =
      (vs.flatMap (fun v => [Text.encode v.eventLine, []]) ++
        [Text.encode Wire.EndMark.mark, []], []) := by
  unfold streamBody
  induction vs with
  | nil =>
    have hmark : newline ∉ Text.encode ("data: " ++ "[DONE]") := by decide
    have hcut := cut_event_append hmark []
    rwa [List.append_nil] at hcut
  | cons v vs ih =>
    obtain ⟨hv, hvs⟩ := List.forall_mem_cons.1 h
    rw [List.flatMap_cons, List.append_assoc, cut_event_append hv.newline_not_mem, ih hvs]
    rfl

/-- The lines of the body in whatever pieces it arrives. -/
theorem lines_of_streamBody {vs : List Json} (h : ∀ v ∈ vs, v.ReadsBack)
    {pieces : List (List UInt8)} (hpieces : pieces.flatten = streamBody vs) :
    lines (pieces.map .ok) =
      vs.flatMap (fun v => [.ok v.eventLine, .ok ""]) ++ [.ok Wire.EndMark.mark, .ok ""] := by
  have hcut := linesFrom_pieces List.not_mem_nil pieces []
  rw [List.append_nil, List.nil_append, hpieces, cut_streamBody h, linesFrom_nil] at hcut
  have hmark : lineText (Text.encode Wire.EndMark.mark) = Wire.EndMark.mark := by decide
  have hvalues : texts (vs.flatMap fun v => [Text.encode v.eventLine, []]) =
      vs.flatMap fun v => [.ok v.eventLine, .ok ""] := by
    rw [texts, List.map_flatMap]
    refine List.flatMap_congr fun v hv => ?_
    show texts [Text.encode v.eventLine, []] = _
    rw [texts_cons, (h v hv).lineText_encode]
    rfl
  rw [lines, hcut, texts_append, hvalues, texts_cons, hmark]
  exact List.append_nil _

end Json

namespace Wire

open Json

open List (Forall₂)

/-- Only the lines of the values carry frames. -/
theorem frames_of_streamBody {cs : List Chunk} {vs : List Json}
    (h : Forall₂ (fun c v => frame? v.eventLine = some c) cs vs) :
    frames (vs.flatMap (fun v => [.ok v.eventLine, .ok ""]) ++ [.ok EndMark.mark, .ok ""]) =
      cs.map .ok := by
  have hblank : frame? "" = none := rfl
  have hmark : frame? EndMark.mark = none := by
    rw [frame?_eq_accepted?, accepted?_eq_none_of_isEndMark EndMark.isEndMark_mark]
  induction h with
  | nil => simp [frames, hblank, hmark]
  | cons hframe _ ih =>
    unfold frames at ih ⊢
    rw [List.flatMap_cons, List.append_assoc, List.filterMap_append, ih]
    simp [hframe, hblank]

/-- Frames without a tool call are passed on as they are. -/
theorem windowsFrom_map_ok {cs : List Chunk} (h : ∀ c ∈ cs, c.hasToolCall = false) :
    windowsFrom none (cs.map .ok) = cs.map .ok := by
  induction cs with
  | nil => rfl
  | cons c cs ih =>
    obtain ⟨hc, hcs⟩ := List.forall_mem_cons.1 h
    rw [List.map_cons, windowsFrom, hc, ih hcs]
    rfl

/-! ## Written chunks -/

namespace Chunk

variable {c : Chunk} {w : Json}

/-- The chunk is what some text says. -/
def IsParsed (c : Chunk) : Prop := ∃ text, (Doc.parse? text).bind decode = some c

/-- Every double-precision number of the chunk is what its text stands for. -/
def HasLegibleFloats (c : Chunk) : Prop :=
  ∀ x, .float x ∈ c.toJson.numbers → (Number.float x).Legible

/-- A chunk whose numbers are integers has none that could be read differently. -/
theorem hasLegibleFloats_of_integers (h : ∀ n ∈ c.toJson.numbers, n.toInt?.isSome) :
    c.HasLegibleFloats := fun x hx => by
  cases h (.float x) hx

/-- Below a chunk, its list of choices and a choice, the parser leaves 124 levels. -/
theorem IsParsed.isHeld (h : c.IsParsed) : c.IsHeld 124 := by
  obtain ⟨text, h⟩ := h
  obtain ⟨d, hd, hread⟩ := Option.bind_eq_some_iff.1 h
  exact isHeld_of_decode (Doc.fits_of_parse? hd) hread

/-- A chunk is legible if its numbers in double precision are. -/
theorem HasLegibleFloats.legible (h : c.HasLegibleFloats) : c.toJson.Legible := by
  refine legible_of_numbers _ fun n hn => ?_
  cases n with
  | int n hrange => exact Number.legible_of_isSome_toInt? rfl
  | float x => exact h x hn

/-- `w` is the value that is written for the chunk, with the fields of its objects in any order. -/
structure WrittenAs (c : Chunk) (w : Json) : Prop where
  parsed : c.IsParsed
  floats : c.HasLegibleFloats
  rearranged : c.toJson.Rearranged w

/-- A written chunk is an object that is read back. -/
theorem WrittenAs.readsBack (h : c.WrittenAs w) : w.ReadsBack := by
  obtain ⟨hlegible, hdepth⟩ := h.rearranged.legible_and_depth_le h.floats.legible
    (depth_toJson_le h.parsed.isHeld (by decide))
  obtain ⟨_, fields, -, -, hfields⟩ := rearranged_obj_iff.1 h.rearranged
  exact ⟨⟨fields, hfields⟩, hlegible, hdepth⟩

/-- The line of a written chunk is read as the chunk. -/
theorem WrittenAs.frame?_eq (h : c.WrittenAs w) : frame? w.eventLine = some c := by
  rw [frame?_eventLine h.readsBack]
  exact (reads_toJson h.parsed.isHeld).decode_eq w h.rearranged

/-- A chunk that can be written is what its text says. -/
theorem isParsed_of_isHeld (hheld : c.IsHeld 124) (hfloats : c.HasLegibleFloats) : c.IsParsed := by
  refine ⟨c.toJson.write.map some, ?_⟩
  rw [Doc.parse?_write hfloats.legible (depth_toJson_le hheld (by decide))]
  exact (reads_toJson hheld).decode_eq _ (.refl _)

end Chunk

end Wire

namespace Client

open List (Forall₂)

open Wire (Chunk)

/-- The chunks of a body that was written for chunks without tool calls. -/
theorem chunks_of_streamBody {cs : List Chunk} {ws : List Json}
    (hwritten : Forall₂ Chunk.WrittenAs cs ws) (hcalls : ∀ c ∈ cs, c.hasToolCall = false)
    {pieces : List (List UInt8)} (hpieces : pieces.flatten = Json.streamBody ws) :
    chunks pieces false = cs.map .ok := by
  have hreadsBack : ∀ w ∈ ws, w.ReadsBack := fun w hw => by
    obtain ⟨c, -, hcw⟩ := Json.exists_mem_of_forall₂ hwritten hw
    exact hcw.readsBack
  have hframes := hwritten.imp fun _ _ h => h.frame?_eq
  show Wire.chunks (Sse.lines (pieces.map .ok ++ [])) = _
  rw [List.append_nil, Json.lines_of_streamBody hreadsBack hpieces, Wire.chunks,
    Wire.frames_of_streamBody hframes, Wire.windowsFrom_map_ok hcalls]

/-- **Streams read back what was written.** A successful reply whose body was written for chunks
without tool calls gives exactly these chunks and no error, in whatever pieces the body arrives. The
chunks are any that were read from some text themselves, apart from double-precision numbers that
are not what their text stands for. -/
theorem stream_streamBody {cs : List Chunk} {ws : List Json}
    (hwritten : Forall₂ Chunk.WrittenAs cs ws) (hcalls : ∀ c ∈ cs, c.hasToolCall = false)
    {pieces : List (List UInt8)} (hpieces : pieces.flatten = Json.streamBody ws) {s : Session}
    {answers rest : List Answer} {status : Nat} (hs : s.service = .script answers)
    (hnext : Service.next answers = (.reply status pieces false, rest))
    (hstatus : isSuccess status = true) (client : Client) {request : Wire.ChatRequest}
    (hrequest : request.stream = true) :
    ∃ sent, client.stream request s =
      ⟨[.sent sent], { s with service := .script rest }, .ok (cs.map .ok)⟩ := by
  rw [← chunks_of_streamBody hwritten hcalls hpieces]
  exact stream_of_reply hs hnext hstatus client hrequest

end Client

/-! ## A greeting -/

namespace WrittenGreeting

open Wire (Chunk)

/-- A chunk whose text looks like an end of the stream. -/
def chunk : Chunk :=
  { id := some "1"
    choices := [{
      index := some 0
      delta := some (.ofText "Grüße\n\ndata: [DONE]\n\n" .assistant)
      logprobs := some (.obj [("content", .arr []), ("refused", .int 0)]) }] }

/-- The chunk with its fields in the order in which a service lists them. -/
def written : Json :=
  .obj [("id", .str "1"), ("object", .null), ("created", .null), ("model", .null),
    ("system_fingerprint", .null), ("choices", .arr (chunk.choices.map Wire.ChunkChoice.toJson))]

/-- The body in two pieces, of which the first one ends inside a character. -/
def pieces : List (List UInt8) :=
  [(Json.streamBody [written]).take 119, (Json.streamBody [written]).drop 119]

/-- A service that answers with the body. -/
def session : Session := { service := .script [.reply 200 pieces false] }

/-- The one who asks. -/
def client : Client := { baseUrl := Client.defaultBaseUrl, apiKey := "key" }

/-- A request for a stream. -/
def request : Wire.ChatRequest := { messages := [], stream := true }

/-- The service lists the fields of the chunk in another order. -/
theorem rearranged : chunk.toJson.Rearranged written :=
  ⟨_, _, Json.FieldsRearranged.refl _, by decide, rfl⟩

/-- The chunk has no log probabilities. -/
theorem isHeld : chunk.IsHeld 124 := by
  have hnames : Ascending [("content", Json.arr []), ("refused", .int 0)] :=
    List.pairwise_pair.2 (by decide)
  have hlogprobs : (Json.obj [("content", .arr []), ("refused", .int 0)]).Held 124 :=
    ⟨hnames, List.forall_mem_cons.2 ⟨List.forall_mem_nil _, List.forall_mem_cons.2
      ⟨trivial, List.forall_mem_nil _⟩⟩⟩
  intro choice hchoice v hv
  rw [List.mem_singleton.1 hchoice] at hv
  cases hv
  exact ⟨hlogprobs, nofun⟩

/-- The chunk has no numbers in double precision. -/
theorem hasLegibleFloats : chunk.HasLegibleFloats :=
  Wire.Chunk.hasLegibleFloats_of_integers (by decide)

/-- The pieces make up the body. -/
theorem flatten_pieces : pieces.flatten = Json.streamBody [written] := by
  rw [pieces, List.flatten_cons, List.flatten_singleton, List.take_append_drop]

/-- The chunk is parsed from some text and written in the service's order. -/
theorem writtenAs : chunk.WrittenAs written where
  parsed := Wire.Chunk.isParsed_of_isHeld isHeld hasLegibleFloats
  floats := hasLegibleFloats
  rearranged := rearranged

/-- The greeting is streamed although a piece ends inside one of its characters. -/
theorem stream_greeting :
    ∃ sent, client.stream request session = ⟨[.sent sent], session, .ok [.ok chunk]⟩ := by
  have hcalls : ∀ c ∈ [chunk], c.hasToolCall = false := by decide
  exact Client.stream_streamBody (.cons writtenAs .nil) hcalls flatten_pieces rfl rfl rfl client rfl

end WrittenGreeting

end ModelClient
