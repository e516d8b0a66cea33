import ModelClient.ChatResponse
import ModelClient.Proofs.Blocks
import ModelClient.Proofs.Reassembly

/-!
# Answers told in fragments

An answer with one choice can be told in frames: some frames with text, whose texts joined are the
choice's, and then frames with the fragments of its tool calls, each call begun by a fragment with
the call's id. The last frame, and no other, gives the reason for having stopped. A `Fragmentation`
of a choice is such a list of frames.

The text frames reach the model one by one, and the others as one window. Merging frames that have
one choice gives a frame again (`Frame.chunk_merge`), so what the window holds can be said frame by
frame: no text, the reason, and calls that are received as those of the choice are
(`Fragmentation.text_window`, `Fragmentation.finishReason_window`, `Fragmentation.calls_window`).

## Main statements

* `Fragmentation.windowsFrom_frames`: the chunks of a fragmentation are its text frames and its
  window.
-/

namespace ModelClient.Wire

/-! ## Frames with one choice -/

/-- A chunk with one choice, which has a delta. -/
structure Frame where
  id : Option String := none
  created : Option Int64 := none
  model : Option String := none
  systemFingerprint : Option String := none
  object : Option String := none
  finishReason : Option FinishReason := none
  index : Option UInt32 := none
  logprobs : Option Json := none
  delta : Message

namespace Frame

/-- The choice of the frame. -/
def choice (f : Frame) : ChunkChoice :=
  { finishReason := f.finishReason
    index := f.index
    delta := some f.delta
    logprobs := f.logprobs }

/-- The frame as a chunk. -/
def chunk (f : Frame) : Chunk :=
  { id := f.id
    choices := [f.choice]
    created := f.created
    model := f.model
    systemFingerprint := f.systemFingerprint
    object := f.object }

/-- A frame has a tool call if its delta has one. -/
theorem hasToolCall_chunk (f : Frame) : f.chunk.hasToolCall = !f.delta.calls.isEmpty := rfl

/-- A frame is the last one if it gives a reason for having stopped. -/
theorem isLast_chunk (f : Frame) : f.chunk.isLast = f.finishReason.isSome := rfl

/-- The frame so far with the next one. -/
def merge (f g : Frame) : Frame :=
  let calls := extendCalls f.delta.calls g.delta.calls
  { id := g.id <|> f.id
    created := g.created <|> f.created
    model := g.model <|> f.model
    systemFingerprint := g.systemFingerprint <|> f.systemFingerprint
    object := g.object <|> f.object
    finishReason := g.finishReason <|> f.finishReason
    index := g.index <|> f.index
    logprobs := g.logprobs <|> f.logprobs
    delta := {
      content := some ((g.delta.content <|> f.delta.content).getD (.text ""))
      role := some ((g.delta.role <|> f.delta.role).getD .assistant)
      name := g.delta.name <|> f.delta.name
      toolCallId := g.delta.toolCallId <|> f.delta.toolCallId
      toolCalls := if calls.isEmpty then none else some calls } }

/-- Frames merge to a frame if the later one has no two calls. -/
theorem chunk_merge (f : Frame) {g : Frame} (h : g.delta.calls.length ≤ 1) :
    f.chunk.merge g.chunk = .ok (f.merge g).chunk := by
  have hdelta : f.delta.merge g.delta = .ok (f.merge g).delta := by
    rw [Message.merge, mergeCalls_eq_ok h]
    rfl
  have hchoice : f.choice.merge g.choice = .ok (f.merge g).choice := by
    rw [ChunkChoice.merge]
    show (Except.map some (f.delta.merge g.delta) >>= _) = _
    rw [hdelta]
    rfl
  rw [Chunk.merge]
  show (Except.map some (f.choice.merge g.choice) >>= _) = _
  rw [hchoice]
  rfl

/-- The frame with some more frames merged into it. -/
def mergeAll (f : Frame) (more : List Frame) : Frame := more.foldl merge f

/-- What every merge preserves holds of the merged frame. -/
theorem mergeAll_induction {P : Frame → Prop} {f : Frame} {more : List Frame} (hf : P f)
    (h : ∀ a, P a → ∀ g ∈ more, P (a.merge g)) : P (f.mergeAll more) := by
  induction more generalizing f with
  | nil => exact hf
  | cons g more ih =>
    exact ih (h f hf g List.mem_cons_self) fun a ha g' hg' => h a ha g' (List.mem_cons_of_mem _ hg')

/-- Merging the chunks of frames is merging the frames. -/
theorem foldlM_merge (f : Frame) {more : List Frame} (h : ∀ g ∈ more, g.delta.calls.length ≤ 1) :
    (more.map chunk).foldlM Chunk.merge f.chunk = .ok (f.mergeAll more).chunk := by
  induction more generalizing f with
  | nil => rfl
  | cons g more ih =>
    rw [List.map_cons, List.foldlM_cons, f.chunk_merge (h g List.mem_cons_self)]
    exact ih (f.merge g) fun g' hg' => h g' (List.mem_cons_of_mem _ hg')

/-- Frames without text merge to one without text. -/
theorem text_mergeAll {f : Frame} {more : List Frame} (h : ∀ g ∈ f :: more, g.delta.text = "") :
    (f.mergeAll more).delta.text = "" := by
  refine mergeAll_induction (P := fun a => a.delta.text = "") (h f List.mem_cons_self)
    fun a ha g hg => ?_
  have hg := h g (List.mem_cons_of_mem _ hg)
  unfold Message.text at ha hg ⊢
  unfold merge
  -- The later content wins; without any the merged frame has an empty one.
  cases hgc : g.delta.content with
  | some c => simpa [hgc] using hg
  | none =>
    cases hac : a.delta.content with
    | some c => simpa [hac] using ha
    | none => rfl

/-- The reason of the last frame stays. -/
theorem finishReason_mergeAll_concat (f : Frame) (inner : List Frame) {last : Frame}
    (h : last.finishReason.isSome) :
    (f.mergeAll (inner ++ [last])).finishReason = last.finishReason := by
  obtain ⟨reason, hreason⟩ := Option.isSome_iff_exists.1 h
  rw [mergeAll, List.foldl_append]
  show (last.finishReason <|> _) = _
  rw [hreason]
  rfl

end Frame

/-- Merging chunks begins with the first one. -/
theorem Chunk.mergeAll_cons (chunk : Chunk) (more : List Chunk) :
    Chunk.mergeAll (chunk :: more) = some <$> more.foldlM Chunk.merge chunk := by
  have hfrom : ∀ previous : Chunk,
      more.foldlM (fun merged chunk => some <$> Chunk.mergeOnto merged chunk) (some previous) =
        some <$> more.foldlM Chunk.merge previous := by
    induction more with
    | nil => exact fun _ => rfl
    | cons c more ih =>
      intro previous
      rw [List.foldlM_cons, List.foldlM_cons]
      show (some <$> previous.merge c >>= _) = some <$> (previous.merge c >>= _)
      cases previous.merge c with
      | error e => rfl
      | ok merged => exact ih merged
  exact hfrom chunk

/-- The calls of merged frames are those of the segments of all fragments. -/
theorem Frame.assembles_mergeAll {f : Frame} {more : List Frame}
    (h : ∀ g ∈ f :: more, g.delta.calls.length ≤ 1) :
    List.Forall₂ Assembles (segments ((f :: more).flatMap (·.delta.calls)))
      (f.mergeAll more).delta.calls := by
  obtain ⟨merged, hok, -, hcalls⟩ := exists_mergeAll_eq_ok ((f :: more).map chunk) (by
    intro c hc
    obtain ⟨g, hg, rfl⟩ := List.mem_map.1 hc
    exact h g hg)
  rw [List.map_cons, Chunk.mergeAll_cons,
    f.foldlM_merge fun g hg => h g (List.mem_cons_of_mem _ hg)] at hok
  cases hok
  rwa [List.flatMap_map] at hcalls

/-! ## Calls in fragments -/

/-- A segment of fragments spells a call: its first fragment has the call's id and no other one has
any, the latest name is the call's, and the joined arguments are the call's. -/
structure Spells (segment : List ToolCall) (call : ToolCall) : Prop where
  isSome_id : call.id.isSome
  id_eq : segment.head?.bind ToolCall.id = call.id
  id_tail : ∀ fragment ∈ segment.tail, fragment.id = none
  functionName_eq : latest? (segment.map ToolCall.functionName?) = call.functionName?
  argumentText_eq : String.join (segment.map ToolCall.argumentText) = call.argumentText

/-- A segment that spells a call has a first fragment, which has an id. -/
theorem Spells.exists_cons {segment : List ToolCall} {call : ToolCall} (h : Spells segment call) :
    ∃ first rest, segment = first :: rest ∧ first.id.isSome ∧ ∀ f ∈ rest, f.id = none := by
  have hid := h.isSome_id
  rw [← h.id_eq] at hid
  cases segment with
  | nil => cases hid
  | cons first rest => exact ⟨first, rest, rfl, hid, h.id_tail⟩

/-- Fragments without ids form a chain of continuations. -/
theorem isChain_of_forall_id_eq_none {first : ToolCall} {rest : List ToolCall}
    (h : ∀ f ∈ rest, f.id = none) :
    (first :: rest).IsChain fun _ next : ToolCall => next.id.isNone := by
  induction rest generalizing first with
  | nil => exact List.isChain_singleton first
  | cons second rest ih =>
    refine List.isChain_cons_cons.2 ⟨?_, ih fun f hf => h f (List.mem_cons_of_mem _ hf)⟩
    rw [h second List.mem_cons_self]
    rfl

/-- Segments that spell calls are the segments of all their fragments. -/
theorem segments_flatten {segs : List (List ToolCall)} {calls : List ToolCall}
    (h : List.Forall₂ Spells segs calls) : segments segs.flatten = segs := by
  have hcons : ∀ segment ∈ segs, ∃ first rest, segment = first :: rest ∧ first.id.isSome ∧
      ∀ f ∈ rest, f.id = none := by
    intro segment hsegment
    induction h with
    | nil => cases hsegment
    | cons hfirst _ ih =>
      rcases List.mem_cons.1 hsegment with rfl | hrest
      · exact hfirst.exists_cons
      · exact ih hrest
  -- No segment is empty, ids stand only at their starts, and each start has one.
  refine List.splitBy_flatten ?_ ?_ ?_
  · intro hnil
    obtain ⟨first, rest, heq, -⟩ := hcons [] hnil
    cases heq
  · intro segment hsegment
    obtain ⟨first, rest, rfl, -, hrest⟩ := hcons segment hsegment
    exact isChain_of_forall_id_eq_none hrest
  · clear h
    induction segs with
    | nil => exact List.isChain_nil
    | cons segment segs ih =>
      refine List.isChain_cons.2 ⟨fun next hnext => ?_,
        ih fun s hs => hcons s (List.mem_cons_of_mem _ hs)⟩
      obtain ⟨first, rest, rfl, -⟩ := hcons segment List.mem_cons_self
      obtain ⟨first', rest', rfl, hid, -⟩ :=
        hcons next (List.mem_cons_of_mem _ (List.mem_of_mem_head? hnext))
      exact ⟨List.cons_ne_nil _ _, List.cons_ne_nil _ _, by simpa using hid⟩

/-- A call as the library hands it on: what is missing is empty. -/
def ToolCall.received (call : ToolCall) : ModelClient.ToolCall :=
  { id := call.id.getD ""
    kind := "function"
    name := call.functionName?.getD ""
    arguments := call.argumentText }

/-- The call of a segment and the call that the segment spells are received alike. -/
theorem Assembles.received_eq {segment : List ToolCall} {assembled call : ToolCall}
    (h : Assembles segment assembled) (hspells : Spells segment call) :
    assembled.received = call.received := by
  rw [ToolCall.received, ToolCall.received, h.id_eq, hspells.id_eq, h.functionName_eq,
    hspells.functionName_eq, h.argumentText_eq, hspells.argumentText_eq]

/-- Calls put together from segments are received as the calls that the segments spell. -/
theorem map_received_eq {segs : List (List ToolCall)} {assembled calls : List ToolCall}
    (h : List.Forall₂ Assembles segs assembled) (hspells : List.Forall₂ Spells segs calls) :
    assembled.map ToolCall.received = calls.map ToolCall.received := by
  induction h generalizing calls with
  | nil =>
    cases hspells
    rfl
  | cons hfirst _ ih =>
    cases hspells with
    | cons hcall hrest => rw [List.map_cons, List.map_cons, hfirst.received_eq hcall, ih hrest]

/-! ## Fragmentations -/

/-- Frames without tool calls are passed on as they are. -/
theorem windowsFrom_texts {texts : List Frame} (h : ∀ f ∈ texts, f.delta.calls = [])
    (rest : List (Except Error Chunk)) :
    windowsFrom none ((texts.map Frame.chunk).map .ok ++ rest) =
      (texts.map Frame.chunk).map .ok ++ windowsFrom none rest := by
  induction texts with
  | nil => rfl
  | cons f texts ih =>
    have hplain : (Block.mk f.chunk []).IsPlain :=
      ⟨by rw [Frame.hasToolCall_chunk, h f List.mem_cons_self]; rfl, rfl⟩
    have hfirst := windowsFrom_of_isComplete (.inl hplain)
      ((texts.map Frame.chunk).map .ok ++ rest)
    exact hfirst.trans (congrArg _ (ih fun f hf => h f (List.mem_cons_of_mem _ hf)))

/-- Frames that tell a choice: some with text, then some with fragments of tool calls. -/
structure Fragmentation (choice : Choice) where
  texts : List Frame
  pieces : List Frame
  /-- The fragments of each call. -/
  segments : List (List ToolCall)
  calls_texts : ∀ f ∈ texts, f.delta.calls = []
  text_texts : String.join (texts.map (·.delta.text)) = choice.message.text
  calls_pieces : ∀ f ∈ pieces, f.delta.calls.length ≤ 1
  calls_head : ∀ f ∈ pieces.head?, f.delta.calls ≠ []
  text_pieces : ∀ f ∈ pieces, f.delta.text = ""
  fragments : pieces.flatMap (·.delta.calls) = segments.flatten
  spells : List.Forall₂ Spells segments choice.message.calls
  /-- Only the last frame gives a reason for having stopped. -/
  reason : ∃ front last, texts ++ pieces = front ++ [last] ∧
    (∀ f ∈ front, f.finishReason = none) ∧ last.finishReason.isSome ∧
    last.finishReason = choice.finishReason

namespace Fragmentation

variable {choice : Choice} (F : Fragmentation choice)

/-- All frames. -/
def frames : List Frame := F.texts ++ F.pieces

/-- The frame that the fragments of the calls are merged to; without any there is none. -/
def window? : Option Frame :=
  match F.pieces with
  | [] => none
  | first :: more => some (first.mergeAll more)

/-- The frames that reach the model. -/
def received : List Frame := F.texts ++ F.window?.toList

/-- Without pieces there is no window. -/
theorem window?_eq_none (h : F.pieces = []) : F.window? = none := by
  rw [window?, h]

/-- The window is merged from the frames of the pieces. -/
theorem window?_eq_some {first : Frame} {more : List Frame} (h : F.pieces = first :: more) :
    F.window? = some (first.mergeAll more) := by
  rw [window?, h]

/-- If there are fragments of calls, the last frame is among them. -/
theorem exists_pieces_eq_concat (h : F.pieces ≠ []) :
    ∃ inner last, F.pieces = inner ++ [last] ∧ (∀ f ∈ inner, f.finishReason = none) ∧
      last.finishReason.isSome ∧ last.finishReason = choice.finishReason := by
  obtain ⟨front, last, hframes, hfront, hsome, hlast⟩ := F.reason
  obtain ⟨inner, last', hpieces⟩ := List.eq_nil_or_concat' F.pieces |>.resolve_left h
  rw [hpieces, ← List.append_assoc] at hframes
  obtain ⟨rfl, heq⟩ := List.append_inj' hframes rfl
  cases heq
  exact ⟨inner, last, hpieces, fun f hf => hfront f (List.mem_append_right _ hf), hsome, hlast⟩

/-- The frames with fragments of calls are a window that closes. -/
theorem isClosed_pieces {first : Frame} {more : List Frame} (h : F.pieces = first :: more) :
    (Block.mk first.chunk (more.map Frame.chunk)).IsClosed := by
  have hne : F.pieces ≠ [] := by simp [h]
  obtain ⟨inner, last, hpieces, hinner, hsome, -⟩ := F.exists_pieces_eq_concat hne
  refine ⟨?_, inner.map Frame.chunk, last.chunk, ?_, fun c hc => ?_, hsome⟩
  · have hcalls := F.calls_head first (by rw [h]; rfl)
    simpa [Frame.hasToolCall_chunk] using hcalls
  · show (first :: more).map Frame.chunk = _
    rw [← h, hpieces, List.map_append]
    rfl
  · obtain ⟨f, hf, rfl⟩ := List.mem_map.1 hc
    rw [Frame.isLast_chunk, hinner f hf]
    rfl

/-- **Fragments.** The chunks of a fragmentation are its text frames and its window. -/
theorem windowsFrom_frames :
    windowsFrom none ((F.frames.map Frame.chunk).map .ok) =
      (F.received.map Frame.chunk).map .ok := by
  rw [frames, received, List.map_append, List.map_append, List.map_append, List.map_append,
    windowsFrom_texts F.calls_texts]
  congr 1
  cases hpieces : F.pieces with
  | nil =>
    rw [F.window?_eq_none hpieces]
    rfl
  | cons first more =>
    have hcalls : ∀ g ∈ more, g.delta.calls.length ≤ 1 := fun g hg =>
      F.calls_pieces g (by rw [hpieces]; exact List.mem_cons_of_mem _ hg)
    have hmerged : (Block.mk first.chunk (more.map Frame.chunk)).merged =
        .ok (first.mergeAll more).chunk := first.foldlM_merge hcalls
    have hclosed := windowsFrom_of_isComplete (.inr (F.isClosed_pieces hpieces)) []
    rw [List.append_nil, hmerged] at hclosed
    rw [F.window?_eq_some hpieces]
    exact hclosed

/-- The window is made of all frames with fragments of calls. -/
theorem exists_of_mem_window {f : Frame} (h : f ∈ F.window?) :
    ∃ first more, F.pieces = first :: more ∧ f = first.mergeAll more := by
  cases hpieces : F.pieces with
  | nil =>
    rw [F.window?_eq_none hpieces] at h
    cases h
  | cons first more =>
    rw [F.window?_eq_some hpieces] at h
    exact ⟨first, more, rfl, (Option.some.inj h).symm⟩

/-- The window has no text. -/
theorem text_window {f : Frame} (h : f ∈ F.window?) : f.delta.text = "" := by
  obtain ⟨first, more, hpieces, rfl⟩ := F.exists_of_mem_window h
  exact Frame.text_mergeAll fun g hg => F.text_pieces g (by rwa [hpieces])

/-- The window gives the reason of the choice. -/
theorem finishReason_window {f : Frame} (h : f ∈ F.window?) :
    f.finishReason = choice.finishReason := by
  obtain ⟨first, more, hpieces, rfl⟩ := F.exists_of_mem_window h
  obtain ⟨inner, last, heq, -, hsome, hreason⟩ :=
    F.exists_pieces_eq_concat (by rw [hpieces]; exact List.cons_ne_nil _ _)
  rw [hpieces] at heq
  rw [← hreason]
  cases inner with
  | nil =>
    cases heq
    rfl
  | cons f inner =>
    cases heq
    exact first.finishReason_mergeAll_concat inner hsome

/-- The calls of the window are received as those of the choice are. -/
theorem calls_window {f : Frame} (h : f ∈ F.window?) :
    f.delta.calls.map ToolCall.received = choice.message.calls.map ToolCall.received := by
  obtain ⟨first, more, hpieces, rfl⟩ := F.exists_of_mem_window h
  have hassembles := Frame.assembles_mergeAll fun g (hg : g ∈ first :: more) =>
    F.calls_pieces g (by rwa [hpieces])
  have hfragments := F.fragments
  rw [hpieces] at hfragments
  rw [hfragments, segments_flatten F.spells] at hassembles
  exact map_received_eq hassembles F.spells

/-- There is a window exactly if the choice has tool calls. -/
theorem window?_eq_none_iff : F.window? = none ↔ choice.message.calls = [] := by
  have hfragments := F.fragments
  have hspells := F.spells
  generalize F.segments = segs at hfragments hspells
  constructor
  · intro hnone
    cases hpieces : F.pieces with
    | cons first more =>
      rw [F.window?_eq_some hpieces] at hnone
      cases hnone
    | nil =>
      rw [hpieces] at hfragments
      generalize choice.message.calls = calls at hspells
      cases hspells with
      | nil => rfl
      | cons hfirst _ =>
        -- A call has a fragment, and there is none.
        obtain ⟨first, rest, rfl, -⟩ := hfirst.exists_cons
        cases hfragments
  · intro hcalls
    cases hpieces : F.pieces with
    | nil => exact F.window?_eq_none hpieces
    | cons first more =>
      rw [hcalls] at hspells
      obtain rfl := List.forall₂_nil_right_iff.1 hspells
      have hhead := F.calls_head first (by rw [hpieces]; rfl)
      rw [hpieces, List.flatMap_cons] at hfragments
      exact absurd (List.append_eq_nil_iff.1 hfragments).1 hhead

/-- The window comes last, and it has calls if the choice has any. -/
theorem exists_received_eq (h : choice.message.calls ≠ []) :
    ∃ f, F.window? = some f ∧ F.received = F.texts ++ [f] ∧ f.delta.calls ≠ [] := by
  obtain ⟨f, hwindow⟩ := Option.ne_none_iff_exists'.1 (F.window?_eq_none_iff.not.2 h)
  refine ⟨f, hwindow, by rw [received, hwindow]; rfl, fun hnil => h ?_⟩
  have hcalls := F.calls_window hwindow
  rw [hnil] at hcalls
  exact List.map_eq_nil_iff.1 hcalls.symm

end Fragmentation

end ModelClient.Wire
