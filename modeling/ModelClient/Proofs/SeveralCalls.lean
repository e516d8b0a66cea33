import ModelClient.Proofs.Blocks
import ModelClient.Proofs.EventLines
import ModelClient.Proofs.Reassembly

/-!
# Frames with several tool calls

A chunk with more than one tool call cannot be merged. But the first frame of a block is not merged
with anything: it is what the other frames are merged into. So a frame with several calls ends the
stream if it stands inside a window, and if it opens a window all its calls go on.

A window is opened by a frame with a tool call, so what is merged so far always has a choice with a
delta (`Chunk.isSome_delta?_foldlM`), and the merge never gets by without looking at the calls of
the frame that comes next.

## Main statements

* `refuses_several_calls_iff`: which blocks with such a frame end the stream, and what becomes of
  the others.
-/

namespace ModelClient.Wire

/-! ## One merge -/

namespace Chunk

/-- The first choice carries more than one tool call. -/
def HasSeveralCalls (c : Chunk) : Prop := 1 < c.calls.length

instance (c : Chunk) : Decidable c.HasSeveralCalls := inferInstanceAs (Decidable (_ < _))

/-- The delta of the first choice. -/
def delta? (c : Chunk) : Option Message := c.choices.head?.bind ChunkChoice.delta

/-- The calls of a chunk are those of its delta. -/
theorem calls_eq_delta? (c : Chunk) : c.calls = (c.delta?.map Message.calls).getD [] := by
  rw [calls, delta?]
  cases c.choices.head? <;> rfl

/-- Only a delta has calls. -/
theorem isSome_delta?_of_calls_ne_nil {c : Chunk} (h : c.calls ≠ []) : c.delta?.isSome := by
  rw [calls_eq_delta?] at h
  cases hdelta : c.delta? with
  | none => exact absurd (by rw [hdelta]; rfl) h
  | some delta => rfl

end Chunk

/-- Messages with several calls in the later one are not merged. -/
theorem mergeCalls_eq_error {fragments : List ToolCall} (h : 1 < fragments.length)
    (calls : List ToolCall) :
    mergeCalls calls fragments = .error (.severalToolCalls fragments.length) := by
  match fragments, h with
  | _ :: _ :: _, _ => rfl

/-- A chunk with several calls cannot be merged into one whose first choice has a delta. -/
theorem Chunk.merge_eq_error {previous current : Chunk} (hprevious : previous.delta?.isSome)
    (hcurrent : current.HasSeveralCalls) :
    previous.merge current = .error (.severalToolCalls current.calls.length) := by
  have hne : current.calls ≠ [] := fun hnil => by
    rw [HasSeveralCalls, hnil] at hcurrent
    exact absurd hcurrent (by decide)
  obtain ⟨delta, hdelta⟩ := Option.isSome_iff_exists.1 hprevious
  obtain ⟨next, hnext⟩ := Option.isSome_iff_exists.1 (isSome_delta?_of_calls_ne_nil hne)
  have hcalls : current.calls = next.calls := by
    rw [calls_eq_delta?, hnext]
    rfl
  obtain ⟨choice, hchoice, hdelta⟩ := Option.bind_eq_some_iff.1 hdelta
  obtain ⟨nextChoice, hnextChoice, hnext⟩ := Option.bind_eq_some_iff.1 hnext
  -- Both sides have a choice with a delta, so the calls are what the merge looks at.
  rw [HasSeveralCalls, hcalls] at hcurrent
  rw [merge, hchoice, hnextChoice, mergeChoices, ChunkChoice.merge, hdelta, hnext, mergeDeltas,
    Message.merge, mergeCalls_eq_error hcurrent, hcalls]
  rfl

/-- A delta that is there stays there. -/
theorem mergeDeltas_isSome {previous current merged : Option Message} (hprevious : previous.isSome)
    (h : mergeDeltas previous current = .ok merged) : merged.isSome := by
  obtain ⟨delta, rfl⟩ := Option.isSome_iff_exists.1 hprevious
  cases current with
  | none =>
    cases h
    rfl
  | some next =>
    rw [mergeDeltas, ← bind_pure_comp] at h
    obtain ⟨both, -, h⟩ := exists_of_bind_eq_ok h
    cases h
    rfl

/-- A delta stays a delta in every merge. -/
theorem Chunk.isSome_delta?_merge {previous current merged : Chunk}
    (hprevious : previous.delta?.isSome) (h : previous.merge current = .ok merged) :
    merged.delta?.isSome := by
  obtain ⟨delta, hdelta⟩ := Option.isSome_iff_exists.1 hprevious
  obtain ⟨choice, hchoice, hdelta⟩ := Option.bind_eq_some_iff.1 hdelta
  rw [merge, hchoice] at h
  cases hnext : current.choices.head? with
  | none =>
    rw [hnext] at h
    cases h
    exact Option.isSome_iff_exists.2 ⟨delta, hdelta⟩
  | some next =>
    rw [hnext, mergeChoices, ChunkChoice.merge] at h
    cases hmerge : mergeDeltas choice.delta next.delta with
    | error e =>
      rw [hmerge] at h
      cases h
    | ok both =>
      rw [hmerge] at h
      cases h
      exact mergeDeltas_isSome (Option.isSome_iff_exists.2 ⟨delta, hdelta⟩) hmerge

/-! ## The merge of a block -/

/-- Whatever is merged into a chunk with a delta, the delta stays. -/
theorem Chunk.isSome_delta?_foldlM {start merged : Chunk} (hstart : start.delta?.isSome)
    {frames : List Chunk} (h : frames.foldlM merge start = .ok merged) : merged.delta?.isSome := by
  induction frames generalizing start with
  | nil =>
    cases h
    exact hstart
  | cons frame frames ih =>
    rw [List.foldlM_cons] at h
    obtain ⟨next, hmerge, h⟩ := exists_of_bind_eq_ok h
    exact ih (isSome_delta?_merge hstart hmerge) h

/-- Frames without several calls can be merged into any chunk, and all calls are put together. -/
theorem Chunk.exists_foldlM_eq_ok (start : Chunk) {frames : List Chunk}
    (h : ∀ frame ∈ frames, ¬frame.HasSeveralCalls) :
    ∃ merged, frames.foldlM merge start = .ok merged ∧
      merged.calls = extendCalls start.calls (frames.flatMap calls) := by
  induction frames generalizing start with
  | nil => exact ⟨start, rfl, rfl⟩
  | cons frame frames ih =>
    obtain ⟨next, hnext, hcalls⟩ :=
      start.exists_merge_eq_ok (Nat.not_lt.1 (h frame List.mem_cons_self))
    obtain ⟨merged, hmerged, hmore⟩ := ih next fun f hf => h f (List.mem_cons_of_mem _ hf)
    refine ⟨merged, ?_, ?_⟩
    · rw [List.foldlM_cons, hnext]
      exact hmerged
    · rw [hmore, hcalls, List.flatMap_cons]
      exact (List.foldl_append ..).symm

namespace Block

variable {b : Block}

/-- A block without several calls after its first frame has a chunk, with all calls of its frames.
-/
theorem exists_merged_eq_ok (h : ∀ frame ∈ b.rest, ¬frame.HasSeveralCalls) :
    ∃ chunk, b.merged = .ok chunk ∧
      chunk.calls = extendCalls b.first.calls (b.rest.flatMap Chunk.calls) :=
  b.first.exists_foldlM_eq_ok h

/-- A block with more than one frame is a window. -/
theorem hasToolCall_of_rest_ne_nil (h : b.IsComplete ∨ b.IsOpen) (hne : b.rest ≠ []) :
    b.first.hasToolCall = true := by
  rcases h with (hplain | hclosed) | hopen
  · exact absurd hplain.2 hne
  · exact hclosed.1
  · exact hopen.1

/-- A block with several calls in a frame after the first has no chunk. The first such frame is
refused. -/
theorem merged_eq_error (h : b.IsComplete ∨ b.IsOpen) {frame : Chunk}
    (hframe : b.rest.find? (fun f => decide f.HasSeveralCalls) = some frame) :
    b.merged = .error (.severalToolCalls frame.calls.length) := by
  obtain ⟨hseveral, inner, after, hrest, hinner⟩ := List.find?_eq_some_iff_append.1 hframe
  have hcall : b.first.hasToolCall = true :=
    hasToolCall_of_rest_ne_nil h (by rw [hrest]; simp)
  have hfirst : b.first.delta?.isSome := Chunk.isSome_delta?_of_calls_ne_nil (by
    simpa [Chunk.hasToolCall] using hcall)
  have hones : ∀ f ∈ inner, ¬f.HasSeveralCalls := fun f hf => by simpa using hinner f hf
  obtain ⟨merged, hmerged, -⟩ := b.first.exists_foldlM_eq_ok hones
  -- What is merged so far has a delta, because the window was opened by a call.
  have hmerge := Chunk.merge_eq_error (Chunk.isSome_delta?_foldlM hfirst hmerged)
    (of_decide_eq_true hseveral)
  rw [Block.merged, hrest, List.foldlM_append, hmerged]
  show List.foldlM Chunk.merge merged (frame :: after) = _
  rw [List.foldlM_cons, hmerge]
  rfl

end Block

/-! ## The stream up to a block -/

/-- All of some blocks have a chunk, or there is a first one that has none. -/
theorem exists_first_error (blocks : List Block) :
    (∀ b ∈ blocks, ∃ chunk, b.merged = .ok chunk) ∨
    ∃ before b after e, blocks = before ++ b :: after ∧
      (∀ b ∈ before, ∃ chunk, b.merged = .ok chunk) ∧ b.merged = .error e := by
  induction blocks with
  | nil => exact .inl fun _ h => absurd h List.not_mem_nil
  | cons b blocks ih =>
    cases hb : b.merged with
    | error e => exact .inr ⟨[], b, blocks, e, rfl, fun _ h => absurd h List.not_mem_nil, hb⟩
    | ok chunk =>
      rcases ih with hok | ⟨before, b', after, e, rfl, hok, he⟩
      · exact .inl (List.forall_mem_cons.2 ⟨⟨chunk, hb⟩, hok⟩)
      · exact .inr ⟨b :: before, b', after, e, rfl, List.forall_mem_cons.2 ⟨⟨chunk, hb⟩, hok⟩, he⟩

/-- The stream of a body that does not break off begins with the chunks of its first blocks, as long
as these have chunks. -/
theorem Division.Of.merged_prefix_chunks {d : Division} {lines : List (Except Error String)}
    (h : d.Of (accepted lines)) (hwhole : breakage? lines = none) {before after : List Block}
    (hblocks : d.blocks = before ++ after) (hok : ∀ b ∈ before, ∃ chunk, b.merged = .ok chunk) :
    before.map Block.merged <+: chunks lines := by
  rw [chunks_eq_windowsFrom, hwhole]
  rcases exists_first_error after with hmore | ⟨more, b, rest, e, rfl, hmore, he⟩
  · have hall : ∀ b ∈ d.blocks, ∃ chunk, b.merged = .ok chunk := by
      rw [hblocks]
      exact List.forall_mem_append.2 ⟨hok, hmore⟩
    rw [h.windowsFrom_eq_of_ok hall none, hblocks, List.map_append]
    exact List.prefix_append _ _
  · rw [← List.append_assoc] at hblocks
    rw [h.windowsFrom_eq_of_error hblocks (List.forall_mem_append.2 ⟨hok, hmore⟩) he,
      List.map_append, List.append_assoc]
    exact List.prefix_append _ _

/-- The stream ends with the block's refusal if the block has several calls in a frame after its
first. -/
theorem Division.Of.chunks_eq_of_find?_eq_some {d : Division} {lines : List (Except Error String)}
    (hd : d.Of (accepted lines)) {before after : List Block} {b : Block}
    (hblocks : d.blocks = before ++ b :: after)
    (hok : ∀ b ∈ before, ∃ chunk, b.merged = .ok chunk) {frame : Chunk}
    (hframe : b.rest.find? (fun f => decide f.HasSeveralCalls) = some frame) :
    chunks lines =
      before.map Block.merged ++ [.error (.severalToolCalls frame.calls.length)] := by
  have herror := Block.merged_eq_error (hd.isComplete_of_blocks_eq hblocks).2 hframe
  rw [chunks_eq_windowsFrom]
  exact hd.windowsFrom_eq_of_error hblocks hok herror _

/-- The stream has the block's chunk, with all calls of its frames, if no frame of the block after
its first has several. -/
theorem Division.Of.exists_chunks_eq {d : Division} {lines : List (Except Error String)}
    (hd : d.Of (accepted lines)) (hwhole : breakage? lines = none) {before after : List Block}
    {b : Block} (hblocks : d.blocks = before ++ b :: after)
    (hok : ∀ b ∈ before, ∃ chunk, b.merged = .ok chunk)
    (hrest : ∀ frame ∈ b.rest, ¬frame.HasSeveralCalls) :
    ∃ chunk more, chunk.calls = extendCalls b.first.calls (b.rest.flatMap Chunk.calls) ∧
      chunks lines = before.map Block.merged ++ .ok chunk :: more := by
  obtain ⟨chunk, hchunk, hcalls⟩ := b.exists_merged_eq_ok hrest
  rw [List.append_cons] at hblocks
  obtain ⟨more, hmore⟩ := hd.merged_prefix_chunks hwhole hblocks
    (List.forall_mem_append.2 ⟨hok, by simpa using ⟨chunk, hchunk⟩⟩)
  refine ⟨chunk, more, hcalls, ?_⟩
  rw [← hmore, List.map_append, List.map_singleton, hchunk, List.append_assoc]
  rfl

/-- **Frames with several calls.** In a body that does not break off, let `b` be the first block
with a frame that carries several calls. The stream ends with a refusal in place of the block's
chunk exactly if such a frame comes after the first frame of the block; the first one that does is
refused. Otherwise it is the first frame itself, and all its calls go on in the chunk of the block.
-/
theorem refuses_several_calls_iff {lines : List (Except Error String)}
    (hwhole : breakage? lines = none) {d : Division} (hd : d.Of (accepted lines))
    {before after : List Block} {b : Block} (hblocks : d.blocks = before ++ b :: after)
    (hbefore : ∀ b ∈ before, ∀ frame ∈ b.frames, ¬frame.HasSeveralCalls)
    (hb : ∃ frame ∈ b.frames, frame.HasSeveralCalls) :
    ((∃ message, chunks lines =
        before.map Block.merged ++ [.error (.toolCallProtocol message)]) ↔
      ∃ frame ∈ b.rest, frame.HasSeveralCalls) ∧
    (∀ frame ∈ b.rest.find? (fun f => decide f.HasSeveralCalls), chunks lines =
      before.map Block.merged ++ [.error (.severalToolCalls frame.calls.length)]) ∧
    ((∀ frame ∈ b.rest, ¬frame.HasSeveralCalls) → b.first.HasSeveralCalls ∧
      ∃ chunk more, chunk.calls = extendCalls b.first.calls (b.rest.flatMap Chunk.calls) ∧
        chunks lines = before.map Block.merged ++ .ok chunk :: more) := by
  have hok : ∀ b ∈ before, ∃ chunk, b.merged = .ok chunk := fun b hb =>
    (b.exists_merged_eq_ok fun f hf => hbefore b hb f (List.mem_cons_of_mem _ hf)).imp
      fun _ h => h.1
  have hrefused {frame : Chunk}
      (hframe : b.rest.find? (fun f => decide f.HasSeveralCalls) = some frame) :=
    hd.chunks_eq_of_find?_eq_some hblocks hok hframe
  refine ⟨⟨fun ⟨message, hmessage⟩ => ?_, fun ⟨frame, hmem, hframe⟩ => ?_⟩,
    fun _ hframe => hrefused hframe,
    fun hrest => ⟨?_, hd.exists_chunks_eq hwhole hblocks hok hrest⟩⟩
  · refine Classical.byContradiction fun hnone => ?_
    obtain ⟨chunk, more, -, hchunks⟩ := hd.exists_chunks_eq hwhole hblocks hok
      fun f hf hseveral => hnone ⟨f, hf, hseveral⟩
    -- The stream cannot go on with a chunk and end with a refusal at the same place.
    rw [hmessage, List.append_cancel_left_eq] at hchunks
    cases hchunks
  · have hsome : (b.rest.find? fun f => decide f.HasSeveralCalls).isSome :=
      List.find?_isSome.2 ⟨frame, hmem, decide_eq_true hframe⟩
    obtain ⟨first, hfirst⟩ := Option.isSome_iff_exists.1 hsome
    exact ⟨_, hrefused hfirst⟩
  · obtain ⟨frame, hmem, hframe⟩ := hb
    rcases List.mem_cons.1 hmem with rfl | hmem
    · exact hframe
    · exact absurd hframe (hrest frame hmem)

/-! ## Two calls in a frame -/

/-- Where there is no error everything arrives. -/
theorem arrived_map_ok {α : Type} (l : List α) : arrived (l.map .ok) = l := by
  induction l with
  | nil => rfl
  | cons a l ih => exact congrArg (a :: ·) ih

/-- Where there is no error nothing breaks. -/
theorem breakage?_map_ok {α : Type} (l : List α) : breakage? (l.map .ok) = none := by
  induction l with
  | nil => rfl
  | cons a l ih => exact ih

namespace SeveralCalls

/-- The lines of some frames. -/
def lines (frames : List Chunk) : List (Except Error String) :=
  (frames.map fun frame => frame.toJson.eventLine).map .ok

/-- A call of a function. -/
def call (id name : String) : ToolCall :=
  { id := some id, function := some { name := some name } }

/-- A frame with one call. -/
def opening : Chunk := .ofFragments [call "1" "f"]

/-- A frame with two calls. -/
def pair : Chunk := .ofFragments [call "2" "g", call "3" "h"]

/-- Frames that are read back arrive as they were written. -/
theorem accepted_lines_of_forall {frames : List Chunk}
    (h : ∀ frame ∈ frames, frame? frame.toJson.eventLine = some frame) :
    accepted (lines frames) = frames := by
  have hread : ∀ frame ∈ frames, accepted? frame.toJson.eventLine = some frame := fun frame hframe =>
    (frame?_eq_accepted? _).symm.trans (h frame hframe)
  rw [accepted, lines, arrived_map_ok, List.filterMap_map, Function.comp_def,
    List.filterMap_congr hread, List.filterMap_some]

/-- The frames are read back from their lines. -/
theorem accepted_lines {frames : List Chunk} (h : ∀ frame ∈ frames, frame ∈ [opening, pair]) :
    accepted (lines frames) = frames := by
  refine accepted_lines_of_forall fun frame hframe => ?_
  rcases List.mem_pair.1 (h frame hframe) with rfl | rfl <;>
    exact frame?_eventLine (.of_isPlain rfl)

end SeveralCalls

open SeveralCalls in
/-- Two calls inside a window are refused. -/
theorem refuses_several_calls_iff_window :
    chunks (lines [opening, pair]) = [.error (.severalToolCalls 2)] := by
  have haccepted : accepted (lines [opening, pair]) = [opening, pair] := accepted_lines (by simp)
  have hdivision : Division.Of ⟨[], some ⟨opening, [pair]⟩⟩ (accepted (lines [opening, pair])) := by
    refine ⟨haccepted.symm, by simp, fun b hb => ?_⟩
    obtain rfl := Option.some.inj hb
    exact ⟨by decide, by decide⟩
  have hblocks : Division.blocks ⟨[], some ⟨opening, [pair]⟩⟩ = [] ++ [⟨opening, [pair]⟩] := rfl
  have hall := refuses_several_calls_iff (breakage?_map_ok _) hdivision hblocks (by simp)
    ⟨pair, by simp [Block.frames], by decide⟩
  exact hall.2.1 pair rfl

open SeveralCalls in
/-- Two calls in the frame that opens a window go on. -/
theorem several_calls_go_on :
    breakage? (lines [pair]) = none ∧ accepted (lines [pair]) = [pair] ∧ pair.HasSeveralCalls ∧
      chunks (lines [pair]) = [.ok pair] := by
  have haccepted : accepted (lines [pair]) = [pair] := accepted_lines (by simp)
  refine ⟨breakage?_map_ok _, haccepted, by decide, ?_⟩
  rw [chunks_eq_windowsFrom, haccepted, lines, breakage?_map_ok]
  rfl

end ModelClient.Wire
