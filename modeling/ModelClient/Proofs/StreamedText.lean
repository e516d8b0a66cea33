import ModelClient.Proofs.EndMark

/-!
# The text of a streamed answer

A frame outside a window goes on as it is, and its text with it. The frames of a window are merged,
and the content of a merged chunk is the latest one: when a frame brings content, the text that was
merged before it is overwritten. So of the frames of a block those last (`lasting`) that no later
frame of the block overwrites, and the text of the block's chunk is theirs (`text_foldlM_merge`).

What was merged so far has the text of the frames that last so far. This is the invariant of the
fold; it is stated for any first frame, so that the merge of the first two can stand in for it.

Text that lasts is never more than text that arrives, block by block. The whole stream therefore has
all the text that arrives only if every block has, and a block has only if what it overwrites is
empty.

## Main statements

* `streamed_text`: the text of the chunks, and when nothing of the text is lost.
-/

namespace ModelClient.Wire

/-! ## Text -/

/-- The content of the first choice. -/
def Chunk.content? (c : Chunk) : Option Content := c.delta?.bind Message.content

/-- The text of the first choice; a chunk without content has none. -/
def Chunk.text (c : Chunk) : String := (c.delta?.map Message.text).getD ""

/-- The text of some chunks. -/
def joinText (chunks : List Chunk) : String := String.join (chunks.map Chunk.text)

/-- The text of a chunk is that of its content. -/
theorem Chunk.text_eq (c : Chunk) : c.text = (c.content?.map Content.plain).getD "" := by
  rw [text, content?]
  cases c.delta? <;> rfl

/-- The text of the first chunk comes first. -/
theorem joinText_cons (c : Chunk) (chunks : List Chunk) :
    joinText (c :: chunks) = c.text ++ joinText chunks :=
  String.join_cons

/-- The text of more chunks comes after that of the others. -/
theorem joinText_append (chunks more : List Chunk) :
    joinText (chunks ++ more) = joinText chunks ++ joinText more := by
  rw [joinText, List.map_append, String.join_append]
  rfl

/-- The text of groups of chunks is that of the groups, one after the other. -/
theorem joinText_flatMap {α : Type} (f : α → List Chunk) (l : List α) :
    joinText (l.flatMap f) = String.join (l.map fun a => joinText (f a)) := by
  induction l with
  | nil => rfl
  | cons a l ih =>
    rw [List.flatMap_cons, joinText_append, ih, List.map_cons, String.join_cons]

/-! ## The text of a merge -/

/-- Merged choices have the merged deltas. -/
theorem mergeDeltas_of_mergeChoices {previous current merged : Option ChunkChoice}
    (h : mergeChoices previous current = .ok merged) :
    mergeDeltas (previous.bind ChunkChoice.delta) (current.bind ChunkChoice.delta) =
      .ok (merged.bind ChunkChoice.delta) := by
  match previous, current with
  | none, current =>
    cases current <;> cases h
    · rfl
    · next choice => cases hdelta : choice.delta <;> simp [mergeDeltas, hdelta]
  | some choice, none =>
    cases h
    cases hdelta : choice.delta <;> simp [mergeDeltas, hdelta]
  | some choice, some next =>
    rw [mergeChoices, ← bind_pure_comp] at h
    obtain ⟨both, hboth, h⟩ := exists_of_bind_eq_ok h
    obtain ⟨delta, hdelta, hboth⟩ := exists_of_bind_eq_ok hboth
    cases h
    cases hboth
    exact hdelta

/-- A merged chunk has the merged deltas. -/
theorem Chunk.mergeDeltas_delta? {previous current merged : Chunk}
    (h : previous.merge current = .ok merged) :
    mergeDeltas previous.delta? current.delta? = .ok merged.delta? := by
  obtain ⟨choice, hchoice, h⟩ := exists_of_bind_eq_ok h
  cases h
  rw [delta?, delta?, delta?, Option.head?_toList]
  exact mergeDeltas_of_mergeChoices hchoice

/-- The content of a delta overwrites the text so far; a delta without content leaves it. -/
theorem text_mergeDeltas {previous current merged : Option Message}
    (h : mergeDeltas previous current = .ok merged) :
    (merged.map Message.text).getD "" =
      ((current.bind Message.content).map Content.plain).getD
        ((previous.map Message.text).getD "") := by
  match previous, current with
  | none, current =>
    cases current <;> cases h <;> rfl
  | some delta, none =>
    cases h
    rfl
  | some delta, some next =>
    rw [mergeDeltas, ← bind_pure_comp] at h
    obtain ⟨both, hboth, h⟩ := exists_of_bind_eq_ok h
    obtain ⟨calls, -, hboth⟩ := exists_of_bind_eq_ok hboth
    cases h
    cases hboth
    show (((next.content <|> delta.content).getD (.text "")).plain) = _
    cases hnext : next.content with
    | some content => simp [hnext]
    | none => cases hdelta : delta.content <;> simp [hnext, hdelta, Message.text, Content.plain]

/-- Content overwrites the text so far; a frame without content leaves it. -/
theorem Chunk.text_merge {previous current merged : Chunk}
    (h : previous.merge current = .ok merged) :
    merged.text = (current.content?.map Content.plain).getD previous.text :=
  text_mergeDeltas (mergeDeltas_delta? h)

/-! ## What lasts -/

/-- Some of the frames bring content. -/
def bringContent (frames : List Chunk) : Bool := frames.any fun frame => frame.content?.isSome

/-- The frames of a block whose text is not overwritten by the content of a later one. -/
def lasting : List Chunk → List Chunk
  | [] => []
  | frame :: later => if bringContent later then lasting later else frame :: lasting later

/-- The first frame brings content, or a later one does. -/
theorem bringContent_cons (frame : Chunk) (later : List Chunk) :
    bringContent (frame :: later) = (frame.content?.isSome || bringContent later) := rfl

/-- Frames without content have no text. -/
theorem joinText_of_not_bringContent {frames : List Chunk} (h : bringContent frames = false) :
    joinText frames = "" := by
  induction frames with
  | nil => rfl
  | cons frame later ih =>
    obtain ⟨hframe, hlater⟩ := Bool.or_eq_false_iff.1 h
    rw [joinText_cons, ih hlater, Chunk.text_eq,
      Option.isNone_iff_eq_none.1 (Option.isSome_eq_false_iff.1 hframe)]
    rfl

/-- Frames without content overwrite nothing. -/
theorem lasting_of_not_bringContent {frames : List Chunk} (h : bringContent frames = false) :
    lasting frames = frames := by
  induction frames with
  | nil => rfl
  | cons frame later ih =>
    have hlater : bringContent later = false := (Bool.or_eq_false_iff.1 h).2
    rw [lasting, hlater, if_neg Bool.false_ne_true, ih hlater]

/-- The text of the first frame lasts, or that of the later ones. -/
theorem joinText_lasting_cons (frame : Chunk) (later : List Chunk) :
    joinText (lasting (frame :: later)) =
      if bringContent later then joinText (lasting later) else frame.text := by
  rw [lasting]
  by_cases hlater : bringContent later = true
  · rw [if_pos hlater, if_pos hlater]
  · have hnone := Bool.eq_false_iff.2 hlater
    rw [if_neg hlater, if_neg hlater, joinText_cons, lasting_of_not_bringContent hnone,
      joinText_of_not_bringContent hnone, String.append_empty]

/-- **The text of a window.** What frames are merged into has the text of those that last. -/
theorem text_foldlM_merge {first merged : Chunk} {rest : List Chunk}
    (h : rest.foldlM Chunk.merge first = .ok merged) :
    merged.text = joinText (lasting (first :: rest)) := by
  induction rest generalizing first with
  | nil =>
    cases h
    exact (joinText_lasting_cons _ []).symm
  | cons frame rest ih =>
    rw [List.foldlM_cons] at h
    obtain ⟨next, hnext, h⟩ := exists_of_bind_eq_ok h
    rw [ih h, joinText_lasting_cons, joinText_lasting_cons, joinText_lasting_cons,
      bringContent_cons, Chunk.text_merge hnext, Chunk.text_eq frame]
    cases bringContent rest with
    | true => rw [Bool.or_true, if_pos rfl, if_pos rfl, if_pos rfl]
    | false => cases frame.content? <;> rfl

/-! ## What is lost -/

/-- No frame with text is overwritten by the content of a later one. -/
def KeepsText (frames : List Chunk) : Prop :=
  frames.Pairwise fun frame later => later.content?.isSome → frame.text = ""

/-- What lasts is not longer than what arrives. -/
theorem length_joinText_lasting_le (frames : List Chunk) :
    (joinText (lasting frames)).length ≤ (joinText frames).length := by
  induction frames with
  | nil => exact Nat.le_refl _
  | cons frame later ih =>
    rw [joinText_lasting_cons, joinText_cons, String.length_append]
    by_cases hlater : bringContent later = true
    · rw [if_pos hlater]
      omega
    · rw [if_neg hlater]
      omega

/-- All text of a block lasts exactly if nothing with text is overwritten. -/
theorem joinText_lasting_eq_iff (frames : List Chunk) :
    joinText (lasting frames) = joinText frames ↔ KeepsText frames := by
  induction frames with
  | nil => exact ⟨fun _ => .nil, fun _ => rfl⟩
  | cons frame later ih =>
    rw [KeepsText, List.pairwise_cons, ← KeepsText, ← ih, joinText_lasting_cons, joinText_cons]
    by_cases hlater : bringContent later = true
    · rw [if_pos hlater]
      refine ⟨fun heq => ?_, fun ⟨hframe, hkeeps⟩ => ?_⟩
      · -- What lasts of the later frames is no longer than their text, so the first has none.
        have hle := length_joinText_lasting_le later
        rw [heq, String.length_append] at hle
        have hempty : frame.text = "" := String.length_eq_zero_iff.1 (by omega)
        rw [hempty, String.empty_append] at heq
        exact ⟨fun _ _ _ => hempty, heq⟩
      · obtain ⟨content, hmem, hcontent⟩ := List.any_eq_true.1 hlater
        rw [hframe content hmem hcontent, hkeeps, String.empty_append]
    · have hnone := Bool.eq_false_iff.2 hlater
      rw [if_neg hlater, lasting_of_not_bringContent hnone, joinText_of_not_bringContent hnone,
        String.append_empty]
      exact iff_of_true rfl
        ⟨fun frame hmem hcontent => absurd (List.any_eq_true.2 ⟨frame, hmem, hcontent⟩) hlater, rfl⟩

/-! ## Blocks -/

/-- The chunk of a block has the text that lasts of its frames. -/
theorem Block.text_merged {b : Block} {chunk : Chunk} (h : b.merged = .ok chunk) :
    chunk.text = joinText (lasting b.frames) :=
  text_foldlM_merge h

/-- The text of a block's chunk is what lasts of the block. -/
theorem map_text_eq {blocks : List Block} {chunks : List Chunk}
    (h : blocks.map Block.merged = chunks.map .ok) :
    chunks.map Chunk.text = blocks.map fun b => joinText (lasting b.frames) := by
  induction blocks generalizing chunks with
  | nil =>
    obtain rfl := List.map_eq_nil_iff.1 h.symm
    rfl
  | cons b blocks ih =>
    obtain ⟨chunk, more, rfl, hchunk, hmore⟩ := List.map_eq_cons_iff.1 h.symm
    rw [List.map_cons, List.map_cons, ih hmore.symm, b.text_merged hchunk.symm]

/-- Texts that are no longer than two others join to the same text only if they are the same. -/
theorem append_eq_append_iff_of_length_le {s s' t t' : String} (hs : s.length ≤ s'.length)
    (ht : t.length ≤ t'.length) : s ++ t = s' ++ t' ↔ s = s' ∧ t = t' := by
  refine ⟨fun h => ?_, fun ⟨hs, ht⟩ => by rw [hs, ht]⟩
  have hlength := congrArg String.length h
  rw [String.length_append, String.length_append] at hlength
  have hlist := congrArg String.toList h
  rw [String.toList_append, String.toList_append] at hlist
  have hlists : s.toList.length = s'.toList.length := by
    rw [String.length_toList, String.length_toList]
    omega
  obtain ⟨hs, ht⟩ := List.append_inj hlist hlists
  exact ⟨String.toList_inj.1 hs, String.toList_inj.1 ht⟩

/-- Over all blocks, what lasts is not longer than what arrives. -/
theorem length_joinText_lasting_blocks_le (blocks : List Block) :
    (joinText (blocks.flatMap fun b => lasting b.frames)).length ≤
      (joinText (blocks.flatMap Block.frames)).length := by
  induction blocks with
  | nil => exact Nat.le_refl _
  | cons b blocks ih =>
    have hb := length_joinText_lasting_le b.frames
    rw [List.flatMap_cons, List.flatMap_cons, joinText_append, joinText_append,
      String.length_append, String.length_append]
    omega

/-- All text lasts exactly if it does in each block. -/
theorem joinText_lasting_blocks_eq_iff (blocks : List Block) :
    joinText (blocks.flatMap fun b => lasting b.frames) = joinText (blocks.flatMap Block.frames) ↔
      ∀ b ∈ blocks, KeepsText b.frames := by
  induction blocks with
  | nil => exact iff_of_true rfl fun _ h => absurd h List.not_mem_nil
  | cons b blocks ih =>
    rw [List.flatMap_cons, List.flatMap_cons, joinText_append, joinText_append,
      append_eq_append_iff_of_length_le (length_joinText_lasting_le b.frames)
        (length_joinText_lasting_blocks_le blocks),
      joinText_lasting_eq_iff, ih, List.forall_mem_cons]

/-! ## Whole streams -/

/-- If the stream has no error, its chunks are those of the blocks. -/
theorem Division.Of.map_merged_eq {d : Division} {lines : List (Except Error String)}
    (hd : d.Of (accepted lines)) {yielded : List Chunk} (h : chunks lines = yielded.map .ok) :
    d.blocks.map Block.merged = yielded.map .ok := by
  have hquiet : ∀ e, .error e ∉ chunks lines := fun e he => by
    rw [h] at he
    obtain ⟨_, _, he⟩ := List.mem_map.1 he
    cases he
  cases hbreakage : breakage? lines with
  | some e =>
    obtain ⟨e, he⟩ := exists_error_of_breakage? hbreakage
    exact absurd he (hquiet e)
  | none =>
    rw [← h]
    rcases exists_first_error d.blocks with hok | ⟨before, b, after, e, hblocks, hok, he⟩
    · rw [chunks_eq_windowsFrom, hd.windowsFrom_eq_of_ok hok, hbreakage]
    · have hchunks := hd.windowsFrom_eq_of_error hblocks hok he
        ((breakage? lines).toList.map .error)
      rw [← chunks_eq_windowsFrom] at hchunks
      exact absurd (by rw [hchunks]; simp) (hquiet e)

/-- **Streamed text.** If a stream has no error, its chunks have, block by block, the text of the
frames that no later frame of the block overwrites with its content. All the text that arrives in
accepted frames goes on exactly if no frame with text is overwritten in its block. A frame outside
a window is a block of its own and keeps its text. -/
theorem streamed_text {lines : List (Except Error String)} {d : Division}
    (hd : d.Of (accepted lines)) {yielded : List Chunk} (h : chunks lines = yielded.map .ok) :
    (yielded.map Chunk.text = d.blocks.map fun b => joinText (lasting b.frames)) ∧
    (joinText yielded = joinText (accepted lines) ↔ ∀ b ∈ d.blocks, KeepsText b.frames) := by
  have htext := map_text_eq (hd.map_merged_eq h)
  refine ⟨htext, ?_⟩
  have hjoin : joinText yielded = joinText (d.blocks.flatMap fun b => lasting b.frames) := by
    rw [joinText_flatMap, joinText, htext]
  rw [hjoin, ← hd.frames_eq]
  exact joinText_lasting_blocks_eq_iff d.blocks

/-! ## Text inside a window -/

namespace StreamedText

open SeveralCalls (lines opening)

/-- A frame with a text. -/
def saying (text : String) : Chunk :=
  { choices := [{ delta := some { content := some (.text text) } }] }

/-- A call and two texts. -/
def answer : List Chunk := [opening, saying "a", saying "b"]

/-- The lines of the answer are read as its frames. -/
theorem accepted_answer : accepted (lines answer) = answer := by
  refine SeveralCalls.accepted_lines_of_forall fun frame hframe => ?_
  simp only [answer, List.mem_cons, List.not_mem_nil, or_false] at hframe
  rcases hframe with rfl | rfl | rfl <;> exact frame?_eventLine (.of_isPlain rfl)

/-- The one block of the frames. -/
def window : Block := ⟨opening, [saying "a", saying "b"]⟩

/-- The call opens a window, and the texts are in it. -/
theorem of_window : Division.Of ⟨[], some window⟩ (accepted (lines answer)) := by
  refine ⟨accepted_answer.symm, nofun, fun b hb => ?_⟩
  obtain rfl := Option.some.inj hb
  exact ⟨by decide, by decide⟩

/-- The chunk of the block. -/
def merged : Chunk :=
  { choices := [{
      delta := some {
        content := some (.text "b"), role := some .assistant
        toolCalls := some [SeveralCalls.call "1" "f"] } }] }

/-- The stream has the one chunk that the window is merged to. -/
theorem chunks_lines : chunks (lines answer) = [merged].map .ok := by
  rw [chunks_eq_windowsFrom, accepted_answer, lines, breakage?_map_ok]
  rfl

end StreamedText

open StreamedText in
/-- The second text overwrites the first. -/
theorem streamed_text_window :
    joinText [merged] ≠ joinText (accepted (SeveralCalls.lines answer)) ∧
      ¬KeepsText window.frames := by
  have hlost := (streamed_text of_window chunks_lines).2
  have hne : joinText [merged] ≠ joinText (accepted (SeveralCalls.lines answer)) := by
    rw [accepted_answer]
    decide
  exact ⟨hne, fun hkeeps => hne (hlost.2 fun b hb => by
    obtain rfl := List.mem_singleton.1 hb
    exact hkeeps)⟩

open StreamedText in
/-- Not all streams without an error have all the text that arrives. -/
theorem not_all_text_streamed :
    ¬∀ (lines : List (Except Error String)) (yielded : List Chunk),
      chunks lines = yielded.map .ok → joinText yielded = joinText (accepted lines) := by
  intro hall
  have htext := hall _ _ chunks_lines
  rw [accepted_answer] at htext
  exact absurd htext (by decide)

end ModelClient.Wire
