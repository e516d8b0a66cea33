import ModelClient.Proofs.SeveralCalls

/-!
# The mark of the end

A service ends a streamed answer with a line whose data is the mark of the end. The mark is read as
a line without data, like a comment, and the lines after it are read as if it were not there: their
frames are passed on, they are merged into a window that is still open, and the error of a
connection that breaks is reported.

So the stream is what it would be without these lines only if it is over before them, because it has
failed, or if they bring nothing that shows. Outside a window that means no frame at all. An open
window hides the frames that leave its chunk as it is, none of which can be a last one
(`Chunk.isLast_merge`).

## Main statements

* `chunks_end_mark_iff`: when the stream ends with the mark.
-/

namespace ModelClient

/-- A line whose data is the mark of the end. -/
def Sse.IsEndMark (line : String) : Prop :=
  ∃ data : String, line.toList = dataMark ++ data.toList ∧ Text.trimStart data = "[DONE]"

/-- The line of the mark has no data. -/
theorem Sse.IsEndMark.data?_eq_none {line : String} (h : IsEndMark line) : data? line = none := by
  obtain ⟨data, hline, hdata⟩ := h
  have hdrop : String.ofList (line.toList.drop dataMark.length) = data := by
    rw [hline, List.drop_left, String.ofList_toList]
  rw [data?]
  simp only [hdrop, hdata]
  simp

namespace Wire

/-- The line of the mark carries no frame. -/
theorem accepted?_eq_none_of_isEndMark {line : String} (h : Sse.IsEndMark line) :
    accepted? line = none := by
  rw [accepted?, h.data?_eq_none]
  rfl

/-! ## Lines after lines -/

section Lines

variable {before : List (Except Error String)} (after : List (Except Error String))

/-- If the connection has not broken, the frames of later lines come after those of earlier ones. -/
theorem accepted_append_of_none (h : breakage? before = none) :
    accepted (before ++ after) = accepted before ++ accepted after := by
  induction before with
  | nil => rfl
  | cons line before ih =>
    cases line with
    | error e => cases h
    | ok line =>
      have hrest : accepted (before ++ after) = accepted before ++ accepted after := ih h
      simp only [accepted, List.cons_append, arrived, List.filterMap_cons] at hrest ⊢
      cases accepted? line with
      | none => exact hrest
      | some frame => simp [hrest]

/-- If the connection has not broken, it may break later. -/
theorem breakage?_append_of_none (h : breakage? before = none) :
    breakage? (before ++ after) = breakage? after := by
  induction before with
  | nil => rfl
  | cons line before ih =>
    cases line with
    | error e => cases h
    | ok line => exact ih h

/-- Nothing is read after an error. -/
theorem windowsFrom_frames_append_of_some {e : Error} (h : breakage? before = some e)
    (window : Option Chunk) :
    windowsFrom window (frames (before ++ after)) = windowsFrom window (frames before) := by
  induction before generalizing window with
  | nil => cases h
  | cons line before ih =>
    cases line with
    | error e => cases window <;> rfl
    | ok line =>
      have hih := fun window => ih h window
      simp only [frames, List.cons_append, List.filterMap_cons] at hih ⊢
      cases frame? line with
      | none => exact hih window
      | some frame => exact windowsFrom_cons_congr hih window _

end Lines

/-- An error of the connection is not passed over: it ends the stream, or one before it does. -/
theorem exists_error_of_breakage? {lines : List (Except Error String)} {e : Error}
    (h : breakage? lines = some e) : ∃ e, .error e ∈ chunks lines := by
  rw [chunks_eq_windowsFrom, h]
  generalize (none : Option Chunk) = window
  induction accepted lines generalizing window with
  | nil => exact ⟨e, by cases window <;> simp [windowsFrom]⟩
  | cons frame frames ih =>
    rw [List.map_cons, List.cons_append, windowsFrom]
    by_cases hplain : window.isNone && !frame.hasToolCall
    · rw [if_pos hplain]
      exact (ih none).imp fun _ h => List.mem_cons_of_mem _ h
    · rw [if_neg hplain]
      cases Chunk.mergeOnto window frame with
      | error e => exact ⟨e, List.mem_singleton_self _⟩
      | ok merged =>
        by_cases hlast : frame.isLast
        · simp only [hlast, if_true]
          exact (ih none).imp fun _ h => List.mem_cons_of_mem _ h
        · simp only [hlast]
          exact ih (some merged)

/-! ## Frames that do not show -/

/-- A merged chunk gives a reason for having stopped if one of the two does. -/
theorem Chunk.isLast_merge {previous current merged : Chunk}
    (h : previous.merge current = .ok merged) :
    merged.isLast = (current.isLast || previous.isLast) := by
  rw [merge] at h
  cases hprevious : previous.choices.head? with
  | none =>
    rw [hprevious] at h
    cases h
    cases hcurrent : current.choices.head? <;> simp [isLast, hprevious, hcurrent, Option.toList]
  | some choice =>
    cases hcurrent : current.choices.head? with
    | none =>
      rw [hprevious, hcurrent] at h
      cases h
      simp [isLast, hprevious, hcurrent, Option.toList]
    | some next =>
      rw [hprevious, hcurrent, mergeChoices, ChunkChoice.merge] at h
      -- Of the two choices the reason of the later one counts, or else that of the earlier one.
      cases hdelta : mergeDeltas choice.delta next.delta with
      | error e =>
        rw [hdelta] at h
        cases h
      | ok delta =>
        rw [hdelta] at h
        cases h
        simp only [isLast, hprevious, hcurrent]
        cases next.finishReason <;> simp [Option.toList]

/-- A merged chunk is the last one of a window if one of its frames is. -/
theorem Chunk.isLast_foldlM {start merged : Chunk} {frames : List Chunk}
    (h : frames.foldlM merge start = .ok merged) :
    merged.isLast = (start.isLast || frames.any isLast) := by
  induction frames generalizing start with
  | nil =>
    cases h
    rw [List.any_nil, Bool.or_false]
  | cons frame frames ih =>
    rw [List.foldlM_cons] at h
    obtain ⟨next, hmerge, h⟩ := exists_of_bind_eq_ok h
    rw [ih h, isLast_merge hmerge, List.any_cons, Bool.or_comm frame.isLast, Bool.or_assoc]

/-- What an open window is merged into gives no reason for having stopped. -/
theorem Block.IsOpen.isLast_merged {b : Block} (h : b.IsOpen) {merged : Chunk}
    (hmerged : b.merged = .ok merged) : merged.isLast = false := by
  have hfirst : b.first.isLast = false := h.2 b.first (by simp [frames])
  have hrest : b.rest.any Chunk.isLast = false :=
    List.any_eq_false.2 fun frame hframe => by simp [h.2 frame (by simp [frames, hframe])]
  rw [Chunk.isLast_foldlM hmerged, hfirst, hrest]
  rfl

/-- A window with more frames goes on as a chunk without a reason for having stopped, and nothing
else, exactly if the body does not break off and this chunk is what the frames are merged into. -/
theorem windowsFrom_some_eq_singleton_iff {chunk : Chunk} (hchunk : chunk.isLast = false)
    (merged : Chunk) (frames : List Chunk) (breakage : Option Error) :
    windowsFrom (some merged) (frames.map .ok ++ breakage.toList.map .error) = [.ok chunk] ↔
      breakage = none ∧ frames.foldlM Chunk.merge merged = .ok chunk := by
  induction frames generalizing merged with
  | nil =>
    rw [List.foldlM_nil]
    cases breakage with
    | none => simp [windowsFrom, pure, Except.pure]
    | some e => simp [windowsFrom]
  | cons frame frames ih =>
    rw [List.map_cons, List.cons_append, windowsFrom, List.foldlM_cons]
    simp only [Option.isNone_some, Bool.false_and, Chunk.mergeOnto]
    cases hmerge : merged.merge frame with
    | error e => simp [bind, Except.bind]
    | ok next =>
      by_cases hlast : frame.isLast = true
      -- The window closes with a reason for having stopped, which the chunk does not have.
      · have hnext : next.isLast = true := by
          rw [Chunk.isLast_merge hmerge, hlast, Bool.true_or]
        simp only [hlast, if_true]
        constructor
        · intro h
          obtain rfl : next = chunk := Except.ok.inj (List.cons.inj h).1
          rw [hchunk] at hnext
          cases hnext
        · rintro ⟨-, h⟩
          have hlast := Chunk.isLast_foldlM h
          rw [hchunk, hnext] at hlast
          cases hlast
      · simp only [hlast]
        exact ih next

/-- A window that is open comes to something in the end. -/
theorem windowsFrom_some_ne_nil (merged : Chunk) (items : List (Except Error Chunk)) :
    windowsFrom (some merged) items ≠ [] := by
  induction items generalizing merged with
  | nil => simp [windowsFrom]
  | cons item items ih =>
    cases item with
    | error e => simp [windowsFrom]
    | ok frame =>
      rw [windowsFrom]
      simp only [Option.isNone_some, Bool.false_and]
      cases Chunk.mergeOnto (some merged) frame with
      | error e => simp
      | ok next =>
        by_cases hlast : frame.isLast = true
        · simp [hlast]
        · simp only [hlast]
          exact ih next

/-- There are no windows exactly if there is nothing. -/
theorem windowsFrom_none_eq_nil_iff {items : List (Except Error Chunk)} :
    windowsFrom none items = [] ↔ items = [] := by
  constructor
  · intro h
    cases items with
    | nil => rfl
    | cons item items =>
      exfalso
      cases item with
      | error e => simp [windowsFrom] at h
      | ok frame =>
        rw [windowsFrom] at h
        by_cases hcall : frame.hasToolCall = true
        · simp only [hcall, Chunk.mergeOnto] at h
          by_cases hlast : frame.isLast = true
          · simp [hlast] at h
          · simp only [hlast] at h
            exact windowsFrom_some_ne_nil frame items h
        · simp [hcall] at h
  · rintro rfl
    rfl

/-! ## The stream after the mark -/

/-- Further frames would not show in the chunks of the blocks: there are none, or they are merged
into an unfinished window and leave its chunk as it is. -/
def Division.Absorbs (d : Division) (frames : List Chunk) : Prop :=
  match d.unfinished with
  | none => frames = []
  | some b => (⟨b.first, b.rest ++ frames⟩ : Block).merged = b.merged

/-- What comes after divided frames does not show exactly if the body does not break off and the
frames are absorbed. -/
theorem Division.Of.windowsFrom_append_eq_iff {d : Division} {frames : List Chunk}
    (h : d.Of frames) (hok : ∀ b ∈ d.blocks, ∃ chunk, b.merged = .ok chunk) (more : List Chunk)
    (breakage : Option Error) :
    windowsFrom none ((frames ++ more).map .ok ++ breakage.toList.map .error) =
        d.blocks.map Block.merged ↔
      breakage = none ∧ d.Absorbs more := by
  have hcomplete : ∀ b ∈ d.complete, ∃ chunk, b.merged = .ok chunk := fun b hb =>
    hok b (List.mem_append_left _ hb)
  rw [← h.frames_eq, blocks, List.map_append, List.flatMap_append, List.map_append,
    List.append_assoc, List.append_assoc, windowsFrom_of_forall_isComplete h.complete hcomplete,
    List.map_append, List.append_cancel_left_eq, Absorbs]
  -- The complete blocks cancel; what is left depends on whether a window is still open.
  cases hunfinished : d.unfinished with
  | none =>
    show windowsFrom none (more.map .ok ++ breakage.toList.map .error) = [] ↔ _
    rw [windowsFrom_none_eq_nil_iff, List.append_eq_nil_iff]
    cases breakage <;> simp
  | some b =>
    have hopen : b.IsOpen := h.unfinished b hunfinished
    obtain ⟨chunk, hchunk⟩ := hok b (by simp [blocks, hunfinished])
    rw [Option.toList_some, List.flatMap_singleton, windowsFrom_of_isOpen hopen, List.map_singleton,
      hchunk]
    have hmore : (⟨b.first, b.rest ++ more⟩ : Block).merged = more.foldlM Chunk.merge chunk := by
      rw [Block.merged, List.foldlM_append]
      show b.merged >>= _ = _
      rw [hchunk]
      rfl
    simp only [hmore, hchunk]
    exact windowsFrom_some_eq_singleton_iff (hopen.isLast_merged hchunk) chunk more breakage

/-- What comes after some lines does not show exactly if the stream has failed in them, or if the
frames are absorbed and no error comes. -/
theorem Division.Of.chunks_append_eq_iff {d : Division} {before : List (Except Error String)}
    (h : d.Of (accepted before)) (after : List (Except Error String)) :
    chunks (before ++ after) = chunks before ↔
      (∃ e, .error e ∈ chunks before) ∨ (breakage? after = none ∧ d.Absorbs (accepted after)) := by
  cases hbreakage : breakage? before with
  | some e =>
    have hsame : chunks (before ++ after) = chunks before :=
      windowsFrom_frames_append_of_some after hbreakage none
    exact iff_of_true hsame (.inl (exists_error_of_breakage? hbreakage))
  | none =>
    have hboth : chunks (before ++ after) = windowsFrom none
        ((accepted before ++ accepted after).map .ok ++ (breakage? after).toList.map .error) := by
      rw [chunks_eq_windowsFrom, accepted_append_of_none after hbreakage,
        breakage?_append_of_none after hbreakage]
    rw [hboth, chunks_eq_windowsFrom, hbreakage]
    rcases exists_first_error d.blocks with hok | ⟨front, b, rest, e, hblocks, hok, he⟩
    · rw [h.windowsFrom_eq_of_ok hok none, h.windowsFrom_append_eq_iff hok]
      have hclean : ¬∃ e, Except.error e ∈ d.blocks.map Block.merged := by
        rintro ⟨e, hmem⟩
        obtain ⟨b, hb, heq⟩ := List.mem_map.1 hmem
        obtain ⟨chunk, hchunk⟩ := hok b hb
        rw [hchunk] at heq
        cases heq
      exact (or_iff_right hclean).symm
    -- The block that cannot be merged ends the stream, whatever comes after it.
    · rw [List.map_append, List.append_assoc, h.windowsFrom_eq_of_error hblocks hok he,
        h.windowsFrom_eq_of_error hblocks hok he]
      exact iff_of_true rfl (.inl ⟨e, by simp⟩)

/-- **The mark of the end.** A line with the mark might as well not be there. The stream is what it
is without the lines after the mark exactly if it has failed before, or if the body does not break
off after the mark and no frame after it shows: there is none, or a window is open and the frames
leave its chunk as it is. -/
theorem chunks_end_mark_iff {before : List (Except Error String)} {d : Division}
    (hd : d.Of (accepted before)) {mark : String} (hmark : Sse.IsEndMark mark)
    (after : List (Except Error String)) :
    chunks (before ++ .ok mark :: after) = chunks (before ++ after) ∧
    (chunks (before ++ .ok mark :: after) = chunks before ↔
      (∃ e, .error e ∈ chunks before) ∨
        (breakage? after = none ∧ d.Absorbs (accepted after))) := by
  have hsame : chunks (before ++ .ok mark :: after) = chunks (before ++ after) :=
    chunks_append_cons_of_accepted?_eq_none before after (accepted?_eq_none_of_isEndMark hmark)
  refine ⟨hsame, ?_⟩
  rw [hsame]
  exact hd.chunks_append_eq_iff after

namespace EndMark

/-- A line with the mark. -/
def mark : String := "data: [DONE]"

/-- The line has the mark. -/
theorem isEndMark_mark : Sse.IsEndMark mark := ⟨" [DONE]", rfl, by decide⟩

/-- The frame that ends a window. -/
def closing : Chunk := { choices := [{ finishReason := some .stop }] }

/-- A line that opens a window. -/
def before : List (Except Error String) := SeveralCalls.lines [SeveralCalls.opening]

/-- The line that closes it, and a connection that breaks. -/
def after : List (Except Error String) := [.ok closing.toJson.eventLine, .error .network]

/-- The line before the mark carries the frame that opens the window. -/
theorem accepted_before : accepted before = [SeveralCalls.opening] :=
  SeveralCalls.accepted_lines (by simp)

/-- The line after the mark carries the frame that closes the window. -/
theorem accepted_after : accepted after = [closing] := by
  have hread : accepted? closing.toJson.eventLine = some closing := by
    rw [← frame?_eq_accepted?]
    exact frame?_eventLine (.of_isPlain rfl)
  simp [accepted, after, arrived, hread]

/-- Before the mark the window stays open, and its chunk is handed on at the end. -/
theorem chunks_before : chunks before = [.ok SeveralCalls.opening] := by
  rw [chunks_eq_windowsFrom, accepted_before]
  rfl

end EndMark

open EndMark in
/-- The frame after the mark and the broken connection show in the stream. -/
theorem chunks_end_mark_iff_closing :
    Sse.IsEndMark mark ∧ chunks (before ++ .ok mark :: after) ≠ chunks before := by
  have hdivision : Division.Of ⟨[], some ⟨SeveralCalls.opening, []⟩⟩ (accepted before) := by
    refine ⟨accepted_before.symm, by simp, fun b hb => ?_⟩
    obtain rfl := Option.some.inj hb
    exact ⟨by decide, by decide⟩
  refine ⟨isEndMark_mark, fun hsame => ?_⟩
  have hall := chunks_end_mark_iff hdivision isEndMark_mark after
  rcases hall.2.1 hsame with ⟨e, he⟩ | ⟨hwhole, -⟩
  · simp [chunks_before] at he
  · cases hwhole

open EndMark in
/-- The window that was open at the mark is closed after it, and the broken connection is reported.
-/
theorem chunks_after_end_mark :
    Sse.IsEndMark mark ∧ chunks before = [.ok SeveralCalls.opening] ∧
      ∃ merged, SeveralCalls.opening.merge closing = .ok merged ∧
        chunks (before ++ .ok mark :: after) = [.ok merged, .error .network] := by
  refine ⟨isEndMark_mark, chunks_before, _, rfl, ?_⟩
  rw [chunks_append_cons_of_accepted?_eq_none _ _ (accepted?_eq_none_of_isEndMark isEndMark_mark),
    chunks_eq_windowsFrom, accepted_append_of_none after rfl, breakage?_append_of_none after rfl,
    accepted_before, accepted_after]
  rfl

end Wire

end ModelClient
