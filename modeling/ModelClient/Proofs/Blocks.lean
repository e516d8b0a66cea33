import Mathlib.Data.List.Basic
import ModelClient.Wire.Window

/-!
# Blocks of frames

The frames of a streamed answer fall into blocks. A frame without a tool call is a block of its own;
a frame with one opens a window, which reaches up to the first frame that gives a reason for having
stopped, or to the last frame there is. The main statement is `chunks_eq_blocks`: the frames can be
divided in one way only, each block becomes one chunk, and the first failure ends the stream.

The division is a relation on its own and knows nothing of merging. The stream is compared with it
block by block: `windowsFrom_of_isComplete` and `windowsFrom_of_isOpen` say what a whole block does
to the stream, whatever comes after it.
-/

namespace ModelClient.Wire

/-! ## The frames of a body -/

/-- The frame on a line: data, but not the mark of the end, that can be read as a chunk. -/
def accepted? (line : String) : Option Chunk :=
  (Sse.data? line).bind fun data => (Json.Doc.ofString? data).bind Chunk.decode

/-- What arrives before the first error. -/
def arrived {α : Type} : List (Except Error α) → List α
  | .ok a :: rest => a :: arrived rest
  | _ => []

/-- The first error. -/
def breakage? {α : Type} : List (Except Error α) → Option Error
  | [] => none
  | .ok _ :: rest => breakage? rest
  | .error e :: _ => some e

/-- The frames that arrive before the first error. -/
def accepted (lines : List (Except Error String)) : List Chunk :=
  (arrived lines).filterMap accepted?

/-- Blank lines and comments carry no data. -/
theorem data?_eq_none_of_isIgnored {line : String} (h : Sse.isIgnored line = true) :
    Sse.data? line = none := by
  rw [Sse.isIgnored] at h
  rw [Sse.data?]
  cases hline : line.toList with
  | nil => rfl
  | cons c rest =>
    have hc : c = ':' := by simpa [hline] using h
    subst hc
    rfl

/-- A line carries a frame exactly if it is accepted. -/
theorem frame?_eq_accepted? (line : String) : frame? line = accepted? line := by
  rw [frame?, accepted?]
  by_cases h : Sse.isIgnored line = true
  · rw [if_pos h, data?_eq_none_of_isIgnored h]
    rfl
  · rw [if_neg h]
    cases hdata : Sse.data? line with
    | none => rfl
    | some data =>
      simp only [Option.bind_eq_bind, Option.bind_some]

/-- Streams that go on alike are alike. -/
theorem windowsFrom_cons_congr {rest rest' : List (Except Error Chunk)}
    (h : ∀ window, windowsFrom window rest = windowsFrom window rest')
    (window : Option Chunk) (item : Except Error Chunk) :
    windowsFrom window (item :: rest) = windowsFrom window (item :: rest') := by
  cases item with
  -- An error ends the stream, so what comes after it is not looked at.
  | error e => cases window <;> rfl
  | ok frame => cases window <;> simp only [windowsFrom, h]

/-- What stands on a line that is no frame, and what comes after an error, does not count. -/
theorem windowsFrom_frames (lines : List (Except Error String)) (window : Option Chunk) :
    windowsFrom window (frames lines) =
      windowsFrom window ((accepted lines).map .ok ++ (breakage? lines).toList.map .error) := by
  induction lines generalizing window with
  | nil => rfl
  | cons line rest ih =>
    cases line with
    | error e => cases window <;> rfl
    | ok line =>
      have hline : frames (.ok line :: rest) =
          ((accepted? line).map Except.ok).toList ++ frames rest := by
        simp only [frames, List.filterMap_cons, ← frame?_eq_accepted?]
        cases frame? line <;> rfl
      rw [hline, accepted, arrived, List.filterMap_cons, breakage?]
      cases accepted? line with
      | none => exact ih window
      | some frame => exact windowsFrom_cons_congr ih window (.ok frame)

/-! ## Blocks -/

/-- Frames that belong together, at least one. -/
structure Block where
  first : Chunk
  rest : List Chunk

namespace Block

/-- The frames of the block. -/
def frames (b : Block) : List Chunk := b.first :: b.rest

/-- The chunk that the block becomes: the frame itself, or all frames merged from left to right. -/
def merged (b : Block) : Except Error Chunk := b.rest.foldlM Chunk.merge b.first

/-- A frame without a tool call by itself. -/
def IsPlain (b : Block) : Prop := b.first.hasToolCall = false ∧ b.rest = []

/-- A window in which no frame gives a reason for having stopped. -/
def IsOpen (b : Block) : Prop :=
  b.first.hasToolCall = true ∧ ∀ frame ∈ b.frames, frame.isLast = false

/-- A window of which the last frame, and no other, gives a reason for having stopped. -/
def IsClosed (b : Block) : Prop :=
  b.first.hasToolCall = true ∧ ∃ inner last, b.frames = inner ++ [last] ∧
    (∀ frame ∈ inner, frame.isLast = false) ∧ last.isLast = true

/-- A block that cannot get any longer. -/
def IsComplete (b : Block) : Prop := b.IsPlain ∨ b.IsClosed

/-- The block with a further frame. -/
def extend (b : Block) (frame : Chunk) : Block := ⟨b.first, b.rest ++ [frame]⟩

/-- A block that is extended has one more frame. -/
theorem frames_extend (b : Block) (frame : Chunk) : (b.extend frame).frames = b.frames ++ [frame] :=
  rfl

/-- A block that is extended is merged with one more frame. -/
theorem merged_extend (b : Block) (frame : Chunk) :
    (b.extend frame).merged = b.merged >>= fun merged => merged.merge frame := by
  rw [merged, extend, List.foldlM_append]
  simp only [List.foldlM_cons, List.foldlM_nil, bind_pure]
  rfl

/-- A block is its frames. -/
theorem frames_injective {b b' : Block} (h : b.frames = b'.frames) : b = b' := by
  obtain ⟨hfirst, hrest⟩ := List.cons.inj h
  cases b
  cases b'
  simp_all

/-- A window that closes is a last frame by itself, or an open window and a last frame. -/
theorem IsClosed.cases {b : Block} (h : b.IsClosed) :
    (b.rest = [] ∧ b.first.isLast = true) ∨
      ∃ b' : Block, ∃ last, b'.IsOpen ∧ last.isLast = true ∧ b = b'.extend last := by
  obtain ⟨hcall, inner, last, hframes, hinner, hlast⟩ := h
  cases inner with
  | nil =>
    obtain ⟨hfirst, hrest⟩ := List.cons.inj hframes
    exact .inl ⟨hrest, hfirst ▸ hlast⟩
  | cons first inner =>
    obtain ⟨hfirst, hrest⟩ := List.cons.inj hframes
    refine .inr ⟨⟨first, inner⟩, last, ⟨hfirst ▸ hcall, hinner⟩, hlast, frames_injective ?_⟩
    rw [frames_extend, hframes]
    rfl

/-- A window stays open with a frame that gives no reason for having stopped. -/
theorem IsOpen.isOpen_extend {b : Block} (h : b.IsOpen) {frame : Chunk}
    (hlast : frame.isLast = false) : (b.extend frame).IsOpen := by
  refine ⟨h.1, fun f hf => ?_⟩
  rw [frames_extend, List.mem_append, List.mem_singleton] at hf
  rcases hf with hf | rfl
  · exact h.2 f hf
  · exact hlast

/-- A window is closed by a frame that gives one. -/
theorem IsOpen.isClosed_extend {b : Block} (h : b.IsOpen) {frame : Chunk}
    (hlast : frame.isLast = true) : (b.extend frame).IsClosed :=
  ⟨h.1, b.frames, frame, rfl, h.2, hlast⟩

/-- A complete block is no open window. -/
theorem IsComplete.not_isOpen {b : Block} (h : b.IsComplete) : ¬ b.IsOpen := by
  rintro ⟨hcall, hopen⟩
  rcases h with ⟨hplain, -⟩ | ⟨-, inner, last, hframes, -, hlast⟩
  · exact absurd (hcall.symm.trans hplain) (by decide)
  · have hmem : last ∈ b.frames := by
      rw [hframes]
      simp
    exact absurd (hlast.symm.trans (hopen last hmem)) (by decide)

/-- No complete block is a proper start of a complete block or of an open one. -/
theorem IsComplete.eq_nil_of_append {b b' : Block} (h : b.IsComplete)
    (h' : b'.IsComplete ∨ b'.IsOpen) {more : List Chunk} (heq : b'.frames = b.frames ++ more) :
    more = [] := by
  have hfirst : b'.first = b.first := (List.cons.inj heq).1
  rcases h with ⟨hcall, hrest⟩ | ⟨hcall, inner, last, hframes, -, hlast⟩
  · -- a plain frame is followed by nothing, because the other block is plain too
    rw [← hfirst] at hcall
    rcases h' with (⟨-, hrest'⟩ | ⟨hcall', -⟩) | ⟨hcall', -⟩
    · simpa [frames, hrest, hrest', hfirst] using heq
    · exact absurd (hcall'.symm.trans hcall) (by decide)
    · exact absurd (hcall'.symm.trans hcall) (by decide)
  · rw [← hfirst] at hcall
    rw [hframes] at heq
    rcases List.eq_nil_or_concat' more with hnil | ⟨more, x, rfl⟩
    · exact hnil
    · -- the frame that ends the one block stands inside the other
      exfalso
      rcases h' with (⟨hcall', -⟩ | ⟨-, inner', last', hframes', hinner', -⟩) | ⟨-, hopen⟩
      · exact absurd (hcall.symm.trans hcall') (by decide)
      · rw [hframes', ← List.append_assoc] at heq
        have hmem : last ∈ inner' := by
          rw [(List.append_inj' heq rfl).1]
          simp
        exact absurd (hlast.symm.trans (hinner' last hmem)) (by decide)
      · have hmem : last ∈ b'.frames := by
          rw [heq]
          simp
        exact absurd (hlast.symm.trans (hopen last hmem)) (by decide)

/-- Frames start with at most one complete block. -/
theorem IsComplete.eq_of_append {b b' : Block} (h : b.IsComplete) (h' : b'.IsComplete)
    {rest rest' : List Chunk} (heq : b.frames ++ rest = b'.frames ++ rest') : b = b' := by
  rcases List.append_eq_append_iff.1 heq with ⟨more, hmore, -⟩ | ⟨more, hmore, -⟩
  · obtain rfl := h.eq_nil_of_append (.inl h') hmore
    exact frames_injective (by simpa using hmore.symm)
  · obtain rfl := h'.eq_nil_of_append (.inl h) hmore
    exact frames_injective (by simpa using hmore)

/-- The frames of an open window, or no frames at all, do not start with a complete block. -/
theorem IsComplete.append_ne {b : Block} (h : b.IsComplete) {unfinished : Option Block}
    (hopen : ∀ b' ∈ unfinished, b'.IsOpen) (rest : List Chunk) :
    b.frames ++ rest ≠ unfinished.toList.flatMap frames := by
  intro heq
  cases unfinished with
  | none => simp [frames] at heq
  | some b' =>
    have hb' : b'.IsOpen := hopen b' rfl
    have hframes : b'.frames = b.frames ++ rest := by simpa using heq.symm
    obtain rfl := h.eq_nil_of_append (.inr hb') hframes
    obtain rfl := frames_injective (hframes.trans (List.append_nil _))
    exact h.not_isOpen hb'

end Block

/-! ## Divisions -/

/-- Frames divided into blocks, of which only the last one may be unfinished. -/
structure Division where
  complete : List Block
  unfinished : Option Block

namespace Division

/-- All blocks in their order. -/
def blocks (d : Division) : List Block := d.complete ++ d.unfinished.toList

/-- The division is one of the given frames. -/
structure Of (d : Division) (frames : List Chunk) : Prop where
  frames_eq : d.blocks.flatMap Block.frames = frames
  complete : ∀ b ∈ d.complete, b.IsComplete
  unfinished : ∀ b ∈ d.unfinished, b.IsOpen

/-- The division with a block in front. -/
def cons (b : Block) (d : Division) : Division := ⟨b :: d.complete, d.unfinished⟩

/-- A complete block may come before the others. -/
theorem Of.cons {d : Division} {frames : List Chunk} (h : d.Of frames) {b : Block}
    (hb : b.IsComplete) : (d.cons b).Of (b.frames ++ frames) where
  frames_eq := by
    rw [← h.frames_eq]
    rfl
  complete := by
    intro b' hb'
    rcases List.mem_cons.1 hb' with rfl | hb'
    · exact hb
    · exact h.complete b' hb'
  unfinished := h.unfinished

/-- Frames can be divided, also those that come after an open window. -/
theorem exists_of (frames : List Chunk) :
    (∃ d : Division, d.Of frames) ∧
      ∀ b : Block, b.IsOpen → ∃ d : Division, d.Of (b.frames ++ frames) := by
  induction frames with
  | nil =>
    refine ⟨⟨⟨[], none⟩, rfl, by simp, by simp⟩, fun b hb => ⟨⟨[], some b⟩, ?_, by simp, ?_⟩⟩
    · simp [blocks]
    · intro b' hb'
      obtain rfl : b = b' := Option.some.inj hb'
      exact hb
  | cons frame frames ih =>
    obtain ⟨⟨d, hd⟩, hwindow⟩ := ih
    refine ⟨?_, fun b hb => ?_⟩
    -- Outside a window the frame is a block, or it opens one.
    · by_cases hcall : frame.hasToolCall = true
      · by_cases hlast : frame.isLast = true
        · exact ⟨_, hd.cons (b := ⟨frame, []⟩)
            (.inr ⟨hcall, [], frame, rfl, by simp, hlast⟩)⟩
        · exact hwindow ⟨frame, []⟩ ⟨hcall, by simpa [Block.frames] using hlast⟩
      · exact ⟨_, hd.cons (b := ⟨frame, []⟩) (.inl ⟨by simpa using hcall, rfl⟩)⟩
    -- Inside a window the frame belongs to it, and it may be the last.
    · rw [← List.singleton_append, ← List.append_assoc, ← Block.frames_extend]
      by_cases hlast : frame.isLast = true
      · exact ⟨_, hd.cons (.inr (hb.isClosed_extend hlast))⟩
      · exact hwindow _ (hb.isOpen_extend (by simpa using hlast))

/-- Frames can be divided in one way only. -/
theorem Of.unique {d d' : Division} {frames : List Chunk} (h : d.Of frames) (h' : d'.Of frames) :
    d = d' := by
  obtain ⟨complete, unfinished⟩ := d
  obtain ⟨complete', unfinished'⟩ := d'
  obtain ⟨hframes, hcomplete, hopen⟩ := h
  obtain ⟨hframes', hcomplete', hopen'⟩ := h'
  have heq := hframes.trans hframes'.symm
  clear hframes hframes' frames
  simp only [blocks, List.flatMap_append] at heq hcomplete hcomplete' hopen hopen'
  -- By induction on the complete blocks: the first ones are the same, or there are none.
  induction complete generalizing complete' with
  | nil =>
    cases complete' with
    | nil =>
      congr 1
      cases unfinished <;> cases unfinished' <;> simp [Block.frames] at heq ⊢
      exact Block.frames_injective (congrArg₂ List.cons heq.1 heq.2)
    | cons b' complete' =>
      refine absurd heq.symm ?_
      rw [List.flatMap_cons, List.append_assoc]
      exact (hcomplete' b' (by simp)).append_ne hopen _
  | cons b complete ih =>
    cases complete' with
    | nil =>
      refine absurd heq ?_
      rw [List.flatMap_cons, List.append_assoc]
      exact (hcomplete b (by simp)).append_ne hopen' _
    | cons b' complete' =>
      rw [List.flatMap_cons, List.append_assoc, List.flatMap_cons, List.append_assoc] at heq
      obtain rfl := (hcomplete b (by simp)).eq_of_append (hcomplete' b' (by simp)) heq
      have hrest := ih complete' (fun b hb => hcomplete b (List.mem_cons_of_mem _ hb))
        (fun b hb => hcomplete' b (List.mem_cons_of_mem _ hb)) (List.append_cancel_left heq)
      rw [Division.mk.injEq] at hrest ⊢
      exact ⟨congrArg _ hrest.1, hrest.2⟩

end Division

/-! ## The stream block by block -/

/-- Inside a window, frames that give no reason for having stopped are merged into it. -/
theorem windowsFrom_some_append (merged : Chunk) {inner : List Chunk}
    (h : ∀ frame ∈ inner, frame.isLast = false) (rest : List (Except Error Chunk)) :
    windowsFrom (some merged) (inner.map .ok ++ rest) =
      match inner.foldlM Chunk.merge merged with
      | .ok merged => windowsFrom (some merged) rest
      | .error e => [.error e] := by
  induction inner generalizing merged with
  | nil => rfl
  | cons frame inner ih =>
    have hlast : frame.isLast = false := h frame (by simp)
    rw [List.map_cons, List.cons_append, windowsFrom, List.foldlM_cons]
    simp only [Option.isNone_some, Bool.false_and, Chunk.mergeOnto, hlast]
    cases merged.merge frame with
    | error e => rfl
    | ok next => exact ih next fun f hf => h f (List.mem_cons_of_mem _ hf)

/-- A window that stays open. -/
theorem windowsFrom_of_isOpen {b : Block} (h : b.IsOpen) (rest : List (Except Error Chunk)) :
    windowsFrom none (b.frames.map .ok ++ rest) =
      match b.merged with
      | .ok merged => windowsFrom (some merged) rest
      | .error e => [.error e] := by
  have hfirst : b.first.isLast = false := h.2 b.first (by simp [Block.frames])
  have hinner : ∀ frame ∈ b.rest, frame.isLast = false := fun f hf =>
    h.2 f (List.mem_cons_of_mem _ hf)
  rw [Block.frames, List.map_cons, List.cons_append, windowsFrom]
  simp only [h.1, Chunk.mergeOnto, hfirst]
  exact windowsFrom_some_append b.first hinner rest

/-- A complete block becomes one chunk, and the stream goes on outside a window. -/
theorem windowsFrom_of_isComplete {b : Block} (h : b.IsComplete)
    (rest : List (Except Error Chunk)) :
    windowsFrom none (b.frames.map .ok ++ rest) =
      match b.merged with
      | .ok merged => .ok merged :: windowsFrom none rest
      | .error e => [.error e] := by
  rcases h with ⟨hcall, hrest⟩ | hclosed
  · rw [Block.merged, Block.frames, hrest, List.map_cons, List.cons_append, windowsFrom]
    simp only [hcall]
    rfl
  -- A window is closed by its first frame, or it is open up to its last one.
  · rcases hclosed.cases with ⟨hrest, hlast⟩ | ⟨b, last, hopen, hlast, rfl⟩
    · rw [Block.merged, Block.frames, hrest, List.map_cons, List.cons_append, windowsFrom]
      simp only [hclosed.1, Chunk.mergeOnto, hlast]
      rfl
    · rw [Block.frames_extend, List.map_append, List.append_assoc, windowsFrom_of_isOpen hopen]
      rw [Block.merged_extend]
      cases b.merged with
      | error e => rfl
      | ok merged =>
        show windowsFrom (some merged) (.ok last :: rest) = _
        rw [windowsFrom]
        simp only [Option.isNone_some, Bool.false_and, Chunk.mergeOnto, hlast]
        have hbind : ((Except.ok merged : Except Error Chunk) >>= fun merged => merged.merge last) =
            merged.merge last := rfl
        rw [hbind]
        cases merged.merge last <;> rfl

/-- Complete blocks that all have a chunk. -/
theorem windowsFrom_of_forall_isComplete {blocks : List Block} (h : ∀ b ∈ blocks, b.IsComplete)
    (hok : ∀ b ∈ blocks, ∃ chunk, b.merged = .ok chunk) (rest : List (Except Error Chunk)) :
    windowsFrom none ((blocks.flatMap Block.frames).map .ok ++ rest) =
      blocks.map Block.merged ++ windowsFrom none rest := by
  induction blocks with
  | nil => rfl
  | cons b blocks ih =>
    obtain ⟨chunk, hchunk⟩ := hok b (by simp)
    rw [List.flatMap_cons, List.map_append, List.append_assoc,
      windowsFrom_of_isComplete (h b (by simp)), hchunk,
      ih (fun b hb => h b (List.mem_cons_of_mem _ hb))
        fun b hb => hok b (List.mem_cons_of_mem _ hb),
      List.map_cons, hchunk]
    rfl

/-- What is left after the complete blocks: the frames of an unfinished one and an error. -/
theorem windowsFrom_of_unfinished {unfinished : Option Block}
    (h : ∀ b ∈ unfinished, b.IsOpen) (hok : ∀ b ∈ unfinished, ∃ chunk, b.merged = .ok chunk)
    (breakage : Option Error) :
    windowsFrom none ((unfinished.toList.flatMap Block.frames).map .ok ++
        breakage.toList.map .error) =
      match breakage with
      | none => unfinished.toList.map Block.merged
      | some e => [.error e] := by
  cases unfinished with
  | none => cases breakage <;> rfl
  | some b =>
    obtain ⟨chunk, hchunk⟩ := hok b rfl
    rw [Option.toList_some, List.flatMap_singleton, windowsFrom_of_isOpen (h b rfl)]
    rw [List.map_singleton, hchunk]
    cases breakage <;> rfl

namespace Division

/-- The stream of divided frames of which every block has a chunk: the chunks of the blocks, or
those of the complete blocks and the error. -/
theorem Of.windowsFrom_eq_of_ok {d : Division} {frames : List Chunk} (h : d.Of frames)
    (hok : ∀ b ∈ d.blocks, ∃ chunk, b.merged = .ok chunk) (breakage : Option Error) :
    windowsFrom none (frames.map .ok ++ breakage.toList.map .error) =
      match breakage with
      | none => d.blocks.map Block.merged
      | some e => d.complete.map Block.merged ++ [.error e] := by
  have hcomplete : ∀ b ∈ d.complete, ∃ chunk, b.merged = .ok chunk := fun b hb =>
    hok b (List.mem_append_left _ hb)
  have hunfinished : ∀ b ∈ d.unfinished, ∃ chunk, b.merged = .ok chunk := fun b hb =>
    hok b (List.mem_append_right _ (Option.mem_toList.2 hb))
  rw [← h.frames_eq, blocks, List.flatMap_append, List.map_append, List.append_assoc,
    windowsFrom_of_forall_isComplete h.complete hcomplete,
    windowsFrom_of_unfinished h.unfinished hunfinished]
  cases breakage
  · rw [List.map_append]
  · rfl

/-- Only the last block may be unfinished. -/
theorem Of.isComplete_of_blocks_eq {d : Division} {frames : List Chunk} (h : d.Of frames)
    {before after : List Block} {b : Block} (hblocks : d.blocks = before ++ b :: after) :
    (∀ b ∈ before, b.IsComplete) ∧ (b.IsComplete ∨ b.IsOpen) := by
  rw [blocks] at hblocks
  have hcomplete := h.complete
  cases hunfinished : d.unfinished with
  | none =>
    rw [hunfinished, Option.toList_none, List.append_nil] at hblocks
    rw [hblocks] at hcomplete
    exact ⟨fun b hb => hcomplete b (by simp [hb]), .inl (hcomplete b (by simp))⟩
  | some u =>
    rw [hunfinished, Option.toList_some] at hblocks
    -- The block is the unfinished one exactly if it is the last.
    rcases List.eq_nil_or_concat' after with rfl | ⟨after, x, rfl⟩
    · obtain ⟨hbefore, hlast⟩ := List.append_inj' hblocks rfl
      obtain rfl : u = b := (List.cons.inj hlast).1
      exact ⟨hbefore ▸ hcomplete, .inr (h.unfinished u hunfinished)⟩
    · rw [← List.cons_append, ← List.append_assoc] at hblocks
      rw [(List.append_inj' hblocks rfl).1] at hcomplete
      exact ⟨fun b hb => hcomplete b (by simp [hb]), .inl (hcomplete b (by simp))⟩

/-- The stream of divided frames of which a block has no chunk: the chunks of the blocks before it,
and the error. -/
theorem Of.windowsFrom_eq_of_error {d : Division} {frames : List Chunk} (h : d.Of frames)
    {before after : List Block} {b : Block} {e : Error} (hblocks : d.blocks = before ++ b :: after)
    (hok : ∀ b ∈ before, ∃ chunk, b.merged = .ok chunk) (he : b.merged = .error e)
    (rest : List (Except Error Chunk)) :
    windowsFrom none (frames.map .ok ++ rest) = before.map Block.merged ++ [.error e] := by
  obtain ⟨hbefore, hb⟩ := h.isComplete_of_blocks_eq hblocks
  rw [← h.frames_eq, hblocks, List.flatMap_append, List.flatMap_cons, List.map_append,
    List.map_append, List.append_assoc, List.append_assoc,
    windowsFrom_of_forall_isComplete hbefore hok]
  rcases hb with hb | hb
  · rw [windowsFrom_of_isComplete hb, he]
  · rw [windowsFrom_of_isOpen hb, he]

end Division

/-! ## Whole bodies -/

/-- The stream is made of the frames that arrive and the error after them. -/
theorem chunks_eq_windowsFrom (lines : List (Except Error String)) :
    chunks lines =
      windowsFrom none ((accepted lines).map .ok ++ (breakage? lines).toList.map .error) :=
  windowsFrom_frames lines none

/-- A line that is no frame might as well not be there. -/
theorem chunks_append_cons_of_accepted?_eq_none (before after : List (Except Error String))
    {line : String} (h : accepted? line = none) :
    chunks (before ++ .ok line :: after) = chunks (before ++ after) := by
  have hframe : frame? line = none := (frame?_eq_accepted? line).trans h
  have hframes : frames (before ++ .ok line :: after) = frames (before ++ after) := by
    simp [frames, List.filterMap_append, hframe]
  rw [chunks, chunks, hframes]

/-- **Windowing.** The frames before the first error can be divided into blocks in exactly one way.
If every block has a chunk, these chunks are the stream; after an error the unfinished block is
lost and the error comes last. If a block has no chunk, the stream ends with its failure after the
chunks of the blocks before it. Lines that hold nothing, a comment, another field, the mark of the
end or data that is no chunk do not count. -/
theorem chunks_eq_blocks (lines : List (Except Error String)) :
    (∃! d : Division, d.Of (accepted lines)) ∧
    (∀ d : Division, d.Of (accepted lines) →
      ((∀ b ∈ d.blocks, ∃ chunk, b.merged = .ok chunk) →
        chunks lines = match breakage? lines with
          | none => d.blocks.map Block.merged
          | some e => d.complete.map Block.merged ++ [.error e]) ∧
      (∀ before b after e, d.blocks = before ++ b :: after →
        (∀ b ∈ before, ∃ chunk, b.merged = .ok chunk) → b.merged = .error e →
        chunks lines = before.map Block.merged ++ [.error e])) ∧
    (∀ before line after, Sse.isIgnored line = true ∨ accepted? line = none →
      chunks (before ++ .ok line :: after) = chunks (before ++ after)) := by
  refine ⟨?_, fun d hd => ⟨fun hok => ?_, fun before b after e hblocks hok he => ?_⟩, ?_⟩
  · obtain ⟨⟨d, hd⟩, -⟩ := Division.exists_of (accepted lines)
    exact ⟨d, hd, fun d' hd' => hd'.unique hd⟩
  · rw [chunks_eq_windowsFrom]
    exact hd.windowsFrom_eq_of_ok hok _
  · rw [chunks_eq_windowsFrom]
    exact hd.windowsFrom_eq_of_error hblocks hok he _
  · rintro before line after (hignored | hnone)
    · refine chunks_append_cons_of_accepted?_eq_none before after ?_
      rw [accepted?, data?_eq_none_of_isIgnored hignored]
      rfl
    · exact chunks_append_cons_of_accepted?_eq_none before after hnone

end ModelClient.Wire
