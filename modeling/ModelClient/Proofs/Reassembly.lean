import Mathlib.Data.List.Forall2
import Mathlib.Data.List.SplitBy
import ModelClient.Wire.Merge

/-!
# Tool calls put together from fragments

A stream spells each tool call in fragments. `segments` cuts the fragments at those that carry an
id: such a fragment starts a call and the ones without an id that follow continue it. `Assembles`
says which call a segment stands for. The main statement is `mergeAll_assembles`: merging any chunks
of which none has two calls gives the calls of the segments, one for one and in their order.

The proof follows the merge from the inside out. `continueWith` extends the last segment or starts
one, a delta adds at most one fragment that way, and choices and chunks hand the calls through.
-/

namespace ModelClient.Wire

/-- The last of some values that is not missing. -/
def latest? {α : Type} (values : List (Option α)) : Option α := (values.filterMap id).getLast?

/-- The last value is the latest one, unless it is missing. -/
theorem latest?_concat {α : Type} (values : List (Option α)) (value : Option α) :
    latest? (values ++ [value]) = (value <|> latest? values) := by
  cases value with
  | none => simp [latest?]
  | some a => simp [latest?, List.filterMap_append]

/-- A single value is the latest one. -/
theorem latest?_singleton {α : Type} (value : Option α) : latest? [value] = value := by
  cases value <;> rfl

/-- What succeeds together with what follows it succeeds by itself. -/
theorem exists_of_bind_eq_ok {α β : Type} {x : Except Error α} {f : α → Except Error β} {b : β}
    (h : x >>= f = .ok b) : ∃ a, x = .ok a ∧ f a = .ok b := by
  cases x with
  | error e => cases h
  | ok a => exact ⟨a, rfl, h⟩

/-! ## Segments of fragments -/

/-- The fragments cut in front of each one that has an id, the first one apart. -/
def segments (fragments : List ToolCall) : List (List ToolCall) :=
  fragments.splitBy fun _ next => next.id.isNone

/-- No fragment is lost, repeated or moved. -/
theorem flatten_segments (fragments : List ToolCall) : (segments fragments).flatten = fragments :=
  List.flatten_splitBy _ _

/-- A chain whose links only look at their right end. -/
theorem forall_mem_tail_of_isChain {α : Type} {p : α → Prop} {l : List α}
    (h : l.IsChain fun _ y => p y) : ∀ y ∈ l.tail, p y := by
  induction l with
  | nil => simp
  | cons x l ih =>
    obtain ⟨hhead, hchain⟩ := List.isChain_cons.1 h
    intro y hy
    cases l with
    | nil => simp at hy
    | cons z l =>
      rcases List.mem_cons.1 hy with rfl | hy
      · exact hhead y rfl
      · exact ih hchain y hy

/-- Within a segment only the first fragment may have an id. -/
theorem isNone_id_of_mem_tail (fragments : List ToolCall) :
    ∀ segment ∈ segments fragments, ∀ call ∈ segment.tail, call.id.isNone :=
  fun _ hsegment => forall_mem_tail_of_isChain (List.isChain_of_mem_splitBy hsegment)

/-- Every segment but the first one starts with an id. -/
theorem isSome_id_of_mem_head? (fragments : List ToolCall) :
    ∀ segment ∈ (segments fragments).tail, ∃ call ∈ segment.head?, call.id.isSome := by
  have hcut := List.isChain_getLast_head_splitBy (fun _ next : ToolCall => next.id.isNone) fragments
  refine forall_mem_tail_of_isChain (hcut.imp fun _ segment ⟨_, hne, hid⟩ => ?_)
  exact ⟨segment.head hne, List.head?_eq_some_head hne, by simpa using hid⟩

/-- A fragment with an id starts a segment. -/
theorem segments_concat_of_isSome (fragments : List ToolCall) {call : ToolCall}
    (h : call.id.isSome) : segments (fragments ++ [call]) = segments fragments ++ [[call]] := by
  have hcut : ∀ x ∈ fragments.getLast?, (call.id.isNone) = false := by
    intro _ _
    simpa using h
  exact List.splitBy_append_cons [] hcut

/-- A fragment without an id continues the last segment. -/
theorem segments_concat_of_isNone {fragments : List ToolCall} {front : List (List ToolCall)}
    {segment : List ToolCall} {call : ToolCall} (hseg : segments fragments = front ++ [segment])
    (h : call.id.isNone) : segments (fragments ++ [call]) = front ++ [segment ++ [call]] := by
  obtain ⟨hflat, hnil, hchain, hcut⟩ := List.splitBy_eq_iff.1 hseg
  have hne : segment ≠ [] := fun he => hnil (by simp [he])
  refine List.splitBy_eq_iff.2 ⟨?_, ?_, ?_, ?_⟩
  · simp [hflat]
  · simpa [hne] using hnil
  · intro m hm
    rcases List.mem_append.1 hm with hm | hm
    · exact hchain m (List.mem_append_left _ hm)
    · obtain rfl := List.mem_singleton.1 hm
      refine List.isChain_append.2 ⟨hchain segment (by simp), by simp, ?_⟩
      intro _ _ y hy
      obtain rfl : call = y := by simpa using hy
      exact h
  · rw [List.isChain_append] at hcut ⊢
    refine ⟨hcut.1, by simp, ?_⟩
    intro x hx y hy
    obtain rfl : segment ++ [call] = y := by simpa using hy
    -- the head of the longer segment is that of the shorter one
    obtain ⟨ha, hb, hlast⟩ := hcut.2.2 x hx segment (by simp)
    exact ⟨ha, by simp, by rwa [List.head_append_of_ne_nil hb]⟩

/-! ## The call of a segment -/

/-- The function name of a fragment. -/
def ToolCall.functionName? (call : ToolCall) : Option String :=
  call.function.bind FunctionCall.name

/-- The arguments of a fragment; a missing text is empty. -/
def ToolCall.argumentText (call : ToolCall) : String :=
  (call.function.bind FunctionCall.arguments).getD ""

/-- A call is what a segment of fragments stands for: the id is that of the first fragment, the
arguments are those of all fragments joined, and all else has its latest value. -/
structure Assembles (segment : List ToolCall) (call : ToolCall) : Prop where
  id_eq : call.id = segment.head?.bind ToolCall.id
  index_eq : call.index = latest? (segment.map ToolCall.index)
  kind_eq : call.kind = latest? (segment.map ToolCall.kind)
  functionName_eq : call.functionName? = latest? (segment.map ToolCall.functionName?)
  argumentText_eq : call.argumentText = String.join (segment.map ToolCall.argumentText)
  isSome_function : call.function.isSome = segment.any (·.function.isSome)

/-- A fragment by itself is a call. -/
theorem Assembles.singleton (call : ToolCall) : Assembles [call] call where
  id_eq := rfl
  index_eq := (latest?_singleton _).symm
  kind_eq := (latest?_singleton _).symm
  functionName_eq := (latest?_singleton _).symm
  argumentText_eq := by simp
  isSome_function := by simp

/-- A later name replaces the one so far. -/
theorem ToolCall.functionName?_merge (last call : ToolCall) :
    (last.merge call).functionName? = (call.functionName? <|> last.functionName?) := by
  simp only [functionName?, ToolCall.merge]
  cases last.function <;> cases call.function <;> simp [mergeOptions, FunctionCall.merge]

/-- Later arguments are put behind those so far. -/
theorem ToolCall.argumentText_merge (last call : ToolCall) :
    (last.merge call).argumentText = last.argumentText ++ call.argumentText := by
  simp only [argumentText, ToolCall.merge]
  cases last.function <;> cases call.function <;> simp [mergeOptions, FunctionCall.merge]

/-- A function that has been named once stays. -/
theorem ToolCall.isSome_function_merge (last call : ToolCall) :
    (last.merge call).function.isSome = (last.function.isSome || call.function.isSome) := by
  simp only [ToolCall.merge]
  cases last.function <;> cases call.function <;> simp [mergeOptions]

/-- A further fragment without an id. -/
theorem Assembles.merge {segment : List ToolCall} {last call : ToolCall}
    (h : Assembles segment last) (hne : segment ≠ []) (hid : call.id.isNone) :
    Assembles (segment ++ [call]) (last.merge call) where
  id_eq := by
    have hnone : call.id = none := Option.isNone_iff_eq_none.1 hid
    rw [List.head?_append_of_ne_nil _ hne, ← h.id_eq]
    simp [ToolCall.merge, hnone]
  index_eq := by
    rw [List.map_append, List.map_singleton, latest?_concat, ← h.index_eq]
    rfl
  kind_eq := by
    rw [List.map_append, List.map_singleton, latest?_concat, ← h.kind_eq]
    rfl
  functionName_eq := by
    rw [List.map_append, List.map_singleton, latest?_concat, ← h.functionName_eq]
    exact ToolCall.functionName?_merge last call
  argumentText_eq := by
    rw [List.map_append, List.map_singleton, String.join_append, ← h.argumentText_eq,
      ToolCall.argumentText_merge]
    simp
  isSome_function := by
    rw [List.any_append, ← h.isSome_function, ToolCall.isSome_function_merge]
    simp

/-! ## One more fragment -/

/-- A fragment with an id starts a call. -/
theorem ToolCall.continueWith_of_isSome {call : ToolCall} (h : call.id.isSome)
    (calls : List ToolCall) : call.continueWith calls = calls ++ [call] := by
  induction calls with
  | nil => rfl
  | cons first rest ih =>
    cases rest with
    | nil => simp [continueWith, h]
    | cons second rest => simpa [continueWith] using ih

/-- A fragment without an id goes on with the last call. -/
theorem ToolCall.continueWith_concat_of_isNone {call : ToolCall} (h : call.id.isNone)
    (calls : List ToolCall) (last : ToolCall) :
    call.continueWith (calls ++ [last]) = calls ++ [last.merge call] := by
  have hsome : call.id.isSome = false := by simpa using h
  induction calls with
  | nil => simp [continueWith, hsome]
  | cons first rest ih =>
    cases rest with
    | nil => simp [continueWith, hsome]
    | cons second rest => simpa [continueWith] using ih

/-- A list in step with one that has a last element has a last element too. -/
theorem forall₂_concat_left {α β : Type} {R : α → β → Prop} {front : List α} {a : α} {bs : List β}
    (h : List.Forall₂ R (front ++ [a]) bs) :
    ∃ bs' b, List.Forall₂ R front bs' ∧ R a b ∧ bs = bs' ++ [b] := by
  induction front generalizing bs with
  | nil =>
    obtain ⟨b, _, hab, hnil, rfl⟩ := List.forall₂_cons_left_iff.1 h
    obtain rfl := List.forall₂_nil_left_iff.1 hnil
    exact ⟨[], b, .nil, hab, rfl⟩
  | cons x front ih =>
    obtain ⟨y, _, hxy, hrest, rfl⟩ := List.forall₂_cons_left_iff.1 h
    obtain ⟨bs', b, hfront, hab, rfl⟩ := ih hrest
    exact ⟨y :: bs', b, .cons hxy hfront, hab, rfl⟩

/-- The calls so far stand for the segments so far, and with one more fragment they still do. -/
theorem assembles_continueWith {fragments calls : List ToolCall}
    (h : List.Forall₂ Assembles (segments fragments) calls) (call : ToolCall) :
    List.Forall₂ Assembles (segments (fragments ++ [call])) (call.continueWith calls) := by
  by_cases hid : call.id.isSome
  · -- the fragment starts a call
    rw [segments_concat_of_isSome fragments hid, call.continueWith_of_isSome hid]
    exact List.rel_append h (.cons (.singleton call) .nil)
  · have hnone : call.id.isNone := by simpa using hid
    rcases List.eq_nil_or_concat' (segments fragments) with hnil | ⟨front, segment, hseg⟩
    · -- no call so far: the fragment starts one although it has no id
      obtain rfl : fragments = [] := List.splitBy_eq_nil.1 hnil
      rw [hnil, List.forall₂_nil_left_iff] at h
      subst h
      exact .cons (.singleton call) .nil
    · -- the fragment continues the last call
      have hne : segment ≠ [] := List.ne_nil_of_mem_splitBy (by
        show segment ∈ segments fragments
        simp [hseg])
      rw [hseg] at h
      obtain ⟨calls', last, hfront, hlast, rfl⟩ := forall₂_concat_left h
      rw [segments_concat_of_isNone hseg hnone, call.continueWith_concat_of_isNone hnone]
      exact List.rel_append hfront (.cons (hlast.merge hne hnone) .nil)

/-! ## Messages, choices and chunks -/

/-- The calls so far with the fragments of a further message. -/
def extendCalls (calls fragments : List ToolCall) : List ToolCall :=
  fragments.foldl (fun calls call => call.continueWith calls) calls

/-- A single fragment is a call by itself. -/
theorem extendCalls_nil {fragments : List ToolCall} (h : fragments.length ≤ 1) :
    extendCalls [] fragments = fragments := by
  match fragments, h with
  | [], _ => rfl
  | [call], _ => rfl

/-- Messages with one fragment each merge without an error. -/
theorem mergeCalls_eq_ok {fragments : List ToolCall} (h : fragments.length ≤ 1)
    (calls : List ToolCall) : mergeCalls calls fragments = .ok (extendCalls calls fragments) := by
  match fragments, h with
  | [], _ => rfl
  | [call], _ => rfl

/-- Messages merge if the later one has no two calls, and their calls are then put together. -/
theorem Message.exists_merge_eq_ok (previous : Message) {current : Message}
    (h : current.calls.length ≤ 1) :
    ∃ merged, previous.merge current = .ok merged ∧
      merged.calls = extendCalls previous.calls current.calls := by
  rw [Message.merge, mergeCalls_eq_ok h]
  refine ⟨_, rfl, ?_⟩
  show (if _ then none else some _ : Option (List ToolCall)).getD [] = _
  by_cases hempty : extendCalls previous.calls current.calls = []
  · simp [hempty]
  · simp [hempty]

/-- The same for deltas, which may be missing. -/
theorem exists_mergeDeltas_eq_ok (previous : Option Message) {current : Option Message}
    (h : ((current.map Message.calls).getD []).length ≤ 1) :
    ∃ merged, mergeDeltas previous current = .ok merged ∧
      (merged.map Message.calls).getD [] =
        extendCalls ((previous.map Message.calls).getD [])
          ((current.map Message.calls).getD []) := by
  cases previous with
  | none => exact ⟨current, by cases current <;> rfl, (extendCalls_nil h).symm⟩
  | some previous =>
    cases current with
    | none => exact ⟨some previous, rfl, rfl⟩
    | some current =>
      obtain ⟨merged, hok, hcalls⟩ := previous.exists_merge_eq_ok h
      exact ⟨some merged, by rw [mergeDeltas, hok]; rfl, hcalls⟩

/-- The same for first choices, which may be missing. -/
theorem exists_mergeChoices_eq_ok (previous : Option ChunkChoice) {current : Option ChunkChoice}
    (h : ((current.map ChunkChoice.calls).getD []).length ≤ 1) :
    ∃ merged, mergeChoices previous current = .ok merged ∧
      (merged.map ChunkChoice.calls).getD [] =
        extendCalls ((previous.map ChunkChoice.calls).getD [])
          ((current.map ChunkChoice.calls).getD []) := by
  cases previous with
  | none => exact ⟨current, by cases current <;> rfl, (extendCalls_nil h).symm⟩
  | some previous =>
    cases current with
    | none => exact ⟨some previous, rfl, rfl⟩
    | some current =>
      obtain ⟨delta, hok, hcalls⟩ := exists_mergeDeltas_eq_ok previous.delta h
      exact ⟨some { delta, finishReason := _, index := _, logprobs := _ },
        by rw [mergeChoices, ChunkChoice.merge, hok]; rfl, hcalls⟩

/-- Chunks merge if the later one has no two calls, and their calls are then put together. -/
theorem Chunk.exists_merge_eq_ok (previous : Chunk) {current : Chunk}
    (h : current.calls.length ≤ 1) :
    ∃ merged, previous.merge current = .ok merged ∧
      merged.calls = extendCalls previous.calls current.calls := by
  obtain ⟨choice, hok, hcalls⟩ := exists_mergeChoices_eq_ok previous.choices.head? h
  refine ⟨_, by rw [Chunk.merge, hok]; rfl, ?_⟩
  simpa only [calls, Option.head?_toList] using hcalls

/-! ## Whole streams -/

/-- Chunks merged from left to right; without any chunk there is nothing to merge. -/
def Chunk.mergeAll (chunks : List Chunk) : Except Error (Option Chunk) :=
  chunks.foldlM (fun merged chunk => some <$> Chunk.mergeOnto merged chunk) none

/-- One more chunk is merged onto what was merged so far. -/
theorem Chunk.mergeAll_concat (chunks : List Chunk) (chunk : Chunk) :
    mergeAll (chunks ++ [chunk]) =
      (mergeAll chunks >>= fun merged => some <$> mergeOnto merged chunk) := by
  simp [mergeAll, List.foldlM_append]

/-- What is merged so far has a chunk as soon as there is one, and its calls are those of the
segments so far. -/
theorem exists_mergeAll_eq_ok (chunks : List Chunk) (h : ∀ chunk ∈ chunks, chunk.calls.length ≤ 1) :
    ∃ merged, Chunk.mergeAll chunks = .ok merged ∧ (chunks ≠ [] → merged.isSome) ∧
      List.Forall₂ Assembles (segments (chunks.flatMap Chunk.calls))
        ((merged.map Chunk.calls).getD []) := by
  induction chunks using List.reverseRecOn with
  | nil => exact ⟨none, rfl, fun hne => absurd rfl hne, .nil⟩
  | append_singleton chunks chunk ih =>
    obtain ⟨merged, hok, -, hcalls⟩ := ih fun c hc => h c (List.mem_append_left _ hc)
    have hchunk : chunk.calls.length ≤ 1 := h chunk (by simp)
    obtain ⟨next, hnext, hextend⟩ : ∃ next, Chunk.mergeOnto merged chunk = .ok next ∧
        next.calls = extendCalls ((merged.map Chunk.calls).getD []) chunk.calls := by
      cases merged with
      | none => exact ⟨chunk, rfl, (extendCalls_nil hchunk).symm⟩
      | some previous => exact previous.exists_merge_eq_ok hchunk
    have hmerge : Chunk.mergeAll (chunks ++ [chunk]) = .ok (some next) := by
      rw [Chunk.mergeAll_concat, hok]
      simp [bind, Except.bind, hnext]
    refine ⟨some next, hmerge, by simp, ?_⟩
    simp only [List.flatMap_append, List.flatMap_singleton, Option.map_some, Option.getD_some,
      hextend]
    match chunk.calls, hchunk with
    | [], _ => simpa [extendCalls] using hcalls
    | [call], _ => exact assembles_continueWith hcalls call

/-- **Reassembly.** Chunks of which none has two calls merge without an error. The merged calls are
those of the segments of all fragments in the order of their arrival, whatever else the chunks
carry. The segments hold each fragment once and in its place, and they begin where an id is. -/
theorem mergeAll_assembles {chunks : List Chunk} (hne : chunks ≠ [])
    (h : ∀ chunk ∈ chunks, chunk.calls.length ≤ 1) :
    ∃ merged segs, Chunk.mergeAll chunks = .ok (some merged) ∧
      List.Forall₂ Assembles segs merged.calls ∧
      segs = segments (chunks.flatMap Chunk.calls) ∧ segs.flatten = chunks.flatMap Chunk.calls ∧
      (∀ segment ∈ segs, ∀ call ∈ segment.tail, call.id.isNone) ∧
      (∀ segment ∈ segs.tail, ∃ call ∈ segment.head?, call.id.isSome) := by
  obtain ⟨merged, hok, hsome, hcalls⟩ := exists_mergeAll_eq_ok chunks h
  obtain ⟨merged, rfl⟩ := Option.isSome_iff_exists.1 (hsome hne)
  exact ⟨merged, _, hok, hcalls, rfl, flatten_segments _, isNone_id_of_mem_tail _,
    isSome_id_of_mem_head? _⟩

/-- A chunk that carries some fragments of calls and nothing else. -/
def Chunk.ofFragments (fragments : List ToolCall) : Chunk :=
  { choices := [{ delta := some { toolCalls := some fragments } }] }

/-- A stray fragment, then a call in two fragments, with frames between them that have no choice, no
delta, no call or only text. -/
def interleaved : List Chunk :=
  [.ofFragments [{ function := some { arguments := some "\x7b" } }], {},
    .ofFragments [{ id := some "a", function := some { name := some "f" } }],
    { choices := [{ finishReason := some .stop }] }, .ofFragments [],
    { choices := [{ delta := some (.ofText "so" .assistant) }] },
    .ofFragments [{ index := some 1, function := some { arguments := some "\x7d" } }]]

/-- **Interleaved text.** A call between texts is put together from its fragments. -/
theorem mergeAll_interleaved :
    interleaved ≠ [] ∧ (∀ chunk ∈ interleaved, chunk.calls.length ≤ 1) ∧
      ∃ merged, Chunk.mergeAll interleaved = .ok (some merged) ∧
        List.Forall₂ Assembles
          [[{ function := some { arguments := some "\x7b" } }],
            [{ id := some "a", function := some { name := some "f" } },
              { index := some 1, function := some { arguments := some "\x7d" } }]]
          merged.calls := by
  have hne : interleaved ≠ [] := by decide
  have h : ∀ chunk ∈ interleaved, chunk.calls.length ≤ 1 := by decide
  obtain ⟨merged, _, hok, hcalls, rfl, -⟩ := mergeAll_assembles hne h
  exact ⟨hne, h, merged, hok, hcalls⟩

end ModelClient.Wire
