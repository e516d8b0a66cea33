import ModelClient.Proofs.Reassembly

/-!
# The latest values of merged chunks

Apart from the tool calls, a merged chunk has of every field the last value that is not missing
(`latest?`). That a whole level is missing, a choice or its delta, says nothing about the fields
below it: merging with nothing keeps them, and merging two levels takes the later value of each. The
two defaults, the empty text and the role of the assistant, come in when two deltas are merged; they
stand where nothing was given, so they cover up no value that comes before or after.

`Folds` says what values of which some may be missing are merged to. It is carried from one value to
the next (`Folds.concat`), for the deltas of choices and for the choices of chunks.

## Main statements

* `mergeAll_latest`: the fields of merged chunks.
-/

namespace ModelClient.Wire

/-! ## Levels that may be missing -/

/-- Two values that may be missing, merged if neither is. -/
def mergeWith {α : Type} (merge : α → α → Except Error α) :
    Option α → Option α → Except Error (Option α)
  | some previous, some current => some <$> merge previous current
  | previous, current => .ok (current <|> previous)

/-- Deltas that may be missing are merged as deltas, if neither is. -/
theorem mergeDeltas_eq : mergeDeltas = mergeWith Message.merge := by
  funext previous current
  cases previous <;> cases current <;> rfl

/-- Choices that may be missing are merged as choices, if neither is. -/
theorem mergeChoices_eq : mergeChoices = mergeWith ChunkChoice.merge := by
  funext previous current
  cases previous <;> cases current <;> rfl

/-- What some values are merged to: nothing if there are none, and else a value that is related to
them. -/
structure Folds {α : Type} (Related : List α → α → Prop) (values : List α) (merged : Option α) :
    Prop where
  eq_none_iff : merged = none ↔ values = []
  related : ∀ a ∈ merged, Related values a

namespace Folds

variable {α : Type} {Related : List α → α → Prop} {merge : α → α → Except Error α}
  {values : List α} {previous current merged : Option α}

/-- Nothing is merged to nothing. -/
theorem nil : Folds Related [] none := ⟨by simp, nofun⟩

/-- A value that may be missing is merged to itself. -/
theorem singleton (hsingle : ∀ a, Related [a] a) (a? : Option α) :
    Folds Related a?.toList a? := by
  cases a? with
  | none => exact nil
  | some a => exact ⟨by simp, by simpa using hsingle a⟩

/-- One more value, which may be missing. -/
theorem concat (hsingle : ∀ a, Related [a] a)
    (hmerge : ∀ values a current b, values ≠ [] → Related values a → merge a current = .ok b →
      Related (values ++ [current]) b)
    (h : Folds Related values previous) (hok : mergeWith merge previous current = .ok merged) :
    Folds Related (values ++ current.toList) merged := by
  match previous, current with
  | none, current =>
    obtain rfl := h.eq_none_iff.1 rfl
    have hmerged : current = merged := by
      cases current <;> cases hok <;> rfl
    exact hmerged ▸ singleton hsingle current
  | some a, none =>
    cases hok
    rwa [Option.toList_none, List.append_nil]
  | some a, some current =>
    have hne : values ≠ [] := fun hnil => nomatch h.eq_none_iff.2 hnil
    rw [mergeWith, ← bind_pure_comp] at hok
    obtain ⟨b, hboth, hok⟩ := exists_of_bind_eq_ok hok
    cases hok
    exact ⟨by simp, by simpa using hmerge values a current b hne (h.related a rfl) hboth⟩

end Folds

/-- A later value of a field comes before the latest one so far. -/
theorem latest?_map_concat {α β : Type} (field : α → Option β) (values : List α) (value : α) :
    latest? ((values ++ [value]).map field) = (field value <|> latest? (values.map field)) := by
  rw [List.map_append, List.map_singleton, latest?_concat]

/-! ## Deltas -/

/-- A delta has the latest values of some deltas. One by itself is left as it is; of two and more
the content and the role are given, if need be by default. -/
structure LatestDelta (deltas : List Message) (delta : Message) : Prop where
  name_eq : delta.name = latest? (deltas.map Message.name)
  toolCallId_eq : delta.toolCallId = latest? (deltas.map Message.toolCallId)
  eq_of_single : ∀ single, deltas = [single] → delta = single
  content_eq : 2 ≤ deltas.length →
    delta.content = some ((latest? (deltas.map Message.content)).getD (.text ""))
  role_eq : 2 ≤ deltas.length →
    delta.role = some ((latest? (deltas.map Message.role)).getD .assistant)

namespace LatestDelta

/-- A delta by itself has its own values. -/
theorem singleton (delta : Message) : LatestDelta [delta] delta where
  name_eq := (latest?_singleton _).symm
  toolCallId_eq := (latest?_singleton _).symm
  eq_of_single _ h := (List.cons.inj h).1
  content_eq h := absurd h (by simp)
  role_eq h := absurd h (by simp)

variable {deltas : List Message} {previous current merged : Message}

/-- A field with a default. What was merged so far has the latest value or the default, and the
default stands only where there is no value. -/
theorem getD_field {α : Type} {field : Message → Option α} {default : α} (hne : deltas ≠ [])
    (hsingle : ∀ single, deltas = [single] → previous = single)
    (hmore : 2 ≤ deltas.length →
      field previous = some ((latest? (deltas.map field)).getD default)) :
    (field current <|> field previous).getD default =
      (latest? ((deltas ++ [current]).map field)).getD default := by
  have hprevious : (field previous).getD default = (latest? (deltas.map field)).getD default := by
    match deltas, hne with
    | [single], _ => rw [hsingle single rfl, List.map_singleton, latest?_singleton]
    | _ :: _ :: _, _ => rw [hmore (by simp), Option.getD_some]
  rw [latest?_map_concat]
  cases field current with
  | some a => rfl
  | none => exact hprevious

/-- **Deltas.** The latest values are those of the merged delta when one more delta is merged. -/
theorem merge (hne : deltas ≠ []) (h : LatestDelta deltas previous)
    (hok : previous.merge current = .ok merged) : LatestDelta (deltas ++ [current]) merged := by
  obtain ⟨calls, -, hok⟩ := exists_of_bind_eq_ok hok
  cases hok
  exact {
    name_eq := by rw [latest?_map_concat, ← h.name_eq]
    toolCallId_eq := by rw [latest?_map_concat, ← h.toolCallId_eq]
    eq_of_single := fun single hsingle => by
      have hlength := congrArg List.length hsingle
      rw [List.length_append] at hlength
      exact absurd (List.length_eq_zero_iff.1 (Nat.succ.inj hlength)) hne
    content_eq := fun _ => congrArg some (getD_field hne h.eq_of_single h.content_eq)
    role_eq := fun _ => congrArg some (getD_field hne h.eq_of_single h.role_eq) }

end LatestDelta

/-! ## Choices -/

/-- The deltas of the choices that have one. -/
def deltasOf (choices : List ChunkChoice) : List Message := choices.filterMap ChunkChoice.delta

/-- A choice has the latest values of some choices; its delta is missing if theirs all are, and has
else the latest values of theirs. -/
structure LatestChoice (choices : List ChunkChoice) (choice : ChunkChoice) : Prop where
  finishReason_eq : choice.finishReason = latest? (choices.map ChunkChoice.finishReason)
  index_eq : choice.index = latest? (choices.map ChunkChoice.index)
  logprobs_eq : choice.logprobs = latest? (choices.map ChunkChoice.logprobs)
  delta : Folds LatestDelta (deltasOf choices) choice.delta

namespace LatestChoice

/-- The delta of a last choice comes last. -/
theorem deltasOf_concat (choices : List ChunkChoice) (choice : ChunkChoice) :
    deltasOf (choices ++ [choice]) = deltasOf choices ++ choice.delta.toList := by
  rw [deltasOf, List.filterMap_append]
  cases hdelta : choice.delta <;> simp [deltasOf, hdelta]

/-- A choice by itself has its own values. -/
theorem singleton (choice : ChunkChoice) : LatestChoice [choice] choice where
  finishReason_eq := (latest?_singleton _).symm
  index_eq := (latest?_singleton _).symm
  logprobs_eq := (latest?_singleton _).symm
  delta := by
    have h := deltasOf_concat [] choice
    rw [List.nil_append] at h
    rw [h]
    exact .singleton LatestDelta.singleton _

/-- **Choices.** The latest values are those of the merged choice when one more choice is merged. -/
theorem merge {choices : List ChunkChoice} {previous current merged : ChunkChoice}
    (h : LatestChoice choices previous) (hok : previous.merge current = .ok merged) :
    LatestChoice (choices ++ [current]) merged := by
  obtain ⟨delta, hdelta, hok⟩ := exists_of_bind_eq_ok hok
  cases hok
  rw [mergeDeltas_eq] at hdelta
  exact {
    finishReason_eq := by rw [latest?_map_concat, ← h.finishReason_eq]
    index_eq := by rw [latest?_map_concat, ← h.index_eq]
    logprobs_eq := by rw [latest?_map_concat, ← h.logprobs_eq]
    delta := by
      rw [deltasOf_concat]
      exact h.delta.concat LatestDelta.singleton (fun _ _ _ _ => LatestDelta.merge) hdelta }

end LatestChoice

/-! ## Chunks -/

/-- The first choices of the chunks that have one. -/
def firstChoices (chunks : List Chunk) : List ChunkChoice :=
  chunks.filterMap fun chunk => chunk.choices.head?

/-- A chunk has the latest values of some chunks, and of choices the latest values of their first
ones. One by itself is left with all its choices. -/
structure LatestChunk (chunks : List Chunk) (chunk : Chunk) : Prop where
  id_eq : chunk.id = latest? (chunks.map Chunk.id)
  created_eq : chunk.created = latest? (chunks.map Chunk.created)
  model_eq : chunk.model = latest? (chunks.map Chunk.model)
  systemFingerprint_eq : chunk.systemFingerprint = latest? (chunks.map Chunk.systemFingerprint)
  object_eq : chunk.object = latest? (chunks.map Chunk.object)
  choice : Folds LatestChoice (firstChoices chunks) chunk.choices.head?
  length_choices_le : 2 ≤ chunks.length → chunk.choices.length ≤ 1

namespace LatestChunk

/-- The first choice of a last chunk comes last. -/
theorem firstChoices_concat (chunks : List Chunk) (chunk : Chunk) :
    firstChoices (chunks ++ [chunk]) = firstChoices chunks ++ chunk.choices.head?.toList := by
  rw [firstChoices, List.filterMap_append]
  cases hchoice : chunk.choices.head? <;> simp [firstChoices, hchoice]

/-- A chunk by itself has its own values. -/
theorem singleton (chunk : Chunk) : LatestChunk [chunk] chunk where
  id_eq := (latest?_singleton _).symm
  created_eq := (latest?_singleton _).symm
  model_eq := (latest?_singleton _).symm
  systemFingerprint_eq := (latest?_singleton _).symm
  object_eq := (latest?_singleton _).symm
  choice := by
    have h := firstChoices_concat [] chunk
    rw [List.nil_append] at h
    rw [h]
    exact .singleton LatestChoice.singleton _
  length_choices_le h := absurd h (by simp)

/-- **Chunks.** The latest values are those of the merged chunk when one more chunk is merged. -/
theorem merge {chunks : List Chunk} {previous current merged : Chunk}
    (h : LatestChunk chunks previous) (hok : previous.merge current = .ok merged) :
    LatestChunk (chunks ++ [current]) merged := by
  obtain ⟨choice, hchoice, hok⟩ := exists_of_bind_eq_ok hok
  cases hok
  rw [mergeChoices_eq] at hchoice
  exact {
    id_eq := by rw [latest?_map_concat, ← h.id_eq]
    created_eq := by rw [latest?_map_concat, ← h.created_eq]
    model_eq := by rw [latest?_map_concat, ← h.model_eq]
    systemFingerprint_eq := by rw [latest?_map_concat, ← h.systemFingerprint_eq]
    object_eq := by rw [latest?_map_concat, ← h.object_eq]
    choice := by
      rw [firstChoices_concat, Option.head?_toList]
      exact h.choice.concat LatestChoice.singleton
        (fun _ _ _ _ _ hlatest hmerge => hlatest.merge hmerge) hchoice
    length_choices_le := fun _ => Option.length_toList_le }

end LatestChunk

/-- Merged chunks have the latest values of the chunks. -/
theorem Chunk.folds_mergeAll {chunks : List Chunk} {merged : Option Chunk}
    (h : mergeAll chunks = .ok merged) : Folds LatestChunk chunks merged := by
  induction chunks using List.reverseRecOn generalizing merged with
  | nil =>
    cases h
    exact .nil
  | append_singleton chunks chunk ih =>
    rw [mergeAll_concat] at h
    obtain ⟨previous, hprevious, h⟩ := exists_of_bind_eq_ok h
    have hmerge : mergeWith merge previous (some chunk) = .ok merged := by
      cases previous <;> exact h
    exact (ih hprevious).concat LatestChunk.singleton
      (fun _ _ _ _ _ hlatest hmerge => hlatest.merge hmerge) hmerge

/-- The only member of a list is its first one. -/
theorem mem_head?_of_mem {α : Type} {values : List α} (h : values.length ≤ 1) {a : α}
    (ha : a ∈ values) : a ∈ values.head? := by
  match values, h, ha with
  | [_], _, ha => exact congrArg some (List.mem_singleton.1 ha).symm

/-- **Latest values.** Of two and more chunks that can be merged the merged one has the last values
that are not missing: of the chunks, and in its only choice, which is there if any chunk has one, of
their first choices, and in the delta of this choice, which is there if any of these has one, of the
deltas. Content and role of merged deltas are given, if need be by default. -/
theorem mergeAll_latest {chunks : List Chunk} {result : Option Chunk} (hlength : 2 ≤ chunks.length)
    (h : Chunk.mergeAll chunks = .ok result) :
    ∃ merged, result = some merged ∧
      merged.id = latest? (chunks.map Chunk.id) ∧
      merged.created = latest? (chunks.map Chunk.created) ∧
      merged.model = latest? (chunks.map Chunk.model) ∧
      merged.systemFingerprint = latest? (chunks.map Chunk.systemFingerprint) ∧
      merged.object = latest? (chunks.map Chunk.object) ∧
      merged.choices.length ≤ 1 ∧
      (merged.choices ≠ [] ↔ ∃ chunk ∈ chunks, chunk.choices ≠ []) ∧
      ∀ choice ∈ merged.choices,
        choice.finishReason = latest? ((firstChoices chunks).map ChunkChoice.finishReason) ∧
        choice.index = latest? ((firstChoices chunks).map ChunkChoice.index) ∧
        choice.logprobs = latest? ((firstChoices chunks).map ChunkChoice.logprobs) ∧
        (choice.delta = none ↔ ∀ first ∈ firstChoices chunks, first.delta = none) ∧
        ∀ delta ∈ choice.delta, LatestDelta (deltasOf (firstChoices chunks)) delta := by
  have hfolds := Chunk.folds_mergeAll h
  cases result with
  | none =>
    rw [hfolds.eq_none_iff.1 rfl] at hlength
    exact absurd hlength (by decide)
  | some merged =>
    have hlatest := hfolds.related merged rfl
    have hle := hlatest.length_choices_le hlength
    refine ⟨merged, rfl, hlatest.id_eq, hlatest.created_eq, hlatest.model_eq,
      hlatest.systemFingerprint_eq, hlatest.object_eq, hle, ?_, fun choice hchoice => ?_⟩
    · rw [Ne, ← List.head?_eq_none_iff, hlatest.choice.eq_none_iff, firstChoices,
        List.filterMap_eq_nil_iff]
      simp
    · have hfirst := hlatest.choice.related choice (mem_head?_of_mem hle hchoice)
      refine ⟨hfirst.finishReason_eq, hfirst.index_eq, hfirst.logprobs_eq, ?_,
        hfirst.delta.related⟩
      rw [hfirst.delta.eq_none_iff, deltasOf, List.filterMap_eq_nil_iff]

/-- Of the interleaved frames only one gives a finish reason, and only one a content and a role. -/
theorem mergeAll_latest_interleaved :
    2 ≤ interleaved.length ∧ ∃ merged, Chunk.mergeAll interleaved = .ok (some merged) ∧
      merged.id = none ∧ merged.choices.length = 1 ∧ ∀ choice ∈ merged.choices,
        choice.finishReason = some .stop ∧ choice.index = none ∧
        ∀ delta ∈ choice.delta,
          delta.content = some (.text "so") ∧ delta.role = some .assistant := by
  have hlength : 2 ≤ interleaved.length := by decide
  obtain ⟨merged, hok, hsome, -⟩ := exists_mergeAll_eq_ok interleaved (by decide)
  obtain ⟨merged, rfl, hid, -, -, -, -, hle, hne, hchoices⟩ := mergeAll_latest hlength hok
  have hpos : 0 < merged.choices.length := List.length_pos_iff.2 (hne.2 (by decide))
  refine ⟨hlength, merged, hok, hid, Nat.le_antisymm hle hpos, fun choice hchoice => ?_⟩
  obtain ⟨hfinish, hindex, -, -, hdelta⟩ := hchoices choice hchoice
  exact ⟨hfinish, hindex, fun delta h =>
    ⟨(hdelta delta h).content_eq (by decide), (hdelta delta h).role_eq (by decide)⟩⟩

end ModelClient.Wire
