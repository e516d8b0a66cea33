import ModelClient.Config
import ModelClient.Proofs.Records

/-!
# Settings that a configuration leaves out

A configuration is read from a document that may leave out any setting, and a setting that is left
out should be as in the standard configuration, whatever stands next to it. A setting is described
by the way to it through the document, its reader and its place in the configuration (`Leaf`); it is
layered (`Leaf.Layered`) if it has the value that the document gives, and the standard one if the
document does not mention it. Whether it is depends on the readers of the tables on its way, one by
one: each gives a field that is missing the value that the standard table has there
(`Layers.field`, `Layers.under`). Chat options get there in another way, by being laid over the
standard ones (`ChatLayer.layers_over`).

The options of the image section do not get there: given in part, they replace the standard ones
altogether, so their user brings about that their model is lost.

## Main statements

* `Config.layered_iff`: every setting of every configuration is layered, except the image model if
  the document gives options of the image section without it.
-/

namespace ModelClient

open Json Json.Decode

/-! ## What a document gives -/

namespace Json

/-- The document of a field in a record with the fields `names`: what stands under its name, or in
an array in its place. -/
def Doc.given? (names : List String) (name : String) : Doc → Option Doc
  | .obj _ fields => fields.lookup (some name)
  | .arr _ items => items[names.idxOf name]?
  | _ => none

/-- What a document gives at the end of a way through records. -/
def Doc.at? : List (List String × String) → Doc → Option Doc
  | [], d => some d
  | (names, name) :: path, d => (d.given? names name).bind (at? path)

/-- A name stands where the item in its place stands. -/
theorem lookup_zip {names : List String} {name : String} (hname : name ∈ names) (items : List Doc) :
    (names.zip items).lookup name = items[names.idxOf name]? := by
  induction names generalizing items with
  | nil => cases hname
  | cons first rest ih =>
    cases items with
    | nil => rfl
    | cons item items =>
      rw [List.zip_cons_cons, lookup_entry]
      by_cases h : name = first
      · subst h
        simp
      · have hmem : name ∈ rest := (List.mem_cons.1 hname).resolve_left h
        rw [if_neg h, ih hmem, List.idxOf_cons_ne _ (Ne.symm h)]
        rfl

/-- A record has of its fields what the document gives. -/
theorem Doc.doc?_of_record? {names : List String} {name : String} (hname : name ∈ names) {d : Doc}
    {r : Record} (h : d.record? names = some r) : r.doc? name = d.given? names name := by
  unfold record? at h
  split at h
  · obtain ⟨known, hknown, rfl⟩ := Option.map_eq_some_iff.1 h
    exact lookup_knownFields hname hknown
  · split at h
    · cases h
      exact lookup_zip hname _
    · cases h
  · cases h
    exact lookup_zip hname _
  · cases h

/-- A field that may be missing is read from what the document gives, or has its default. -/
theorem Doc.given_of_defaulted {α : Type} {names : List String} {name : String}
    (hname : name ∈ names) {d : Doc} {r : Record} (hr : d.record? names = some r) {default value : α}
    {read : Decoder α} (h : r.defaulted name default read = some value) :
    (d.given? names name = none ∧ value = default) ∨
      ∃ x, d.given? names name = some x ∧ read x = some value := by
  rw [Record.defaulted, Doc.doc?_of_record? hname hr] at h
  cases hgiven : d.given? names name with
  | none =>
    rw [hgiven] at h
    exact .inl ⟨rfl, (Option.some.inj h).symm⟩
  | some x =>
    rw [hgiven] at h
    exact .inr ⟨x, rfl, h⟩

end Json

/-! ## Settings -/

/-- A setting of an `α`: the way to it through the document, its reader, and its place. -/
structure Leaf (α : Type) where
  Value : Type
  path : List (List String × String)
  read : Decoder Value
  get : α → Value

namespace Leaf

variable {α β : Type}

/-- The setting that is a field of a record. -/
def field {Value : Type} (names : List String) (name : String) (read : Decoder Value)
    (get : α → Value) : Leaf α :=
  ⟨Value, [(names, name)], read, get⟩

/-- The setting in a table that is a field of a record. -/
def under (names : List String) (name : String) (get : α → β) (leaf : Leaf β) : Leaf α :=
  ⟨leaf.Value, (names, name) :: leaf.path, leaf.read, leaf.get ∘ get⟩

/-- The setting is as the document gives it, unless that is `null`, and as in `standard` if the
document does not mention it. -/
def Layered (leaf : Leaf α) (standard : α) (d : Doc) (a : α) : Prop :=
  (∀ v, d.at? leaf.path = some v → v ≠ .null → leaf.read v = some (leaf.get a)) ∧
    (d.at? leaf.path = none → leaf.get a = leaf.get standard)

end Leaf

/-- Whatever document is read, the setting is layered. -/
def Layers {α : Type} (read : Decoder α) (standard : α) (leaf : Leaf α) : Prop :=
  ∀ d a, read d = some a → leaf.Layered standard d a

section Layers

variable {α β : Type} {readRecord : Decoder α} {standard : α} {names : List String} {name : String}
  {ReadFrom : Record → α → Prop}

/-- A field is layered if it has the standard value when it is missing. -/
theorem Layers.field {Value : Type} {read : Decoder Value} {get : α → Value}
    (hrecord : ∀ d a, readRecord d = some a → ∃ r, d.record? names = some r ∧ ReadFrom r a)
    (hname : name ∈ names)
    (hfield : ∀ r a, ReadFrom r a → r.defaulted name (get standard) read = some (get a)) :
    Layers readRecord standard (.field names name read get) := by
  intro d a h
  obtain ⟨r, hr, hread⟩ := hrecord d a h
  simp only [Leaf.Layered, Leaf.field, Doc.at?]
  rcases Doc.given_of_defaulted hname hr (hfield r a hread) with ⟨hnone, hvalue⟩ | ⟨x, hx, hvalue⟩
  · rw [hnone]
    exact ⟨nofun, fun _ => hvalue⟩
  · rw [hx]
    refine ⟨fun v hv _ => ?_, nofun⟩
    cases hv
    exact hvalue

/-- A setting in a table is layered if the table is the standard one when it is missing. -/
theorem Layers.under {readTable : Decoder β} {get : α → β} {leaf : Leaf β}
    (hrecord : ∀ d a, readRecord d = some a → ∃ r, d.record? names = some r ∧ ReadFrom r a)
    (hname : name ∈ names)
    (hfield : ∀ r a, ReadFrom r a → r.defaulted name (get standard) readTable = some (get a))
    (hleaf : Layers readTable (get standard) leaf) :
    Layers readRecord standard (leaf.under names name get) := by
  intro d a h
  obtain ⟨r, hr, hread⟩ := hrecord d a h
  simp only [Leaf.Layered, Leaf.under, Doc.at?, Function.comp_apply]
  rcases Doc.given_of_defaulted hname hr (hfield r a hread) with ⟨hnone, hvalue⟩ | ⟨x, hx, hvalue⟩
  · rw [hnone]
    exact ⟨nofun, fun _ => congrArg leaf.get hvalue⟩
  · rw [hx]
    exact hleaf x (get a) hvalue

end Layers

/-! ## The tables of a configuration -/

namespace ChatLayer

/-- The names of the options. -/
def names : List String :=
  ["model", "max_tokens", "stop", "temperature", "top_p", "tools", "tool_choice", "user",
    "request_id", "do_sample", "functions", "proxy_tool_calls"]

/-- The options are the ones that the record gives. -/
structure ReadFrom (r : Record) (l : ChatLayer) : Prop where
  model : r.optional "model" string = some l.model
  maxTokens : r.optional "max_tokens" uint32 = some l.maxTokens
  stop : r.optional "stop" (list string) = some l.stop
  temperature : r.optional "temperature" binary64 = some l.temperature
  topP : r.optional "top_p" binary64 = some l.topP
  tools : r.optional "tools" (list Wire.ToolDefinition.decode) = some l.tools
  toolChoice : r.optional "tool_choice" string = some l.toolChoice
  user : r.optional "user" string = some l.user
  requestId : r.optional "request_id" string = some l.requestId
  doSample : r.optional "do_sample" bool = some l.doSample
  functions : r.defaulted "functions" {} nameSet = some l.functions
  proxyToolCalls : r.optional "proxy_tool_calls" bool = some l.proxyToolCalls

/-- Options that are read are the ones of a record. -/
theorem readFrom_of_decode {d : Doc} {l : ChatLayer} (h : decode d = some l) :
    ∃ r, d.record? names = some r ∧ ReadFrom r l := by
  obtain ⟨r, hr, h⟩ := Option.bind_eq_some_iff.1 h
  obtain ⟨_, hmodel, h⟩ := Option.bind_eq_some_iff.1 h
  obtain ⟨_, hmaxTokens, h⟩ := Option.bind_eq_some_iff.1 h
  obtain ⟨_, hstop, h⟩ := Option.bind_eq_some_iff.1 h
  obtain ⟨_, htemperature, h⟩ := Option.bind_eq_some_iff.1 h
  obtain ⟨_, htopP, h⟩ := Option.bind_eq_some_iff.1 h
  obtain ⟨_, htools, h⟩ := Option.bind_eq_some_iff.1 h
  obtain ⟨_, htoolChoice, h⟩ := Option.bind_eq_some_iff.1 h
  obtain ⟨_, huser, h⟩ := Option.bind_eq_some_iff.1 h
  obtain ⟨_, hrequestId, h⟩ := Option.bind_eq_some_iff.1 h
  obtain ⟨_, hdoSample, h⟩ := Option.bind_eq_some_iff.1 h
  obtain ⟨_, hfunctions, h⟩ := Option.bind_eq_some_iff.1 h
  obtain ⟨_, hproxyToolCalls, h⟩ := Option.bind_eq_some_iff.1 h
  cases h
  exact ⟨r, hr, hmodel, hmaxTokens, hstop, htemperature, htopP, htools, htoolChoice, huser,
    hrequestId, hdoSample, hfunctions, hproxyToolCalls⟩

/-- The settings among the options. -/
def leaves : List (Leaf ChatLayer) :=
  [.field names "model" (Decode.nullable string) (·.model),
    .field names "max_tokens" (Decode.nullable uint32) (·.maxTokens),
    .field names "stop" (Decode.nullable (list string)) (·.stop),
    .field names "temperature" (Decode.nullable binary64) (·.temperature),
    .field names "top_p" (Decode.nullable binary64) (·.topP),
    .field names "tools" (Decode.nullable (list Wire.ToolDefinition.decode)) (·.tools),
    .field names "tool_choice" (Decode.nullable string) (·.toolChoice),
    .field names "user" (Decode.nullable string) (·.user),
    .field names "request_id" (Decode.nullable string) (·.requestId),
    .field names "do_sample" (Decode.nullable bool) (·.doSample),
    .field names "functions" nameSet (·.functions),
    .field names "proxy_tool_calls" (Decode.nullable bool) (·.proxyToolCalls)]

/-- Reads options that are laid over the standard ones. -/
def decodeOver : Decoder ChatLayer := fun d => (decode d).map (·.onto ChatModel.standardOptions)

/-- The options are the ones that the record gives, and standard where it gives none. -/
def ReadOver (r : Record) (l : ChatLayer) : Prop :=
  ∃ upper, ReadFrom r upper ∧ upper.onto ChatModel.standardOptions = l

/-- Options that are laid over the standard ones are read from a record and laid over them. -/
theorem readOver_of_decodeOver (d : Doc) (l : ChatLayer) (h : decodeOver d = some l) :
    ∃ r, d.record? names = some r ∧ ReadOver r l := by
  obtain ⟨upper, hupper, rfl⟩ := Option.map_eq_some_iff.1 h
  obtain ⟨r, hr, hread⟩ := readFrom_of_decode hupper
  exact ⟨r, hr, upper, hread, rfl⟩

/-- An option that is taken from the upper layer, or else from the lower one, is layered. -/
theorem layers_over {Value : Type} {read : Decoder Value} {name : String}
    {get : ChatLayer → Option Value} (hname : name ∈ names)
    (hread : ∀ r l, ReadFrom r l → r.optional name read = some (get l))
    (honto : ∀ upper lower : ChatLayer, get (upper.onto lower) = (get upper <|> get lower)) :
    Layers decodeOver ChatModel.standardOptions
      (.field names name (Decode.nullable read) get) := by
  intro d l h
  obtain ⟨r, hr, upper, hupper, rfl⟩ := readOver_of_decodeOver d l h
  simp only [Leaf.Layered, Leaf.field, Doc.at?, honto]
  rcases Doc.given_of_defaulted hname hr (hread r upper hupper) with
    ⟨hnone, hvalue⟩ | ⟨x, hx, hvalue⟩
  · rw [hnone, hvalue]
    exact ⟨nofun, fun _ => rfl⟩
  · rw [hx]
    refine ⟨fun v hv hne => ?_, nofun⟩
    cases hv
    -- What the document gives is not `null`, so the upper layer has it and the lower one is hidden.
    have hsome : ∃ value, get upper = some value := by
      cases x with
      | null => exact absurd rfl hne
      | _ =>
        obtain ⟨value, -, h⟩ := Option.map_eq_some_iff.1 hvalue
        exact ⟨value, h.symm⟩
    obtain ⟨value, h⟩ := hsome
    rw [h] at hvalue ⊢
    exact hvalue

/-- **Chat options.** Every one of them is layered over the standard ones. -/
theorem layers_leaves : ∀ leaf ∈ leaves, Layers decodeOver ChatModel.standardOptions leaf := by
  have hfunctions : Layers decodeOver ChatModel.standardOptions
      (.field names "functions" nameSet (·.functions)) := by
    refine .field readOver_of_decodeOver (by decide) fun r l ⟨upper, hupper, hl⟩ => ?_
    have hunion : l.functions = upper.functions := by
      rw [← hl]
      exact upper.functions.union_empty
    rw [hunion]
    exact hupper.functions
  simp only [leaves, List.forall_mem_cons]
  exact ⟨layers_over (by decide) (fun _ _ h => h.model) fun _ _ => rfl,
    layers_over (by decide) (fun _ _ h => h.maxTokens) fun _ _ => rfl,
    layers_over (by decide) (fun _ _ h => h.stop) fun _ _ => rfl,
    layers_over (by decide) (fun _ _ h => h.temperature) fun _ _ => rfl,
    layers_over (by decide) (fun _ _ h => h.topP) fun _ _ => rfl,
    layers_over (by decide) (fun _ _ h => h.tools) fun _ _ => rfl,
    layers_over (by decide) (fun _ _ h => h.toolChoice) fun _ _ => rfl,
    layers_over (by decide) (fun _ _ h => h.user) fun _ _ => rfl,
    layers_over (by decide) (fun _ _ h => h.requestId) fun _ _ => rfl,
    layers_over (by decide) (fun _ _ h => h.doSample) fun _ _ => rfl,
    hfunctions,
    layers_over (by decide) (fun _ _ h => h.proxyToolCalls) fun _ _ => rfl, nofun⟩

end ChatLayer

namespace ChatSection

/-- The names of the fields. -/
def names : List String := ["enabled", "base_url", "api_key", "options"]

/-- The section is the one that the record gives. -/
structure ReadFrom (r : Record) (s : ChatSection) : Prop where
  enabled : r.defaulted "enabled" true bool = some s.enabled
  baseUrl : r.optional "base_url" string = some s.baseUrl
  apiKey : r.optional "api_key" string = some s.apiKey
  options : r.defaulted "options" ChatModel.standardOptions ChatLayer.decodeOver = some s.options

/-- A chat section that is read is the one of a record. -/
theorem readFrom_of_decode (d : Doc) (s : ChatSection) (h : decode d = some s) :
    ∃ r, d.record? names = some r ∧ ReadFrom r s := by
  obtain ⟨r, hr, h⟩ := Option.bind_eq_some_iff.1 h
  obtain ⟨_, henabled, h⟩ := Option.bind_eq_some_iff.1 h
  obtain ⟨_, hbaseUrl, h⟩ := Option.bind_eq_some_iff.1 h
  obtain ⟨_, hapiKey, h⟩ := Option.bind_eq_some_iff.1 h
  obtain ⟨_, hoptions, h⟩ := Option.bind_eq_some_iff.1 h
  cases h
  exact ⟨r, hr, henabled, hbaseUrl, hapiKey, hoptions⟩

/-- The settings of the section. -/
def leaves : List (Leaf ChatSection) :=
  [.field names "enabled" bool (·.enabled),
    .field names "base_url" (Decode.nullable string) (·.baseUrl),
    .field names "api_key" (Decode.nullable string) (·.apiKey)] ++
  ChatLayer.leaves.map (.under names "options" (·.options))

/-- **The chat section.** Every setting of it is layered. -/
theorem layers_leaves : ∀ leaf ∈ leaves, Layers decode {} leaf := by
  simp only [leaves, List.forall_mem_append, List.forall_mem_cons, List.forall_mem_map]
  refine ⟨⟨?_, ?_, ?_, nofun⟩, fun leaf hleaf => ?_⟩
  · exact .field readFrom_of_decode (by decide) fun _ _ h => h.enabled
  · exact .field readFrom_of_decode (by decide) fun _ _ h => h.baseUrl
  · exact .field readFrom_of_decode (by decide) fun _ _ h => h.apiKey
  · exact .under readFrom_of_decode (by decide) (fun _ _ h => h.options)
      (ChatLayer.layers_leaves leaf hleaf)

end ChatSection

namespace EmbeddingLayer

/-- The names of the options. -/
def names : List String := ["model", "dimensions"]

/-- The options are the ones that the record gives, and standard where it gives none. -/
structure ReadFrom (r : Record) (l : EmbeddingLayer) : Prop where
  model : r.defaulted "model" standard.model (Decode.nullable string) = some l.model
  dimensions :
    r.defaulted "dimensions" standard.dimensions (Decode.nullable uint32) = some l.dimensions

/-- Embedding options that are read are the ones of a record. -/
theorem readFrom_of_decode (d : Doc) (l : EmbeddingLayer) (h : decode d = some l) :
    ∃ r, d.record? names = some r ∧ ReadFrom r l := by
  obtain ⟨r, hr, h⟩ := Option.bind_eq_some_iff.1 h
  obtain ⟨_, hmodel, h⟩ := Option.bind_eq_some_iff.1 h
  obtain ⟨_, hdimensions, h⟩ := Option.bind_eq_some_iff.1 h
  cases h
  exact ⟨r, hr, hmodel, hdimensions⟩

/-- The settings among the options. -/
def leaves : List (Leaf EmbeddingLayer) :=
  [.field names "model" (Decode.nullable string) (·.model),
    .field names "dimensions" (Decode.nullable uint32) (·.dimensions)]

/-- **Embedding options.** Every one of them is layered. -/
theorem layers_leaves : ∀ leaf ∈ leaves, Layers decode standard leaf := by
  simp only [leaves, List.forall_mem_cons]
  refine ⟨?_, ?_, nofun⟩
  · exact .field readFrom_of_decode (by decide) fun _ _ h => h.model
  · exact .field readFrom_of_decode (by decide) fun _ _ h => h.dimensions

end EmbeddingLayer

namespace EmbeddingSection

/-- The names of the fields. -/
def names : List String := ["enabled", "base_url", "api_key", "metadata_mode", "options"]

/-- The section is the one that the record gives. -/
structure ReadFrom (r : Record) (s : EmbeddingSection) : Prop where
  enabled : r.defaulted "enabled" true bool = some s.enabled
  baseUrl : r.optional "base_url" string = some s.baseUrl
  apiKey : r.optional "api_key" string = some s.apiKey
  metadataMode : r.defaulted "metadata_mode" .embed MetadataMode.decode = some s.metadataMode
  options : r.defaulted "options" .standard EmbeddingLayer.decode = some s.options

/-- An embedding section that is read is the one of a record. -/
theorem readFrom_of_decode (d : Doc) (s : EmbeddingSection) (h : decode d = some s) :
    ∃ r, d.record? names = some r ∧ ReadFrom r s := by
  obtain ⟨r, hr, h⟩ := Option.bind_eq_some_iff.1 h
  obtain ⟨_, henabled, h⟩ := Option.bind_eq_some_iff.1 h
  obtain ⟨_, hbaseUrl, h⟩ := Option.bind_eq_some_iff.1 h
  obtain ⟨_, hapiKey, h⟩ := Option.bind_eq_some_iff.1 h
  obtain ⟨_, hmetadataMode, h⟩ := Option.bind_eq_some_iff.1 h
  obtain ⟨_, hoptions, h⟩ := Option.bind_eq_some_iff.1 h
  cases h
  exact ⟨r, hr, henabled, hbaseUrl, hapiKey, hmetadataMode, hoptions⟩

/-- The settings of the section. -/
def leaves : List (Leaf EmbeddingSection) :=
  [.field names "enabled" bool (·.enabled),
    .field names "base_url" (Decode.nullable string) (·.baseUrl),
    .field names "api_key" (Decode.nullable string) (·.apiKey),
    .field names "metadata_mode" MetadataMode.decode (·.metadataMode)] ++
  EmbeddingLayer.leaves.map (.under names "options" (·.options))

/-- **The embedding section.** Every setting of it is layered. -/
theorem layers_leaves : ∀ leaf ∈ leaves, Layers decode {} leaf := by
  simp only [leaves, List.forall_mem_append, List.forall_mem_cons, List.forall_mem_map]
  refine ⟨⟨?_, ?_, ?_, ?_, nofun⟩, fun leaf hleaf => ?_⟩
  · exact .field readFrom_of_decode (by decide) fun _ _ h => h.enabled
  · exact .field readFrom_of_decode (by decide) fun _ _ h => h.baseUrl
  · exact .field readFrom_of_decode (by decide) fun _ _ h => h.apiKey
  · exact .field readFrom_of_decode (by decide) fun _ _ h => h.metadataMode
  · exact .under readFrom_of_decode (by decide) (fun _ _ h => h.options)
      (EmbeddingLayer.layers_leaves leaf hleaf)

end EmbeddingSection

namespace ImageLayer

/-- The names of the options. -/
def names : List String := ["model", "user"]

/-- The options are the ones that the record gives. -/
structure ReadFrom (r : Record) (l : ImageLayer) : Prop where
  model : r.optional "model" string = some l.model
  user : r.optional "user" string = some l.user

/-- Image options that are read are the ones of a record. -/
theorem readFrom_of_decode (d : Doc) (l : ImageLayer) (h : decode d = some l) :
    ∃ r, d.record? names = some r ∧ ReadFrom r l := by
  obtain ⟨r, hr, h⟩ := Option.bind_eq_some_iff.1 h
  obtain ⟨_, hmodel, h⟩ := Option.bind_eq_some_iff.1 h
  obtain ⟨_, huser, h⟩ := Option.bind_eq_some_iff.1 h
  cases h
  exact ⟨r, hr, hmodel, huser⟩

/-- The image model. -/
def modelLeaf : Leaf ImageLayer := .field names "model" (Decode.nullable string) (·.model)

/-- The user. -/
def userLeaf : Leaf ImageLayer := .field names "user" (Decode.nullable string) (·.user)

end ImageLayer

namespace ImageSection

/-- The names of the fields. -/
def names : List String := ["enabled", "base_url", "api_key", "options"]

/-- The section is the one that the record gives. -/
structure ReadFrom (r : Record) (s : ImageSection) : Prop where
  enabled : r.defaulted "enabled" true bool = some s.enabled
  baseUrl : r.optional "base_url" string = some s.baseUrl
  apiKey : r.optional "api_key" string = some s.apiKey
  options : r.defaulted "options" { model := some ImageLayer.defaultModel } ImageLayer.decode =
    some s.options

/-- An image section that is read is the one of a record. -/
theorem readFrom_of_decode (d : Doc) (s : ImageSection) (h : decode d = some s) :
    ∃ r, d.record? names = some r ∧ ReadFrom r s := by
  obtain ⟨r, hr, h⟩ := Option.bind_eq_some_iff.1 h
  obtain ⟨_, henabled, h⟩ := Option.bind_eq_some_iff.1 h
  obtain ⟨_, hbaseUrl, h⟩ := Option.bind_eq_some_iff.1 h
  obtain ⟨_, hapiKey, h⟩ := Option.bind_eq_some_iff.1 h
  obtain ⟨_, hoptions, h⟩ := Option.bind_eq_some_iff.1 h
  cases h
  exact ⟨r, hr, henabled, hbaseUrl, hapiKey, hoptions⟩

/-- The image model. -/
def model : Leaf ImageSection := .under names "options" (·.options) ImageLayer.modelLeaf

/-- The settings of the section. -/
def leaves : List (Leaf ImageSection) :=
  [.field names "enabled" bool (·.enabled),
    .field names "base_url" (Decode.nullable string) (·.baseUrl),
    .field names "api_key" (Decode.nullable string) (·.apiKey),
    model,
    .under names "options" (·.options) ImageLayer.userLeaf]

-- The user is layered because the standard options have none, as options have that leave it out.
/-- **The image section.** Every setting of it is layered, apart from the model. -/
theorem layers_leaves : ∀ leaf ∈ leaves, leaf = model ∨ Layers decode {} leaf := by
  simp only [leaves, List.forall_mem_cons]
  refine ⟨.inr ?_, .inr ?_, .inr ?_, .inl trivial, .inr ?_, nofun⟩
  · exact .field readFrom_of_decode (by decide) fun _ _ h => h.enabled
  · exact .field readFrom_of_decode (by decide) fun _ _ h => h.baseUrl
  · exact .field readFrom_of_decode (by decide) fun _ _ h => h.apiKey
  · exact .under readFrom_of_decode (by decide) (fun _ _ h => h.options)
      (.field ImageLayer.readFrom_of_decode (by decide) fun _ _ h => h.user)

end ImageSection

namespace RetryPolicy

/-- The names of the fields. -/
def names : List String := ["max_attempts", "initial_backoff", "max_backoff", "multiplier"]

/-- The policy is the one that the record gives, and standard where it gives nothing. -/
structure ReadFrom (r : Record) (p : RetryPolicy) : Prop where
  maxAttempts : r.defaulted "max_attempts" standard.maxAttempts uint32 = some p.maxAttempts
  initialBackoff :
    r.defaulted "initial_backoff" standard.initialBackoff uint64 = some p.initialBackoff
  maxBackoff : r.defaulted "max_backoff" standard.maxBackoff uint64 = some p.maxBackoff
  multiplier : r.defaulted "multiplier" standard.multiplier binary64 = some p.multiplier

/-- A policy that is read is the one of a record. -/
theorem readFrom_of_decode (d : Doc) (p : RetryPolicy) (h : decode d = some p) :
    ∃ r, d.record? names = some r ∧ ReadFrom r p := by
  obtain ⟨r, hr, h⟩ := Option.bind_eq_some_iff.1 h
  obtain ⟨_, hmaxAttempts, h⟩ := Option.bind_eq_some_iff.1 h
  obtain ⟨_, hinitialBackoff, h⟩ := Option.bind_eq_some_iff.1 h
  obtain ⟨_, hmaxBackoff, h⟩ := Option.bind_eq_some_iff.1 h
  obtain ⟨_, hmultiplier, h⟩ := Option.bind_eq_some_iff.1 h
  cases h
  exact ⟨r, hr, hmaxAttempts, hinitialBackoff, hmaxBackoff, hmultiplier⟩

/-- The settings of the policy. -/
def leaves : List (Leaf RetryPolicy) :=
  [.field names "max_attempts" uint32 (·.maxAttempts),
    .field names "initial_backoff" uint64 (·.initialBackoff),
    .field names "max_backoff" uint64 (·.maxBackoff),
    .field names "multiplier" binary64 (·.multiplier)]

/-- **Retry policies.** Every setting of a policy is layered. -/
theorem layers_leaves : ∀ leaf ∈ leaves, Layers decode standard leaf := by
  simp only [leaves, List.forall_mem_cons]
  refine ⟨?_, ?_, ?_, ?_, nofun⟩
  · exact .field readFrom_of_decode (by decide) fun _ _ h => h.maxAttempts
  · exact .field readFrom_of_decode (by decide) fun _ _ h => h.initialBackoff
  · exact .field readFrom_of_decode (by decide) fun _ _ h => h.maxBackoff
  · exact .field readFrom_of_decode (by decide) fun _ _ h => h.multiplier

end RetryPolicy

/-! ## The whole configuration -/

namespace Config

/-- The names of the fields. -/
def names : List String := ["base_url", "api_key", "chat", "embedding", "image", "retry"]

/-- The configuration is the one that the record gives. -/
structure ReadFrom (r : Record) (c : Config) : Prop where
  baseUrl : r.defaulted "base_url" Client.defaultBaseUrl string = some c.baseUrl
  apiKey : r.defaulted "api_key" "" string = some c.apiKey
  chat : r.defaulted "chat" {} ChatSection.decode = some c.chat
  embedding : r.defaulted "embedding" {} EmbeddingSection.decode = some c.embedding
  image : r.defaulted "image" {} ImageSection.decode = some c.image
  retry : r.defaulted "retry" .standard RetryPolicy.decode = some c.retry

/-- A configuration that is read is the one of a record. -/
theorem readFrom_of_decode (d : Doc) (c : Config) (h : decode d = some c) :
    ∃ r, d.record? names = some r ∧ ReadFrom r c := by
  obtain ⟨r, hr, h⟩ := Option.bind_eq_some_iff.1 h
  obtain ⟨_, hbaseUrl, h⟩ := Option.bind_eq_some_iff.1 h
  obtain ⟨_, hapiKey, h⟩ := Option.bind_eq_some_iff.1 h
  obtain ⟨_, hchat, h⟩ := Option.bind_eq_some_iff.1 h
  obtain ⟨_, hembedding, h⟩ := Option.bind_eq_some_iff.1 h
  obtain ⟨_, himage, h⟩ := Option.bind_eq_some_iff.1 h
  obtain ⟨_, hretry, h⟩ := Option.bind_eq_some_iff.1 h
  cases h
  exact ⟨r, hr, hbaseUrl, hapiKey, hchat, hembedding, himage, hretry⟩

/-- The image model. -/
def imageModel : Leaf Config := .under names "image" (·.image) ImageSection.model

/-- The way to the options of the image section. -/
def imageOptions : List (List String × String) := [(names, "image"), (ImageSection.names, "options")]

/-- The settings of a configuration. -/
def leaves : List (Leaf Config) :=
  [.field names "base_url" string (·.baseUrl), .field names "api_key" string (·.apiKey)] ++
  ChatSection.leaves.map (.under names "chat" (·.chat)) ++
  EmbeddingSection.leaves.map (.under names "embedding" (·.embedding)) ++
  ImageSection.leaves.map (.under names "image" (·.image)) ++
  RetryPolicy.leaves.map (.under names "retry" (·.retry))

/-- Every setting but the image model is layered. -/
theorem layers_leaves : ∀ leaf ∈ leaves, leaf = imageModel ∨ Layers decode {} leaf := by
  simp only [leaves, List.forall_mem_append, List.forall_mem_cons, List.forall_mem_map]
  refine ⟨⟨⟨⟨⟨.inr ?_, .inr ?_, nofun⟩, fun leaf h => .inr ?_⟩, fun leaf h => .inr ?_⟩,
    fun leaf h => ?_⟩, fun leaf h => .inr ?_⟩
  · exact .field readFrom_of_decode (by decide) fun _ _ h => h.baseUrl
  · exact .field readFrom_of_decode (by decide) fun _ _ h => h.apiKey
  · exact .under readFrom_of_decode (by decide) (fun _ _ h => h.chat)
      (ChatSection.layers_leaves leaf h)
  · exact .under readFrom_of_decode (by decide) (fun _ _ h => h.embedding)
      (EmbeddingSection.layers_leaves leaf h)
  · rcases ImageSection.layers_leaves leaf h with rfl | hlayers
    · exact .inl rfl
    · exact .inr (.under readFrom_of_decode (by decide) (fun _ _ h => h.image) hlayers)
  · exact .under readFrom_of_decode (by decide) (fun _ _ h => h.retry)
      (RetryPolicy.layers_leaves leaf h)

/-- The image model is layered, unless there are options of the image section without it. -/
theorem imageModel_layered_iff {d : Doc} {c : Config} (h : decode d = some c) :
    imageModel.Layered {} d c ↔
      ((d.at? imageOptions).isSome → (d.at? imageModel.path).isSome) := by
  obtain ⟨r, hr, hread⟩ := readFrom_of_decode d c h
  simp only [Leaf.Layered, imageModel, imageOptions, ImageSection.model, ImageLayer.modelLeaf,
    Leaf.under, Leaf.field, Doc.at?, Function.comp_apply]
  -- Down the way to the model: without the section or its options the model is the standard one.
  rcases Doc.given_of_defaulted (by decide) hr hread.image with ⟨hnone, himage⟩ | ⟨x, hx, himage⟩
  · rw [hnone, himage]
    exact ⟨fun _ => nofun, fun _ => ⟨nofun, fun _ => rfl⟩⟩
  rw [hx]
  obtain ⟨ri, hri, hreadi⟩ := ImageSection.readFrom_of_decode x c.image himage
  simp only [Option.bind_some]
  rcases Doc.given_of_defaulted (by decide) hri hreadi.options with
    ⟨hnone, hoptions⟩ | ⟨y, hy, hoptions⟩
  · rw [hnone, hoptions]
    exact ⟨fun _ => nofun, fun _ => ⟨nofun, fun _ => rfl⟩⟩
  rw [hy]
  obtain ⟨ro, hro, hreado⟩ := ImageLayer.readFrom_of_decode y c.image.options hoptions
  simp only [Option.bind_some]
  -- Options without a model have none, which is not the standard one.
  rcases Doc.given_of_defaulted (by decide) hro hreado.model with
    ⟨hnone, hmodel⟩ | ⟨z, hz, hmodel⟩
  · rw [hnone, hmodel]
    refine ⟨fun h => ?_, fun h => ?_⟩
    · cases h.2 rfl
    · cases h rfl
  · rw [hz]
    refine ⟨fun _ _ => rfl, fun _ => ⟨fun v hv _ => ?_, nofun⟩⟩
    cases hv
    exact hmodel

/-- **Layering.** Every setting of a configuration has the value that the document gives, unless it
is `null`, and the standard one if the document does not mention it, whatever else the document
gives; except that options of the image section without a model leave the image model open. -/
theorem layered_iff {d : Doc} {c : Config} (h : decode d = some c) {leaf : Leaf Config}
    (hleaf : leaf ∈ leaves) :
    leaf.Layered {} d c ↔
      ¬(leaf = imageModel ∧ (d.at? imageOptions).isSome ∧ d.at? imageModel.path = none) := by
  have himage : (d.at? imageOptions).isSome ∧ d.at? imageModel.path = none ↔
      ¬imageModel.Layered {} d c := by
    rw [imageModel_layered_iff h, ← Option.not_isSome_iff_eq_none, Classical.not_imp]
  rw [himage]
  refine ⟨?_, fun hnot => ?_⟩
  · rintro hlayered ⟨rfl, hnot⟩
    exact hnot hlayered
  · rcases layers_leaves leaf hleaf with rfl | hlayers
    · exact Classical.not_not.1 fun hnot' => hnot ⟨rfl, hnot'⟩
    · exact hlayers d c h

end Config

/-! ## Options that lose their model -/

namespace Layering

/-- A document that gives the image options a user and nothing else. -/
def doc : Doc :=
  .obj .json [(some "image", .obj .json [(some "options",
    .obj .json [(some "user", .str (some "someone"))])])]

/-- What is read from it: there is a user, and no model. -/
def config : Config := { image := { options := { model := none, user := some "someone" } } }

/-- The document gives the configuration. -/
theorem decode_doc : Config.decode doc = some config := rfl

end Layering

/-- The user is as the document gives it. -/
theorem Config.layered_user :
    Config.decode Layering.doc = some Layering.config ∧
      ∃ leaf ∈ Config.leaves, leaf.path = Config.imageOptions ++ [(ImageLayer.names, "user")] ∧
        leaf.Layered {} Layering.doc Layering.config := by
  let leaf : Leaf Config := .under Config.names "image" (·.image)
    (.under ImageSection.names "options" (·.options) ImageLayer.userLeaf)
  have hleaf : leaf ∈ Config.leaves := by
    simp only [Config.leaves, List.mem_append, List.mem_map]
    exact .inl (.inr ⟨_, .tail _ (.tail _ (.tail _ (.tail _ (.head _)))), rfl⟩)
  refine ⟨Layering.decode_doc, leaf, hleaf, rfl, ?_⟩
  refine (layered_iff Layering.decode_doc hleaf).2 ?_
  rintro ⟨heq, -⟩
  have hpath : leaf.path = Config.imageModel.path := congrArg Leaf.path heq
  exact absurd hpath (by decide)

/-- The document does not mention the image model, and yet it is not the standard one. -/
theorem Config.imageModel_lost :
    Config.decode Layering.doc = some Layering.config ∧
      Config.imageModel ∈ Config.leaves ∧ Layering.doc.at? Config.imageModel.path = none ∧
      ¬Config.imageModel.Layered {} Layering.doc Layering.config := by
  refine ⟨Layering.decode_doc, ?_, rfl, fun hlayered => ?_⟩
  · simp only [Config.leaves, List.mem_append, List.mem_map]
    exact .inl (.inr ⟨_, .tail _ (.tail _ (.tail _ (.head _))), rfl⟩)
  · have hmodel : none = some ImageLayer.defaultModel := hlayered.2 rfl
    cases hmodel

end ModelClient
