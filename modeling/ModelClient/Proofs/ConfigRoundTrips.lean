import ModelClient.Config.Environment
import ModelClient.Proofs.Layering
import ModelClient.Proofs.WireRoundTrips

/-!
# Configurations round-trip

A configuration that was read, and in which variables of the environment may have taken the place
of settings, is written and read again. It comes back as it was but for one setting. The embedding
options leave out a model that is not set, and options without one are read as if they had the
standard one; so a document that sets the model to `null` loses that, unless the environment names a
model. The other tables agree with their readers: addresses and keys are written as `null`, image
options are read without standard ones, and chat options have been laid over the standard ones
before, so that doing it again changes nothing (`ChatLayer.onto_standardOptions`).

What is written and read again stays so under every variable that takes the place of a setting
(`Config.Touches.kept`), and a whole overlay is followed variable by variable (`Config.Overlays`).

## Main statements

* `Config.round_trip_iff`: what a configuration is read back as, and when it is the same.
-/

namespace ModelClient

open Json Json.Decode

/-! ## What a document gives -/

namespace Json

/-- What holds of the value of a field and not of its default is told by what stands at the end of a
way through the document of the field. -/
theorem Doc.iff_at?_of_defaulted {α : Type} {P : α → Prop} {names : List String} {name : String}
    {path : List (List String × String)} {d found : Doc} {r : Record} {default value : α}
    {read : Decoder α} (hname : name ∈ names) (hr : d.record? names = some r)
    (h : r.defaulted name default read = some value) (hdefault : ¬P default)
    (hread : ∀ x, read x = some value → (P value ↔ x.at? path = some found)) :
    P value ↔ d.at? ((names, name) :: path) = some found := by
  rw [Doc.at?]
  rcases Doc.given_of_defaulted hname hr h with ⟨hnone, rfl⟩ | ⟨x, hx, hvalue⟩
  · rw [hnone]
    exact iff_of_false hdefault (Option.some_ne_none _).symm
  · rw [hx]
    exact hread x hvalue

/-- A value is missing exactly if the document gives `null` for it. -/
theorem Decode.eq_none_iff_of_nullable {α : Type} {read : Decoder α} {d : Doc} {value : Option α}
    (h : Decode.nullable read d = some value) : value = none ↔ d = .null := by
  unfold Decode.nullable at h
  split at h
  · cases h
    exact iff_of_true rfl rfl
  · next hne =>
    obtain ⟨a, -, rfl⟩ := Option.map_eq_some_iff.1 h
    exact iff_of_false (Option.some_ne_none a) hne

end Json

/-! ## Options -/

namespace Json.Decode

/-- A set of names is read back from the list of its names. -/
theorem reads_nameSet (s : NameSet) : Reads nameSet (.arr (s.names.map .str)) s where
  ne_null h := by cases h
  decode_eq w hw := by
    have hnames : NameSet.ofList s.names = s := NameSet.ext_mem fun _ => NameSet.mem_names_ofList
    show (list string w.toDoc).map NameSet.ofList = some s
    rw [(reads_list fun s _ => reads_str s).decode_eq w hw, Option.map_some, hnames]

end Json.Decode

namespace ChatLayer

/-- Options that are written and read again: the parts that a document gave are read back, and there
are no tools that run here, which are not written. -/
structure Kept (l : ChatLayer) : Prop where
  temperature : ∀ x ∈ l.temperature, Reads binary64 (.float x) x
  topP : ∀ x ∈ l.topP, Reads binary64 (.float x) x
  tools : ∀ ts ∈ l.tools,
    Reads (list Wire.ToolDefinition.decode) (.arr (ts.map Wire.ToolDefinition.toJson)) ts
  callbacks : l.callbacks = []

/-- Options that are kept are read back. -/
theorem Kept.reads_toJson {l : ChatLayer} (h : l.Kept) : Reads decode l.toJson l := by
  refine reads_record (by simp) (fun _ => rfl) fun r hr => ?_
  have hmodel := (hr "model" (by decide) _ rfl).optional_map fun s _ => reads_str s
  have hmaxTokens := (hr "max_tokens" (by decide) _ rfl).optional_map fun n _ => reads_uint32 n
  have hstop := (hr "stop" (by decide) _ rfl).optional_map
    fun _ _ => reads_list fun s _ => reads_str s
  have htemperature := (hr "temperature" (by decide) _ rfl).optional_map h.temperature
  have htopP := (hr "top_p" (by decide) _ rfl).optional_map h.topP
  have htools := (hr "tools" (by decide) _ rfl).optional_map h.tools
  have htoolChoice := (hr "tool_choice" (by decide) _ rfl).optional_map fun s _ => reads_str s
  have huser := (hr "user" (by decide) _ rfl).optional_map fun s _ => reads_str s
  have hrequestId := (hr "request_id" (by decide) _ rfl).optional_map fun s _ => reads_str s
  have hdoSample := (hr "do_sample" (by decide) _ rfl).optional_map fun b _ => reads_bool b
  have hproxy := (hr "proxy_tool_calls" (by decide) _ rfl).optional_map fun b _ => reads_bool b
  have hfunctions := (hr "functions" (by decide) _ rfl).defaulted_ite NameSet.eq_empty_of_isEmpty
    fun _ => reads_nameSet _
  simp only [hmodel, hmaxTokens, hstop, htemperature, htopP, htools, htoolChoice, huser, hrequestId,
    hdoSample, hproxy, hfunctions, Option.bind_eq_bind, Option.bind_some, ← h.callbacks]

/-- Options that are written and read again over the standard ones: they have a model and a
temperature. -/
structure KeptOver (l : ChatLayer) : Prop extends l.Kept where
  model : l.model ≠ none
  hasTemperature : l.temperature ≠ none

/-- Options with a model and a temperature are as they are over the standard ones. -/
theorem onto_standardOptions {l : ChatLayer} (hmodel : l.model ≠ none)
    (htemperature : l.temperature ≠ none) : l.onto ChatModel.standardOptions = l := by
  obtain ⟨model, hmodel⟩ := Option.ne_none_iff_exists'.1 hmodel
  obtain ⟨temperature, htemperature⟩ := Option.ne_none_iff_exists'.1 htemperature
  have hfunctions : l.functions.union {} = l.functions := l.functions.union_empty
  cases l
  cases hmodel
  cases htemperature
  simpa [onto, ChatModel.standardOptions] using hfunctions

/-- Options that are kept over the standard ones are read back over them. -/
theorem KeptOver.reads_toJson {l : ChatLayer} (h : l.KeptOver) : Reads decodeOver l.toJson l := by
  refine ⟨h.toKept.reads_toJson.ne_null, fun w hw => ?_⟩
  rw [decodeOver, h.toKept.reads_toJson.decode_eq w hw, Option.map_some,
    onto_standardOptions h.model h.hasTemperature]

/-- Options from a document bring no tools along. -/
theorem callbacks_of_decode {d : Doc} {l : ChatLayer} (h : decode d = some l) :
    l.callbacks = [] := by
  iterate 13 obtain ⟨_, -, h⟩ := Option.bind_eq_some_iff.1 h
  cases h
  rfl

/-- Options from a document are kept. -/
theorem kept_of_decode {d : Doc} (hd : d.Finite) {l : ChatLayer} (h : decode d = some l) :
    l.Kept := by
  obtain ⟨r, hr, hread⟩ := readFrom_of_decode h
  have hfields := hd.of_record? hr
  exact ⟨hfields.optional roundTrips_float hread.temperature,
    hfields.optional roundTrips_float hread.topP,
    hfields.optional Wire.ToolDefinition.roundTrips.list hread.tools, callbacks_of_decode h⟩

/-- The standard options are kept over themselves. -/
theorem keptOver_standardOptions : ChatModel.standardOptions.KeptOver where
  temperature := by
    rintro _ ⟨⟩
    exact reads_float (by decide +kernel)
  topP := nofun
  tools := nofun
  callbacks := rfl
  model := nofun
  hasTemperature := nofun

/-- What holds of the options of two layers holds of those of one above the other. -/
theorem forall_mem_orElse {α : Type} {P : α → Prop} {upper lower : Option α}
    (hupper : ∀ a ∈ upper, P a) (hlower : ∀ a ∈ lower, P a) : ∀ a ∈ (upper <|> lower), P a := by
  cases upper with
  | none => exact hlower
  | some a => exact hupper

/-- An option above one that is set is set. -/
theorem orElse_some_ne_none {α : Type} (upper : Option α) (a : α) :
    (upper <|> some a) ≠ none := by
  cases upper <;> nofun

/-- What is laid over the standard options is kept over them. -/
theorem keptOver_of_decodeOver (d : Doc) (l : ChatLayer) (hd : d.Finite)
    (h : decodeOver d = some l) : l.KeptOver := by
  obtain ⟨upper, hupper, rfl⟩ := Option.map_eq_some_iff.1 h
  have hkept := kept_of_decode hd hupper
  have hstandard := keptOver_standardOptions
  exact {
    temperature := forall_mem_orElse hkept.temperature hstandard.temperature
    topP := forall_mem_orElse hkept.topP hstandard.topP
    tools := forall_mem_orElse hkept.tools hstandard.tools
    callbacks := by
      show upper.callbacks ++ ChatModel.standardOptions.callbacks = []
      rw [hkept.callbacks, hstandard.callbacks, List.append_nil]
    model := orElse_some_ne_none _ _
    hasTemperature := orElse_some_ne_none _ _ }

end ChatLayer

/-- A model that is not set is read as the standard one. -/
theorem EmbeddingLayer.reads_toJson (l : EmbeddingLayer) :
    Reads decode l.toJson { l with model := some (l.model.getD defaultModel) } :=
  reads_record (by simp) (fun _ => rfl) fun r hr => by
    have hmodel : r.defaulted "model" standard.model (Decode.nullable string) =
        some (some (l.model.getD defaultModel)) := by
      have hgives := hr "model" (by decide) _ rfl
      cases hl : l.model with
      | none =>
        rw [hl] at hgives
        rw [Record.defaulted, hgives.doc?_eq_none]
        rfl
      | some s =>
        rw [hl] at hgives
        exact hgives.defaulted_nullable (reads_str s) _
    have hdimensions :
        r.defaulted "dimensions" standard.dimensions (Decode.nullable uint32) = some l.dimensions :=
      (hr "dimensions" (by decide) _ rfl).optional_map fun n _ => reads_uint32 n
    simp only [hmodel, hdimensions, Option.bind_eq_bind, Option.bind_some]

/-- Image options are read back. -/
theorem ImageLayer.reads_toJson (l : ImageLayer) : Reads decode l.toJson l :=
  reads_record (by simp) (fun _ => rfl) fun r hr => by
    have hmodel := (hr "model" (by decide) _ rfl).optional_map fun s _ => reads_str s
    have huser := (hr "user" (by decide) _ rfl).optional_map fun s _ => reads_str s
    simp only [hmodel, huser, Option.bind_eq_bind, Option.bind_some]

namespace RetryPolicy

/-- A policy that is written and read again: the factor is read back, and there are no listeners,
which are not written. -/
structure Kept (p : RetryPolicy) : Prop where
  multiplier : Reads binary64 (.float p.multiplier) p.multiplier
  listeners : p.listeners = 0

/-- A policy that is kept is read back. -/
theorem Kept.reads_toJson {p : RetryPolicy} (h : p.Kept) : Reads decode p.toJson p := by
  refine reads_record (by simp) (fun _ => rfl) fun r hr => ?_
  have hmaxAttempts := (hr "max_attempts" (by decide) _ rfl).defaulted (reads_uint32 _)
    standard.maxAttempts
  have hinitialBackoff := (hr "initial_backoff" (by decide) _ rfl).defaulted (reads_uint64 _)
    standard.initialBackoff
  have hmaxBackoff := (hr "max_backoff" (by decide) _ rfl).defaulted (reads_uint64 _)
    standard.maxBackoff
  have hmultiplier := (hr "multiplier" (by decide) _ rfl).defaulted h.multiplier
    standard.multiplier
  simp only [hmaxAttempts, hinitialBackoff, hmaxBackoff, hmultiplier, Option.bind_eq_bind,
    Option.bind_some, ← h.listeners]

/-- The standard policy is kept. -/
theorem kept_standard : standard.Kept :=
  ⟨reads_float (by decide +kernel), rfl⟩

/-- A policy from a document is kept. -/
theorem kept_of_decode (d : Doc) (p : RetryPolicy) (hd : d.Finite) (h : decode d = some p) :
    p.Kept := by
  obtain ⟨r, hr, hread⟩ := readFrom_of_decode d p h
  refine ⟨(hd.of_record? hr).defaulted roundTrips_float kept_standard.multiplier hread.multiplier,
    ?_⟩
  iterate 5 obtain ⟨_, -, h⟩ := Option.bind_eq_some_iff.1 h
  cases h
  rfl

end RetryPolicy

/-! ## Sections -/

/-- The chat section is read back if its options are. -/
theorem ChatSection.reads_toJson {s : ChatSection} (h : s.options.KeptOver) :
    Reads decode s.toJson s := by
  refine reads_record (by simp) (fun _ => rfl) fun r hr => ?_
  have henabled := (hr "enabled" (by decide) _ rfl).defaulted (reads_bool _) true
  have hbaseUrl := (hr "base_url" (by decide) _ rfl).optional_orNull fun s _ => reads_str s
  have hapiKey := (hr "api_key" (by decide) _ rfl).optional_orNull fun s _ => reads_str s
  have hoptions : r.defaulted "options" ChatModel.standardOptions
      (fun d => (ChatLayer.decode d).map (·.onto ChatModel.standardOptions)) = some s.options :=
    (hr "options" (by decide) _ rfl).defaulted h.reads_toJson ChatModel.standardOptions
  simp only [henabled, hbaseUrl, hapiKey, hoptions, Option.bind_eq_bind, Option.bind_some]

/-- The embedding options come back with a model. -/
theorem EmbeddingSection.reads_toJson (s : EmbeddingSection) :
    Reads decode s.toJson
      { s with options.model := some (s.options.model.getD EmbeddingLayer.defaultModel) } :=
  reads_record (by simp) (fun _ => rfl) fun r hr => by
    have hmode : Reads MetadataMode.decode s.metadataMode.toJson s.metadataMode :=
      reads_choice (by cases s.metadataMode <;> rfl)
    have henabled := (hr "enabled" (by decide) _ rfl).defaulted (reads_bool _) true
    have hbaseUrl := (hr "base_url" (by decide) _ rfl).optional_orNull fun s _ => reads_str s
    have hapiKey := (hr "api_key" (by decide) _ rfl).optional_orNull fun s _ => reads_str s
    have hmetadataMode := (hr "metadata_mode" (by decide) _ rfl).defaulted hmode .embed
    have hoptions := (hr "options" (by decide) _ rfl).defaulted s.options.reads_toJson .standard
    simp only [henabled, hbaseUrl, hapiKey, hmetadataMode, hoptions, Option.bind_eq_bind,
      Option.bind_some]

/-- The image section is read back. -/
theorem ImageSection.reads_toJson (s : ImageSection) : Reads decode s.toJson s :=
  reads_record (by simp) (fun _ => rfl) fun r hr => by
    have henabled := (hr "enabled" (by decide) _ rfl).defaulted (reads_bool _) true
    have hbaseUrl := (hr "base_url" (by decide) _ rfl).optional_orNull fun s _ => reads_str s
    have hapiKey := (hr "api_key" (by decide) _ rfl).optional_orNull fun s _ => reads_str s
    have hoptions := (hr "options" (by decide) _ rfl).defaulted s.options.reads_toJson
      { model := some ImageLayer.defaultModel }
    simp only [henabled, hbaseUrl, hapiKey, hoptions, Option.bind_eq_bind, Option.bind_some]

namespace Config

/-- A configuration whose parts are written and read again. -/
structure Kept (c : Config) : Prop where
  chat : c.chat.options.KeptOver
  retry : c.retry.Kept

/-- The configuration as it is read back: with an embedding model. -/
def readBack (c : Config) : Config :=
  { c with
    embedding.options.model :=
      some (c.embedding.options.model.getD EmbeddingLayer.defaultModel) }

/-- A configuration whose parts are kept is read back with an embedding model. -/
theorem Kept.reads_toJson {c : Config} (h : c.Kept) : Reads decode c.toJson c.readBack := by
  refine reads_record (by simp) (fun _ => rfl) fun r hr => ?_
  have hbaseUrl := (hr "base_url" (by decide) _ rfl).defaulted (reads_str _) Client.defaultBaseUrl
  have hapiKey := (hr "api_key" (by decide) _ rfl).defaulted (reads_str _) ""
  have hchat := (hr "chat" (by decide) _ rfl).defaulted (ChatSection.reads_toJson h.chat) {}
  have hembedding := (hr "embedding" (by decide) _ rfl).defaulted c.embedding.reads_toJson {}
  have himage := (hr "image" (by decide) _ rfl).defaulted c.image.reads_toJson {}
  have hretry := (hr "retry" (by decide) _ rfl).defaulted h.retry.reads_toJson .standard
  simp only [hbaseUrl, hapiKey, hchat, hembedding, himage, hretry, Option.bind_eq_bind,
    Option.bind_some]
  rfl

/-- What is read from a finite document is written and read again. -/
theorem kept_of_decode {d : Doc} (hd : d.Finite) {c : Config} (h : decode d = some c) :
    c.Kept := by
  obtain ⟨r, hr, hread⟩ := readFrom_of_decode d c h
  have hfields := hd.of_record? hr
  constructor
  · refine hfields.of_defaulted (P := fun s => s.options.KeptOver)
      ChatLayer.keptOver_standardOptions (fun e s he hs => ?_) hread.chat
    obtain ⟨r, hr, hread⟩ := ChatSection.readFrom_of_decode e s hs
    exact (he.of_record? hr).of_defaulted ChatLayer.keptOver_standardOptions
      ChatLayer.keptOver_of_decodeOver hread.options
  · exact hfields.of_defaulted RetryPolicy.kept_standard RetryPolicy.kept_of_decode hread.retry

/-! ## The environment -/

/-- What the environment gives for a name: a blank text counts as not given. -/
def given? (lookup : String → Option String) (name : String) : Option String :=
  (lookup name).filter fun value => !Text.isBlank value

/-- The variables that are given take the places of settings, one after the other. -/
inductive Overlays (lookup : String → Option String) : List Variable → Config → Config → Prop where
  | nil (c : Config) : Overlays lookup [] c c
  | skip {v : Variable} {rest : List Variable} {c c' : Config} (hnone : given? lookup v.name = none)
      (h : Overlays lookup rest c c') : Overlays lookup (v :: rest) c c'
  | set {v : Variable} {rest : List Variable} {value : String} {c next c' : Config}
      (hgiven : given? lookup v.name = some value) (hset : v.set value c = some next)
      (h : Overlays lookup rest next c') : Overlays lookup (v :: rest) c c'

variable {lookup : String → Option String}

/-- An overlay without an error. -/
theorem overlays_of_overlayFrom {vs : List Variable} {c c' : Config}
    (h : overlayFrom lookup vs c = (c', none)) : Overlays lookup vs c c' := by
  induction vs generalizing c with
  | nil =>
    cases h
    exact .nil _
  | cons v rest ih =>
    unfold overlayFrom at h
    split at h
    · next hvalue => exact .skip (by rw [given?, hvalue]; rfl) (ih h)
    · next value hvalue =>
      split at h
      · next hblank => exact .skip (by rw [given?, hvalue]; simp [hblank]) (ih h)
      · next hblank =>
        have hgiven : given? lookup v.name = some value := by
          rw [given?, hvalue]
          simp [hblank]
        split at h
        · next next hset => exact .set hgiven hset (ih h)
        · cases h

/-- What every variable keeps holds after all of them. -/
theorem Overlays.invariant {P : Config → Prop} {vs : List Variable} {c c' : Config}
    (h : Overlays lookup vs c c')
    (hset : ∀ v ∈ vs, ∀ value c next, v.set value c = some next → P c → P next) (hc : P c) :
    P c' := by
  induction h with
  | nil => exact hc
  | skip _ _ ih => exact ih (List.forall_mem_cons.1 hset).2 hc
  | set _ hnext _ ih =>
    obtain ⟨hv, hrest⟩ := List.forall_mem_cons.1 hset
    exact ih hrest (hv _ _ _ hnext hc)

/-- The variable with the name, and no other, sets what `get` gets. -/
def SetsOnly (get : Config → Option String) (name : String) (v : Variable) : Prop :=
  ∀ value c next, v.set value c = some next →
    get next = if v.name = name then some value else get c

/-- After all variables `get` gets what the environment gives for the name, or else what it got
before. -/
theorem Overlays.get_eq {get : Config → Option String} {name : String} {vs : List Variable}
    {c c' : Config} (h : Overlays lookup vs c c') (hsets : ∀ v ∈ vs, SetsOnly get name v)
    (hname : ∀ value ∈ given? lookup name, name ∈ vs.map (·.name) ∨ get c = some value) :
    get c' = (given? lookup name <|> get c) := by
  induction h with
  | nil =>
    cases hgiven : given? lookup name with
    | none => rfl
    | some value => exact (hname value hgiven).resolve_left List.not_mem_nil
  | @skip v rest c c' hnone _ ih =>
    refine ih (List.forall_mem_cons.1 hsets).2 fun value hgiven => ?_
    have hne : name ≠ v.name := by
      rintro rfl
      cases hnone.symm.trans hgiven
    exact (hname value hgiven).imp_left fun hmem => (List.mem_cons.1 hmem).resolve_left hne
  | @set v rest value c next c' hgiven hset _ ih =>
    obtain ⟨hv, hrest⟩ := List.forall_mem_cons.1 hsets
    -- The variable sets what `get` gets, and then no later one matters, or it leaves it alone.
    have hnext := hv value c next hset
    split at hnext
    · next heq =>
      rw [heq] at hgiven
      rw [ih hrest fun w hw => .inr (hnext.trans (hgiven.symm.trans hw)), hgiven]
      rfl
    · next hne =>
      have hlater : ∀ w ∈ given? lookup name, name ∈ rest.map (·.name) ∨ get next = some w := by
        intro w hw
        rw [hnext]
        exact (hname w hw).imp_left fun hmem => (List.mem_cons.1 hmem).resolve_left (Ne.symm hne)
      rw [ih hrest hlater, hnext]

/-- What a variable does to the settings that tell how a configuration is read back. -/
structure Touches (name value : String) (c next : Config) : Prop where
  chat : next.chat.options = c.chat.options ∨
    next.chat.options = { c.chat.options with model := some value }
  embedding : next.embedding.options.model =
    if name = "YTOAI_EMBEDDING_MODEL" then some value else c.embedding.options.model
  retry : next.retry = { c.retry with maxAttempts := next.retry.maxAttempts }

section Touches

variable {name : String}

/-- A variable with a text touches what setting the text touches. -/
theorem touches_text {set : String → Config → Config}
    (hset : ∀ value c, Touches name value c (set value c)) (value : String) (c next : Config)
    (h : (textVariable name set).set value c = some next) : Touches name value c next := by
  cases h
  exact hset value c

/-- A variable with a truth value touches what setting the truth value touches. -/
theorem touches_bool {set : Bool → Config → Config}
    (hset : ∀ b value c, Touches name value c (set b c)) (value : String) (c next : Config)
    (h : (boolVariable name set).set value c = some next) : Touches name value c next := by
  obtain ⟨b, -, rfl⟩ := Option.map_eq_some_iff.1 h
  exact hset b value c

/-- A variable with a number touches what setting the number touches. -/
theorem touches_number {set : UInt32 → Config → Config}
    (hset : ∀ n value c, Touches name value c (set n c)) (value : String) (c next : Config)
    (h : (numberVariable name set).set value c = some next) : Touches name value c next := by
  obtain ⟨n, -, rfl⟩ := Option.map_eq_some_iff.1 h
  exact hset n value c

/-- Most variables leave these settings as they are. -/
theorem touches_other (hname : name ≠ "YTOAI_EMBEDDING_MODEL") {value : String} {c next : Config}
    (hchat : next.chat.options = c.chat.options)
    (hembedding : next.embedding.options.model = c.embedding.options.model)
    (hretry : next.retry = { c.retry with maxAttempts := next.retry.maxAttempts }) :
    Touches name value c next :=
  ⟨.inl hchat, by rw [hembedding, if_neg hname], hretry⟩

end Touches

/-- Every variable of the environment only touches what it may. -/
theorem touches_overlaid : ∀ v ∈ overlaid, ∀ value c next, v.set value c = some next →
    Touches v.name value c next := by
  simp only [overlaid, List.forall_mem_cons]
  refine ⟨?_, ?_, ?_, ?_, ?_, ?_, ?_, ?_, ?_, ?_, ?_, ?_, ?_, ?_, ?_, ?_, ?_, nofun⟩
  · exact touches_text fun _ _ => touches_other (by decide) rfl rfl rfl
  · exact touches_text fun _ _ => touches_other (by decide) rfl rfl rfl
  · exact touches_bool fun _ _ _ => touches_other (by decide) rfl rfl rfl
  · exact touches_text fun _ _ => touches_other (by decide) rfl rfl rfl
  · exact touches_text fun _ _ => touches_other (by decide) rfl rfl rfl
  · exact touches_text fun _ _ => ⟨.inr rfl, rfl, rfl⟩
  · exact touches_bool fun _ _ _ => touches_other (by decide) rfl rfl rfl
  · exact touches_text fun _ _ => touches_other (by decide) rfl rfl rfl
  · exact touches_text fun _ _ => touches_other (by decide) rfl rfl rfl
  · exact touches_text fun _ _ => ⟨.inl rfl, rfl, rfl⟩
  · exact touches_number fun _ _ _ => touches_other (by decide) rfl rfl rfl
  · exact touches_bool fun _ _ _ => touches_other (by decide) rfl rfl rfl
  · exact touches_text fun _ _ => touches_other (by decide) rfl rfl rfl
  · exact touches_text fun _ _ => touches_other (by decide) rfl rfl rfl
  · exact touches_text fun _ _ => touches_other (by decide) rfl rfl rfl
  · exact touches_text fun _ _ => touches_other (by decide) rfl rfl rfl
  · exact touches_number fun _ _ _ => touches_other (by decide) rfl rfl rfl

/-- What is kept stays so when a variable takes the place of a setting. -/
theorem Touches.kept {name value : String} {c next : Config} (h : Touches name value c next)
    (hc : c.Kept) : next.Kept where
  chat := by
    rcases h.chat with heq | heq
    · rw [heq]
      exact hc.chat
    · rw [heq]
      exact { hc.chat with model := nofun }
  retry := by
    rw [h.retry]
    exact ⟨hc.retry.multiplier, hc.retry.listeners⟩

/-- What is written and read again stays so after an overlay. -/
theorem Kept.overlay {c c' : Config} (hc : c.Kept) (h : c.overlay lookup = (c', none)) : c'.Kept :=
  (overlays_of_overlayFrom h).invariant
    (fun v hv value c next hset => (touches_overlaid v hv value c next hset).kept) hc

/-- The embedding model after an overlay. -/
theorem embeddingModel_of_overlay {c c' : Config} (h : c.overlay lookup = (c', none)) :
    c'.embedding.options.model =
      (given? lookup "YTOAI_EMBEDDING_MODEL" <|> c.embedding.options.model) :=
  (overlays_of_overlayFrom h).get_eq
    (fun v hv value c next hset => (touches_overlaid v hv value c next hset).embedding)
    fun _ _ => .inl (by decide)

/-- An environment that gives nothing leaves a configuration as it is. -/
theorem overlay_none (c : Config) : c.overlay (fun _ => none) = (c, none) := rfl

/-! ## Reading a configuration back -/

/-- The embedding model. -/
def embeddingModel : Leaf Config :=
  .under names "embedding" (·.embedding) (.under EmbeddingSection.names "options" (·.options)
    (.field EmbeddingLayer.names "model" (Decode.nullable string) (·.model)))

/-- A configuration has no embedding model if and only if the document gives `null` for it. -/
theorem embeddingModel_eq_none_iff {d : Doc} {c : Config} (h : decode d = some c) :
    c.embedding.options.model = none ↔ d.at? embeddingModel.path = some .null := by
  obtain ⟨_, hr, hread⟩ := readFrom_of_decode d c h
  refine Doc.iff_at?_of_defaulted (P := fun s => s.options.model = none) (by decide) hr
    hread.embedding (Option.some_ne_none _) fun x hx => ?_
  obtain ⟨_, hr, hread⟩ := EmbeddingSection.readFrom_of_decode x _ hx
  refine Doc.iff_at?_of_defaulted (P := fun l => l.model = none) (by decide) hr
    hread.options (Option.some_ne_none _) fun y hy => ?_
  obtain ⟨_, hr, hread⟩ := EmbeddingLayer.readFrom_of_decode y _ hy
  refine Doc.iff_at?_of_defaulted (P := fun model => model = none) (by decide) hr
    hread.model (Option.some_ne_none _) fun z hz => ?_
  rw [Doc.at?, Option.some_inj]
  exact eq_none_iff_of_nullable hz

/-- A configuration that has an embedding model is read back as it was. -/
theorem readBack_eq_self_iff (c : Config) : c.readBack = c ↔ c.embedding.options.model ≠ none := by
  refine ⟨fun h hnone => ?_, fun h => ?_⟩
  · have hmodel := congrArg (fun c => c.embedding.options.model) h
    cases hmodel.trans hnone
  · obtain ⟨model, hmodel⟩ := Option.ne_none_iff_exists'.1 h
    rw [readBack, hmodel, Option.getD_some, ← hmodel]

/-- **Round trip.** A configuration that was read from a document of finite numbers, with the values
of the environment over it if it gives any (`overlay_none`), is read back from what it is written
as, with the standard embedding model in place of a missing one. It is the same if and only if it is
not the case that the document gives `null` for the embedding model and the environment gives none.
-/
theorem round_trip_iff {d : Doc} (hd : d.Finite) {c c' : Config} (h : decode d = some c)
    (hoverlay : c.overlay lookup = (c', none)) :
    decode c'.toJson.toDoc = some c'.readBack ∧
      (decode c'.toJson.toDoc = some c' ↔
        ¬(d.at? embeddingModel.path = some .null ∧
          given? lookup "YTOAI_EMBEDDING_MODEL" = none)) := by
  have hback : decode c'.toJson.toDoc = some c'.readBack :=
    ((kept_of_decode hd h).overlay hoverlay).reads_toJson.decode_eq _ (.refl _)
  refine ⟨hback, ?_⟩
  rw [hback, Option.some_inj, readBack_eq_self_iff, embeddingModel_of_overlay hoverlay,
    ← embeddingModel_eq_none_iff h]
  cases given? lookup "YTOAI_EMBEDDING_MODEL" <;> simp

end Config

namespace NullModel

/-- A document that gives `null` for the embedding model and nothing else. -/
def doc : Doc :=
  .obj .json [(some "embedding", .obj .json [(some "options",
    .obj .json [(some "model", .null)])])]

/-- The document has no numbers, so they are all finite. -/
theorem finite_doc : doc.Finite := ⟨3, by simp [doc, Doc.Fits]⟩

/-- The configuration of the document, with a model for the embeddings or without one. -/
def config (model : Option String) : Config :=
  { embedding := { options := { model, dimensions := none } } }

/-- The document gives a configuration without an embedding model. -/
theorem decode_doc : Config.decode doc = some (config none) := rfl

/-- An environment that names the embedding model. -/
def named (name : String) : Option String :=
  if name = "YTOAI_EMBEDDING_MODEL" then some "embedding-3" else none

/-- The environment sets the embedding model that the document leaves out. -/
theorem overlay_named : (config none).overlay named = (config (some "embedding-3"), none) := rfl

end NullModel

open NullModel in
/-- A model that the environment names comes back. -/
theorem Config.round_trip_named :
    Config.decode (config (some "embedding-3")).toJson.toDoc = some (config (some "embedding-3")) :=
  (round_trip_iff finite_doc decode_doc overlay_named).2.2 fun h => absurd h.2 (by decide)

open NullModel in
/-- Without a variable the configuration that has no embedding model comes back with the standard
one. -/
theorem Config.embeddingModel_restored :
    Config.decode doc = some (config none) ∧
      (config none).overlay (fun _ => none) = (config none, none) ∧
      Config.decode (config none).toJson.toDoc ≠ some (config none) := by
  refine ⟨decode_doc, overlay_none _, fun hsame => ?_⟩
  have hback := (kept_of_decode finite_doc decode_doc).reads_toJson.decode_eq _ (.refl _)
  have hmodel := (readBack_eq_self_iff _).1 (Option.some.inj (hback.symm.trans hsame))
  exact hmodel rfl

end ModelClient
