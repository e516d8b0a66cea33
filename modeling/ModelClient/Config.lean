import ModelClient.ChatModel
import ModelClient.Document
import ModelClient.ImageModel
import ModelClient.Layer.Embedding
import ModelClient.Text.Quoted
import ModelClient.Toml.Document

/-!
# Configuration

The settings of all models: an address and a key that they share, a section for each model and a
policy for repeating failed attempts. A configuration file names the settings that differ from the
standard ones. A section may have an address and a key of its own.
-/

namespace ModelClient

open Json Json.Decode

/-- The chat section. -/
structure ChatSection where
  enabled : Bool := true
  baseUrl : Option String := none
  apiKey : Option String := none
  options : ChatLayer := ChatModel.standardOptions

namespace ChatSection

/-- The section as JSON. -/
def toJson (s : ChatSection) : Json :=
  record [("api_key", some (orNull .str s.apiKey)), ("base_url", some (orNull .str s.baseUrl)),
    ("enabled", some (.bool s.enabled)), ("options", some s.options.toJson)]

/-- Reads the section. Options that are not given are the standard ones. -/
def decode : Decoder ChatSection := fun d => do
  let r ← d.record? ["enabled", "base_url", "api_key", "options"]
  some {
    enabled := ← r.defaulted "enabled" true bool
    baseUrl := ← r.optional "base_url" string
    apiKey := ← r.optional "api_key" string
    options := ← r.defaulted "options" ChatModel.standardOptions fun d =>
      (ChatLayer.decode d).map (·.onto ChatModel.standardOptions) }

end ChatSection

/-- The embedding section. -/
structure EmbeddingSection where
  enabled : Bool := true
  baseUrl : Option String := none
  apiKey : Option String := none
  metadataMode : MetadataMode := .embed
  options : EmbeddingLayer := .standard
deriving DecidableEq, Repr

namespace EmbeddingSection

/-- The section as JSON. -/
def toJson (s : EmbeddingSection) : Json :=
  record [("api_key", some (orNull .str s.apiKey)), ("base_url", some (orNull .str s.baseUrl)),
    ("enabled", some (.bool s.enabled)), ("metadata_mode", some s.metadataMode.toJson),
    ("options", some s.options.toJson)]

/-- Reads the section. -/
def decode : Decoder EmbeddingSection := fun d => do
  let r ← d.record? ["enabled", "base_url", "api_key", "metadata_mode", "options"]
  some {
    enabled := ← r.defaulted "enabled" true bool
    baseUrl := ← r.optional "base_url" string
    apiKey := ← r.optional "api_key" string
    metadataMode := ← r.defaulted "metadata_mode" .embed MetadataMode.decode
    options := ← r.defaulted "options" .standard EmbeddingLayer.decode }

end EmbeddingSection

/-- The image section. -/
structure ImageSection where
  enabled : Bool := true
  baseUrl : Option String := none
  apiKey : Option String := none
  options : ImageLayer := { model := some ImageLayer.defaultModel }
deriving DecidableEq, Repr

namespace ImageSection

/-- The section as JSON. -/
def toJson (s : ImageSection) : Json :=
  record [("api_key", some (orNull .str s.apiKey)), ("base_url", some (orNull .str s.baseUrl)),
    ("enabled", some (.bool s.enabled)), ("options", some s.options.toJson)]

/-- Reads the section. Options that are given at all replace the standard ones altogether. -/
def decode : Decoder ImageSection := fun d => do
  let r ← d.record? ["enabled", "base_url", "api_key", "options"]
  some {
    enabled := ← r.defaulted "enabled" true bool
    baseUrl := ← r.optional "base_url" string
    apiKey := ← r.optional "api_key" string
    options := ← r.defaulted "options" { model := some ImageLayer.defaultModel }
      ImageLayer.decode }

end ImageSection

/-- The settings of all models. -/
structure Config where
  baseUrl : String := Client.defaultBaseUrl
  apiKey : String := ""
  chat : ChatSection := {}
  embedding : EmbeddingSection := {}
  image : ImageSection := {}
  retry : RetryPolicy := .standard

namespace Config

/-- The configuration as JSON. -/
def toJson (c : Config) : Json :=
  record [("api_key", some (.str c.apiKey)), ("base_url", some (.str c.baseUrl)),
    ("chat", some c.chat.toJson), ("embedding", some c.embedding.toJson),
    ("image", some c.image.toJson), ("retry", some c.retry.toJson)]

/-- Reads a configuration, in which every setting may be missing. -/
def decode : Decoder Config := fun d => do
  let r ← d.record? ["base_url", "api_key", "chat", "embedding", "image", "retry"]
  some {
    baseUrl := ← r.defaulted "base_url" Client.defaultBaseUrl string
    apiKey := ← r.defaulted "api_key" "" string
    chat := ← r.defaulted "chat" {} ChatSection.decode
    embedding := ← r.defaulted "embedding" {} EmbeddingSection.decode
    image := ← r.defaulted "image" {} ImageSection.decode
    retry := ← r.defaulted "retry" .standard RetryPolicy.decode }

/-- The configuration of a text in TOML. -/
def ofToml? (text : String) : Option Config := Toml.read? text >>= decode

/-- A secret as it may be shown: of a long one both ends, of a short one nothing. -/
def mask (secret : String) : String :=
  let cs := secret.toList
  if 8 < cs.length then String.ofList (cs.take 4 ++ ['.', '.', '.'] ++ cs.drop (cs.length - 4))
  else if cs.isEmpty then "" else "***"

/-- A secret as it is shown to people. -/
def displayed (secret : String) : String := Text.quoted (mask secret)

/-- A secret that may be missing as it is shown to people. -/
def displayed? : Option String → String
  | none => "None"
  | some secret => s!"Some({displayed secret})"

/-- The keys of a configuration as they are shown to people: the shared one, then one for each
section. -/
def shownKeys (c : Config) : List String :=
  [displayed c.apiKey, displayed? c.chat.apiKey, displayed? c.embedding.apiKey,
    displayed? c.image.apiKey]

end Config

end ModelClient
