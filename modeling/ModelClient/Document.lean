import ModelClient.Json.Decode
import ModelClient.Json.Printer

/-!
# Documents

A text with metadata. Before it is embedded, the metadata that is visible in the mode at hand is
written in front of the text.
-/

namespace ModelClient

open Json Json.Decode

/-- Which metadata of a document is visible. -/
inductive MetadataMode where
  | all
  | embed
  | inference
  | none
deriving DecidableEq, Repr, Inhabited

namespace MetadataMode

/-- The mode's name. -/
def name : MetadataMode → String
  | all => "all"
  | embed => "embed"
  | inference => "inference"
  | none => "none"

/-- The mode of a name. -/
def ofName? : String → Option MetadataMode
  | "all" => some all
  | "embed" => some embed
  | "inference" => some inference
  | "none" => some none
  | _ => .none

/-- The mode of a name in capital or small letters. -/
def ofNameIgnoringCase? (s : String) : Option MetadataMode :=
  ofName? (String.ofList (s.toList.map Char.toLower))

/-- The mode as JSON. -/
def toJson (m : MetadataMode) : Json := .str m.name

/-- Reads a mode. -/
def decode : Decoder MetadataMode := choice ofName?

end MetadataMode

/-- A text with metadata, some of which is hidden in some modes. -/
structure Document where
  id : String
  content : String
  metadata : Dict Json := {}
  hiddenFromEmbedding : NameSet := {}
  hiddenFromInference : NameSet := {}
deriving DecidableEq

namespace Document

/-- Reads a document. -/
def decode : Decoder Document := fun d => do
  let r ← d.record? ["id", "content", "metadata", "excluded_embed_metadata_keys",
    "excluded_inference_metadata_keys"]
  some {
    id := ← r.required "id" string
    content := ← r.required "content" string
    metadata := ← r.defaulted "metadata" {} (dict json)
    hiddenFromEmbedding := ← r.defaulted "excluded_embed_metadata_keys" {} nameSet
    hiddenFromInference := ← r.defaulted "excluded_inference_metadata_keys" {} nameSet }

/-- Whether metadata under a name is visible. -/
def shows (d : Document) : MetadataMode → String → Bool
  | .all, _ => true
  | .embed, name => !d.hiddenFromEmbedding.contains name
  | .inference, name => !d.hiddenFromInference.contains name
  | .none, _ => false

/-- The visible metadata in ascending order of the names. -/
def visible (d : Document) (mode : MetadataMode) : List (String × Json) :=
  d.metadata.entries.filter fun (name, _) => d.shows mode name

/-- The visible metadata, a line each, then a blank line and the text; or the text alone if no
metadata is visible. -/
def format (d : Document) (mode : MetadataMode) : String :=
  match d.visible mode with
  | [] => d.content
  | entries =>
    let lines := entries.map fun (name, value) => s!"{name}: {value.plain}"
    String.intercalate "\n" lines ++ "\n\n" ++ d.content

end Document

end ModelClient
