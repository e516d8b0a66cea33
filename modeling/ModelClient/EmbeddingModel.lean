import ModelClient.Client
import ModelClient.Document
import ModelClient.Layer.Embedding
import ModelClient.Observation.Observe
import ModelClient.Retry.Execute

/-!
# The embedding model

The service embeds one text per request, so a list of texts becomes one request after the other. The
usage of the answers is added up; a sum that does not fit is a fault of the computation.
-/

namespace ModelClient

open Json

/-- Texts to embed. -/
structure EmbeddingCall where
  inputs : List String
  options : Option EmbeddingOptions := none
deriving DecidableEq, Repr

/-- The vector of one of the texts. -/
structure IndexedVector where
  index : Nat
  vector : List Binary32
deriving DecidableEq, Repr

/-- The vectors of some texts, the model that made them and the tokens used. -/
structure EmbeddingResponse where
  embeddings : List IndexedVector
  model : String
  usage : Usage
deriving DecidableEq, Repr

namespace EmbeddingResponse

/-- The first vector. -/
def output (r : EmbeddingResponse) : List Binary32 := (r.embeddings.head?.map (·.vector)).getD []

end EmbeddingResponse

/-- A model that embeds texts. -/
structure EmbeddingModel where
  client : Client
  metadataMode : MetadataMode
  defaults : EmbeddingLayer
  retry : RetryPolicy
  observer : Observer

namespace EmbeddingModel

/-- A model with standard options that no one watches. -/
def ofClient (client : Client) : EmbeddingModel :=
  { client, metadataMode := .embed, defaults := .standard, retry := .standard, observer := {} }

/-- What an answer says: the vector of the text and the usage so far. An answer without a vector has
an empty one, and its usage does not count. -/
def account (usage : Usage) : Option Wire.EmbeddingList → Option (List Binary32 × Usage)
  | some ⟨_, first :: _, _, reported⟩ =>
    match reported with
    | none => some (first.vector, usage)
    | some reported => (usage.add? (.ofWire reported)).map fun usage => (first.vector, usage)
  | _ => some ([], usage)

/-- Embeds texts one after the other, beginning with the usage so far. -/
def embedAll (m : EmbeddingModel) (options : EmbeddingLayer) :
    Usage → List String → Run Session (List (List Binary32) × Usage)
  | usage, [] => return ([], usage)
  | usage, input :: rest => do
    let answer ← m.retry.execute (m.client.embed (options.toRequest input))
    match account usage answer with
    | none => .halt .crashed
    | some (vector, usage) =>
      let (vectors, usage) ← m.embedAll options usage rest
      return (vector :: vectors, usage)

/-- What handlers are told about a response. -/
def summarize (r : EmbeddingResponse) : ResponseSummary :=
  { model := some r.model, usage := some r.usage }

/-- Embeds the texts of a call, of which there must be one. -/
def call (m : EmbeddingModel) (c : EmbeddingCall) : Run Session EmbeddingResponse :=
  if c.inputs.isEmpty then .fail (.invalidArgument "At least one text is required")
  else
    let options := m.defaults.merge c.options
    let context : Observation.Context :=
      { operation := .embedding, provider := Client.provider, requestOptions := options.toJson }
    observe m.observer context summarize do
      let (vectors, usage) ← m.embedAll options {} c.inputs
      return {
        embeddings := vectors.mapIdx IndexedVector.mk
        model := options.model.getD "unknown"
        usage }

/-- Embeds one text. -/
def embed (m : EmbeddingModel) (text : String) : Run Session (List Binary32) := do
  return (← m.call { inputs := [text] }).output

/-- Embeds a document with the metadata that the model shows. -/
def embedDocument (m : EmbeddingModel) (d : Document) : Run Session (List Binary32) :=
  m.embed (d.format m.metadataMode)

end EmbeddingModel

end ModelClient
