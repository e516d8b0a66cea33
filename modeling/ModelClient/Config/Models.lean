import ModelClient.ChatModel
import ModelClient.Config
import ModelClient.EmbeddingModel
import ModelClient.ImageModel

/-!
# Models of a configuration

Every section that is enabled gives a model. The model is reached at the section's own address with
its own key, where the section has them, and at the shared ones otherwise; both must be set.
-/

namespace ModelClient

/-- The models of the sections that are enabled. -/
structure Models where
  chat : Option ChatModel := none
  embedding : Option EmbeddingModel := none
  image : Option ImageModel := none

/-- What a configuration cannot say about its models. -/
structure Setup where
  /-- Tools that are registered with the chat model. -/
  tools : List Tool := []
  /-- The policy in place of the configured one. -/
  retry : Option RetryPolicy := none
  observer : Observer := {}

/-- A section's own value unless it is blank, and otherwise the shared one. -/
def Config.ownOrShared (own : Option String) (shared : String) : String :=
  match own with
  | some s => if Text.isBlank s then shared else s
  | none => shared

/-- The address and the key of a section. The address is looked at first. -/
def Config.connection (baseUrl : Option String) (sharedBaseUrl : String) (apiKey : Option String)
    (sharedApiKey : String) : Except Error Client := do
  let baseUrl := ownOrShared baseUrl sharedBaseUrl
  let apiKey := ownOrShared apiKey sharedApiKey
  if Text.isBlank baseUrl then .error (.configuration "YtoAI base URL must be set")
  else if Text.isBlank apiKey then .error (.configuration "YtoAI API key must be set")
  else .ok { baseUrl, apiKey }

namespace Models

/-- The model of a section, if it is enabled. -/
def ofSection? {α : Type} (c : Config) (enabled : Bool) (baseUrl apiKey : Option String)
    (model : Client → α) : Except Error (Option α) :=
  if enabled then
    (Config.connection baseUrl c.baseUrl apiKey c.apiKey).map fun client => some (model client)
  else .ok none

/-- The chat model of a configuration. -/
def chatModel (c : Config) (s : Setup) (client : Client) : ChatModel :=
  { ((ChatModel.ofClient client).withOptions c.chat.options).withTools s.tools with
    retry := s.retry.getD c.retry
    observer := s.observer }

/-- The embedding model of a configuration. -/
def embeddingModel (c : Config) (s : Setup) (client : Client) : EmbeddingModel :=
  { client
    metadataMode := c.embedding.metadataMode
    defaults := c.embedding.options
    retry := s.retry.getD c.retry
    observer := s.observer }

/-- The image model of a configuration. -/
def imageModel (c : Config) (s : Setup) (client : Client) : ImageModel :=
  { client
    defaults := c.image.options
    retry := s.retry.getD c.retry
    observer := s.observer }

/-- The models of a configuration. -/
def build (c : Config) (s : Setup) : Except Error Models := do
  let chat ← ofSection? c c.chat.enabled c.chat.baseUrl c.chat.apiKey (chatModel c s)
  let embedding ←
    ofSection? c c.embedding.enabled c.embedding.baseUrl c.embedding.apiKey (embeddingModel c s)
  let image ← ofSection? c c.image.enabled c.image.baseUrl c.image.apiKey (imageModel c s)
  return { chat, embedding, image }

end Models

end ModelClient
