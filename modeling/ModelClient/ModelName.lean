/-!
# Names of models

The models that the service is known to offer, by kind. A request may name any other model as well.
-/

namespace ModelClient

/-- A chat model. -/
inductive ChatModelName where
  | glm4
  | glm4Air
  | glm4Flash
  | glm3Turbo
deriving DecidableEq, Repr

namespace ChatModelName

/-- The model's name. -/
def name : ChatModelName → String
  | glm4 => "glm-4"
  | glm4Air => "glm-4-air"
  | glm4Flash => "glm-4-flash"
  | glm3Turbo => "glm-3-turbo"

/-- The model of a name. -/
def ofName? (s : String) : Option ChatModelName :=
  [glm4, glm4Air, glm4Flash, glm3Turbo].find? (·.name == s)

end ChatModelName

/-- An embedding model. -/
inductive EmbeddingModelName where
  | embedding2
  | embedding3
deriving DecidableEq, Repr

namespace EmbeddingModelName

/-- The model's name. -/
def name : EmbeddingModelName → String
  | embedding2 => "embedding-2"
  | embedding3 => "embedding-3"

/-- The model of a name. -/
def ofName? (s : String) : Option EmbeddingModelName :=
  [embedding2, embedding3].find? (·.name == s)

end EmbeddingModelName

/-- An image model. -/
inductive ImageModelName where
  | cogView3
deriving DecidableEq, Repr

namespace ImageModelName

/-- The model's name. -/
def name : ImageModelName → String
  | cogView3 => "cogview-3"

/-- The model of a name. -/
def ofName? (s : String) : Option ImageModelName :=
  [cogView3].find? (·.name == s)

end ImageModelName

end ModelClient
