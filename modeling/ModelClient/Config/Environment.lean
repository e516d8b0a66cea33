import ModelClient.Config

/-!
# Settings from the environment

Variables of the environment take the place of settings of a configuration. A blank variable counts
as not given. Texts are taken as they are; truth values and numbers must be spelled right, blanks
around them aside, and the first one that is not ends the overlay.
-/

namespace ModelClient

namespace Config

/-- A variable and the setting that it takes the place of; `none` if its value is not spelled right.
-/
structure Variable where
  name : String
  set : String → Config → Option Config

/-- A variable with a text. -/
def textVariable (name : String) (set : String → Config → Config) : Variable :=
  ⟨name, fun value c => some (set value c)⟩

/-- A truth value. -/
def readBool? (value : String) : Option Bool :=
  match Text.trim value with
  | "true" => some true
  | "false" => some false
  | _ => none

/-- A number of 32 bits, which may have a plus in front. -/
def readUInt32? (value : String) : Option UInt32 :=
  let ds := match (Text.trim value).toList with
    | '+' :: ds => ds
    | ds => ds
  let n := Binary.digitsValue ds
  if !ds.isEmpty ∧ ds.all Char.isDigit ∧ n < 2 ^ 32 then some (.ofNat n) else none

/-- A variable with a truth value. -/
def boolVariable (name : String) (set : Bool → Config → Config) : Variable :=
  ⟨name, fun value c => (readBool? value).map (set · c)⟩

/-- A variable with a number. -/
def numberVariable (name : String) (set : UInt32 → Config → Config) : Variable :=
  ⟨name, fun value c => (readUInt32? value).map (set · c)⟩

/-- The variables, in the order in which they are looked up. -/
def overlaid : List Variable := [
  textVariable "YTOAI_BASE_URL" fun v c => { c with baseUrl := v },
  textVariable "YTOAI_API_KEY" fun v c => { c with apiKey := v },
  boolVariable "YTOAI_CHAT_ENABLED" fun v c => { c with chat.enabled := v },
  textVariable "YTOAI_CHAT_BASE_URL" fun v c => { c with chat.baseUrl := some v },
  textVariable "YTOAI_CHAT_API_KEY" fun v c => { c with chat.apiKey := some v },
  textVariable "YTOAI_CHAT_MODEL" fun v c => { c with chat.options.model := some v },
  boolVariable "YTOAI_EMBEDDING_ENABLED" fun v c => { c with embedding.enabled := v },
  textVariable "YTOAI_EMBEDDING_BASE_URL" fun v c => { c with embedding.baseUrl := some v },
  textVariable "YTOAI_EMBEDDING_API_KEY" fun v c => { c with embedding.apiKey := some v },
  textVariable "YTOAI_EMBEDDING_MODEL" fun v c => { c with embedding.options.model := some v },
  numberVariable "YTOAI_EMBEDDING_DIMENSIONS" fun v c =>
    { c with embedding.options.dimensions := some v },
  boolVariable "YTOAI_IMAGE_ENABLED" fun v c => { c with image.enabled := v },
  textVariable "YTOAI_IMAGE_BASE_URL" fun v c => { c with image.baseUrl := some v },
  textVariable "YTOAI_IMAGE_API_KEY" fun v c => { c with image.apiKey := some v },
  textVariable "YTOAI_IMAGE_MODEL" fun v c => { c with image.options.model := some v },
  textVariable "YTOAI_IMAGE_USER" fun v c => { c with image.options.user := some v },
  numberVariable "YTOAI_RETRY_MAX_ATTEMPTS" fun v c => { c with retry.maxAttempts := v }]

/-- A variable is not spelled right. -/
def invalidValue (name value : String) : Error :=
  .configuration s!"Invalid value for {name}: {value}"

/-- The configuration with the values of some variables, and the error that ended the overlay, if
one did. What was set before the error stays. -/
def overlayFrom (lookup : String → Option String) : List Variable → Config →
    Config × Option Error
  | [], c => (c, none)
  | v :: rest, c =>
    match lookup v.name with
    | none => overlayFrom lookup rest c
    | some value =>
      if Text.isBlank value then overlayFrom lookup rest c
      else match v.set value c with
        | some c => overlayFrom lookup rest c
        | none => (c, some (invalidValue v.name value))

/-- The configuration with the values of the environment, and the error that ended the overlay, if
one did. -/
def overlay (c : Config) (lookup : String → Option String) : Config × Option Error :=
  overlayFrom lookup overlaid c

end Config

end ModelClient
