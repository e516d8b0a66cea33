import ModelClient.Service
import ModelClient.Wire.ChatRequest
import ModelClient.Wire.Embedding
import ModelClient.Wire.Image
import ModelClient.Wire.StatusError
import ModelClient.Wire.Window

/-!
# The client

One request to the service and the reading of its answer. Requests carry the key in a header, unless
the key cannot stand in one. A request that is answered as a whole has to be answered in time; a
streamed answer may take as long as it likes.
-/

namespace ModelClient

open Json

/-- A key and the address it is used at. Times are in milliseconds. -/
structure Client where
  baseUrl : String
  apiKey : String
  timeout : Nat := 120000
deriving DecidableEq, Repr

namespace Client

/-- The service's own address. -/
def defaultBaseUrl : String := "https://yto.bigmodel.cn/api/paas"

/-- The service's name. -/
def provider : String := "ytoai"

/-- Where chat requests go. -/
def chatPath : String := "/v4/chat/completions"

/-- Where embedding requests go. -/
def embeddingPath : String := "/v4/embeddings"

/-- Where image requests go. -/
def imagePath : String := "/v4/images/generations"

/-- A path below a base address, with a single slash between them. -/
def endpoint (baseUrl path : String) : String :=
  String.ofList (baseUrl.toList.reverse.dropWhile (· == '/')).reverse ++ path

/-- Whether a character may stand in a header value: every character but the control characters
other than tab. -/
def isHeaderChar (c : Char) : Bool := (0x20 ≤ c.toNat && c.toNat ≠ 0x7F) || c == '\t'

/-- The header value that carries a key, if the key may stand in a header. -/
def authorization? (apiKey : String) : Option String :=
  if apiKey.toList.all isHeaderChar then some ("Bearer " ++ apiKey) else none

/-- The type of every request body. -/
def contentType : String := "application/json"

/-- Sends a body to a path and waits for the answer. -/
def post (c : Client) (path : String) (body : Json) : Run Session Answer :=
  Session.send {
    url := endpoint c.baseUrl path
    contentType
    authorization := authorization? c.apiKey
    body }

/-- Whether a status stands for success. -/
def isSuccess (status : Nat) : Bool := 200 ≤ status && status ≤ 299

/-- The blank bytes of a body: space, tab, line feed, form feed and carriage return. -/
def isBlankByte (b : UInt8) : Bool := b == 32 || b == 9 || b == 10 || b == 12 || b == 13

/-- The error of an answer with an error status. A body that breaks off counts as empty. -/
def statusError (status : Nat) (pieces : List (List UInt8)) (breaksOff : Bool) : Error :=
  .ofStatus status (if breaksOff then "" else Text.decodeLossy pieces.flatten)

/-- The value of an answer's whole body; a blank body has none. -/
def readBody {α : Type} (decode : Decoder α) (status : Nat) (pieces : List (List UInt8))
    (breaksOff : Bool) : Except Error (Option α) :=
  if !isSuccess status then .error (statusError status pieces breaksOff)
  else if breaksOff then .error .network
  else
    let body := pieces.flatten
    if body.all isBlankByte then .ok none
    else match Doc.parse? (Text.decode body) >>= decode with
      | some value => .ok (some value)
      | none => .error .serialization

/-- Sends a body and reads the answer, within the time allowed. -/
def request {α : Type} (c : Client) (path : String) (body : Json) (decode : Decoder α) :
    Run Session (Option α) := do
  match ← c.post path body with
  | .reply status pieces breaksOff => .ofExcept (readBody decode status pieces breaksOff)
  | .drop => .fail .network
  | .hang => .fail (.timeout c.timeout)

/-- Asks for a whole completion. An empty answer has none. -/
def complete (c : Client) (request : Wire.ChatRequest) : Run Session (Option Wire.Completion) :=
  if request.stream then
    .fail (.invalidArgument "Request must set the stream property to false")
  else c.request chatPath request.toJson Wire.Completion.decode

/-- The chunks of a streamed answer that arrives in pieces. -/
def chunks (pieces : List (List UInt8)) (breaksOff : Bool) : List (Except Error Wire.Chunk) :=
  Wire.chunks (Sse.lines (pieces.map .ok ++ if breaksOff then [.error .network] else []))

/-- Asks for a streamed completion. -/
def stream (c : Client) (request : Wire.ChatRequest) :
    Run Session (List (Except Error Wire.Chunk)) := do
  if !request.stream then
    .fail (.invalidArgument "Request must set the stream property to true")
  else match ← c.post chatPath request.toJson with
    | .reply status pieces breaksOff =>
      if isSuccess status then return chunks pieces breaksOff
      else .fail (statusError status pieces breaksOff)
    | .drop => .fail .network
    | .hang => .halt .stalled

/-- Asks for the embedding of a text. An empty answer has none. -/
def embed (c : Client) (request : Wire.EmbeddingRequest) :
    Run Session (Option Wire.EmbeddingList) :=
  if request.input = "" then .fail (.invalidArgument "Embedding input must not be empty")
  else c.request embeddingPath request.toJson Wire.EmbeddingList.decode

/-- Asks for images. An empty answer has none. -/
def draw (c : Client) (request : Wire.ImageRequest) : Run Session (Option Wire.ImageResponse) :=
  if request.prompt = "" then .fail (.invalidArgument "Prompt cannot be empty")
  else c.request imagePath request.toJson Wire.ImageResponse.decode

/-- The result of work that takes `work` milliseconds of waiting, if `limit` milliseconds are
allowed for it. Work that ends with the limit is in time. -/
def within {α : Type} (limit work : Nat) (result : Except Error α) : Except Error α :=
  if min work longestWait ≤ limit then result else .error (.timeout limit)

end Client

end ModelClient
