/-!
# Errors

Every failure of a call is an `Error`, one constructor for each cause. What a caller decides on is
derived from the cause: its category, whether another attempt may help (`Error.isRetryable`), and
what to do about it (`Error.recovery`).

Of a failure of the network, the file system or a text that does not parse only the kind is kept.
-/

namespace ModelClient

/-- A machine-readable cause, derived from the status of an answer. -/
inductive ErrorCode where
  | invalidApiKey
  | insufficientQuota
  | rateLimitExceeded
  | modelNotFound
  | invalidRequest
  | contentFiltered
  | contextLengthExceeded
  | serverError
  | serviceUnavailable
  | unknown
deriving DecidableEq, Repr

namespace ErrorCode

/-- The code closest to a status. -/
def ofStatus (status : Nat) : ErrorCode :=
  match status with
  | 400 => .invalidRequest
  | 401 | 403 => .invalidApiKey
  | 402 => .insufficientQuota
  | 404 => .modelNotFound
  | 413 => .contextLengthExceeded
  | 429 => .rateLimitExceeded
  | 451 => .contentFiltered
  | 503 => .serviceUnavailable
  | _ => if 500 ≤ status ∧ status ≤ 599 then .serverError else .unknown

/-- The code's name. -/
def name : ErrorCode → String
  | invalidApiKey => "invalid_api_key"
  | insufficientQuota => "insufficient_quota"
  | rateLimitExceeded => "rate_limit_exceeded"
  | modelNotFound => "model_not_found"
  | invalidRequest => "invalid_request"
  | contentFiltered => "content_filtered"
  | contextLengthExceeded => "context_length_exceeded"
  | serverError => "server_error"
  | serviceUnavailable => "service_unavailable"
  | unknown => "unknown"

end ErrorCode

/-- What the service says about an error beyond its message. -/
structure ErrorDetails where
  code : Option ErrorCode
  providerCode : Option String
  requestId : Option String
deriving DecidableEq, Repr

/-- The broad kind of an error. -/
inductive ErrorCategory where
  | authentication
  | rateLimit
  | network
  | timeout
  | server
  | api
  | configuration
  | serialization
  | protocol
  | toolExecution
  | unknown
deriving DecidableEq, Repr

/-- What to do about an error. -/
inductive Recovery where
  | retryWithBackoff
  | checkCredentials
  | checkConfiguration
  | increaseTimeout
  | checkToolImplementation
  | reportUnsupportedResponse
  | contactSupport
deriving DecidableEq, Repr

/-- What to do about an error of a category. -/
def ErrorCategory.recovery : ErrorCategory → Recovery
  | authentication => .checkCredentials
  | rateLimit | network | server => .retryWithBackoff
  | timeout => .increaseTimeout
  | configuration => .checkConfiguration
  | toolExecution => .checkToolImplementation
  | protocol => .reportUnsupportedResponse
  | api | serialization | unknown => .contactSupport

/-- Why an operation failed. Times are in milliseconds. -/
inductive Error where
  | configuration (message : String)
  | api (status : Nat) (message : String) (details : Option ErrorDetails)
  | network
  | io
  | serialization
  | authentication (message : String)
  | rateLimited (retryAfter : Option Nat)
  | timeout (limit : Nat)
  | stream (message : String)
  /-- A streamed frame of a shape that cannot be merged. -/
  | toolCallProtocol (message : String)
  | toolExecution (tool message : String)
  | invalidArgument (message : String)
  | invalidState (message : String)
deriving DecidableEq, Repr

namespace Error

/-- The broad kind of an error; an error status is classified by its number. -/
def category : Error → ErrorCategory
  | authentication _ => .authentication
  | rateLimited _ => .rateLimit
  | network => .network
  | timeout _ => .timeout
  | configuration _ => .configuration
  | serialization => .serialization
  | toolCallProtocol _ | stream _ => .protocol
  | api status _ _ =>
    if status = 401 ∨ status = 403 then .authentication
    else if status = 429 then .rateLimit
    else if 500 ≤ status ∧ status ≤ 599 then .server
    else .api
  | toolExecution _ _ => .toolExecution
  | io | invalidArgument _ | invalidState _ => .unknown

/-- Whether the error is transient, so that another attempt may succeed. -/
def isRetryable (e : Error) : Bool :=
  match e.category with
  | .rateLimit | .network | .timeout | .server => true
  | _ => false

/-- What to do about the error. -/
def recovery (e : Error) : Recovery := e.category.recovery

/-- The error in words. -/
def message : Error → String
  | configuration message => s!"Configuration error: {message}"
  | api status message _ => s!"API error (status {status}): {message}"
  | network => "Network error"
  | io => "IO error"
  | serialization => "Serialization error"
  | authentication message => s!"Authentication error: {message}"
  | rateLimited none => "Rate limited: retry after Nonems"
  | rateLimited (some ms) => s!"Rate limited: retry after Some({ms})ms"
  | timeout limit => s!"Timeout after {limit}ms"
  | stream message => s!"Stream error: {message}"
  | toolCallProtocol message => s!"Tool call protocol violation: {message}"
  | toolExecution tool message => s!"Tool execution error: {tool}: {message}"
  | invalidArgument message => s!"Invalid argument: {message}"
  | invalidState message => s!"Invalid state: {message}"

end Error

end ModelClient
