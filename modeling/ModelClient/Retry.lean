import ModelClient.Json.Decode
import ModelClient.Error

/-!
# Retry policies

How often a failed attempt is repeated and how long to wait before the next one. The wait grows by a
factor from attempt to attempt, up to a limit. It is kept in whole nanoseconds and the product with
the factor is exact, rounded once. Only a product below zero is judged as the clock judges it, in
seconds in double precision: one that rounds to nothing is no wait, any other is a fault.

Every wait is stretched or shortened by a random jitter of up to a quarter, but it is not shorter
than what the service asks for. No wait is longer than `longestWait`, whoever asks for it.
-/

namespace ModelClient

open Json Json.Decode

/-- The longest that anyone can wait, in milliseconds: thirty years of 365 days. -/
def longestWait : Nat := 30 * 365 * 24 * 60 * 60 * 1000

/-- How failed attempts are repeated. -/
structure RetryPolicy where
  /-- The number of attempts, the first one included. -/
  maxAttempts : UInt32
  /-- The wait after the first attempt, in milliseconds. -/
  initialBackoff : UInt64
  /-- The longest wait, in milliseconds. -/
  maxBackoff : UInt64
  multiplier : Binary64
  /-- How many listeners are told about the attempts. -/
  listeners : Nat := 0
deriving DecidableEq, Repr

namespace RetryPolicy

/-- Three attempts, with waits that double from half a second up to half a minute. -/
def standard : RetryPolicy := ⟨3, 500, 30000, Binary64.ofNat 2, 0⟩

/-- Many attempts with short waits of one length. -/
def short : RetryPolicy := ⟨10, 100, 100, Binary64.ofNat 1, 0⟩

/-- A single attempt. -/
def single : RetryPolicy := ⟨1, 0, 0, Binary64.ofNat 1, 0⟩

/-- The policy as JSON. -/
def toJson (p : RetryPolicy) : Json :=
  record [("initial_backoff", some (.nat p.initialBackoff.toNat)),
    ("max_attempts", some (.nat p.maxAttempts.toNat)),
    ("max_backoff", some (.nat p.maxBackoff.toNat)), ("multiplier", some (.float p.multiplier))]

/-- Reads a policy; what is not given is as in `standard`. -/
def decode : Decoder RetryPolicy := fun d => do
  let r ← d.record? ["max_attempts", "initial_backoff", "max_backoff", "multiplier"]
  some {
    maxAttempts := ← r.defaulted "max_attempts" standard.maxAttempts uint32
    initialBackoff := ← r.defaulted "initial_backoff" standard.initialBackoff uint64
    maxBackoff := ← r.defaulted "max_backoff" standard.maxBackoff uint64
    multiplier := ← r.defaulted "multiplier" standard.multiplier binary64 }

/-- Nanoseconds in a millisecond. -/
def millisecond : Nat := 10 ^ 6

/-- The wait before the second attempt, in nanoseconds. -/
def firstBackoff (p : RetryPolicy) : Nat := p.initialBackoff.toNat * millisecond

/-- The longest wait, in nanoseconds. -/
def longestBackoff (p : RetryPolicy) : Nat := p.maxBackoff.toNat * millisecond

/-- A wait of so many nanoseconds in seconds, in double precision. The whole seconds and the rest
are rounded on their own, and so is their sum. -/
def seconds (backoff : Nat) : Binary64 :=
  (Binary64.ofNat (backoff / 10 ^ 9)).add (.ofFraction false (backoff % 10 ^ 9) (10 ^ 9))

/-- Whether a wait times a factor is nothing in seconds in double precision. -/
def isNegligible (backoff : Nat) (factor : Binary64) : Bool :=
  ((seconds backoff).mul factor).pattern == 0

/-- The wait after the one of `backoff` nanoseconds: the product with the factor, or the limit if
that is less. An infinite product gives the limit, and so does one that is no number. There is no
negative wait, but a negative product that is negligible is no wait at all. -/
def nextBackoff? (p : RetryPolicy) (backoff : Nat) : Option Nat :=
  let m := p.multiplier
  if m.isNaN || (!m.isFinite && backoff == 0) then some p.longestBackoff
  else if !m.isFinite then if m.negative then none else some p.longestBackoff
  else
    let (n, d) := m.magnitude
    if m.negative then if isNegligible backoff m then some 0 else none
    else if p.longestBackoff * d ≤ backoff * n then some p.longestBackoff
    else some (Binary.roundHalfEven (backoff * n) d)

end RetryPolicy

/-- A wait between two attempts, in nanoseconds: the policy's wait, and the least that the service
asks for. -/
structure Pause where
  backoff : Nat
  atLeast : Nat
deriving DecidableEq, Repr

namespace Pause

/-- The wait after an error. -/
def after (backoff : Nat) : Error → Pause
  | .rateLimited (some ms) => ⟨backoff, ms * RetryPolicy.millisecond⟩
  | _ => ⟨backoff, 0⟩

/-- The length of the wait under a jitter: not less than what the service asks for, and not more
than anyone can wait. -/
def length (p : Pause) (jitter : Rat) : Rat :=
  let longest : Rat := (longestWait * RetryPolicy.millisecond : Nat)
  let jittered : Rat := p.backoff * jitter
  let wait : Rat := if jittered ≤ p.atLeast then p.atLeast else jittered
  if wait ≤ longest then wait else longest

end Pause

/-- What a listener is told: which attempt has failed and will be repeated, or that an attempt has
succeeded after so many repetitions. -/
inductive RetryNotice where
  | retrying (attempt : Nat) (e : Error)
  | succeeded (retries : Nat)
deriving DecidableEq

end ModelClient
