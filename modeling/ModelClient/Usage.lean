import ModelClient.Wire.Completion

/-!
# Token usage

Counts of tokens in 32 bits. A count that does not fit is a fault of the computation and not an
error of the call, so sums are `none` on overflow.
-/

namespace ModelClient

open Json Json.Decode

/-- The sum of two counts, if it fits. -/
def addCounts? (a b : UInt32) : Option UInt32 :=
  if a.toNat + b.toNat < 2 ^ 32 then some (a + b) else none

/-- Tokens used by a call. -/
structure Usage where
  promptTokens : UInt32 := 0
  generationTokens : UInt32 := 0
  totalTokens : UInt32 := 0
deriving DecidableEq, Repr, Inhabited

namespace Usage

/-- The usage of a prompt and its generation. -/
def ofCounts? (prompt generation : UInt32) : Option Usage := do
  some ⟨prompt, generation, ← addCounts? prompt generation⟩

/-- The usage that the service reports. -/
def ofWire (u : Wire.Usage) : Usage := ⟨u.promptTokens, u.completionTokens, u.totalTokens⟩

/-- Two usages together. -/
def add? (u v : Usage) : Option Usage := do
  let prompt ← addCounts? u.promptTokens v.promptTokens
  let generation ← addCounts? u.generationTokens v.generationTokens
  some ⟨prompt, generation, ← addCounts? u.totalTokens v.totalTokens⟩

/-- Whether no tokens were used. -/
def isEmpty (u : Usage) : Bool := u == {}

/-- The usage as JSON. -/
def toJson (u : Usage) : Json :=
  record [("generation_tokens", some (.nat u.generationTokens.toNat)),
    ("prompt_tokens", some (.nat u.promptTokens.toNat)),
    ("total_tokens", some (.nat u.totalTokens.toNat))]

/-- Reads a usage. -/
def decode : Decoder Usage := fun d => do
  let r ← d.record? ["prompt_tokens", "generation_tokens", "total_tokens"]
  some {
    promptTokens := ← r.required "prompt_tokens" uint32
    generationTokens := ← r.required "generation_tokens" uint32
    totalTokens := ← r.required "total_tokens" uint32 }

end Usage

end ModelClient
