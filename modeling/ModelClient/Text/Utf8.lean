/-!
# Bytes as characters

Decoding of UTF-8 by a machine that keeps the sequence it is in the middle of. A byte that cannot
continue the sequence ends it as invalid and is then read as the start of the next one, so each
longest run of bytes that could have begun a character counts as one invalid place. `decode` keeps
those places as `none`; `decodeLossy` puts the replacement character there.
-/

namespace ModelClient.Text

/-- The unfinished sequence of a decoder: the code point so far, how many bytes are still due, and
the range in which the next of them has to lie. -/
structure Utf8State where
  code : Nat
  due : Nat
  low : Nat
  high : Nat
deriving DecidableEq, Repr

/-- What a first byte starts: a whole character, an unfinished sequence, or an invalid place. -/
def Utf8State.start (b : Nat) : List (Option Char) × Option Utf8State :=
  if b < 0x80 then ([some (Char.ofNat b)], none)
  else if 0xC2 ≤ b ∧ b ≤ 0xDF then ([], some ⟨b - 0xC0, 1, 0x80, 0xBF⟩)
  else if b = 0xE0 then ([], some ⟨0, 2, 0xA0, 0xBF⟩)
  else if b = 0xED then ([], some ⟨0xD, 2, 0x80, 0x9F⟩)
  else if 0xE1 ≤ b ∧ b ≤ 0xEF then ([], some ⟨b - 0xE0, 2, 0x80, 0xBF⟩)
  else if b = 0xF0 then ([], some ⟨0, 3, 0x90, 0xBF⟩)
  else if 0xF1 ≤ b ∧ b ≤ 0xF3 then ([], some ⟨b - 0xF0, 3, 0x80, 0xBF⟩)
  else if b = 0xF4 then ([], some ⟨4, 3, 0x80, 0x8F⟩)
  else ([none], none)

/-- One step of the decoder: what it puts out and the sequence it is then in. -/
def Utf8State.step (state : Option Utf8State) (b : Nat) : List (Option Char) × Option Utf8State :=
  match state with
  | none => start b
  | some ⟨code, due, low, high⟩ =>
    if low ≤ b ∧ b ≤ high then
      let code := code * 64 + (b - 0x80)
      if due ≤ 1 then ([some (Char.ofNat code)], none)
      else ([], some ⟨code, due - 1, 0x80, 0xBF⟩)
    else
      let (out, next) := start b
      (none :: out, next)

/-- The characters of a byte sequence read from inside the given sequence. -/
def decodeFrom : Option Utf8State → List UInt8 → List (Option Char)
  | none, [] => []
  | some _, [] => [none]
  | state, b :: rest =>
    let (out, next) := Utf8State.step state b.toNat
    out ++ decodeFrom next rest

/-- The characters of a byte sequence, an invalid place being `none`. -/
def decode (bytes : List UInt8) : List (Option Char) :=
  decodeFrom none bytes

/-- The characters of a byte sequence, each invalid place being U+FFFD. -/
def decodeLossy (bytes : List UInt8) : String :=
  String.ofList ((decode bytes).map (·.getD '\uFFFD'))

/-- The bytes of a text. -/
def encode (s : String) : List UInt8 :=
  s.toList.flatMap String.utf8EncodeChar

end ModelClient.Text
