import ModelClient.Binary.Shortest

/-!
# Numbers of a document

A number without fraction and exponent is an integer when it fits 64 bits, signed or unsigned; every
other number is a double-precision one. `Spelling` is a number as it is spelled, checked against the
grammar of JSON, and `Spelling.number?` is the number it stands for, `none` when it is too large.

The digits of a spelling are collected into a 64-bit significand for as long as they fit; the digits
after that are dropped. The significand is then rounded to double precision and multiplied or
divided by a power of ten, which rounds once more. A spelling with few digits is therefore read as
the nearest number and one with many digits as a neighbour of it.
-/

namespace ModelClient.Json

open Binary

/-- A number of a document: an integer of 64 bits or a double-precision number. -/
inductive Number where
  | int (n : Int) (inRange : -2 ^ 63 ≤ n ∧ n < 2 ^ 64)
  | float (x : Binary64)
deriving DecidableEq

namespace Number

/-- The number of an integer, in double precision if it does not fit 64 bits. -/
def ofInt (n : Int) : Number :=
  if h : -2 ^ 63 ≤ n ∧ n < 2 ^ 64 then .int n h else .float (Binary64.ofInt n)

/-- The number of a natural number, in double precision if it does not fit 64 bits. -/
def ofNat (n : Nat) : Number := ofInt n

instance : Inhabited Number := ⟨ofNat 0⟩

/-- Numbers between `0.00001` and `10 ^ 16` are written positionally, others with an exponent that
always has a sign. -/
def style : NumeralStyle := ⟨-5, 16, 'e', ['+']⟩

/-- The text of a number. An infinite number or one that is none has no text and is written `null`.
-/
def write : Number → List Char
  | .int n _ => if n < 0 then '-' :: digitsOf n.natAbs else digitsOf n.natAbs
  | .float x =>
    if x.isFinite then
      let magnitude := Format.double.write style x.pattern
      if x.negative then '-' :: magnitude else magnitude
    else ['n', 'u', 'l', 'l']

/-- The number in double precision. -/
def toBinary64 : Number → Binary64
  | .int n _ => Binary64.ofInt n
  | .float x => x

/-- The number in single precision. -/
def toBinary32 : Number → Binary32
  | .int n _ => Binary32.ofInt n
  | .float x => Binary32.ofBinary64 x

/-- The integer, if the number is one. -/
def toInt? : Number → Option Int
  | .int n _ => some n
  | .float _ => none

end Number

/-- The value of a decimal digit. -/
def digitValue (c : Char) : Nat := c.toNat - '0'.toNat

/-- A number as it is spelled. -/
structure Spelling where
  negative : Bool
  whole : List Char
  fraction : Option (List Char)
  /-- The exponent's sign, true for a minus, and its digits. -/
  exponent : Option (Bool × List Char)
deriving DecidableEq, Repr

namespace Spelling

/-- The digits at the start of a list, of which there must be one, and what follows them. -/
def digits? (cs : List Char) : Option (List Char × List Char) :=
  let ds := cs.takeWhile Char.isDigit
  if ds.isEmpty then none else some (ds, cs.dropWhile Char.isDigit)

/-- The digits of an integer part, which has no leading zero. -/
def whole? (cs : List Char) : Option (List Char × List Char) :=
  match digits? cs with
  | some ('0' :: _ :: _, _) => none
  | found => found

/-- An optional fraction. -/
def fraction? : List Char → Option (Option (List Char) × List Char)
  | '.' :: cs => (digits? cs).map fun (ds, rest) => (some ds, rest)
  | cs => some (none, cs)

/-- An optional exponent. -/
def exponent? : List Char → Option (Option (Bool × List Char) × List Char)
  | [] => some (none, [])
  | mark :: cs =>
    if mark = 'e' ∨ mark = 'E' then
      let (negative, cs) := match cs with
        | '+' :: cs => (false, cs)
        | '-' :: cs => (true, cs)
        | cs => (false, cs)
      (digits? cs).map fun (ds, rest) => (some (negative, ds), rest)
    else some (none, mark :: cs)

/-- The spelling of a number by the grammar of JSON, which takes up all of the characters. -/
def ofChars? (cs : List Char) : Option Spelling := do
  let (negative, cs) := match cs with
    | '-' :: cs => (true, cs)
    | cs => (false, cs)
  let (whole, cs) ← whole? cs
  let (fraction, cs) ← fraction? cs
  let (exponent, cs) ← exponent? cs
  if cs.isEmpty then some ⟨negative, whole, fraction, exponent⟩ else none

/-- The digits collected onto `acc` for as long as the result is at most `limit`, and the digits
left over. -/
def collect (limit : Nat) : (acc : Nat) → List Char → Nat × List Char
  | acc, [] => (acc, [])
  | acc, d :: ds =>
    let next := acc * 10 + digitValue d
    if next ≤ limit then collect limit next ds else (acc, d :: ds)

/-- The largest significand. -/
def significandLimit : Nat := 2 ^ 64 - 1

/-- The largest exponent that is read. -/
def exponentLimit : Nat := 2 ^ 31 - 1

/-- The largest power of ten in double precision. -/
def largestPower : Nat := 308

/-- A finite number times a power of ten, `none` if it becomes infinite. Beyond the largest power
the number is divided by that power first, which brings any significand to zero within three steps.
-/
def scale : (steps : Nat) → Binary64 → (exponent : Int) → Option Binary64
  | 0, x, _ => some x
  | steps + 1, x, exponent =>
    let power (n : Nat) := Binary64.ofNat (10 ^ n)
    if exponent.natAbs ≤ largestPower then
      if 0 ≤ exponent then
        let y := x.mul (power exponent.toNat)
        if y.isFinite then some y else none
      else some (x.div (power exponent.natAbs))
    else if x.pattern = 0 then some x
    else if 0 ≤ exponent then none
    else scale steps (x.div (power largestPower)) (exponent + largestPower)

/-- The number with the given sign. -/
def signed (negative : Bool) (x : Binary64) : Binary64 :=
  Binary64.ofPattern negative x.pattern

/-- The significand and the power of ten of the spelling without its exponent. -/
def significand (s : Spelling) : Nat × Int :=
  let (m, dropped) := collect significandLimit 0 s.whole
  match s.fraction with
  | none => (m, dropped.length)
  | some ds =>
    let (m, rest) := collect significandLimit m ds
    (m, Int.ofNat dropped.length - Int.ofNat (ds.length - rest.length))

/-- The double-precision number of a spelling, `none` if it is too large. -/
def float? (s : Spelling) : Option Binary64 :=
  let (m, shift) := s.significand
  let result := match s.exponent with
    | none => scale 4 (Binary64.ofNat m) shift
    | some (negative, ds) =>
      match collect exponentLimit 0 ds with
      | (e, []) => scale 4 (Binary64.ofNat m) (if negative then shift - e else shift + e)
      | (_, _ :: _) => if m ≠ 0 ∧ !negative then none else some (Binary64.ofNat 0)
  result.map (signed s.negative)

/-- The number that a spelling stands for, `none` if it is too large. Minus zero and integers that
do not fit 64 bits are in double precision. -/
def number? (s : Spelling) : Option Number :=
  match s.fraction, s.exponent, collect significandLimit 0 s.whole with
  | none, none, (m, []) =>
    let n : Int := if s.negative then -m else m
    if h : (-2 ^ 63 ≤ n ∧ n < 2 ^ 64) ∧ (s.negative = false ∨ m ≠ 0) then some (.int n h.1)
    else some (.float (signed s.negative (Binary64.ofNat m)))
  | _, _, _ => s.float?.map .float

end Spelling

end ModelClient.Json
