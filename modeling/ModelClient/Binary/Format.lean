/-!
# Binary floating-point numbers as bit patterns

A floating-point number is kept as its IEEE 754 bit pattern, so that equal numbers are equal data
and a number inside a document can be compared, stored and printed without loss. Arithmetic is
exact integer arithmetic on a fraction followed by one rounding to nearest, ties to even
(`Format.round`), which makes every result a function of the pattern alone.

The same rounding serves both widths in use: `Binary64` for the numbers of a document and
`Binary32` for the components of an embedding vector.
-/

namespace ModelClient

/-- A power of a number is the one of the core library, whatever else an importing module brings
in. -/
@[default_instance 10000]
instance (priority := 10000) corePower {α : Type} [NatPow α] : Pow α Nat := instPowNat

namespace Binary

/-- A binary interchange format, by the widths of its fraction and exponent fields. -/
structure Format where
  fractionBits : Nat
  exponentBits : Nat
deriving DecidableEq, Repr

namespace Format

/-- The 64-bit format. -/
def double : Format := ⟨52, 11⟩

/-- The 32-bit format. -/
def single : Format := ⟨23, 8⟩

/-- The power of two that the last place of a subnormal number stands for. -/
def least (f : Format) : Int :=
  2 - 2 ^ (f.exponentBits - 1) - f.fractionBits

/-- The magnitude pattern of infinity; patterns above it are not numbers. -/
def infinity (f : Format) : Nat :=
  (2 ^ f.exponentBits - 1) * 2 ^ f.fractionBits

/-- The pattern of the sign bit. -/
def signBit (f : Format) : Nat :=
  2 ^ (f.fractionBits + f.exponentBits)

end Format

/-- The quotient `n / d` rounded to the nearest integer, a tie going to the even neighbour. -/
def roundHalfEven (n d : Nat) : Nat :=
  let q := n / d
  let r := n % d
  if 2 * r < d then q
  else if d < 2 * r then q + 1
  else if q % 2 = 0 then q else q + 1

/-- The largest `k` with `2 ^ k ≤ n / d`, for positive `n` and `d`. -/
def floorLog2 (n d : Nat) : Int :=
  let k : Int := Int.ofNat n.log2 - Int.ofNat d.log2
  let reached := if 0 ≤ k then d * 2 ^ k.toNat ≤ n else d ≤ n * 2 ^ (-k).toNat
  if reached then k else k - 1

/-- The fraction `n / d` divided by `2 ^ k`. -/
def scaleDown (n d : Nat) (k : Int) : Nat × Nat :=
  if 0 ≤ k then (n, d * 2 ^ k.toNat) else (n * 2 ^ (-k).toNat, d)

/-- The magnitude pattern nearest to the fraction `n / d`. Consecutive patterns are consecutive
numbers, so a significand that rounds up to the next power of two carries into the exponent field
by itself; beyond the largest number the result is infinity. -/
def Format.round (f : Format) (n d : Nat) : Nat :=
  if n = 0 ∨ d = 0 then 0
  else
    let unit := max f.least (floorLog2 n d - f.fractionBits)
    let (n', d') := scaleDown n d unit
    min f.infinity ((unit - f.least).toNat * 2 ^ f.fractionBits + roundHalfEven n' d')

/-- The value of a finite magnitude pattern as `significand * 2 ^ exponent`. -/
def Format.split (f : Format) (pattern : Nat) : Nat × Int :=
  let field := pattern / 2 ^ f.fractionBits
  let fraction := pattern % 2 ^ f.fractionBits
  if field = 0 then (fraction, f.least)
  else (fraction + 2 ^ f.fractionBits, f.least + (field - 1 : Nat))

/-- The value of a finite magnitude pattern as a fraction of natural numbers. -/
def Format.fraction (f : Format) (pattern : Nat) : Nat × Nat :=
  let (m, q) := f.split pattern
  if 0 ≤ q then (m * 2 ^ q.toNat, 1) else (m, 2 ^ (-q).toNat)

end Binary

open Binary

/-- A double-precision number, by its bit pattern. -/
structure Binary64 where
  bits : UInt64
deriving DecidableEq, Repr, Inhabited, Hashable

namespace Binary64

/-- The number with the given sign and magnitude pattern. -/
def ofPattern (negative : Bool) (pattern : Nat) : Binary64 :=
  ⟨UInt64.ofNat (pattern + if negative then Format.double.signBit else 0)⟩

/-- Whether the sign bit is set. -/
def negative (x : Binary64) : Bool :=
  decide (Format.double.signBit ≤ x.bits.toNat)

/-- The bit pattern without its sign bit. -/
def pattern (x : Binary64) : Nat :=
  x.bits.toNat % Format.double.signBit

/-- Whether the number is neither infinite nor a NaN. -/
def isFinite (x : Binary64) : Bool :=
  decide (x.pattern < Format.double.infinity)

/-- Whether the pattern is that of a NaN. -/
def isNaN (x : Binary64) : Bool :=
  decide (Format.double.infinity < x.pattern)

/-- Positive infinity. -/
def infinity : Binary64 := ofPattern false Format.double.infinity

/-- The pattern used for a result that is no number. -/
def nan : Binary64 := ofPattern false (Format.double.infinity + 2 ^ 51)

/-- The number nearest to `n / d`, with the given sign. -/
def ofFraction (negative : Bool) (n d : Nat) : Binary64 :=
  ofPattern negative (Format.double.round n d)

/-- The number nearest to a natural number. -/
def ofNat (n : Nat) : Binary64 := ofFraction false n 1

/-- The number nearest to an integer; zero is positive. -/
def ofInt (n : Int) : Binary64 := ofFraction (decide (n < 0)) n.natAbs 1

/-- The magnitude of a finite number as a fraction of natural numbers. -/
def magnitude (x : Binary64) : Nat × Nat := Format.double.fraction x.pattern

/-- The sum of two finite numbers that are not negative, rounded once. -/
def add (x y : Binary64) : Binary64 :=
  let (a, b) := x.magnitude
  let (c, d) := y.magnitude
  ofFraction false (a * d + c * b) (b * d)

/-- The product of two finite numbers, rounded once. -/
def mul (x y : Binary64) : Binary64 :=
  let (a, b) := x.magnitude
  let (c, d) := y.magnitude
  ofFraction (x.negative != y.negative) (a * c) (b * d)

/-- The quotient of a finite number by a finite number that is not zero, rounded once. -/
def div (x y : Binary64) : Binary64 :=
  let (a, b) := x.magnitude
  let (c, d) := y.magnitude
  ofFraction (x.negative != y.negative) (a * d) (b * c)

/-- The integer part of a number, brought into the range from zero to `limit`: negative numbers
give zero, numbers beyond the range give `limit`, and a NaN gives zero. -/
def clampToNat (limit : Nat) (x : Binary64) : Nat :=
  if x.isNaN || x.negative then 0
  else if x.isFinite then
    let (n, d) := x.magnitude
    min limit (n / d)
  else limit

end Binary64

/-- A single-precision number, by its bit pattern. -/
structure Binary32 where
  bits : UInt32
deriving DecidableEq, Repr, Inhabited, Hashable

namespace Binary32

/-- The number with the given sign and magnitude pattern. -/
def ofPattern (negative : Bool) (pattern : Nat) : Binary32 :=
  ⟨UInt32.ofNat (pattern + if negative then Format.single.signBit else 0)⟩

/-- Whether the sign bit is set. -/
def negative (x : Binary32) : Bool :=
  decide (Format.single.signBit ≤ x.bits.toNat)

/-- The bit pattern without its sign bit. -/
def pattern (x : Binary32) : Nat :=
  x.bits.toNat % Format.single.signBit

/-- Whether the number is neither infinite nor a NaN. -/
def isFinite (x : Binary32) : Bool :=
  decide (x.pattern < Format.single.infinity)

/-- The number nearest to an integer; zero is positive. -/
def ofInt (n : Int) : Binary32 :=
  ofPattern (decide (n < 0)) (Format.single.round n.natAbs 1)

/-- The single-precision number nearest to a double-precision one. -/
def ofBinary64 (x : Binary64) : Binary32 :=
  if x.isNaN then ofPattern x.negative (Format.single.infinity + 2 ^ 22)
  else if x.isFinite then
    let (n, d) := x.magnitude
    ofPattern x.negative (Format.single.round n d)
  else ofPattern x.negative Format.single.infinity

end Binary32

end ModelClient
