import ModelClient.Binary.Format

/-!
# The shortest decimal digits of a binary number

Among the decimals that round to a given floating-point number, `Format.shortest` takes one with
the fewest digits and, of those, the nearest to the number. The search goes through the decimal
grids from the coarsest one that can hold the number to seventeen digits; on each grid only the two
neighbours of the number need a look, because the numbers that round to it form an interval that
contains the number itself.

How the digits are laid out (where positional text ends, how an exponent is written) is a decision
of the output and stands in one record, `NumeralStyle`.
-/

namespace ModelClient.Binary

/-- A decimal numeral `digits * 10 ^ exponent`. -/
structure Decimal where
  digits : Nat
  exponent : Int
deriving DecidableEq, Repr

/-- The interval of reals that round to a positive finite magnitude pattern, as three numerators
over one denominator: lower end, the number, upper end. The ends belong to it when the significand
is even. -/
structure Interval where
  low : Nat
  mid : Nat
  high : Nat
  denominator : Nat
  closed : Bool
deriving DecidableEq, Repr

/-- The rounding interval of a positive finite magnitude pattern. The gap below a power of two is
half the gap above it, unless the number is subnormal or the smallest normal one. -/
def Format.interval (f : Format) (pattern : Nat) : Interval :=
  let (m, q) := f.split pattern
  let narrow := m = 2 ^ f.fractionBits ∧ f.least < q
  let low := if narrow then 4 * m - 1 else 4 * m - 2
  let (unit, d) := if 2 ≤ q then (2 ^ (q - 2).toNat, 1) else (1, 2 ^ (2 - q).toNat)
  ⟨low * unit, 4 * m * unit, (4 * m + 2) * unit, d, m % 2 = 0⟩

/-- Whether the fraction `n / d` lies in the interval. -/
def Interval.contains (i : Interval) (n d : Nat) : Bool :=
  if i.closed then i.low * d ≤ n * i.denominator && n * i.denominator ≤ i.high * d
  else i.low * d < n * i.denominator && n * i.denominator < i.high * d

/-- The first `k`, going down from `start` at most `tries` steps, with `10 ^ k ≤ n / d`. -/
def floorLog10From (n d : Nat) : (tries : Nat) → (start : Int) → Int
  | 0, k => k
  | tries + 1, k =>
    let reached := if 0 ≤ k then d * 10 ^ k.toNat ≤ n else d ≤ n * 10 ^ (-k).toNat
    if reached then k else floorLog10From n d tries (k - 1)

/-- The largest `k` with `10 ^ k ≤ n / d`, for positive `n` and `d`. The estimate from the binary
logarithms is at most four too large. -/
def floorLog10 (n d : Nat) : Int :=
  let count (x : Nat) : Int := Int.ofNat (x.log2 * 30103 / 100000)
  floorLog10From n d 4 (count n - count d + 2)

/-- The decimal on the grid `10 ^ k` that lies in the interval, next to its middle. If both
neighbours of the middle do, the nearer one is taken, and the even one if they are equally near. -/
def Interval.onGrid (i : Interval) (k : Int) : Option Decimal :=
  let (n, d) :=
    if 0 ≤ k then (i.mid, i.denominator * 10 ^ k.toNat)
    else (i.mid * 10 ^ (-k).toNat, i.denominator)
  let inside (x : Nat) : Bool :=
    if 0 ≤ k then i.contains (x * 10 ^ k.toNat) 1 else i.contains x (10 ^ (-k).toNat)
  let below := n / d
  let rest := n % d
  let belowNearer := 2 * rest < d ∨ (2 * rest = d ∧ below % 2 = 0)
  if inside below && (belowNearer || !inside (below + 1)) then some ⟨below, k⟩
  else if inside (below + 1) then some ⟨below + 1, k⟩
  else none

/-- The hit on the first grid that has one, from the grid `10 ^ k` to finer ones. -/
def Interval.search (i : Interval) : (tries : Nat) → (k : Int) → Decimal
  | 0, k => ⟨i.mid / i.denominator, k⟩
  | tries + 1, k =>
    match i.onGrid k with
    | some ⟨0, _⟩ | none => i.search tries (k - 1)
    | some x => x

/-- The same numeral with at most `limit` trailing zeros moved into the exponent. -/
def Decimal.trim : (limit : Nat) → Decimal → Decimal
  | 0, x => x
  | limit + 1, x =>
    if x.digits ≠ 0 ∧ x.digits % 10 = 0 then Decimal.trim limit ⟨x.digits / 10, x.exponent + 1⟩
    else x

/-- A shortest decimal that rounds to a positive finite magnitude pattern. -/
def Format.shortest (f : Format) (pattern : Nat) : Decimal :=
  let i := f.interval pattern
  (i.search 18 (floorLog10 i.mid i.denominator)).trim 20

/-- How a numeral is laid out. -/
structure NumeralStyle where
  /-- The least power of ten of a leading digit that is written positionally. -/
  least : Int
  /-- The least power of ten of a leading digit that is too large to be written positionally. -/
  limit : Int
  /-- The mark between a significand and its exponent. -/
  mark : Char
  /-- What stands before an exponent that is not negative. -/
  plus : List Char

/-- The decimal digits of a natural number. -/
def digitsOf (n : Nat) : List Char := Nat.toDigits 10 n

/-- The numeral in positional notation, with at least one digit on either side of the point. -/
def Decimal.positional (x : Decimal) : List Char :=
  let ds := digitsOf x.digits
  let point := Int.ofNat ds.length + x.exponent
  if point ≤ 0 then '0' :: '.' :: List.replicate (-point).toNat '0' ++ ds
  else if Int.ofNat ds.length ≤ point then ds ++ List.replicate x.exponent.toNat '0' ++ ['.', '0']
  else ds.take point.toNat ++ '.' :: ds.drop point.toNat

/-- The numeral as a significand with one leading digit and an exponent. -/
def Decimal.scientific (style : NumeralStyle) (x : Decimal) : List Char :=
  let ds := digitsOf x.digits
  let e := Int.ofNat ds.length + x.exponent - 1
  let significand := match ds with
    | d :: e :: rest => d :: '.' :: e :: rest
    | short => short
  let sign := if e < 0 then ['-'] else style.plus
  significand ++ style.mark :: sign ++ digitsOf e.natAbs

/-- The numeral in the given style. -/
def Decimal.write (style : NumeralStyle) (x : Decimal) : List Char :=
  let e := Int.ofNat (digitsOf x.digits).length + x.exponent - 1
  if style.least ≤ e ∧ e < style.limit then x.positional else x.scientific style

/-- A finite magnitude pattern in the given style; zero is written `0.0`. -/
def Format.write (f : Format) (style : NumeralStyle) (pattern : Nat) : List Char :=
  if pattern = 0 then ['0', '.', '0'] else (f.shortest pattern).write style

end ModelClient.Binary
