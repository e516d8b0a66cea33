import ModelClient.Binary.Format

/-!
# Decimal numerals as binary numbers

The double-precision number nearest to a decimal numeral of any length.
-/

namespace ModelClient

open Binary

/-- The value of some decimal digits. -/
def Binary.digitsValue (ds : List Char) : Nat :=
  ds.foldl (fun n d => n * 10 + (d.toNat - '0'.toNat)) 0

/-- The double-precision number nearest to `m * 10 ^ e`; a numeral whose leading digit stands beyond
the range of the format is infinite or zero, which saves computing with a large power. -/
def Binary64.ofDecimal (negative : Bool) (m : Nat) (e : Int) : Binary64 :=
  let leading := Int.ofNat (Nat.toDigits 10 m).length + e
  if m = 0 ∨ leading < -400 then .ofPattern negative 0
  else if 400 < leading then .ofPattern negative Format.double.infinity
  else if 0 ≤ e then .ofFraction negative (m * 10 ^ e.toNat) 1
  else .ofFraction negative m (10 ^ (-e).toNat)

/-- A fraction's digits, which may be missing together with their point. -/
def Binary.fractionDigits : List Char → List Char × List Char
  | '.' :: cs => (cs.takeWhile Char.isDigit, cs.dropWhile Char.isDigit)
  | cs => ([], cs)

/-- An exponent, which may be missing; at least one digit has to follow its mark. -/
def Binary.exponentOf : List Char → Option Int
  | [] => some 0
  | mark :: cs =>
    let (negative, ds) := match cs with
      | '-' :: ds => (true, ds)
      | '+' :: ds => (false, ds)
      | ds => (false, ds)
    if (mark = 'e' ∨ mark = 'E') ∧ !ds.isEmpty ∧ ds.all Char.isDigit then
      let n := digitsValue ds
      some (if negative then -n else n)
    else none

/-- The double-precision number nearest to a numeral: a sign, digits with a point anywhere among
them, and an exponent. The words for infinity and for what is no number count as numerals. -/
def Binary64.ofNumeral? (cs : List Char) : Option Binary64 :=
  let (negative, cs) := match cs with
    | '-' :: cs => (true, cs)
    | '+' :: cs => (false, cs)
    | cs => (false, cs)
  let word := String.ofList (cs.map Char.toLower)
  if word = "inf" ∨ word = "infinity" then some (.ofPattern negative Format.double.infinity)
  else if word = "nan" then some (.ofPattern negative Binary64.nan.pattern)
  else
    let whole := cs.takeWhile Char.isDigit
    let (fraction, rest) := fractionDigits (cs.dropWhile Char.isDigit)
    if whole.isEmpty ∧ fraction.isEmpty then none
    else (exponentOf rest).map fun e =>
      .ofDecimal negative (digitsValue (whole ++ fraction)) (e - fraction.length)

end ModelClient
