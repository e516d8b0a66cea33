import ModelClient.Binary.Decimal
import ModelClient.Json.Doc
import ModelClient.Timestamp
import ModelClient.Toml.Text

/-!
# Plain values of TOML

Integers in four bases, numbers in double precision, truth values and dates. Underscores may stand
between digits. A value is read as the document that says it in JSON; a date is an object whose one
field holds the date's text.
-/

namespace ModelClient.Toml

open Json

/-- The digits of a run in which single underscores may stand between digits. -/
def digits? (isDigit : Char → Bool) (cs : List Char) : Option (List Char) :=
  let rec go : (afterDigit : Bool) → List Char → Option (List Char)
    | afterDigit, [] => if afterDigit then some [] else none
    | afterDigit, c :: cs =>
      if isDigit c then (go true cs).map (c :: ·)
      else if c = '_' && afterDigit then go false cs
      else none
  go false cs

/-- Digits of a decimal number without a leading zero. -/
def decimal? (cs : List Char) : Option (List Char) := do
  match ← digits? Char.isDigit cs with
  | '0' :: _ :: _ => none
  | ds => some ds

/-- The value of digits in a base. -/
def valueIn (base : Nat) (ds : List Char) : Nat :=
  ds.foldl (fun n d =>
    let v := if d.isDigit then d.toNat - '0'.toNat else d.toLower.toNat - 'a'.toNat + 10
    n * base + v) 0

/-- The digits of a number with a base mark. -/
def based? : List Char → Option Nat
  | '0' :: 'x' :: cs =>
    (digits? (fun c => c.isDigit || ('a' ≤ c.toLower && c.toLower ≤ 'f')) cs).map (valueIn 16)
  | '0' :: 'o' :: cs => (digits? (fun c => '0' ≤ c && c ≤ '7') cs).map (valueIn 8)
  | '0' :: 'b' :: cs => (digits? (fun c => c == '0' || c == '1') cs).map (valueIn 2)
  | _ => none

/-- A sign, true for a minus, and what follows it. -/
def sign : List Char → Bool × List Char
  | '-' :: cs => (true, cs)
  | '+' :: cs => (false, cs)
  | cs => (false, cs)

/-- The document of an integer. One that does not fit 64 bits has no value, and one that does not
fit 128 bits is out of range. -/
def integer (n : Int) : Doc :=
  if h : -2 ^ 63 ≤ n ∧ n < 2 ^ 64 then .num (some (.int n h))
  else if -2 ^ 127 ≤ n ∧ n < 2 ^ 128 then .num none
  else .outOfRange

/-- An integer. -/
def integer? (cs : List Char) : Option Doc :=
  match based? cs with
  | some n => some (integer n)
  | none => do
    let (negative, cs) := sign cs
    let n : Int := Binary.digitsValue (← decimal? cs)
    some (integer (if negative then -n else n))

/-- A number with a fraction or an exponent, or a word for one that is infinite or none. A finite
one that double precision cannot hold is out of range. -/
def float? (cs : List Char) : Option Doc := do
  let (negative, rest) := sign cs
  if rest = ['i', 'n', 'f'] then
    some (.num (some (.float (.ofPattern negative Binary64.infinity.pattern))))
  else if rest = ['n', 'a', 'n'] then
    some (.num (some (.float (.ofPattern negative Binary64.nan.pattern))))
  else
    let isMark (c : Char) : Bool := c == 'e' || c == 'E'
    let mantissa := rest.takeWhile (!isMark ·)
    let exponent := rest.dropWhile (!isMark ·)
    let whole ← decimal? (mantissa.takeWhile (· != '.'))
    let fraction ← match mantissa.dropWhile (· != '.') with
      | [] => some []
      | _ :: ds => digits? Char.isDigit ds
    let power ← match exponent with
      | [] => some 0
      | _ :: cs => do
        let (negative, ds) := sign cs
        let n : Int := Binary.digitsValue (← digits? Char.isDigit ds)
        some (if negative then -n else n)
    let x := Binary64.ofDecimal negative (Binary.digitsValue (whole ++ fraction))
      (power - fraction.length)
    some (if x.isFinite then .num (some (.float x)) else .outOfRange)

/-- A number of exactly `width` digits. -/
def fixed? (width : Nat) (cs : List Char) : Option (Nat × List Char) :=
  let ds := cs.take width
  if ds.length = width ∧ ds.all Char.isDigit then some (Binary.digitsValue ds, cs.drop width)
  else none

/-- What follows a mark. -/
def mark? (mark : Char) : List Char → Option (List Char)
  | c :: cs => if c = mark then some cs else none
  | [] => none

/-- The text of a date. -/
def date? : Parser (List Char) := fun cs => do
  let (year, cs) ← fixed? 4 cs
  let (month, cs) ← fixed? 2 (← mark? '-' cs)
  let (day, cs) ← fixed? 2 (← mark? '-' cs)
  if 1 ≤ month ∧ month ≤ 12 ∧ 1 ≤ day ∧ day ≤ Civil.daysInMonth year month then
    some (Timestamp.padded 4 year ++ '-' :: Timestamp.padded 2 month ++
      '-' :: Timestamp.padded 2 day, cs)
  else none

/-- The text of a time of day. The seconds may be left out. Of a fraction nine digits count, without
zeros at its end. -/
def time? : Parser (List Char) := fun cs => do
  let (hour, cs) ← fixed? 2 cs
  let (minute, cs) ← fixed? 2 (← mark? ':' cs)
  let (second, cs, isWhole) ← match mark? ':' cs with
    | none => some (0, cs, true)
    | some cs => (fixed? 2 cs).map fun (second, cs) => (second, cs, false)
  if 23 < hour ∨ 59 < minute ∨ 60 < second then none
  let text := Timestamp.padded 2 hour ++ ':' :: Timestamp.padded 2 minute ++
    ':' :: Timestamp.padded 2 second
  match isWhole, cs with
  | false, '.' :: cs =>
    let ds := cs.takeWhile Char.isDigit
    if ds.isEmpty then none
    let kept := ((ds.take 9).reverse.dropWhile (· == '0')).reverse
    some (if kept.isEmpty then text else text ++ '.' :: kept, cs.dropWhile Char.isDigit)
  | _, cs => some (text, cs)

/-- The text of an offset from UTC. An offset of nothing is written with a plus. -/
def offset? : Parser (List Char)
  | 'z' :: cs | 'Z' :: cs => some (['Z'], cs)
  | c :: cs => do
    if c ≠ '+' ∧ c ≠ '-' then none
    let (hours, cs) ← fixed? 2 cs
    let (minutes, cs) ← fixed? 2 (← mark? ':' cs)
    if 23 < hours ∨ 59 < minutes then none
    let sign := if hours = 0 ∧ minutes = 0 then '+' else c
    some (sign :: Timestamp.padded 2 hours ++ ':' :: Timestamp.padded 2 minutes, cs)
  | [] => none

/-- The text of a date, a time, or both with an offset or without. -/
def moment? : Parser (List Char) := fun cs =>
  match date? cs with
  | none => time? cs
  | some (date, cs) =>
    let withTime := do
      let rest ← match cs with
        | 'T' :: rest | 't' :: rest | ' ' :: rest => some rest
        | _ => none
      time? rest
    match withTime with
    | none => some (date, cs)
    | some (time, cs) =>
      match offset? cs with
      | none => some (date ++ 'T' :: time, cs)
      | some (offset, cs) => some (date ++ 'T' :: time ++ offset, cs)

/-- The field that holds the text of a date. -/
def momentField : String := "$__toml_private_datetime"

/-- Whether a character may stand in a plain value. -/
def isWordChar (c : Char) : Bool :=
  c.isAlphanum || c == '_' || c == '+' || c == '-' || c == '.' || c == ':'

/-- A plain value that is a word: everything but strings and dates. -/
def word? (cs : List Char) : Option Doc :=
  if cs = ['t', 'r', 'u', 'e'] then some (.bool true)
  else if cs = ['f', 'a', 'l', 's', 'e'] then some (.bool false)
  else integer? cs <|> float? cs

/-- A plain value. -/
def scalar? : Parser Doc := fun cs =>
  match cs with
  | '"' :: _ | '\'' :: _ => (string? cs).map fun (s, cs) => (.str (some s), cs)
  | _ =>
    match moment? cs with
    | some (text, rest) =>
      if (rest.head?.map isWordChar).getD false then none
      else some (.obj .toml [(some momentField, .str (some (String.ofList text)))], rest)
    | none => (word? (cs.takeWhile isWordChar)).map fun d => (d, cs.dropWhile isWordChar)

end ModelClient.Toml
