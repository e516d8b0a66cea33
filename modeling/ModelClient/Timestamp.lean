import ModelClient.Text.Blank
import ModelClient.Binary.Shortest

/-!
# Points in time

A point in time is a date of the Gregorian calendar with a time of day in UTC, down to nanoseconds.
A minute may have a sixty-first second. Years run from `-262143` to `262142`.

`Timestamp.render` writes the form of RFC 3339; `Timestamp.read?` takes that form with some freedom:
blanks between its parts, numbers with fewer digits, a blank or a small letter between date and
time, and an offset from UTC in several spellings.
-/

namespace ModelClient

/-- A date and a time of day. -/
structure Civil where
  year : Int
  month : Nat
  day : Nat
  hour : Nat
  minute : Nat
  second : Nat
  nanosecond : Nat
deriving DecidableEq, Repr

namespace Civil

/-- Whether a year has a day more. -/
def isLeapYear (year : Int) : Bool :=
  year % 4 = 0 && (year % 100 ≠ 0 || year % 400 = 0)

/-- The number of days of a month. -/
def daysInMonth (year : Int) (month : Nat) : Nat :=
  if month = 2 then if isLeapYear year then 29 else 28
  else if month = 4 ∨ month = 6 ∨ month = 9 ∨ month = 11 then 30
  else 31

/-- Whether the fields name a point in time. -/
def isValid (c : Civil) : Bool :=
  -262143 ≤ c.year && c.year ≤ 262142 && 1 ≤ c.month && c.month ≤ 12 && 1 ≤ c.day &&
    c.day ≤ daysInMonth c.year c.month && c.hour < 24 && c.minute < 60 && c.second ≤ 60 &&
    c.nanosecond < 10 ^ 9

/-- The days from the first of January 1970 to the date. Years are counted from March, so that a
leap day is the last day of its year. -/
def dayNumber (c : Civil) : Int :=
  let year := if c.month ≤ 2 then c.year - 1 else c.year
  let month : Int := (c.month + 9) % 12
  year * 365 + year / 4 - year / 100 + year / 400 + (153 * month + 2) / 5 + c.day - 719469

/-- The date that is `days` after the first of January 1970, at midnight. -/
def ofDayNumber (days : Int) : Civil :=
  let z := days + 719468
  let era := z / 146097
  let dayOfEra := z % 146097
  let yearOfEra :=
    (dayOfEra - dayOfEra / 1460 + dayOfEra / 36524 - dayOfEra / 146096) / 365
  let dayOfYear := dayOfEra - (365 * yearOfEra + yearOfEra / 4 - yearOfEra / 100)
  let m := (5 * dayOfYear + 2) / 153
  let month := if m < 10 then m + 3 else m - 9
  let year := yearOfEra + era * 400 + if month ≤ 2 then 1 else 0
  ⟨year, month.toNat, (dayOfYear - (153 * m + 2) / 5 + 1).toNat, 0, 0, 0, 0⟩

/-- The point in time `minutes` earlier. -/
def earlier (c : Civil) (minutes : Int) : Civil :=
  if minutes = 0 then c
  else
    let total := c.dayNumber * 1440 + c.hour * 60 + c.minute - minutes
    let ofDay := (total % 1440).toNat
    { ofDayNumber (total / 1440) with
      hour := ofDay / 60, minute := ofDay % 60, second := c.second, nanosecond := c.nanosecond }

end Civil

/-- A point in time. -/
structure Timestamp where
  civil : Civil
  isValid : civil.isValid = true
deriving DecidableEq

namespace Timestamp

/-- The point in time of the given fields, if they name one. -/
def ofCivil? (c : Civil) : Option Timestamp :=
  if h : c.isValid = true then some ⟨c, h⟩ else none

/-- The point in time some seconds after the start of 1970. -/
def ofEpochSeconds? (n : Int) : Option Timestamp :=
  let ofDay := (n % 86400).toNat
  ofCivil? { Civil.ofDayNumber (n / 86400) with
    hour := ofDay / 3600, minute := ofDay / 60 % 60, second := ofDay % 60 }

/-- A natural number with at least `width` digits. -/
def padded (width n : Nat) : List Char :=
  let ds := Binary.digitsOf n
  List.replicate (width - ds.length) '0' ++ ds

/-- A year; one before zero or beyond four digits has a sign. -/
def writeYear (year : Int) : List Char :=
  if 0 ≤ year ∧ year ≤ 9999 then padded 4 year.toNat
  else (if year < 0 then '-' else '+') :: padded 4 year.natAbs

/-- A fraction of a second in three, six or nine digits, as few as it takes. -/
def writeFraction (nanosecond : Nat) : List Char :=
  if nanosecond = 0 then []
  else if nanosecond % 10 ^ 6 = 0 then '.' :: padded 3 (nanosecond / 10 ^ 6)
  else if nanosecond % 10 ^ 3 = 0 then '.' :: padded 6 (nanosecond / 10 ^ 3)
  else '.' :: padded 9 nanosecond

/-- The point in time in the form of RFC 3339. -/
def render (t : Timestamp) : String :=
  let c := t.civil
  String.ofList (writeYear c.year ++ '-' :: padded 2 c.month ++ '-' :: padded 2 c.day ++
    'T' :: padded 2 c.hour ++ ':' :: padded 2 c.minute ++ ':' :: padded 2 c.second ++
    writeFraction c.nanosecond ++ ['Z'])

/-- The characters without the blank ones at their start. -/
def skipBlanks (cs : List Char) : List Char := cs.dropWhile Text.isBlankChar

/-- The number of some decimal digits. -/
def numberOf (ds : List Char) : Nat :=
  ds.foldl (fun n d => n * 10 + (d.toNat - '0'.toNat)) 0

/-- A number of at least one and at most `width` digits, and what follows it. -/
def number? (width : Nat) (cs : List Char) : Option (Nat × List Char) :=
  let ds := (cs.take width).takeWhile Char.isDigit
  if ds.isEmpty then none else some (numberOf ds, cs.drop ds.length)

/-- A year of at most four digits, or of any number of digits after a sign. -/
def year? (cs : List Char) : Option (Int × List Char) :=
  match skipBlanks cs with
  | '-' :: cs => (number? cs.length cs).map fun (n, rest) => (-n, rest)
  | '+' :: cs => (number? cs.length cs).map fun (n, rest) => (n, rest)
  | cs => (number? 4 cs).map fun (n, rest) => (n, rest)

/-- A number of one or two digits after some blanks. -/
def short? (cs : List Char) : Option (Nat × List Char) := number? 2 (skipBlanks cs)

/-- What follows a mark, which may have blanks in front of it. -/
def mark? (mark : Char) (cs : List Char) : Option (List Char) :=
  match skipBlanks cs with
  | c :: cs => if c = mark then some cs else none
  | [] => none

/-- A fraction of a second in nanoseconds; digits beyond the ninth do not count. -/
def fraction? : List Char → Option (Nat × List Char)
  | '.' :: cs => do
    let (n, rest) ← number? 9 cs
    some (n * 10 ^ (9 - (cs.length - rest.length)), rest.dropWhile Char.isDigit)
  | cs => some (0, cs)

/-- Two decimal digits. -/
def twoDigits? : List Char → Option (Nat × List Char)
  | a :: b :: rest => if a.isDigit && b.isDigit then some (numberOf [a, b], rest) else none
  | _ => none

/-- The minutes by which the local time is ahead of UTC. -/
def offset? (cs : List Char) : Option (Int × List Char) :=
  if (cs.take 3).map Char.toUpper = ['U', 'T', 'C'] then some (0, cs.drop 3)
  else match cs with
    | 'z' :: rest | 'Z' :: rest => some (0, rest)
    | '+' :: rest => (signless rest).map fun (n, rest) => (n, rest)
    | '-' :: rest | '\u2212' :: rest => (signless rest).map fun (n, rest) => (-n, rest)
    | _ => none
where
  /-- Hours and minutes, with colons or blanks between them or nothing. -/
  signless (cs : List Char) : Option (Nat × List Char) := do
    let (hours, rest) ← twoDigits? cs
    let (minutes, rest) ← twoDigits? (rest.dropWhile fun c => c == ':' || Text.isBlankChar c)
    if minutes < 60 then some (hours * 60 + minutes, rest) else none

/-- The point in time that a text names. -/
def read? (s : String) : Option Timestamp := do
  let (year, cs) ← year? s.toList
  let (month, cs) ← short? (← mark? '-' cs)
  let (day, cs) ← short? (← mark? '-' cs)
  let cs ← match cs with
    | 't' :: cs | 'T' :: cs | ' ' :: cs => some cs
    | _ => none
  let (hour, cs) ← short? cs
  let (minute, cs) ← short? (← mark? ':' cs)
  let (second, cs) ← short? (← mark? ':' cs)
  let (nanosecond, cs) ← fraction? cs
  let (offset, cs) ← offset? (skipBlanks cs)
  let here ← ofCivil? ⟨year, month, day, hour, minute, second, nanosecond⟩
  if (skipBlanks cs).isEmpty ∧ offset.natAbs < 1440 then ofCivil? (here.civil.earlier offset)
  else none

end Timestamp

end ModelClient
