import ModelClient.Binary.Decimal

/-!
# Command line arguments

The command line names a command, its options and its words. An option takes its value from the same
argument or from the next one, and may be given once. A value is looked at only when the next option
or word arrives, or the line ends, so an argument that no command knows is reported before a bad
value in front of it.
-/

namespace ModelClient.Cli

/-- Why a command line is not run. Asking for help or the version counts as a reason. -/
inductive UsageError where
  /-- There are no arguments at all. -/
  | noArguments
  /-- Help is asked for, on a command or on the program. -/
  | help (command : Option String)
  | version
  | invalidCommand
  | missingCommand
  | missingArgument
  | unknownArgument
  | repeatedArgument
  /-- A value is no number of the kind that the option takes. -/
  | invalidNumber
  /-- An option has no value, or an empty path. -/
  | emptyValue
  /-- A flag has a value. -/
  | unexpectedValue
deriving DecidableEq, Repr

/-- What an option takes, or what a flag does. -/
inductive Kind where
  | text
  | path
  | number
  | count
  | flag
  | help
  | version
deriving DecidableEq, Repr

/-- Whether an option of a kind takes a value. -/
def Kind.takesValue : Kind → Bool
  | text | path | number | count => true
  | flag | help | version => false

/-- An option or a flag. -/
structure Parameter where
  name : String
  short : Option Char
  kind : Kind
deriving DecidableEq, Repr

/-- The value of an option. -/
inductive Value where
  | text (s : String)
  | number (x : Binary64)
  | count (n : UInt32)
  | present
deriving DecidableEq, Repr

/-- A count of 32 bits, which may have a sign in front. -/
def readCount? (s : String) : Option UInt32 :=
  let (negative, ds) := match s.toList with
    | '-' :: ds => (true, ds)
    | '+' :: ds => (false, ds)
    | ds => (false, ds)
  let n := Binary.digitsValue ds
  if !ds.isEmpty ∧ ds.all Char.isDigit ∧ n < 2 ^ 32 ∧ (!negative ∨ n = 0) then some (.ofNat n)
  else none

/-- The value that a text stands for. -/
def Kind.read (kind : Kind) (s : String) : Except UsageError Value :=
  match kind with
  | path => if s = "" then .error .emptyValue else .ok (.text s)
  | number => match Binary64.ofNumeral? s.toList with
    | some x => .ok (.number x)
    | none => .error .invalidNumber
  | count => match readCount? s with
    | some n => .ok (.count n)
    | none => .error .invalidNumber
  | text | flag | help | version => .ok (.text s)

/-- What the words of a command line are that belong to no option. -/
inductive Words where
  /-- The first word names a command. -/
  | command
  | one
  | many
deriving DecidableEq, Repr

/-- The part of a command line that has been read. -/
structure Line where
  given : List (String × Value) := []
  words : List String := []
  /-- An option whose value has not been looked at, and its value once that has arrived. -/
  pending : Option (Parameter × Option String) := none

namespace Line

/-- The line with the value of an option, which must not be given twice. -/
def set (l : Line) (p : Parameter) (value : Except UsageError Value) : Except UsageError Line := do
  if (l.given.lookup p.name).isSome then .error .repeatedArgument
  else return { l with given := (p.name, ← value) :: l.given }

/-- The line after the pending value has been looked at. -/
def settle (l : Line) : Except UsageError Line :=
  match l.pending with
  | none => .ok l
  | some (_, none) => .error .emptyValue
  | some (p, some value) => { l with pending := none }.set p (p.kind.read value)

/-- The line after an option or a flag, with the value from the same argument if there is one. -/
def option (l : Line) (p : Parameter) (value : Option String) : Except UsageError Line := do
  match p.kind.takesValue, value with
  | true, some value => (← l.settle).set p (p.kind.read value)
  | true, none => return { ← l.settle with pending := some (p, none) }
  | false, some _ => .error .unexpectedValue
  | false, none =>
    let l ← l.settle
    match p.kind with
    | .help => .error (.help none)
    | .version => .error .version
    | _ => l.set p (.ok .present)

/-- The line after a word. -/
def word (l : Line) (words : Words) (s : String) : Except UsageError Line := do
  match words, l.words with
  | .command, _ => .error .invalidCommand
  | .one, _ :: _ => .error .unknownArgument
  | .one, [] | .many, _ =>
    let l ← l.settle
    return { l with words := l.words ++ [s] }

/-- The line after an argument that begins with two dashes. -/
def long (l : Line) (parameters : List Parameter) (cs : List Char) : Except UsageError Line :=
  let name := String.ofList (cs.takeWhile (· != '='))
  let value := match cs.dropWhile (· != '=') with
    | [] => none
    | _ :: value => some (String.ofList value)
  match parameters.find? (·.name == name) with
  | none => .error .unknownArgument
  | some p => l.option p value

/-- The line after an argument that begins with one dash. -/
def short (l : Line) (parameters : List Parameter) (c : Char) (cs : List Char) :
    Except UsageError Line :=
  let value := match cs with
    | [] => none
    | '=' :: value | value => some (String.ofList value)
  match parameters.find? (·.short == some c) with
  | none => .error .unknownArgument
  | some p => l.option p (if p.kind.takesValue then value else none)

/-- The line after an argument, where `literal` says that all arguments are words. -/
def argument (l : Line) (parameters : List Parameter) (words : Words) (literal : Bool)
    (s : String) : Except UsageError Line :=
  match literal, s.toList, l.pending with
  | false, '-' :: '-' :: cs, _ => l.long parameters cs
  | false, '-' :: c :: cs, _ => l.short parameters c cs
  | false, _, some (p, none) => .ok { l with pending := some (p, some s) }
  | _, _, _ => l.word words s

/-- The line after all arguments. -/
def read (parameters : List Parameter) (words : Words) :
    (literal : Bool) → Line → List String → Except UsageError Line
  | _, l, [] => l.settle
  | literal, l, s :: rest => do
    if !literal && s == "--" then read parameters words true l rest
    else read parameters words literal (← l.argument parameters words literal s) rest

/-- The text of an option. -/
def text? (l : Line) (name : String) : Option String :=
  match l.given.lookup name with
  | some (.text s) => some s
  | _ => none

/-- The number of an option. -/
def number? (l : Line) (name : String) : Option Binary64 :=
  match l.given.lookup name with
  | some (.number x) => some x
  | _ => none

/-- The count of an option. -/
def count? (l : Line) (name : String) : Option UInt32 :=
  match l.given.lookup name with
  | some (.count n) => some n
  | _ => none

/-- Whether a flag is given. -/
def has (l : Line) (name : String) : Bool := (l.given.lookup name).isSome

end Line

end ModelClient.Cli
