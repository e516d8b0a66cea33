/-!
# Keys, strings and comments of TOML

Parsers over characters: each takes what it is named for from the front of its input and gives what
is left. Strings may be written in quotes with escapes or between apostrophes as they are, and both
kinds may be tripled to run over several lines. A line ends with a line feed, which a carriage
return may precede; a string keeps the line breaks that it runs over as they are written.
-/

namespace ModelClient.Toml

/-- A parser of something at the front of the input. -/
abbrev Parser (α : Type) := List Char → Option (α × List Char)

/-- Whether a character is white space inside a line. -/
def isBlank (c : Char) : Bool := c == ' ' || c == '\t'

/-- The input without white space in front. -/
def skipBlanks (cs : List Char) : List Char := cs.dropWhile isBlank

/-- Whether a character may stand in a comment or a string: any but control characters other than
tab. -/
def isPlain (c : Char) : Bool := (0x20 ≤ c.toNat && c.toNat ≠ 0x7F) || c == '\t'

/-- A line break as it is written. -/
def lineBreak? : Parser (List Char)
  | '\n' :: cs => some (['\n'], cs)
  | '\r' :: '\n' :: cs => some (['\r', '\n'], cs)
  | _ => none

/-- The input after a line break. -/
def newline? (cs : List Char) : Option (List Char) := (lineBreak? cs).map (·.2)

/-- The input after white space and a comment. -/
def skipComment (cs : List Char) : List Char :=
  match skipBlanks cs with
  | '#' :: cs => cs.dropWhile isPlain
  | cs => cs

/-- The input after the rest of a line that holds nothing more. -/
def lineEnd? (cs : List Char) : Option (List Char) :=
  match skipComment cs with
  | [] => some []
  | cs => newline? cs

/-- The input after any number of lines that hold nothing, at most `fuel` of them. -/
def skipLines : (fuel : Nat) → List Char → List Char
  | 0, cs => cs
  | fuel + 1, cs =>
    let cs := skipComment cs
    match newline? cs with
    | some cs => skipLines fuel cs
    | none => cs

/-- The input without the white space, line breaks and comments in front. -/
def skipSpace (cs : List Char) : List Char := skipLines cs.length cs

/-- The value of hexadecimal digits. -/
def hex? (ds : List Char) : Option Nat :=
  ds.foldlM (fun n d =>
    if d.isDigit then some (n * 16 + (d.toNat - '0'.toNat))
    else if 'a' ≤ d ∧ d ≤ 'f' then some (n * 16 + (d.toNat - 'a'.toNat + 10))
    else if 'A' ≤ d ∧ d ≤ 'F' then some (n * 16 + (d.toNat - 'A'.toNat + 10))
    else none) 0

/-- The character of a code point, which must not be a surrogate. -/
def codePoint? (n : Nat) : Option Char :=
  if h : n.isValidChar then some (Char.ofNatAux n h) else none

/-- The character of an escape, after its backslash. -/
def escape? : Parser Char
  | 'b' :: cs => some ('\x08', cs)
  | 't' :: cs => some ('\t', cs)
  | 'n' :: cs => some ('\n', cs)
  | 'f' :: cs => some ('\x0c', cs)
  | 'r' :: cs => some ('\r', cs)
  | 'e' :: cs => some ('\x1b', cs)
  | '"' :: cs => some ('"', cs)
  | '\\' :: cs => some ('\\', cs)
  | 'x' :: cs => code 2 cs
  | 'u' :: cs => code 4 cs
  | 'U' :: cs => code 8 cs
  | _ => none
where
  /-- A code point in so many hexadecimal digits. -/
  code (width : Nat) (cs : List Char) : Option (Char × List Char) := do
    if cs.length < width then none
    else some (← codePoint? (← hex? (cs.take width)), cs.drop width)

/-- The rest of a string in quotes. -/
def basic : (fuel : Nat) → Parser (List Char)
  | 0, _ | _, [] => none
  | _ + 1, '"' :: cs => some ([], cs)
  | fuel + 1, '\\' :: cs => do
    let (c, cs) ← escape? cs
    let (text, cs) ← basic fuel cs
    some (c :: text, cs)
  | fuel + 1, c :: cs => do
    if !isPlain c then none
    let (text, cs) ← basic fuel cs
    some (c :: text, cs)

/-- The rest of a string between apostrophes. -/
def literal : Parser (List Char)
  | [] => none
  | '\'' :: cs => some ([], cs)
  | c :: cs => do
    if !isPlain c then none
    let (text, cs) ← literal cs
    some (c :: text, cs)

/-- The end of a string over several lines: three quotes, with up to two more in front of them that
belong to the string. -/
def closing? (quote : Char) (cs : List Char) : Option (List Char × List Char) :=
  let run := (cs.takeWhile (· == quote)).length
  if run < 3 then none
  else
    let kept := min (run - 3) 2
    some (List.replicate kept quote, cs.drop (kept + 3))

/-- The input after a backslash at the end of a line: the next lines up to their first character
that is not white space. -/
def continued? (fuel : Nat) (cs : List Char) : Option (List Char) := do
  let cs ← newline? (skipBlanks cs)
  some (skip fuel cs)
where
  /-- The input without blank lines and white space in front. -/
  skip : Nat → List Char → List Char
    | 0, cs => cs
    | fuel + 1, cs =>
      let cs := skipBlanks cs
      match newline? cs with
      | some cs => skip fuel cs
      | none => cs

/-- The rest of a string in tripled quotes. -/
def basicLines : (fuel : Nat) → Parser (List Char)
  | 0, _ | _, [] => none
  | fuel + 1, c :: cs =>
    match closing? '"' (c :: cs), lineBreak? (c :: cs) with
    | some found, _ => some found
    | none, some (lineBreak, cs) => do
      let (text, cs) ← basicLines fuel cs
      some (lineBreak ++ text, cs)
    | none, none =>
      if c = '\\' then
        match continued? fuel cs with
        | some cs => basicLines fuel cs
        | none => do
          let (c, cs) ← escape? cs
          let (text, cs) ← basicLines fuel cs
          some (c :: text, cs)
      else if isPlain c then do
        let (text, cs) ← basicLines fuel cs
        some (c :: text, cs)
      else none

/-- The rest of a string in tripled apostrophes. -/
def literalLines : (fuel : Nat) → Parser (List Char)
  | 0, _ | _, [] => none
  | fuel + 1, c :: cs =>
    match closing? '\'' (c :: cs), lineBreak? (c :: cs) with
    | some found, _ => some found
    | none, some (lineBreak, cs) => do
      let (text, cs) ← literalLines fuel cs
      some (lineBreak ++ text, cs)
    | none, none =>
      if isPlain c then do
        let (text, cs) ← literalLines fuel cs
        some (c :: text, cs)
      else none

/-- The input without a line break in front. -/
def skipNewline (cs : List Char) : List Char := (newline? cs).getD cs

/-- A string of one line. -/
def lineString? : Parser String
  | '"' :: cs => (basic (cs.length + 1) cs).map fun (text, cs) => (String.ofList text, cs)
  | '\'' :: cs => (literal cs).map fun (text, cs) => (String.ofList text, cs)
  | _ => none

/-- A string of any kind. A line break right after tripled quotes does not count. -/
def string? : Parser String
  | '"' :: '"' :: '"' :: cs =>
    (basicLines (cs.length + 1) (skipNewline cs)).map fun (text, cs) => (String.ofList text, cs)
  | '\'' :: '\'' :: '\'' :: cs =>
    (literalLines (cs.length + 1) (skipNewline cs)).map fun (text, cs) => (String.ofList text, cs)
  | cs => lineString? cs

/-- Whether a character may stand in a key without quotes. -/
def isKeyChar (c : Char) : Bool := c.isAlphanum || c == '_' || c == '-'

/-- A key with or without quotes. -/
def simpleKey? (cs : List Char) : Option (String × List Char) :=
  match cs with
  | '"' :: _ | '\'' :: _ => lineString? cs
  | _ =>
    let name := cs.takeWhile isKeyChar
    if name.isEmpty then none else some (String.ofList name, cs.dropWhile isKeyChar)

/-- A key of one or more parts with points between them, at most `parts` of them. -/
def keyOf? : (parts : Nat) → Parser (List String)
  | 0, _ => none
  | parts + 1, cs => do
    let (part, cs) ← simpleKey? (skipBlanks cs)
    match skipBlanks cs with
    | '.' :: cs =>
      let (rest, cs) ← keyOf? parts cs
      some (part :: rest, cs)
    | cs => some ([part], cs)

/-- How many tables and lists may be nested, be it by the parts of one key or one in the other. -/
def depthLimit : Nat := 80

/-- A key of one or more parts. -/
def key? : Parser (List String) := keyOf? depthLimit

end ModelClient.Toml
