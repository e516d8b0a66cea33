import ModelClient.Text.Alphanumeric
import ModelClient.Text.Blank

/-!
# Environment files

A file of variables, one to a line: a name, an equals sign and a value. A value may be quoted and
may then run over several lines; it may refer to other variables with a dollar sign. A line that
cannot be read ends the file, and the lines in front of it count. A variable that no environment can
hold is a fault.
-/

namespace ModelClient.Cli

open Text

namespace EnvironmentFile

/-- How far a line is from being complete. -/
inductive Extent where
  | complete
  | space
  | escape
  | weak
  | weakEscape
  | strong
  | strongEscape
  | comment
deriving DecidableEq, Repr

/-- What a character opens outside quotes. -/
def Extent.opened : Char → Extent
  | '\\' => escape
  | '"' => weak
  | '\'' => strong
  | _ => complete

/-- The extent after one more character. -/
def Extent.next (e : Extent) (c : Char) : Extent :=
  match e with
  | comment => comment
  | space => if c = '#' then comment else opened c
  | complete =>
    if isBlankChar c && c != '\n' && c != '\r' then space else opened c
  | escape => complete
  | weak => if c = '\\' then weakEscape else if c = '"' then complete else weak
  | weakEscape => weak
  | strong => if c = '\\' then strongEscape else if c = '\'' then complete else strong
  | strongEscape => strong

/-- The characters of a line in front of a comment, and the extent at its end. -/
def scan : Extent → List Char → List Char × Extent
  | e, [] => ([], e)
  | e, c :: cs =>
    let e := e.next c
    if e = .comment then ([], .comment)
    else
      let (kept, e) := scan e cs
      (c :: kept, e)

/-- The lines of a text, each with its line feed. -/
def rawLines : List Char → List (List Char)
  | [] => []
  | c :: cs =>
    if c = '\n' then [c] :: rawLines cs
    else match rawLines cs with
      | [] => [[c]]
      | line :: lines => (c :: line) :: lines

/-- Joins lines that a quote keeps open, after the text `buffer` of such lines. An open quote at the
end of the file gives `none` in place of a line. -/
def joined : (buffer : List Char) → Extent → List (List Char) → List (Option (List Char))
  | buffer, _, [] => if buffer.isEmpty then [] else [none]
  | buffer, e, line :: lines =>
    if (buffer ++ line).dropWhile isBlankChar |>.head? |> (· == some '#') then
      some [] :: joined [] .complete lines
    else
      let (kept, e) := scan e line
      match e with
      | .complete | .comment => some (buffer ++ kept) :: joined [] .complete lines
      | e => joined (buffer ++ line) e lines

/-- Whether a character may begin a name. -/
def beginsName (c : Char) : Bool := c.isAlpha || c == '_'

/-- Whether a character may stand in a name. -/
def inName (c : Char) : Bool := c.isAlphanum || c == '_' || c == '.'

/-- A name, and what follows it and the blanks after it. -/
def name? (cs : List Char) : Option (String × List Char) :=
  match cs with
  | c :: _ =>
    if beginsName c then
      some (String.ofList (cs.takeWhile inName), (cs.dropWhile inName).dropWhile isBlankChar)
    else none
  | [] => none

/-- What the reader of a value is in the middle of. -/
inductive Mode where
  | plain
  | escape (weak : Bool)
  | weak
  | strong
  /-- A name after a dollar sign, last character first. -/
  | reference (weak : Bool) (name : List Char)
  /-- A name in braces after a dollar sign, last character first. -/
  | braced (weak : Bool) (name : List Char)
  /-- Only blanks or a comment may follow. -/
  | done
  | comment
deriving DecidableEq, Repr

/-- The mode inside or outside quotes. -/
def Mode.inside (weak : Bool) : Mode := if weak then .weak else .plain

/-- One character of a value: the text that it adds, and the mode after it. -/
def step (lookup : String → Option String) (mode : Mode) (c : Char) : Option (List Char × Mode) :=
  let value (name : List Char) : List Char :=
    ((lookup (String.ofList name.reverse)).getD "").toList
  match mode with
  | .comment => some ([], .comment)
  | .done =>
    if c = ' ' ∨ c = '\t' then some ([], .done)
    else if c = '#' then some ([], .comment)
    else none
  | .escape weak =>
    if c = '\\' ∨ c = '\'' ∨ c = '"' ∨ c = '$' ∨ c = ' ' then some ([c], .inside weak)
    else if c = 'n' then some (['\n'], .inside weak)
    else none
  | .strong => some (if c = '\'' then ([], .plain) else ([c], .strong))
  | .reference weak name =>
    if isAlphanumeric c then some ([], .reference weak (c :: name))
    else if c = '\x7b' ∧ name.isEmpty then some ([], .braced weak [])
    else if c = '$' then some (value name, .reference weak [])
    else some (value name ++ [c], .inside weak)
  | .braced weak name =>
    if c = '\x7d' then some (value name, .inside weak)
    else some ([], .braced weak (c :: name))
  | .weak =>
    if c = '$' then some ([], .reference true [])
    else if c = '"' then some ([], .plain)
    else if c = '\\' then some ([], .escape true)
    else some ([c], .weak)
  | .plain =>
    if c = '$' then some ([], .reference false [])
    else if c = '\'' then some ([], .strong)
    else if c = '"' then some ([], .weak)
    else if c = '\\' then some ([], .escape false)
    else if c = ' ' ∨ c = '\t' then some ([], .done)
    else some ([c], .plain)

/-- The rest of a value from inside a mode. An open quote or brace has no value. -/
def valueFrom (lookup : String → Option String) : Mode → List Char → Option (List Char)
  | .plain, [] | .escape false, [] | .done, [] | .comment, [] => some []
  | .reference false name, [] => some ((lookup (String.ofList name.reverse)).getD "").toList
  | .escape true, [] | .weak, [] | .strong, [] | .reference true _, [] | .braced _ _, [] => none
  | mode, c :: cs => do
    let (text, mode) ← step lookup mode c
    return text ++ (← valueFrom lookup mode cs)

/-- What follows an equals sign and the blanks after it. -/
def afterEquals? : List Char → Option (List Char)
  | '=' :: cs => some (cs.dropWhile isBlankChar)
  | _ => none

/-- The variable of a line; a line without anything to read has none. -/
def assignment? (lookup : String → Option String) (line : List Char) :
    Option (Option (String × String)) := do
  let cs := trimEndChars (line.dropWhile isBlankChar)
  if cs.isEmpty ∨ cs.head? = some '#' then return none
  let (name, cs) ← name? cs
  let (name, cs) ← match afterEquals? cs with
    | some cs => some (name, cs)
    | none =>
      if name = "export" then do
        let (name, cs) ← name? cs
        some (name, ← afterEquals? cs)
      else none
  let value ← if cs.head? = some '#' then some [] else valueFrom lookup .plain cs
  return some (name, String.ofList value)

/-- Whether an environment can hold a value. -/
def isStorable (value : String) : Bool := !value.toList.contains '\x00'

/-- The variables of some lines over an environment, unless one of them is a fault. A variable that
is already set stays. -/
def overlay (lookup : String → Option String) :
    List (Option (List Char)) → Option (String → Option String)
  | [] | none :: _ => some lookup
  | some line :: lines =>
    match assignment? lookup line with
    | none => some lookup
    | some none => overlay lookup lines
    | some (some (name, value)) =>
      if (lookup name).isSome then overlay lookup lines
      else if isStorable value then
        overlay (fun key => if key = name then some value else lookup key) lines
      else none

/-- The runs of characters that a class has or has not. -/
def runs (inClass : Char → Bool) (cs : List Char) : List String :=
  (cs.splitBy fun a b => inClass a == inClass b).map String.ofList

/-- The names that a file may mention, be it as its own or to refer to them. -/
def mentioned (file : String) : List String :=
  [inName, isAlphanumeric, fun c => c != '\x7b' && c != '\x7d'].flatMap fun inClass =>
    (runs inClass file.toList).filter isStorable

/-- An environment with the variables of a file, which may begin with a byte order mark, unless one
of them is a fault. -/
def load (file : String) (lookup : String → Option String) : Option (String → Option String) :=
  let cs := match file.toList with
    | '\uFEFF' :: cs => cs
    | cs => cs
  overlay lookup (joined [] .complete (rawLines cs))

end EnvironmentFile

end ModelClient.Cli
