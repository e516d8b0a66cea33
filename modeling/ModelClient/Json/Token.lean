import ModelClient.Json.Number

/-!
# Tokens of a JSON text

The lexer is a machine that takes one character after the other and keeps the token it is in the
middle of. A place in the text whose bytes are no character arrives as `none`; it is allowed inside
a string only. A string that has such a place, or a surrogate without its partner, is a token
without content (`str none`), and so is a number that is too large (`num none`): whether that is an
error depends on whether anyone asks for the value.
-/

namespace ModelClient.Json

/-- A token of a JSON text. -/
inductive Token where
  | openArray
  | closeArray
  | openObject
  | closeObject
  | comma
  | colon
  | null
  | bool (b : Bool)
  | num (n : Option Number)
  | str (s : Option String)
deriving DecidableEq

/-- A part of a string's content: a character, a 16-bit unit written as an escape, or a place that
is no character. -/
inductive Piece where
  | char (c : Char)
  | unit (n : Nat)
  | invalid
deriving DecidableEq, Repr

/-- Whether a unit is the first of a surrogate pair. -/
def isHighSurrogate (n : Nat) : Bool := 0xD800 ≤ n && n < 0xDC00

/-- Whether a unit is the second of a surrogate pair. -/
def isLowSurrogate (n : Nat) : Bool := 0xDC00 ≤ n && n < 0xE000

/-- The characters of a string's content, `none` if a part of it stands for no character. -/
def assemble : List Piece → Option (List Char)
  | [] => some []
  | .char c :: rest => (assemble rest).map (c :: ·)
  | .invalid :: _ => none
  | .unit n :: rest =>
    if isHighSurrogate n then
      match rest with
      | .unit m :: rest =>
        if isLowSurrogate m then
          let c := Char.ofNat (0x10000 + (n - 0xD800) * 0x400 + (m - 0xDC00))
          (assemble rest).map (c :: ·)
        else none
      | _ => none
    else if isLowSurrogate n then none
    else (assemble rest).map (Char.ofNat n :: ·)

/-- What the lexer is in the middle of; characters and pieces are listed last first. -/
inductive Mode where
  | between
  | word (chars : List Char)
  | text (pieces : List Piece)
  | escape (pieces : List Piece)
  | hex (pieces : List Piece) (value due : Nat)
deriving DecidableEq, Repr

/-- The lexer's mode and the tokens it has completed, last first. -/
structure Lexer where
  mode : Mode
  tokens : List Token

/-- White space between tokens. -/
def isSpace (c : Char) : Bool := c == ' ' || c == '\t' || c == '\n' || c == '\r'

/-- The token of a punctuation character. -/
def punctuation? : Char → Option Token
  | '[' => some .openArray
  | ']' => some .closeArray
  | '\x7b' => some .openObject
  | '\x7d' => some .closeObject
  | ',' => some .comma
  | ':' => some .colon
  | _ => none

/-- The token that a word is: a literal or a number. -/
def word? (chars : List Char) : Option Token :=
  match chars with
  | ['n', 'u', 'l', 'l'] => some .null
  | ['t', 'r', 'u', 'e'] => some (.bool true)
  | ['f', 'a', 'l', 's', 'e'] => some (.bool false)
  | _ => (Spelling.ofChars? chars).map fun s => .num s.number?

/-- The character that an escape of one letter stands for. -/
def escape? : Char → Option Char
  | '"' => some '"'
  | '\\' => some '\\'
  | '/' => some '/'
  | 'b' => some '\x08'
  | 'f' => some '\x0c'
  | 'n' => some '\n'
  | 'r' => some '\r'
  | 't' => some '\t'
  | _ => none

/-- The value of a hexadecimal digit. -/
def hexValue? (c : Char) : Option Nat :=
  if '0' ≤ c ∧ c ≤ '9' then some (c.toNat - '0'.toNat)
  else if 'a' ≤ c ∧ c ≤ 'f' then some (c.toNat - 'a'.toNat + 10)
  else if 'A' ≤ c ∧ c ≤ 'F' then some (c.toNat - 'A'.toNat + 10)
  else none

namespace Lexer

/-- A character that starts something new. -/
def start (tokens : List Token) (c : Char) : Lexer :=
  if isSpace c then ⟨.between, tokens⟩
  else if c = '"' then ⟨.text [], tokens⟩
  else match punctuation? c with
    | some t => ⟨.between, t :: tokens⟩
    | none => ⟨.word [c], tokens⟩

/-- Whether a character ends a word. -/
def endsWord (c : Char) : Bool := isSpace c || c == '"' || (punctuation? c).isSome

/-- One character, or a place that is none. -/
def step (l : Lexer) (c : Option Char) : Option Lexer :=
  match l.mode, c with
  | .between, some c => some (start l.tokens c)
  | .word chars, some c =>
    if endsWord c then (word? chars.reverse).map fun t => start (t :: l.tokens) c
    else some { l with mode := .word (c :: chars) }
  | .text pieces, some c =>
    if c = '"' then
      some ⟨.between, .str ((assemble pieces.reverse).map String.ofList) :: l.tokens⟩
    else if c = '\\' then some { l with mode := .escape pieces }
    else if c.toNat < 0x20 then none
    else some { l with mode := .text (.char c :: pieces) }
  | .text pieces, none => some { l with mode := .text (.invalid :: pieces) }
  | .escape pieces, some c =>
    if c = 'u' then some { l with mode := .hex pieces 0 4 }
    else (escape? c).map fun e => { l with mode := .text (.char e :: pieces) }
  | .hex pieces value due, some c => do
    let value := value * 16 + (← hexValue? c)
    if due ≤ 1 then some { l with mode := .text (.unit value :: pieces) }
    else some { l with mode := .hex pieces value (due - 1) }
  | .between, none | .word _, none | .escape _, none | .hex _ _ _, none => none

/-- The tokens at the end of the text, which must not stand inside a string. -/
def finish (l : Lexer) : Option (List Token) :=
  match l.mode with
  | .between => some l.tokens.reverse
  | .word chars => (word? chars.reverse).map fun t => (t :: l.tokens).reverse
  | .text _ | .escape _ | .hex _ _ _ => none

end Lexer

/-- The tokens of a text. -/
def tokens? (text : List (Option Char)) : Option (List Token) := do
  (← text.foldlM Lexer.step ⟨.between, []⟩).finish

end ModelClient.Json
