import ModelClient.Text.Blank
import ModelClient.Text.Utf8
import ModelClient.Error

/-!
# Event stream lines

The body of a streamed answer is a sequence of lines, each of which may carry data. The body arrives
in pieces that are cut anywhere, inside a line or inside a character; `lines` puts the pieces
together until a line is complete and only then reads it as text. When the connection breaks, the
line that is not complete is lost and the error ends the sequence.
-/

namespace ModelClient.Sse

/-- The byte that ends a line. -/
def newline : UInt8 := 10

/-- The complete lines at the start of a byte sequence, each without its newline, and the rest. -/
def cut : List UInt8 → List (List UInt8) × List UInt8
  | [] => ([], [])
  | b :: bytes =>
    match cut bytes with
    | (lines, rest) =>
      if b = newline then ([] :: lines, rest)
      else match lines with
        | [] => ([], b :: rest)
        | line :: lines => ((b :: line) :: lines, rest)

/-- The text of a line. Blank characters around it do not count. -/
def lineText (bytes : List UInt8) : String := Text.trim (Text.decodeLossy bytes)

/-- The lines of a body that arrives in pieces, after the bytes `buffer` of a line that has begun.
-/
def linesFrom : (buffer : List UInt8) → List (Except Error (List UInt8)) →
    List (Except Error String)
  | buffer, [] => if buffer.isEmpty then [] else [.ok (lineText buffer)]
  | _, .error e :: _ => [.error e]
  | buffer, .ok piece :: pieces =>
    let (complete, rest) := cut (buffer ++ piece)
    complete.map (fun line => .ok (lineText line)) ++ linesFrom rest pieces

/-- The lines of a body that arrives in pieces. A last line without a newline counts if it has any
bytes. -/
def lines (pieces : List (Except Error (List UInt8))) : List (Except Error String) :=
  linesFrom [] pieces

/-- What stands in front of a line's data. -/
def dataMark : List Char := ['d', 'a', 't', 'a', ':']

/-- The data of a line, unless it is the mark that nothing more will come. -/
def data? (line : String) : Option String :=
  if dataMark.isPrefixOf line.toList then
    let data := Text.trimStart (String.ofList (line.toList.drop dataMark.length))
    if data = "[DONE]" then none else some data
  else none

/-- Whether a line holds nothing or a comment. -/
def isIgnored (line : String) : Bool :=
  match line.toList with
  | [] => true
  | c :: _ => c == ':'

end ModelClient.Sse
