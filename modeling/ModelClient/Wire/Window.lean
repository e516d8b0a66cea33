import ModelClient.Wire.Merge
import ModelClient.Sse

/-!
# Frames and windows of a streamed answer

A frame is a chunk that arrives on a line of its own. A frame without a tool call is passed on as it
is. A frame with a tool call opens a window: it is merged with the frames after it until one gives a
reason for having stopped, or until the stream ends, and the merged chunk is passed on in their
place. An error ends the stream, and the frames of a window that is still open are then lost.
-/

namespace ModelClient.Wire

open Json

/-- The frame of a line; lines that carry no chunk are passed over. -/
def frame? (line : String) : Option Chunk := do
  if Sse.isIgnored line then none
  else Chunk.decode (← Doc.ofString? (← Sse.data? line))

/-- The frames of a body's lines, and its errors. -/
def frames (lines : List (Except Error String)) : List (Except Error Chunk) :=
  lines.filterMap fun
    | .ok line => (frame? line).map .ok
    | .error e => some (.error e)

/-- The chunks of a stream of frames, inside the given window. -/
def windowsFrom : (window : Option Chunk) → List (Except Error Chunk) → List (Except Error Chunk)
  | none, [] => []
  | some merged, [] => [.ok merged]
  | _, .error e :: _ => [.error e]
  | window, .ok frame :: rest =>
    if window.isNone && !frame.hasToolCall then .ok frame :: windowsFrom none rest
    else match Chunk.mergeOnto window frame with
      | .error e => [.error e]
      | .ok merged =>
        if frame.isLast then .ok merged :: windowsFrom none rest
        else windowsFrom (some merged) rest

/-- The chunks of a body's lines. -/
def chunks (lines : List (Except Error String)) : List (Except Error Chunk) :=
  windowsFrom none (frames lines)

end ModelClient.Wire
