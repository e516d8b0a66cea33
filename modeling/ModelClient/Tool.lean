import ModelClient.Run
import ModelClient.Json.Printer

/-!
# Tools

A tool is a function that the model may call. It takes JSON and gives JSON; the model sends the
arguments as text and receives the result as text. The tools known to a model are kept by name, the
latest one of a name in place of an earlier one.
-/

namespace ModelClient

open Json

/-- A function that the model may call. -/
structure Tool where
  name : String
  description : String
  /-- The JSON schema of the arguments. -/
  schema : Json
  /-- What the function gives for arguments. It depends on the arguments alone: a tool that keeps a
  state of its own, or that looks at the world around it, is not one of these. -/
  run : Json → Except Error Json

namespace Tool

/-- The arguments of a call: blank text stands for no arguments. -/
def arguments (t : Tool) (text : String) : Except Error Json :=
  if Text.isBlank text then .ok (.obj [])
  else match Json.ofString? text with
    | some arguments => .ok arguments
    | none => .error (.toolExecution t.name "invalid arguments")

/-- Runs the tool on arguments given as text. Arguments that are no JSON fail before it runs. -/
def call {σ : Type} (t : Tool) (text : String) : Run σ String := do
  let arguments ← Run.ofExcept (t.arguments text)
  .emit (.ran t.name arguments)
  let result ← Run.ofExcept (t.run arguments)
  return result.plain

end Tool

/-- Tools by name. -/
abbrev ToolRegistry := Dict Tool

namespace ToolRegistry

/-- The registry with a tool, in place of any other of the same name. -/
def register (r : ToolRegistry) (t : Tool) : ToolRegistry := r.insert t.name t

/-- The registry with some tools, one after the other. -/
def registerAll (r : ToolRegistry) (tools : List Tool) : ToolRegistry := tools.foldl register r

/-- The tool of a name that a request enables. -/
def enabled (r : ToolRegistry) (name : String) : Except Error Tool :=
  match r.get? name with
  | some t => .ok t
  | none => .error (.invalidArgument s!"No function callback found for name: {name}")

/-- The tools of some names, in the order of the names. -/
def resolve (r : ToolRegistry) (names : NameSet) : Except Error (List Tool) :=
  names.names.mapM r.enabled

end ToolRegistry

end ModelClient
