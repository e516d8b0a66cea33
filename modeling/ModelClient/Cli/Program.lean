import ModelClient.ChatModel.Stream
import ModelClient.Cli.Command
import ModelClient.Cli.EnvironmentFile
import ModelClient.Cli.Help
import ModelClient.Config.Environment
import ModelClient.Config.Models

/-!
# The program

What a command prints. The configuration is the file that the command line names, or else the one in
the user's home if there is one, overlaid with the environment; an environment file in the working
directory adds variables that are not set. A failure is told on the error output.
-/

namespace ModelClient.Cli

open Json

/-- What the program finds around it. -/
structure Surroundings where
  /-- The content of a file; a file that is not there or is no text has none. -/
  file : String → Option String
  /-- Where the configuration file in the user's home is, if there is one. -/
  homeConfig : Option String
  /-- The content of the environment file, if there is one. -/
  environmentFile : Option String
  lookup : String → Option String

/-- What the program prints, and its exit code. -/
structure Output where
  code : UInt8 := 0
  out : String := ""
  err : String := ""
deriving DecidableEq, Repr

/-- What the program prints in place of running a command. -/
def UsageError.output : UsageError → Output
  | help command => { out := (HelpPage.ofCommand command).write }
  | version => { out := "ytoai 0.1.0\n" }
  | _ => { code := 2, err := HelpPage.program.write }

/-- Why a command fails. -/
inductive Failure where
  | error (e : Error)
  /-- The configuration file says no configuration. -/
  | unreadableConfig
  /-- The section of the model is not enabled. -/
  | disabled (part : String)
  /-- The environment file has a variable that no environment can hold. -/
  | fault
deriving DecidableEq, Repr

/-- The failure in words. -/
def Failure.message : Failure → String
  | error e => e.message
  | unreadableConfig => "Configuration error"
  | disabled name => s!"{name} model is disabled in the configuration"
  | fault => "a variable cannot be set"

/-- What the program prints when a command fails. A fault is not told. -/
def Failure.output : Failure → Output
  | fault => { code := 101 }
  | failure => { code := 1, err := s!"Error: {failure.message}\n" }

/-- The configuration of a text. -/
def readConfig (text : String) : Except Failure Config :=
  match Config.ofToml? text with
  | some c => .ok c
  | none => .error .unreadableConfig

/-- The variables of the surroundings, with the ones that the environment file adds. -/
def loadVariables (s : Surroundings) : Except Failure (String → Option String) :=
  match s.environmentFile with
  | none => .ok s.lookup
  | some file => match EnvironmentFile.load file s.lookup with
    | some lookup => .ok lookup
    | none => .error .fault

/-- The configuration that the command line and the surroundings make up. -/
def loadConfig (path : Option String) (s : Surroundings) : Except Failure Config := do
  let lookup ← loadVariables s
  let config ← match path <|> s.homeConfig with
    | some path => match s.file path with
      | some text => readConfig text
      | none => .error (.error .io)
    | none => .ok {}
  match config.overlay lookup with
  | (config, none) => return config
  | (_, some e) => .error (.error e)

/-- What a run prints: its result, or its failure after what it has printed so far. -/
def report {α : Type} (printed : String) (print : α → Output) : Except Stop α → Output
  | .ok a => print a
  | .error (.error e) => { code := 1, out := printed, err := s!"Error: {e.message}\n" }
  | .error (.halt _) => { code := 101, out := printed }

/-- The items that a stream has handed out. -/
def itemsOf (effects : List Effect) : List (Except Error ChatResponse) :=
  effects.filterMap fun
    | .yielded item => some item
    | _ => none

/-- The texts of a stream up to its first error, and the error. -/
def textsOf : List (Except Error ChatResponse) → String × Option Error
  | [] => ("", none)
  | .error e :: _ => ("", some e)
  | .ok part :: rest =>
    let (text, e) := textsOf rest
    (part.text ++ text, e)

/-- What a streamed chat prints. -/
def printStream (outcome : Outcome Session Unit) : Output :=
  match textsOf (itemsOf outcome.effects) with
  | (text, some e) => { code := 1, out := text, err := s!"Error: {e.message}\n" }
  | (text, none) => report text (fun () => { out := text ++ "\n" }) outcome.value

/-- What a chat prints. -/
def printChat (r : ChatResponse) : Output :=
  let u := r.metadata.usage
  { out := r.text ++ "\n"
    err := if u.isEmpty then "" else
      s!"tokens: prompt={u.promptTokens} generation={u.generationTokens} total={u.totalTokens}\n" }

/-- The text of a vector's component. -/
def writeComponent (x : Binary32) : List Char :=
  if x.isFinite then
    let magnitude := Binary.Format.single.write Number.style x.pattern
    if x.negative then '-' :: magnitude else magnitude
  else ['n', 'u', 'l', 'l']

/-- A vector on a line. -/
def writeVector (v : List Binary32) : String :=
  "[" ++ String.intercalate "," (v.map fun x => String.ofList (writeComponent x)) ++ "]\n"

/-- What embeddings print. -/
def printEmbeddings (r : EmbeddingResponse) : Output :=
  { out := String.join (r.embeddings.map fun e => writeVector e.vector)
    err := s!"model={r.model} total_tokens={r.usage.totalTokens}\n" }

/-- What images print. -/
def printImages (r : ImageResponse) : Output :=
  { out := String.join (r.images.filterMap fun i => i.url.map (· ++ "\n"))
    err := if r.images.isEmpty then "No image returned\n" else "" }

/-- The model of a section, which has to be enabled. -/
def enabledModel {α : Type} (name : String) : Option α → Except Failure α
  | some model => .ok model
  | none => .error (.disabled name)

/-- What a command prints, and what it does to the outside. -/
def Command.run (command : Command) (config : Config) (service : Service) :
    Except Failure (Output × List Effect) := do
  let models ← (Models.build config {}).mapError .error
  let session : Session := { service, leavesOnError := true }
  match command with
  | .chat model system temperature maxTokens stream prompt =>
    let chat ← enabledModel "chat" models.chat
    let prompt : Prompt := {
      messages := (system.map Message.system).toList ++ [.user prompt []]
      options := some { model, temperature, maxTokens } }
    if stream then
      let outcome := chat.stream prompt session
      return (printStream outcome, outcome.effects)
    else
      let outcome := chat.call prompt session
      return (report "" printChat outcome.value, outcome.effects)
  | .embed model dimensions texts =>
    let embedding ← enabledModel "embedding" models.embedding
    let outcome := embedding.call { inputs := texts, options := some { model, dimensions } } session
    return (report "" printEmbeddings outcome.value, outcome.effects)
  | .image model user prompt =>
    let image ← enabledModel "image" models.image
    let outcome :=
      image.call { ImagePrompt.ofText prompt with options := some { model, user } } session
    return (report "" printImages outcome.value, outcome.effects)

/-- What an invocation prints, and what it does to the outside. -/
def Invocation.run (i : Invocation) (s : Surroundings) (service : Service) : Output × List Effect :=
  match loadConfig i.config s >>= fun config => i.command.run config service with
  | .ok result => result
  | .error failure => (failure.output, [])

end ModelClient.Cli
