import ModelClient.Cli.Arguments

/-!
# Commands

What the command line asks for: a chat, embeddings or an image, each with its options. The
configuration file may be named in front of the command or among its options, where it takes
precedence.
-/

namespace ModelClient.Cli

/-- What the command line asks for. -/
inductive Command where
  | chat (model system : Option String) (temperature : Option Binary64) (maxTokens : Option UInt32)
      (stream : Bool) (prompt : String)
  | embed (model : Option String) (dimensions : Option UInt32) (texts : List String)
  | image (model user : Option String) (prompt : String)
deriving DecidableEq, Repr

/-- A command and the configuration file to use. -/
structure Invocation where
  config : Option String
  command : Command
deriving DecidableEq, Repr

/-- The option that names the configuration file. -/
def configOption : Parameter := ⟨"config", some 'c', .path⟩

/-- The flag that asks for help. -/
def helpFlag : Parameter := ⟨"help", some 'h', .help⟩

/-- The options in front of a command. -/
def topParameters : List Parameter := [configOption, helpFlag, ⟨"version", some 'V', .version⟩]

/-- The option that names a model. -/
def modelOption : Parameter := ⟨"model", some 'm', .text⟩

/-- The names of the commands. -/
inductive CommandName where
  | chat
  | embed
  | image
deriving DecidableEq, Repr

namespace CommandName

/-- The command of a name. -/
def ofName? : String → Option CommandName
  | "chat" => some chat
  | "embed" => some embed
  | "image" => some image
  | _ => none

/-- The name of a command. -/
def name : CommandName → String
  | chat => "chat"
  | embed => "embed"
  | image => "image"

/-- The options of a command. -/
def parameters : CommandName → List Parameter
  | chat => [configOption, helpFlag, modelOption, ⟨"system", some 's', .text⟩,
      ⟨"temperature", some 't', .number⟩, ⟨"max-tokens", none, .count⟩, ⟨"stream", none, .flag⟩]
  | embed => [configOption, helpFlag, modelOption, ⟨"dimensions", some 'd', .count⟩]
  | image => [configOption, helpFlag, modelOption, ⟨"user", some 'u', .text⟩]

/-- What the words of a command are. -/
def words : CommandName → Words
  | chat | image => .one
  | embed => .many

/-- The command of a line that has been read; it needs at least one word. -/
def command (name : CommandName) (l : Line) : Except UsageError Command :=
  match name, l.words with
  | _, [] => .error .missingArgument
  | chat, prompt :: _ =>
    .ok (.chat (l.text? "model") (l.text? "system") (l.number? "temperature")
      (l.count? "max-tokens") (l.has "stream") prompt)
  | embed, texts => .ok (.embed (l.text? "model") (l.count? "dimensions") texts)
  | image, prompt :: _ => .ok (.image (l.text? "model") (l.text? "user") prompt)

end CommandName

/-- What comes of asking for help on the commands that some words name. -/
def helpOn : List String → UsageError
  | [] => .help none
  | [name] =>
    if name = "help" ∨ (CommandName.ofName? name).isSome then .help (some name) else .invalidCommand
  | _ => .invalidCommand

/-- A usage error among the arguments of a command. -/
def UsageError.within (name : String) : UsageError → UsageError
  | .help none => .help (some name)
  | e => e

/-- What a line without a command lacks. -/
def withoutCommand (l : Line) : UsageError :=
  if l.given.isEmpty then .noArguments else .missingCommand

/-- The invocation of a command, after the options in front of it. -/
def invoke (l : Line) (name : CommandName) (rest : List String) : Except UsageError Invocation := do
  let own ← (Line.read name.parameters name.words false {} rest).mapError (·.within name.name)
  let command ← name.command own
  let l ← l.settle
  return { config := own.text? "config" <|> l.text? "config", command }

/-- Reads the arguments in front of a command. -/
def readTop : (literal : Bool) → Line → List String → Except UsageError Invocation
  | _, l, [] => do .error (withoutCommand (← l.settle))
  | literal, l, s :: rest => do
    let awaitsValue := match l.pending with
      | some (_, none) => true
      | _ => false
    if literal then
      .error (if (CommandName.ofName? s).isSome ∨ s = "help" then .unknownArgument
        else .invalidCommand)
    else if s = "--" then readTop true l rest
    else if !awaitsValue ∧ s = "help" then
      .error (helpOn rest)
    else match awaitsValue, CommandName.ofName? s with
      | false, some name => invoke l name rest
      | _, _ => readTop false (← l.argument topParameters .command false s) rest

/-- The invocation that a command line asks for. -/
def Invocation.read (arguments : List String) : Except UsageError Invocation :=
  readTop false {} arguments

end ModelClient.Cli
