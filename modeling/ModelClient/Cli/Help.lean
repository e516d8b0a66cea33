import ModelClient.Cli.Arguments

/-!
# Help

What the program prints when it is asked how it is used: a page for the program and one for each
command. A page says what the command is for and how it is called, and then lists its words and its
options, each list with the explanations in one column.
-/

namespace ModelClient.Cli

/-- A page of help. -/
structure HelpPage where
  about : String
  /-- The call, after the program's name. -/
  call : String
  /-- Titled lists of terms with their explanations. -/
  lists : List (String × List (String × String))

namespace HelpPage

/-- A list of terms, one to a line, with the explanations in one column. -/
def writeList (title : String) (rows : List (String × String)) : String :=
  let width := (rows.map (·.1.length)).foldl max 0
  title ++ ":\n" ++ String.join (rows.map fun (term, explanation) =>
    "  " ++ term.pushn ' ' (width - term.length + 2) ++ explanation ++ "\n")

/-- The page as it is printed. -/
def write (p : HelpPage) : String :=
  p.about ++ "\n\nUsage: ytoai " ++ p.call ++ "\n" ++
    String.join (p.lists.map fun (title, rows) => "\n" ++ writeList title rows)

/-- The row of the option that names the configuration file. -/
def configRow : String × String :=
  ("-c, --config <CONFIG>", "Config file (defaults to ~/.ytoai/config.toml when present)")

/-- The row of the flag that asks for help. -/
def helpRow : String × String := ("-h, --help", "Print help")

/-- The page of the program. -/
def program : HelpPage where
  about := "Chat, embed and generate images with YtoAI"
  call := "[OPTIONS] <COMMAND>"
  lists := [
    ("Commands", [("chat", "Chat with a model"), ("embed", "Embed one or more texts"),
      ("image", "Generate an image"),
      ("help", "Print this message or the help of the given subcommand(s)")]),
    ("Options", [configRow, helpRow, ("-V, --version", "Print version")])]

/-- The page of a chat. -/
def chat : HelpPage where
  about := "Chat with a model"
  call := "chat [OPTIONS] <PROMPT>"
  lists := [
    ("Arguments", [("<PROMPT>", "User prompt")]),
    ("Options", [configRow, ("-m, --model <MODEL>", "Model to use (e.g. glm-4-air)"),
      ("-s, --system <SYSTEM>", "System prompt"),
      ("-t, --temperature <TEMPERATURE>", "Temperature (0.0 - 1.0)"),
      ("    --max-tokens <MAX_TOKENS>", "Max tokens"),
      ("    --stream", "Print partial responses as they arrive"), helpRow])]

/-- The page of embeddings. -/
def embed : HelpPage where
  about := "Embed one or more texts"
  call := "embed [OPTIONS] <TEXTS>..."
  lists := [
    ("Arguments", [("<TEXTS>...", "Texts to embed")]),
    ("Options", [configRow, ("-m, --model <MODEL>", "Model to use (e.g. embedding-3)"),
      ("-d, --dimensions <DIMENSIONS>", "Output dimensions"), helpRow])]

/-- The page of an image. -/
def image : HelpPage where
  about := "Generate an image"
  call := "image [OPTIONS] <PROMPT>"
  lists := [
    ("Arguments", [("<PROMPT>", "Image description")]),
    ("Options", [configRow, ("-m, --model <MODEL>", "Model to use (e.g. cogview-3)"),
      ("-u, --user <USER>", "End-user id forwarded to the API"), helpRow])]

/-- The page on help itself. -/
def help : HelpPage where
  about := "Print this message or the help of the given subcommand(s)"
  call := "help [COMMAND]..."
  lists := [("Arguments", [("[COMMAND]...", "Print help for the subcommand(s)")])]

/-- The page of a command, or of the program. -/
def ofCommand : Option String → HelpPage
  | some "chat" => chat
  | some "embed" => embed
  | some "image" => image
  | some "help" => help
  | _ => program

end HelpPage

end ModelClient.Cli
