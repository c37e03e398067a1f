/-
The texts that explain the commands. They are made of the pieces in which they are written.
-/
import Reckoner.Command.Flag
import Reckoner.Text.Quoted

namespace Reckoner.Command

/-- One line about a command. -/
def short : Command → String
  | .root => "Scan, parse and evaluate Lox expressions"
  | .completion => "Generate the autocompletion script for the specified shell"
  | .evaluate => "Print the value of an expression"
  | .help => "Help about any command"
  | .parse => "Print the syntax tree of an expression"
  | .repl => "Evaluate expressions interactively"
  | .serve => "Serve the tokenize, parse and evaluate endpoints over HTTP"
  | .tokenize => "Print the tokens of a source file"

/-- What a command is for. -/
def long : Command → String
  | .help => "Help provides help for any command in the application.\n" ++
      "Simply type glox help [path to command] for full details."
  | c => c.short

/-! ## Flags -/

/-- What a flag of a command is for. -/
def Flag.usage (c : Command) : Flag → String
  | .addr => "Listen address (default :8080, env GLOX_ADDR)"
  | .config => "Path of the YAML config file (default glox.yaml, env GLOX_CONFIG)"
  | .help => "help for " ++ c.name
  | .logFormat => "Log format: text or json (env GLOX_LOG_FORMAT)"
  | .logLevel => "Log level: debug, info, warn or error (env GLOX_LOG_LEVEL)"
  | .version => "version for " ++ c.name

/-- A flag as it stands in a list. -/
def Flag.entry (f : Flag) : String :=
  (if f.letter?.isSome then "  " else "      ") ++ f.label ++ (if f.isSwitch then "" else " string")

/-- A text that is filled up with blanks to a width. -/
def fill (width : Nat) (s : String) : String :=
  s ++ String.ofList (List.replicate (width - s.length) ' ')

/-- A list of flags, with the explanations in one column. -/
def flagList (c : Command) (flags : List Flag) : String :=
  let width := (flags.map (·.entry.length)).foldl max 0
  String.intercalate "\n" (flags.map fun f => fill (width + 3) f.entry ++ f.usage c)

/-- The flags that the first command lists as its own: those of all commands too, by name. With
the flags that every command line has, or without them. -/
def rootFlags (complete : Bool) : List Flag :=
  if complete then [.config, .help, .logFormat, .logLevel, .version] else Flag.global

/-! ## Usage -/

/-- The pieces that list the commands. -/
def commandList : List String :=
  "\n\nAvailable Commands:" ::
    subcommands.map fun c => "\n  " ++ fill 12 c.name ++ c.short

/-- The pieces of the usage of the first command. -/
def rootUsage (complete : Bool) : List String :=
  ["Usage:", "\n  " ++ program ++ " [command]"] ++ commandList ++
    ["\n\nFlags:\n", flagList .root (rootFlags complete),
      "\n\nUse \"" ++ program ++ " [command] --help\" for more information about a command.", "\n"]

/-- The pieces of the usage of another command. -/
def subcommandUsage (c : Command) : List String :=
  ["Usage:", "\n  " ++ c.useLine, "\n\nFlags:\n", flagList c (Flag.ownOf c),
    "\n\nGlobal Flags:\n", flagList c Flag.global, "\n"]

/-- The pieces of the usage of a command. -/
def usage (c : Command) : List String :=
  if c = .root then rootUsage true else subcommandUsage c

/-! ## Help -/

/-- The pieces of the help for a command. -/
def helpText (c : Command) : List String :=
  [c.long ++ "\n", "\n", String.join c.usage]

/-- Text that can stand between back quotes. -/
def fitsBackquotes (s : String) : Bool :=
  s.toList.all fun c =>
    c == '\t' || (0x20 ≤ c.toNat && c.toNat ≠ 0x7F && c.toNat ≠ 0x60 && c.toNat ≠ 0xFEFF)

/-- A text between back quotes, if it can stand there. -/
def backquoted (s : String) : String :=
  if fitsBackquotes s then "\x60" ++ s ++ "\x60" else Text.quote s

/-- The pieces of the answer to a topic that there is no help for. -/
def unknownTopic (args : List String) : List String :=
  let topic := String.intercalate " " (args.map backquoted)
  ("Unknown help topic [" ++ topic ++ "]\n") :: rootUsage false

/-- The pieces of the help for a topic. -/
def topicText (args : List String) : List String :=
  match find args with
  | .ok (c, _) => c.helpText
  | .error _ => unknownTopic args

/-- The version of the program. -/
def versionText : String :=
  program ++ " version dev\n"

end Reckoner.Command
