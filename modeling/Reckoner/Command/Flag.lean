/-
Flags: which ones a command has, and how they are read from its arguments.
-/
import Reckoner.Command.Basic

namespace Reckoner.Command

/-- The flags. -/
inductive Flag where
  | addr
  | config
  | help
  | logFormat
  | logLevel
  | version
  deriving DecidableEq, Repr

namespace Flag

/-- The name of a flag. -/
def name : Flag → String
  | .addr => "addr"
  | .config => "config"
  | .help => "help"
  | .logFormat => "log-format"
  | .logLevel => "log-level"
  | .version => "version"

/-- The letter of a flag. -/
def letter? : Flag → Option Char
  | .help => some 'h'
  | .version => some 'v'
  | _ => none

/-- A flag that is either there or not. -/
def isSwitch : Flag → Bool
  | .help => true
  | .version => true
  | _ => false

/-- The ways to write a flag. -/
def label (f : Flag) : String :=
  match f.letter? with
  | some c => "-" ++ String.singleton c ++ ", --" ++ f.name
  | none => "--" ++ f.name

/-- The flags of all commands, by name. -/
def global : List Flag :=
  [.config, .logFormat, .logLevel]

/-- The flags of a command besides those of all commands, by name. -/
def ownOf : Command → List Flag
  | .root => [.help, .version]
  | .serve => [.addr, .help]
  | _ => [.help]

/-- The flags of a command. -/
def ofCommand (c : Command) : List Flag :=
  ownOf c ++ global

end Flag

/-- What the arguments of a command say: the flags and the operands. An empty text stands for a
flag that is not there. -/
structure Parsed where
  config : String
  logLevel : String
  logFormat : String
  addr : String
  help : Bool
  version : Bool
  operands : List String
  deriving DecidableEq, Repr

namespace Parsed

/-- Nothing said so far. -/
def nothing : Parsed :=
  ⟨"", "", "", "", false, false, []⟩

end Parsed

/-- What is wrong with a flag. -/
inductive FlagError where
  | badSyntax (arg : String)
  | unknown (name : String)
  | unknownLetter (letter : Char) (letters : String)
  | needsArgument (name : String)
  | notBool (value : String) (flag : Flag)
  deriving DecidableEq, Repr

/-- A character between single quotes. -/
def quoteChar (c : Char) : String :=
  if c = '\'' then "'\\''"
  else if c = '"' then "'\"'"
  else "'" ++ Text.escape c ++ "'"

namespace FlagError

/-- The text of a fault. -/
def message : FlagError → String
  | .badSyntax arg => "bad flag syntax: " ++ arg
  | .unknown name => "unknown flag: --" ++ name
  | .unknownLetter letter letters =>
    "unknown shorthand flag: " ++ quoteChar letter ++ " in -" ++ letters
  | .needsArgument name => "flag needs an argument: --" ++ name
  | .notBool value flag =>
    "invalid argument " ++ Text.quote value ++ " for " ++ Text.quote flag.label ++
      " flag: strconv.ParseBool: parsing " ++ Text.quote value ++ ": invalid syntax"

end FlagError

/-! ## Values -/

/-- The truth value that a text stands for. -/
def boolOf? (s : String) : Option Bool :=
  if ["1", "t", "T", "TRUE", "true", "True"].contains s then some true
  else if ["0", "f", "F", "FALSE", "false", "False"].contains s then some false
  else none

/-- Takes note of a flag with a value. -/
def Parsed.set (p : Parsed) (f : Flag) (value : String) : Except FlagError Parsed :=
  match f with
  | .addr => .ok { p with addr := value }
  | .config => .ok { p with config := value }
  | .logFormat => .ok { p with logFormat := value }
  | .logLevel => .ok { p with logLevel := value }
  | .help =>
    match boolOf? value with
    | some b => .ok { p with help := b }
    | none => .error (.notBool value .help)
  | .version =>
    match boolOf? value with
    | some b => .ok { p with version := b }
    | none => .error (.notBool value .version)

/-! ## Arguments -/

/-- The first byte of a character, read as a character by itself. -/
def firstByte (c : Char) : Char :=
  match (String.singleton c).toUTF8.toList with
  | b :: _ => Char.ofNat b.toNat
  | [] => c

/-- Reads letters that stand behind one dash. An equals sign behind a letter begins its value;
letters that name a test flag are passed over. -/
def setLetters (flags : List Flag) (p : Parsed) : List Char → Except FlagError Parsed
  | [] => .ok p
  | c :: rest =>
    if "test.".toList.isPrefixOf (c :: rest) then .ok p
    else match flags.find? (·.letter? == some c) with
      | none => .error (.unknownLetter (firstByte c) (String.ofList (c :: rest)))
      | some f =>
        match rest with
        | '=' :: v :: value => p.set f (String.ofList (v :: value))
        | _ =>
          match p.set f "true" with
          | .ok p' => setLetters flags p' rest
          | .error e => .error e

/-- A long flag: its name and the value behind an equals sign, if there is one. -/
def longFlag (body : List Char) : String × Option String :=
  let name := String.ofList (body.takeWhile (· != '='))
  match body.dropWhile (· != '=') with
  | [] => (name, none)
  | _ :: value => (name, some (String.ofList value))

/-- The body of a long flag is malformed. -/
def isMalformed : List Char → Bool
  | [] => true
  | c :: _ => c == '-' || c == '='

/-- Reads a long flag, which may take the next argument as its value. The flag in the answer says
whether it does. -/
def setLong (flags : List Flag) (p : Parsed) (arg : String) (body : List Char)
    (next : Option String) : Except FlagError (Parsed × Bool) :=
  let (name, value?) := longFlag body
  if isMalformed body then .error (.badSyntax arg)
  else match flags.find? (·.name == name) with
    | none => .error (.unknown name)
    | some f =>
      match value?, f.isSwitch, next with
      | some value, _, _ => (p.set f value).map (·, false)
      | none, true, _ => (p.set f "true").map (·, false)
      | none, false, some value => (p.set f value).map (·, true)
      | none, false, none => .error (.needsArgument name)

/-- Reads the arguments of a command, on top of what was said before. Two dashes end the flags. -/
def readArgs (flags : List Flag) (p : Parsed) : List String → Except FlagError Parsed
  | [] => .ok p
  | arg :: rest =>
    match arg.toList with
    | ['-', '-'] => .ok { p with operands := p.operands ++ rest }
    | '-' :: '-' :: body =>
      match setLong flags p arg body rest.head? with
      | .error e => .error e
      | .ok (p', false) => readArgs flags p' rest
      | .ok (p', true) =>
        match rest with
        | _ :: later => readArgs flags p' later
        | [] => .ok p'
    | '-' :: c :: letters =>
      match setLetters flags p (c :: letters) with
      | .ok p' => readArgs flags p' rest
      | .error e => .error e
    | _ => readArgs flags { p with operands := p.operands ++ [arg] } rest

/-- What the arguments of a command say. -/
def read (c : Command) (args : List String) : Except FlagError Parsed :=
  readArgs (Flag.ofCommand c) .nothing args

end Reckoner.Command
