/-
The commands, and how the one that is meant is found among the arguments.
-/
import Reckoner.Mode
import Reckoner.Text.Blank
import Reckoner.Text.LowerCase

namespace Reckoner

/-- The commands. The first one holds all others. -/
inductive Command where
  | root
  | completion
  | evaluate
  | help
  | parse
  | repl
  | serve
  | tokenize
  deriving DecidableEq, Repr

namespace Command

/-- The name of the program. -/
def program : String := "glox"

/-- The commands below the first one, by name. -/
def subcommands : List Command :=
  [.completion, .evaluate, .help, .parse, .repl, .serve, .tokenize]

/-- The name of a command. -/
def name : Command → String
  | .root => program
  | .completion => "completion"
  | .evaluate => "evaluate"
  | .help => "help"
  | .parse => "parse"
  | .repl => "repl"
  | .serve => "serve"
  | .tokenize => "tokenize"

/-- The mode of the commands that run a file. -/
def mode? : Command → Option Mode
  | .evaluate => some .evaluate
  | .parse => some .parse
  | .tokenize => some .tokenize
  | _ => none

/-- A command that does something other than hold commands. -/
def isRunnable : Command → Bool
  | .root => false
  | .completion => false
  | _ => true

/-- The names that lead to a command. -/
def path (c : Command) : String :=
  if c = .root then program else program ++ " " ++ c.name

/-- How a command is used. -/
def useLine (c : Command) : String :=
  let operands := match c with
    | .help => " [command]"
    | _ => if c.mode?.isSome then " <filename>" else ""
  c.path ++ operands ++ " [flags]"

/-! ## Finding the command -/

/-- An argument that a value may follow as the next argument. The flags are not yet known, so that
this holds for every flag without an equals sign, if it is long or a single letter. -/
def mayTakeNext (arg : String) : Bool :=
  !arg.toList.contains '=' && (arg.startsWith "--" || (arg.startsWith "-" && arg.utf8ByteSize == 2))

/-- The arguments that are neither flags nor their values. A flag with at most one argument behind
it ends the search. -/
def operands : List String → List String
  | [] => []
  | arg :: rest =>
    if arg = "--" then []
    else if mayTakeNext arg then
      match rest with
      | _ :: second :: later => operands (second :: later)
      | _ => []
    else if arg ≠ "" && !arg.startsWith "-" then arg :: operands rest
    else operands rest

/-- The arguments without the first operand that is a given name. -/
def without (name : String) : List String → List String
  | [] => []
  | arg :: rest =>
    if arg = "--" then arg :: rest
    else if mayTakeNext arg then
      match rest with
      | value :: later => arg :: value :: without name later
      | [] => [arg]
    else if arg = name then rest
    else arg :: without name rest

/-- No command has the name. -/
structure UnknownCommand where
  name : String
  deriving DecidableEq, Repr

/-- The command that some arguments mean, and the arguments without its name. Without operands the
first command is meant. -/
def find (args : List String) : Except UnknownCommand (Command × List String) :=
  match operands args with
  | [] => .ok (.root, args)
  | word :: _ =>
    match subcommands.find? (·.name == word) with
    | some c => .ok (c, without word args)
    | none => .error ⟨word⟩

/-! ## Suggestions -/

/-- The next row of the table of distances, from the row above, the distance to its left and the
entry above that. -/
def distanceRow (b : UInt8) : List UInt8 → List Nat → Nat → Nat → List Nat
  | a :: as, above :: row, left, diagonal =>
    let d := min (min (above + 1) (left + 1)) (diagonal + if a = b then 0 else 1)
    d :: distanceRow b as row d above
  | _, _, _, _ => []

/-- The number of bytes to insert, delete or replace that lead from one sequence to another. -/
def distance (s t : List UInt8) : Nat :=
  let next (row : List Nat) (b : UInt8) : List Nat :=
    match row with
    | [] => []
    | first :: rest => (first + 1) :: distanceRow b s rest (first + 1) first
  (t.foldl next (List.range (s.length + 1))).getLast?.getD 0

/-- The commands whose names are near to a word, or begin with it. Case does not matter. -/
def suggestions (word : String) : List Command :=
  let typed := Text.lower word
  subcommands.filter fun c => c ≠ .help &&
    (distance typed.toUTF8.toList c.name.toUTF8.toList ≤ 2 || c.name.startsWith typed)

namespace UnknownCommand

/-- The text that says that there is no such command, with those that may be meant. -/
def message (e : UnknownCommand) : String :=
  let unknown := "unknown command " ++ Text.quote e.name ++ " for " ++ Text.quote program
  match suggestions e.name with
  | [] => unknown
  | cs =>
    unknown ++ "\n\nDid you mean this?\n" ++ String.join (cs.map fun c => "\t" ++ c.name ++ "\n")

end UnknownCommand

end Command

end Reckoner
