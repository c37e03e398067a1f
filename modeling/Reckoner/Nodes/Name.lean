/-
Names in Go: letters, digits and underscores, not beginning with a digit, and no keywords.
-/
import Reckoner.Text.Digit

namespace Reckoner.Nodes

/-- The words that are no names. -/
def keywords : List String :=
  ["break", "case", "chan", "const", "continue", "default", "defer", "else", "fallthrough", "for",
    "func", "go", "goto", "if", "import", "interface", "map", "package", "range", "return",
    "select", "struct", "switch", "type", "var"]

/-- A character that a name can begin with. -/
def isNameStart (c : Char) : Bool :=
  Text.isLetter c || c == '_'

/-- A character that can stand in a name. -/
def isNameChar (c : Char) : Bool :=
  isNameStart c || Text.isDigit c

/-- A name. -/
def isName (s : String) : Bool :=
  match s.toList with
  | [] => false
  | c :: rest => isNameStart c && rest.all isNameChar && !keywords.contains s

end Reckoner.Nodes
