/-
Specifications of node types: a name, a colon, and fields with types between commas.
-/
import Reckoner.Text.Blank

namespace Reckoner.Nodes

/-- A field of a node: its name and the text of its type. -/
structure Field where
  name : String
  type : String
  deriving DecidableEq, Repr

/-- A node type. -/
structure Spec where
  name : String
  fields : List Field
  deriving DecidableEq, Repr

namespace Field

/-- The field that a piece of text describes: its first two words. -/
def ofChars? (cs : List Char) : Option Field :=
  match Text.words cs with
  | name :: type :: _ => some ⟨String.ofList name, String.ofList type⟩
  | _ => none

end Field

namespace Spec

/-- The node type that a text describes. What follows a second colon does not count. -/
def ofText? (s : String) : Option Spec :=
  match Text.splitAt ':' s.toList with
  | name :: fields :: _ =>
    ((Text.splitAt ',' fields).mapM Field.ofChars?).map fun fs =>
      ⟨String.ofList (Text.trimChars name), fs⟩
  | _ => none

end Spec

/-- The node types of expressions. -/
def expressionSpecs : List String :=
  ["Binary: Op *Token, Left Expr, Right Expr",
    "Grouping: Expression Expr",
    "Literal: Value Value",
    "Unary: Op *Token, Expression Expr"]

end Reckoner.Nodes
