/-
Expressions: literals, parentheses, and operators that keep the token they were written with.
-/
import Reckoner.Token

namespace Reckoner

/-- An expression. The value of a literal may be missing. -/
inductive Expr where
  | literal (value : Option Value)
  | group (inner : Expr)
  | unary (op : Token) (operand : Expr)
  | binary (op : Token) (left right : Expr)

namespace Expr

/-- The text of an expression: operators stand before their operands, in parentheses. -/
def display : Expr → String
  | .literal (some v) => v.display
  | .literal none => "nil"
  | .group e => "(group " ++ e.display ++ ")"
  | .unary op e => "(" ++ op.lexeme ++ " " ++ e.display ++ ")"
  | .binary op l r => "(" ++ op.lexeme ++ " " ++ l.display ++ " " ++ r.display ++ ")"

/-! ## Postorder -/

/-- A node without its operands. -/
inductive Node where
  | literal (value : Option Value)
  | group
  | unary (op : Token)
  | binary (op : Token)

/-- The nodes of an expression, operands before their operator, left before right. -/
def postorder : Expr → List Node
  | .literal v => [.literal v]
  | .group e => e.postorder ++ [.group]
  | .unary op e => e.postorder ++ [.unary op]
  | .binary op l r => l.postorder ++ r.postorder ++ [.binary op]

/-- One node applied to a stack of expressions, the latest one first. -/
def push (stack : List Expr) (node : Node) : Option (List Expr) :=
  match node, stack with
  | .literal v, s => some (.literal v :: s)
  | .group, e :: s => some (.group e :: s)
  | .unary op, e :: s => some (.unary op e :: s)
  | .binary op, r :: l :: s => some (.binary op l r :: s)
  | _, _ => none

/-- The expression with a postorder, if there is one. -/
def ofPostorder (nodes : List Node) : Option Expr :=
  match nodes.foldlM push [] with
  | some [e] => some e
  | _ => none

end Expr

end Reckoner
