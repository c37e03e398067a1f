/-
Evaluation: the value of an expression, operands before operators and left before right. It
fails only on operands of the wrong types, or on an operator that it does not know.
-/
import Reckoner.Expr

namespace Reckoner

/-- What an operator asks of its operands. -/
inductive TypeFault where
  | numberOperand
  | numberOperands
  | addableOperands
  deriving DecidableEq, Repr

namespace TypeFault

/-- The wording of a fault. -/
def message : TypeFault → String
  | .numberOperand => "Operand must be a number."
  | .numberOperands => "Operands must be numbers."
  | .addableOperands => "Operands must be two numbers or two strings."

end TypeFault

/-- Why an expression has no value. -/
inductive EvalError where
  | operandTypes (op : Token) (fault : TypeFault)
  | unknownUnary (op : TokenKind)
  | unknownBinary (op : TokenKind)

namespace Value

/-- The value of a unary operator. -/
def applyUnary (op : Token) (v : Value) : Except EvalError Value :=
  match op.kind with
  | .bang => .ok (.bool !v.isTruthy)
  | .minus =>
    match v with
    | .number x => .ok (.number (-x))
    | _ => .error (.operandTypes op .numberOperand)
  | kind => .error (.unknownUnary kind)

/-- The value of an operator on two numbers. -/
def arithmetic (kind : TokenKind) (x y : Float) : Except EvalError Value :=
  match kind with
  | .minus => .ok (.number (x - y))
  | .star => .ok (.number (x * y))
  | .slash => .ok (.number (x / y))
  | .greater => .ok (.bool (y < x))
  | .greaterEqual => .ok (.bool (y ≤ x))
  | .less => .ok (.bool (x < y))
  | .lessEqual => .ok (.bool (x ≤ y))
  | kind => .error (.unknownBinary kind)

/-- The value of a binary operator. Equality takes operands of any type, addition two numbers or
two strings, everything else two numbers. -/
def applyBinary (op : Token) (l r : Value) : Except EvalError Value :=
  match op.kind with
  | .bangEqual => .ok (.bool !(l.equals r))
  | .equalEqual => .ok (.bool (l.equals r))
  | .plus =>
    match l, r with
    | .number x, .number y => .ok (.number (x + y))
    | .string s, .string t => .ok (.string (s ++ t))
    | _, _ => .error (.operandTypes op .addableOperands)
  | kind =>
    match l, r with
    | .number x, .number y => arithmetic kind x y
    | _, _ => .error (.operandTypes op .numberOperands)

end Value

/-- The value of an expression. A literal without a value is nil. -/
def Expr.eval : Expr → Except EvalError Value
  | .literal v => .ok (v.getD .nil)
  | .group e => e.eval
  | .unary op e =>
    match e.eval with
    | .ok v => Value.applyUnary op v
    | .error err => .error err
  | .binary op l r =>
    match l.eval with
    | .ok lhs =>
      match r.eval with
      | .ok rhs => Value.applyBinary op lhs rhs
      | .error err => .error err
    | .error err => .error err

end Reckoner
