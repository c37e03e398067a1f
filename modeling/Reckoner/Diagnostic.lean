/-
Diagnostics: what went wrong, where, and the text that says so.
-/
import Reckoner.Scan
import Reckoner.Parser
import Reckoner.Evaluation

namespace Reckoner

/-- A problem to be reported. Lexical problems are placed by line, the others by token; a plain
one has a text only, and a problem can be wrapped in a context. -/
inductive Diagnostic where
  | lexical (line : Int) (message : String)
  | syntactic (token : Token) (message : String)
  | runtime (token : Token) (message : String)
  | plain (message : String)
  | wrapped (context : String) (inner : Diagnostic)

namespace Diagnostic

/-- The text of a diagnostic. -/
def text : Diagnostic → String
  | .lexical line message => "[line " ++ toString line ++ "] Error: " ++ message
  | .syntactic token message =>
    "[line " ++ toString token.line ++ "] Error at '" ++ token.lexeme ++ "': " ++ message
  | .runtime token message => message ++ "\n[line " ++ toString token.line ++ "]"
  | .plain message => message
  | .wrapped context inner => context ++ ": " ++ inner.text

/-- Runtime problems, wrapped or not, are told apart from all others. -/
def isRuntime : Diagnostic → Bool
  | .runtime _ _ => true
  | .wrapped _ inner => inner.isRuntime
  | _ => false

end Diagnostic

/-- A lexical error as a diagnostic. -/
def LexicalError.diagnostic (e : LexicalError) : Diagnostic :=
  .lexical e.line e.fault.message

/-- A parse error as a diagnostic. -/
def ParseError.diagnostic (e : ParseError) : Diagnostic :=
  .syntactic e.token e.expected.message

namespace EvalError

/-- An evaluation error as a diagnostic. An operator that the evaluator does not know is no
problem of the evaluated source, so it has no place in it. -/
def diagnostic (e : EvalError) : Diagnostic :=
  match e with
  | .operandTypes op fault => .runtime op fault.message
  | .unknownUnary op => .plain ("unreachable: unary operator " ++ op.name)
  | .unknownBinary op => .plain ("unreachable: binary operator " ++ op.name)

end EvalError

end Reckoner
