/-
Parsing: one expression from the head of a token stream, by the grammar

    expression --> equality ;
    equality   --> comparison ( ( "!=" | "==" ) comparison )* ;
    comparison --> term ( ( ">" | ">=" | "<" | "<=" ) term )* ;
    term       --> factor ( ( "-" | "+" ) factor )* ;
    factor     --> unary ( ( "/" | "*" ) unary )* ;
    unary      --> ( "!" | "-" ) unary | primary ;
    primary    --> NUMBER | STRING | "true" | "false" | "nil" | "(" expression ")" ;

The tokens behind the expression are left alone. A failure leaves the stream at the token that
cannot be used.
-/
import Reckoner.Expr
import Reckoner.TokenStream

namespace Reckoner

/-- What the grammar asks for where a parse fails. -/
inductive Expectation where
  | expression
  | closingParen
  deriving DecidableEq, Repr

namespace Expectation

/-- The wording of an expectation. -/
def message : Expectation → String
  | .expression => "Expect expression."
  | .closingParen => "Expect ')' after expression."

end Expectation

/-- The token at which a parse failed, and what was expected there. -/
structure ParseError where
  token : Token
  expected : Expectation

namespace Parser

/-- The outcome of a parse, with the tokens that are left. -/
inductive Outcome where
  | parsed (expr : Expr) (rest : List Token)
  | failed (expected : Expectation) (rest : List Token)

namespace Outcome

/-- Goes on with the expression and the rest of a success. -/
def andThen : Outcome → (Expr → List Token → Outcome) → Outcome
  | .parsed e rest, f => f e rest
  | .failed expected rest, _ => .failed expected rest

end Outcome

/-- The binary operators, level by level, the most loosely binding ones first. -/
def levels : List (List TokenKind) :=
  [[.bangEqual, .equalEqual],
    [.greater, .greaterEqual, .less, .lessEqual],
    [.minus, .plus],
    [.slash, .star]]

/-- Folds `( operator operand )*` to the left onto the expression `left`, for at most `n`
operators. -/
def chain (operand : List Token → Outcome) (ops : List TokenKind) :
    Nat → Expr → List Token → Outcome
  | n + 1, left, op :: rest =>
    if op.kind ∈ ops then
      (operand rest).andThen fun right rest' => chain operand ops n (.binary op left right) rest'
    else .parsed left (op :: rest)
  | _, left, rest => .parsed left rest

/-- An expression whose binary operators stand on the given levels, over the given operands. -/
def binary (operand : List Token → Outcome) : List (List TokenKind) → List Token → Outcome
  | [], tokens => operand tokens
  | ops :: tighter, tokens =>
    (binary operand tighter tokens).andThen fun left rest =>
      chain (binary operand tighter) ops rest.length left rest

/-- The end of a parenthesised expression. -/
def closeGroup (inner : Expr) : List Token → Outcome
  | t :: rest =>
    if t.kind = .rightParen then .parsed (.group inner) rest
    else .failed .closingParen (t :: rest)
  | [] => .failed .closingParen []

/-- An operand of the binary operators: a unary or a primary expression, with at most `n` of its
tokens opening a further operand. -/
def operand : Nat → List Token → Outcome
  | n + 1, t :: rest =>
    match t.kind with
    | .bang | .minus => (operand n rest).andThen fun e rest' => .parsed (.unary t e) rest'
    | .falseWord => .parsed (.literal (some (.bool false))) rest
    | .trueWord => .parsed (.literal (some (.bool true))) rest
    | .nilWord => .parsed (.literal (some .nil)) rest
    | .number | .string => .parsed (.literal t.literal) rest
    | .leftParen => (binary (operand n) levels rest).andThen closeGroup
    | _ => .failed .expression (t :: rest)
  | _, tokens => .failed .expression tokens

/-- An expression from the head of a list of tokens. -/
def expression (tokens : List Token) : Outcome :=
  binary (operand tokens.length) levels tokens

end Parser

/-- One expression from the head of a stream, and the stream behind it. -/
def parse (s : TokenStream) : Except ParseError Expr × TokenStream :=
  match Parser.expression s.pending with
  | .parsed e rest => (.ok e, ⟨rest, s.final⟩)
  | .failed expected rest =>
    let left : TokenStream := ⟨rest, s.final⟩
    (.error ⟨left.peek, expected⟩, left)

/-- The outcomes of `n` parses in a row, each going on where the last one stopped. -/
def parseRepeatedly : Nat → TokenStream → List (Except ParseError Expr)
  | 0, _ => []
  | n + 1, s => (parse s).1 :: parseRepeatedly n (parse s).2

end Reckoner
