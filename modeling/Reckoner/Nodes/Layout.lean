/-
The standard layout of types and expressions: which words stand in which order and where space
stands between them. Blanks around binary operators show how strongly they bind.
-/
import Reckoner.Nodes.Piece

namespace Reckoner.Nodes

/-! ## Numbers -/

/-- A text with the last of its upper case letters of one kind in lower case. -/
def lowerLast (c : Char) (cs : List Char) : List Char :=
  match cs.reverse.span (· != c) with
  | (behind, _ :: before) => before.reverse ++ c.toLower :: behind.reverse
  | (_, []) => cs

/-- A number without the zeros before an imaginary unit. -/
def plainImaginary (cs : List Char) : List Char :=
  if cs.getLast? = some 'i' && !cs.contains '.' && !cs.contains 'e' then
    match cs.dropWhile fun c => c == '0' || c == '_' with
    | ['i'] => ['0', 'i']
    | rest => rest
  else cs

/-- A number with the letters of its base and its exponent in lower case. -/
def numeral (s : String) : String :=
  match s.toList with
  | '0' :: 'X' :: rest => String.ofList (lowerLast 'P' ('0' :: 'x' :: rest))
  | '0' :: 'x' :: rest => String.ofList (lowerLast 'P' ('0' :: 'x' :: rest))
  | '0' :: 'O' :: rest => String.ofList ('0' :: 'o' :: rest)
  | '0' :: 'o' :: rest => String.ofList ('0' :: 'o' :: rest)
  | '0' :: 'B' :: rest => String.ofList ('0' :: 'b' :: rest)
  | '0' :: 'b' :: rest => String.ofList ('0' :: 'b' :: rest)
  | [c] => String.ofList [c]
  | cs =>
    if cs.contains 'E' then String.ofList (lowerLast 'E' cs)
    else String.ofList (plainImaginary cs)

/-! ## Binary operators -/

/-- What an expression of binary operators holds: a sum, a product, and operators that would run
into the sign of the operand behind them. -/
structure Strain where
  sum : Bool
  product : Bool
  clash : Nat
  deriving DecidableEq, Repr

namespace Strain

/-- The strain of two expressions together. -/
def join (a b : Strain) : Strain :=
  ⟨a.sum || b.sum, a.product || b.product, max a.clash b.clash⟩

/-- No strain. -/
def none : Strain := ⟨false, false, 0⟩

end Strain

namespace Term

/-- The precedence of an expression with a binary operator. -/
def precedence? : Term → Option Nat
  | .binary _ sign _ => some (precedence sign.text)
  | _ => none

/-- How badly an operator and the sign of the operand behind it would run into one another. -/
def clash (sign : String) : Term → Nat
  | .pointer _ _ => if sign = "/" then 5 else 0
  | .unary inner _ =>
    if ["&&", "&^"].contains (sign ++ inner.text) then 5
    else if ["++", "--"].contains (sign ++ inner.text) then 4
    else 0
  | _ => 0

/-- The strain of an expression. -/
def strain : Term → Strain
  | .binary left sign right =>
    let p := precedence sign.text
    let own : Strain := ⟨p == 4, p == 5, right.clash sign.text⟩
    let leftStrain := if p ≤ (left.precedence?).getD 0 then left.strain else .none
    let rightStrain := if p < (right.precedence?).getD 0 then right.strain else .none
    own.join (leftStrain.join rightStrain)
  | _ => .none

/-- The precedence from which on operators stand without blanks, at a depth. -/
def cutoff (depth : Nat) (t : Term) : Nat :=
  let s := t.strain
  if s.clash ≠ 0 then s.clash + 1
  else if s.sum && s.product then (if depth = 1 then 5 else 4)
  else if depth = 1 then 6
  else 4

/-- How much deeper the left operand of an operator stands. -/
def step (p : Nat) (left : Term) : Nat :=
  if left.precedence? = some p then 0 else 1

end Term

/-! ## Braces -/

/-- The size up to which a lone member stands on one line with its braces. -/
def loneSize : Nat := 30

/-- The pieces of a member, and its size if it may stand on one line with its braces. -/
structure Part where
  pieces : List Piece
  size? : Option Nat

/-- The braces around members. Without a comment in them no members leave nothing between the
braces, and a lone small member stands on one line with them. -/
def braced (remarked : Bool) (opening closing : Spot) (parts : List Part) : List Piece :=
  let tall : List Piece :=
    [.space .blank, .sign "\x7b" (some opening), .space .indent] ++
    (if remarked || !parts.isEmpty then [.space .block] else []) ++
    Piece.stacked (parts.map (·.pieces)) ++
    [.space .unindent, .space .block, .sign "\x7d" (some closing)]
  if remarked then tall
  else
    match parts with
    | [] => [.sign "\x7b" (some opening), .sign "\x7d" (some closing)]
    | [part] =>
      match part.size? with
      | some size =>
        if size ≤ loneSize then
          [.sign "\x7b" (some opening), .space .blank] ++ part.pieces ++
            [.space .blank, .sign "\x7d" (some closing)]
        else tall
      | none => tall
    | _ => tall

/-! ## Terms -/

/-- The names of a member, with commas between them. -/
def namesPieces : List Word → List Piece
  | [] => []
  | [w] => [.ofWord w]
  | w :: v :: rest =>
    .ofWord w :: .sign "," (some v.spot) :: .space .blank :: namesPieces (v :: rest)

/-- A comment stands between two places. -/
def isRemarked (remarks : List Spot) (start stop : Spot) : Bool :=
  remarks.any fun r => start.before r && r.before stop

mutual

/-- The pieces of a term at a depth, among comments at some places. A `bare` term loses the
brackets around it. -/
def Term.pieces (remarks : List Spot) : Term → Bool → Nat → List Piece
  | .name w, _, _ => [.ofWord w]
  | .number w, _, _ => [.ofWord ⟨numeral w.text, w.spot⟩]
  | .quotation w, _, _ => [.ofWord w]
  | .selection operand name, _, depth =>
    operand.pieces remarks false depth ++ [.sign "." none, .ofWord name]
  | .assertion operand opening none closing, _, depth =>
    operand.pieces remarks false depth ++
      [.sign "." none, .sign "(" (some opening), .sign "type" none, .sign ")" (some closing)]
  | .assertion operand opening (some type) closing, _, depth =>
    operand.pieces remarks false depth ++ [.sign "." none, .sign "(" (some opening)] ++
      type.pieces remarks false 1 ++ [.sign ")" (some closing)]
  | .application operand opening argument closing, _, depth =>
    operand.pieces remarks false 1 ++ [.sign "[" (some opening)] ++
      argument.pieces remarks false (depth + 1) ++ [.sign "]" (some closing)]
  | .call operand opening none _ closing, _, depth =>
    operand.pieces remarks false depth ++ [.sign "(" (some opening), .sign ")" (some closing)]
  | .call operand opening (some argument) spread closing, _, depth =>
    operand.pieces remarks false depth ++ [.sign "(" (some opening)] ++
      argument.pieces remarks false depth ++
      (match spread with
        | some s => [.sign "..." (some s)]
        | none => []) ++
      [.sign ")" (some closing)]
  | .composite type opening item closing, _, depth =>
    let typePieces :=
      match type with
      | some t => t.pieces remarks false depth
      | none => []
    let itemPieces :=
      match item with
      | some t => t.pieces remarks false 1
      | none => []
    let inner : List Piece :=
      .sign "\x7b" (some opening) :: itemPieces ++
        [.space .indent, .space .unindent,
          .word "\x7d" (some closing) true ⟨true, true, !itemPieces.isEmpty⟩]
    typePieces ++ inner.map (Piece.withManner fun m => { m with nested := true })
  | .parenthesized opening inner closing, bare, depth =>
    if bare then inner.pieces remarks true depth
    else if inner.isParenthesized then inner.pieces remarks false depth
    else
      [.sign "(" (some opening)] ++ inner.pieces remarks false (max (depth - 1) 1) ++
        [.sign ")" (some closing)]
  | .pointer spot target, _, _ => .sign "*" (some spot) :: target.pieces remarks false 1
  | .unary sign operand, _, depth =>
    .sign sign.text (some sign.spot) :: operand.pieces remarks false depth
  | .binary left sign right, _, depth =>
    let p := precedence sign.text
    let gap : List Piece :=
      if p < (Term.binary left sign right).cutoff depth then [.space .blank] else []
    left.pieces remarks false (depth + left.step p) ++ gap ++
      [.sign sign.text (some sign.spot)] ++ gap ++ right.pieces remarks false (depth + 1)
  | .slice opening item, _, _ =>
    .sign "[" (some opening) :: .sign "]" none :: item.pieces remarks false 1
  | .array opening length item, _, _ =>
    .sign "[" (some opening) :: length.pieces remarks false 1 ++
      .sign "]" none :: item.pieces remarks false 1
  | .dots spot none, _, _ => [.sign "..." (some spot)]
  | .dots spot (some item), _, _ => .sign "..." (some spot) :: item.pieces remarks false 1
  | .map spot key value, _, _ =>
    .sign "map" (some spot) :: .sign "[" none :: key.pieces remarks false 1 ++
      .sign "]" none :: value.pieces remarks false 1
  | .channel spot direction arrow item, _, _ =>
    (match direction with
      | .both => [.sign "chan" (some spot)]
      | .send => [.sign "chan" (some spot), .sign "<-" (some arrow)]
      | .receive => [.sign "<-" (some spot), .sign "chan" none]) ++
      .space .blank :: item.pieces remarks false 1
  | .function spot signature, _, _ => .sign "func" (some spot) :: signature.pieces remarks
  | .closure spot signature opening closing, _, _ =>
    .sign "func" (some spot) :: signature.pieces remarks ++
      [.space .blank, .sign "\x7b" (some opening),
        .word "\x7d" (some closing) true ⟨false, true, false⟩]
  | .record spot opening fields closing, _, _ =>
    .sign "struct" (some spot) ::
      braced (isRemarked remarks spot closing) opening closing
        (fieldParts remarks (fields.length == 1) fields)
  | .interface spot opening elements closing, _, _ =>
    .sign "interface" (some spot) ::
      braced (isRemarked remarks spot closing) opening closing (elementParts remarks elements)

/-- The pieces of a parameter and a result. A lone result without a name has no brackets. -/
def Signature.pieces (remarks : List Spot) : Signature → List Piece
  | .mk opening parameter closing resultOpening result resultClosing =>
    let parameterPieces :=
      match parameter with
      | some m => m.parameterPieces remarks
      | none => []
    let resultPieces : List Piece :=
      match result with
      | some (.mk [] type _ _) => .space .blank :: type.pieces remarks true 1
      | some m =>
        .space .blank :: .sign "(" (some resultOpening) :: m.parameterPieces remarks ++
          [.sign ")" (some resultClosing)]
      | none => []
    .sign "(" (some opening) :: parameterPieces ++ .sign ")" (some closing) :: resultPieces

/-- The pieces of a parameter. -/
def Member.parameterPieces (remarks : List Spot) : Member → List Piece
  | .mk names type _ _ =>
    namesPieces names ++ (if names.isEmpty then [] else [.space .blank]) ++
      type.pieces remarks true 1

/-- The pieces of a field. The types, the tags and the comments behind the fields of a struct stand
in columns, if there are several fields. -/
def Member.fieldPart (remarks : List Spot) (lone : Bool) : Member → Part
  | .mk names type tag remarked =>
    let gap : Piece := .space (if lone then .blank else .column)
    let typePieces := type.pieces remarks false 1
    let tagPieces : List Piece :=
      match tag with
      | some w => (if names.isEmpty || lone then [gap] else [gap, gap]) ++ [.ofWord w]
      | none => []
    let endPieces :=
      if remarked && tag.isNone then List.replicate (if names.isEmpty then 2 else 1) gap else []
    { pieces :=
        namesPieces names ++ (if names.isEmpty then [] else [gap]) ++ typePieces ++ tagPieces ++
          endPieces
      size? :=
        if remarked || tag.isSome then none
        else (Piece.lineSize? typePieces).map (· + if names.isEmpty then 0 else 1) }

/-- The parts for the fields of a struct. -/
def fieldParts (remarks : List Spot) (lone : Bool) : List Member → List Part
  | [] => []
  | m :: rest => m.fieldPart remarks lone :: fieldParts remarks lone rest

/-- The pieces of an element of an interface. A method is a function type without its keyword. -/
def Member.elementPart (remarks : List Spot) : Member → Part
  | .mk names type _ _ =>
    let typePieces := type.pieces remarks false 1
    { pieces := if names.isEmpty then typePieces else namesPieces names ++ typePieces.drop 1
      size? := (Piece.lineSize? typePieces).map (· + if names.isEmpty then 0 else 1) }

/-- The parts for the elements of an interface. -/
def elementParts (remarks : List Spot) : List Member → List Part
  | [] => []
  | m :: rest => m.elementPart remarks :: elementParts remarks rest

end

/-! ## Lists -/

/-- Terms or members, each with its place, with commas between them. -/
def listed : List (Spot × List Piece) → List Piece
  | [] => []
  | [(_, pieces)] => pieces
  | (_, pieces) :: (spot, next) :: rest =>
    pieces ++ .sign "," (some spot) :: .space .blank :: listed ((spot, next) :: rest)

/-- A list of parameters in its brackets. -/
def parameterListPieces (remarks : List Spot) (opening closing : Spot) (ms : List Member) :
    List Piece :=
  .sign "(" (some opening) :: listed (ms.map fun m => (m.spot, m.parameterPieces remarks)) ++
    [.sign ")" (some closing)]

/-- A list of arguments in braces. -/
def argumentListPieces (remarks : List Spot) (opening closing : Spot) (ts : List Term) :
    List Piece :=
  let pieces : List Piece :=
    .sign "\x7b" (some opening) :: listed (ts.map fun t => (t.spot, t.pieces remarks false 1)) ++
      [.space .indent, .space .unindent,
        .word "\x7d" (some closing) true ⟨true, true, !ts.isEmpty⟩]
  pieces.map (Piece.withManner fun m => { m with nested := true })

/-- The fields of a struct in braces, each on a line of its own. -/
def fieldListPieces (remarks : List Spot) (opening closing : Spot) (ms : List Member) :
    List Piece :=
  [.sign "\x7b" (some opening), .space .indent, .space .block] ++
    Piece.stacked ((fieldParts remarks (ms.length == 1) ms).map (·.pieces)) ++
    [.space .unindent, .space .block, .sign "\x7d" (some closing)]

end Reckoner.Nodes
