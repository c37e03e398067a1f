/-
Lexemes: a source is cut into pieces, each the longest stretch that forms one token, one piece of
layout, or one error. The pieces follow one another without gaps, so that together they are the
source.
-/
import Reckoner.Text.Letter
import Reckoner.Token

namespace Reckoner

/-- What is wrong with a piece of the source. -/
inductive LexicalFault where
  | unexpected (c : Char)
  | unterminated
  deriving DecidableEq, Repr

namespace LexicalFault

/-- The wording of a fault. -/
def message : LexicalFault → String
  | .unexpected c => "Unexpected character: " ++ String.singleton c
  | .unterminated => "Unterminated string."

end LexicalFault

/-- What a piece of the source stands for. -/
inductive Meaning where
  | layout
  | token (kind : TokenKind) (literal : Option Value)
  | fault (fault : LexicalFault)

/-- A stretch of the source and its meaning. -/
structure Piece where
  text : List Char
  meaning : Meaning

namespace Piece

/-! ## Character classes -/

/-- The tokens that one character forms whatever follows. -/
def single? : Char → Option TokenKind
  | '(' => some .leftParen
  | ')' => some .rightParen
  | '\x7b' => some .leftBrace
  | '\x7d' => some .rightBrace
  | ',' => some .comma
  | '.' => some .dot
  | '-' => some .minus
  | '+' => some .plus
  | ';' => some .semicolon
  | '*' => some .star
  | _ => none

/-- The characters that form one token alone and another one together with an equals sign. -/
def withEquals? : Char → Option (TokenKind × TokenKind)
  | '!' => some (.bang, .bangEqual)
  | '=' => some (.equal, .equalEqual)
  | '<' => some (.less, .lessEqual)
  | '>' => some (.greater, .greaterEqual)
  | _ => none

/-- The characters that separate tokens. -/
def isLayout (c : Char) : Bool :=
  c == ' ' || c == '\r' || c == '\t' || c == '\n'

/-- The characters that a word begins with. -/
def startsWord (c : Char) : Bool :=
  Text.isLetter c || c == '_'

/-- The characters that a word goes on with. -/
def continuesWord (c : Char) : Bool :=
  startsWord c || c.isDigit

/-! ## The piece at the head of a source -/

/-- A string, from its opening quote to the next one, over any number of lines. -/
def string (rest : List Char) : Piece :=
  let body := rest.takeWhile (· != '"')
  match rest.dropWhile (· != '"') with
  | [] => ⟨'"' :: rest, .fault .unterminated⟩
  | _ :: _ => ⟨'"' :: body ++ ['"'], .token .string (some (.string (String.ofList body)))⟩

/-- The digits after a point, when a point with at least one digit comes next. -/
def fraction : List Char → List Char
  | '.' :: rest => rest.takeWhile Char.isDigit
  | _ => []

/-- A number: digits, and a fraction if there is one. -/
def number (digit : Char) (rest : List Char) : Piece :=
  let whole := digit :: rest.takeWhile Char.isDigit
  let value (fraction : List Char) : Option Value :=
    some (.number (Number.Decimal.ofDigits whole fraction).toFloat)
  match fraction (rest.dropWhile Char.isDigit) with
  | [] => ⟨whole, .token .number (value [])⟩
  | digits => ⟨whole ++ '.' :: digits, .token .number (value digits)⟩

/-- A word: an identifier or a keyword. -/
def word (first : Char) (rest : List Char) : Piece :=
  let text := first :: rest.takeWhile continuesWord
  ⟨text, .token (.ofWord (String.ofList text)) none⟩

/-- A comment up to the end of its line, or a lone slash. -/
def slash (rest : List Char) : Piece :=
  match rest with
  | '/' :: _ => ⟨'/' :: rest.takeWhile (· != '\n'), .layout⟩
  | _ => ⟨['/'], .token .slash none⟩

/-- One of two tokens, depending on whether an equals sign follows. -/
def equalsPair (c : Char) (alone together : TokenKind) (rest : List Char) : Piece :=
  match rest with
  | '=' :: _ => ⟨[c, '='], .token together none⟩
  | _ => ⟨[c], .token alone none⟩

/-- The piece at the head of the source `c :: rest`. -/
def first (c : Char) (rest : List Char) : Piece :=
  match single? c with
  | some kind => ⟨[c], .token kind none⟩
  | none =>
    match withEquals? c with
    | some (alone, together) => equalsPair c alone together rest
    | none =>
      if isLayout c then ⟨[c], .layout⟩
      else if c = '/' then slash rest
      else if c = '"' then string rest
      else if c.isDigit then number c rest
      else if startsWord c then word c rest
      else ⟨[c], .fault (.unexpected c)⟩

/-! ## All pieces -/

/-- At most `n` pieces from the head of a source. -/
def upTo : Nat → List Char → List Piece
  | 0, _ => []
  | _, [] => []
  | n + 1, c :: rest =>
    let piece := first c rest
    piece :: upTo n (rest.drop (piece.text.length - 1))

/-- The pieces of a source. -/
def all (source : List Char) : List Piece :=
  upTo source.length source

/-- The number of line ends within a piece. -/
def lineEnds (p : Piece) : Nat :=
  p.text.count '\n'

end Piece

end Reckoner
