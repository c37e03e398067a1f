/-
Scanning: the tokens of a source and the lexical errors found on the way. An error does not stop
the scan, and the last token is always the end of the source.
-/
import Reckoner.Lexeme

namespace Reckoner

/-- A fault and the line on which it begins. -/
structure LexicalError where
  line : Int
  fault : LexicalFault
  deriving DecidableEq, Repr

/-- The outcome of scanning a source. -/
structure Scan where
  tokens : List Token
  errors : List LexicalError

namespace Scan

/-- The tokens and errors of pieces of which the first begins on `line`. -/
def ofPieces (line : Int) : List Piece → Scan
  | [] => ⟨[.endAt line], []⟩
  | p :: ps =>
    let later := ofPieces (line + p.lineEnds) ps
    match p.meaning with
    | .layout => later
    | .token kind literal =>
      ⟨⟨kind, String.ofList p.text, literal, line⟩ :: later.tokens, later.errors⟩
    | .fault fault => ⟨later.tokens, ⟨line, fault⟩ :: later.errors⟩

end Scan

/-- The tokens and errors of a source, whose first line is line 1. -/
def scan (source : List Char) : Scan :=
  .ofPieces 1 (Piece.all source)

end Reckoner
