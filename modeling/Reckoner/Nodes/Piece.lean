/-
The pieces of a laid out source: words, and the space that is asked for between them.
-/
import Reckoner.Nodes.Term.Basic
import Reckoner.Text.Columns

namespace Reckoner.Nodes

/-- Space between words. A column or a tab ends a cell of the line, and a block ends the columns of
the lines before it. -/
inductive Space where
  | nothing
  | blank
  | column
  | tab
  | newline
  | block
  | indent
  | unindent
  deriving DecidableEq, Repr

namespace Space

/-- Space that ends a line. -/
def isBreak : Space → Bool
  | .newline => true
  | .block => true
  | _ => false

end Space

/-- How a comment before a word is set off from it. -/
structure Manner where
  /-- The word belongs to a literal in braces. -/
  nested : Bool
  /-- No line ends before a closing brace. -/
  tied : Bool
  /-- No blank stands between the comment and the word. -/
  tight : Bool
  deriving DecidableEq, Repr

namespace Manner

/-- The manner of most words. -/
def plain : Manner := ⟨false, false, false⟩

end Manner

/-- A word or space. The place of a word is that in the source, unless the word before it tells.
A line that `ends` with the word ends a statement. -/
inductive Piece where
  | word (text : String) (spot : Option Spot) (ends : Bool) (manner : Manner)
  | space (s : Space)
  deriving DecidableEq, Repr

namespace Piece

/-- A name or a literal. -/
def ofWord (w : Word) : Piece :=
  .word w.text (some w.spot) true .plain

/-- An operator, a bracket or a keyword. -/
def sign (text : String) (spot : Option Spot) : Piece :=
  .word text spot ([")", "]", "\x7d"].contains text) .plain

/-- The piece with words in another manner. -/
def withManner (change : Manner → Manner) : Piece → Piece
  | .word text spot ends manner => .word text spot ends (change manner)
  | .space s => .space s

/-- The piece ends a line. -/
def isBreak : Piece → Bool
  | .word _ _ _ _ => false
  | .space s => s.isBreak

/-- The number of bytes that a piece takes on a line. -/
def size : Piece → Nat
  | .word text _ _ _ => text.utf8ByteSize
  | .space s => if s = .blank || s = .column then 1 else 0

/-- The number of bytes of pieces that fit on one line. -/
def lineSize? (pieces : List Piece) : Option Nat :=
  if pieces.any isBreak then none else some (pieces.foldl (fun n p => n + p.size) 0)

/-- Parts on lines of their own. Columns do not reach over a part that takes several lines. -/
def stacked : List (List Piece) → List Piece
  | [] => []
  | [part] => part
  | part :: rest =>
    part ++ .space (if part.any isBreak then .block else .newline) :: stacked rest

/-! ## Lines -/

/-- A page on which pieces are written, from its last line to the first. -/
structure Page where
  /-- The lines of earlier blocks. -/
  lines : List String
  /-- The rows of the block. -/
  rows : List Text.Row
  /-- The cells of the row. -/
  cells : List Text.Cell
  /-- The text behind the cells. -/
  rest : String
  /-- Nothing is written on the line yet. -/
  fresh : Bool
  indentation : Nat

namespace Page

/-- A page whose first line has been begun. -/
def begun (indentation : Nat) : Page :=
  ⟨[], [], [], "", false, indentation⟩

/-- Ends a cell. -/
def endCell (p : Page) (firm : Bool) : Page :=
  { p with cells := ⟨p.rest, firm⟩ :: p.cells, rest := "", fresh := false }

/-- Ends a line. -/
def endLine (p : Page) : Page :=
  { p with rows := ⟨p.cells.reverse, p.rest⟩ :: p.rows, cells := [], rest := "", fresh := true }

/-- Ends a block. -/
def endBlock (p : Page) : Page :=
  { p with lines := (Text.Row.lines p.rows.reverse).reverse ++ p.lines, rows := [] }

/-- Writes a text. The indentation of a line consists of empty cells. -/
def write (p : Page) (text : String) : Page :=
  let cells := if p.fresh then List.replicate p.indentation ⟨"", true⟩ ++ p.cells else p.cells
  { p with cells := cells, rest := p.rest ++ text, fresh := false }

/-- Writes space. -/
def space (p : Page) : Space → Page
  | .nothing => p
  | .blank => { p with rest := p.rest ++ " ", fresh := false }
  | .column => p.endCell false
  | .tab => p.endCell true
  | .newline => p.endLine
  | .block => p.endLine.endBlock
  | .indent => { p with indentation := p.indentation + 1 }
  | .unindent => { p with indentation := p.indentation - 1 }

/-- Writes a piece. -/
def add (p : Page) : Piece → Page
  | .word text _ _ _ => p.write text
  | .space s => p.space s

/-- The text of a page. -/
def text (p : Page) : String :=
  String.intercalate "\n" p.endLine.endBlock.lines.reverse

end Page

/-- The text of pieces, the first of which stands on a line that has been begun. -/
def text (indentation : Nat) (pieces : List Piece) : String :=
  (pieces.foldl Page.add (.begun indentation)).text

end Piece

end Reckoner.Nodes
