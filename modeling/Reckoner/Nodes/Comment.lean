/-
Comments among pieces. A comment goes before the first word whose place is behind that of the
comment, and the space that is asked for there is divided between its two sides.
-/
import Reckoner.Nodes.Piece

namespace Reckoner.Nodes

/-! ## Space around a comment -/

/-- The space before a comment and that behind it, and whether the comment is set off. -/
structure Parting where
  before : List Space
  behind : List Space
  apart : Bool

/-- Divides the space before a comment on the line of the last word. Blanks are dropped and columns
are kept. The rest begins with the first other space; without one all of it stays behind. -/
def partingOnLine : List Space → Bool → List Space → Parting
  | passed, apart, [] => ⟨[], passed.reverse, apart⟩
  | passed, apart, s :: rest =>
    match s with
    | .blank => partingOnLine (.nothing :: passed) apart rest
    | .column => partingOnLine (.column :: passed) true rest
    | .indent => partingOnLine (.indent :: passed) apart rest
    | _ => ⟨passed.reverse, s :: rest, apart⟩

/-- Divides the space before a comment on a line of its own, where a word at another column
follows. The first end of a line is dropped, because the comment brings its own. -/
def partingOffLine (aligned : Bool) : List Space → List Space → Parting
  | passed, [] => ⟨[], passed.reverse, true⟩
  | passed, s :: rest =>
    match s with
    | .blank => partingOffLine aligned (.nothing :: passed) rest
    | .column => partingOffLine aligned (.nothing :: passed) rest
    | .indent => partingOffLine aligned (.indent :: passed) rest
    | .unindent =>
      if aligned || rest.head? = some .unindent then
        partingOffLine aligned (.unindent :: passed) rest
      else ⟨passed.reverse, s :: rest, true⟩
    | .newline => ⟨passed.reverse, .nothing :: rest, true⟩
    | .block => ⟨passed.reverse, .nothing :: rest, true⟩
    | s => ⟨passed.reverse, s :: rest, true⟩

/-- The space behind comments. -/
structure Closing where
  spaces : List Space
  /-- A line ends there. -/
  broken : Bool
  /-- A block would have ended there. -/
  lostBlock : Bool

/-- The space behind comments: the indentation, and one end of a line if it is needed. -/
def closingSpace : Bool → List Space → Closing
  | needed, [] => if needed then ⟨[.newline], true, false⟩ else ⟨[], false, false⟩
  | needed, s :: rest =>
    if s = .indent || s = .unindent then
      let c := closingSpace needed rest
      { c with spaces := s :: c.spaces }
    else if s.isBreak then
      if needed then
        let c := closingSpace false rest
        { c with spaces := s :: c.spaces, broken := true }
      else
        let c := closingSpace false rest
        { c with lostBlock := s = .block || c.lostBlock }
    else closingSpace needed rest

/-! ## Weaving -/

/-- Pieces among which the comments before some place have been put. -/
structure Woven where
  /-- The pieces, from the last to the first. -/
  done : List Piece
  /-- The space that has been asked for since the last word. -/
  pending : List Space
  /-- The place that the next word has unless it has one of its own. -/
  here : Spot
  /-- The end of the last word or comment. -/
  last : Spot
  /-- The text of the last word. -/
  lastWord : String
  /-- A line that ends here ends a statement. -/
  ends : Bool
  remarks : List Remark

namespace Woven

/-- Adds space. -/
def addSpaces (w : Woven) (spaces : List Space) : Woven :=
  { w with
    done := (spaces.map Piece.space).reverse ++ w.done
    here := ⟨w.here.line + spaces.countP Space.isBreak, w.here.column⟩ }

/-- The most ends of lines that follow one another. -/
def maxBreaks : Nat := 2

/-- Adds a comment before a word at a place. `started` says that another comment before the same
word came first. -/
def addRemark (w : Woven) (started : Bool) (next : Spot) (closes : Bool) (r : Remark) : Woven :=
  let spaced :=
    if r.spot.line = w.last.line then
      let parting :=
        if started then ⟨[], w.pending, false⟩ else partingOnLine [] false w.pending
      let gap :=
        if parting.apart then []
        else if r.spot.line = next.line then [Space.blank]
        else [Space.tab]
      { w.addSpaces (parting.before ++ gap) with pending := parting.behind }
    else
      let aligned := !closes && r.spot.column = next.column
      let parting := partingOffLine aligned [] w.pending
      let breaks := min (r.spot.line - w.last.line) maxBreaks
      { w.addSpaces (parting.before ++ List.replicate breaks .block) with
        pending := parting.behind }
  let stop := r.spot.shift r.text.length
  { spaced with
    done := .word r.text none false .plain :: spaced.done
    here := stop
    last := stop }

/-- Adds comments before a word at a place. -/
def addRemarks (w : Woven) (next : Spot) (closes : Bool) : Bool → List Remark → Woven
  | _, [] => w
  | started, r :: rest => (w.addRemark started next closes r).addRemarks next closes true rest

/-- Adds the space behind comments, the last of which stands on the line of the next word or
above it. -/
def addClosing (w : Woven) (next : Spot) (text : String) (manner : Manner) (line : Nat) : Woven :=
  let separate :=
    !manner.tight && line == next.line && text != "," &&
      (text != ")" || w.lastWord == "(") && (text != "]" || w.lastWord == "[")
  let breaks := separate && w.pending.any Space.isBreak && !manner.tied && !manner.nested
  let gap := if separate && !breaks then [Space.blank] else []
  let c := closingSpace (breaks || (text == "\x7d" && !manner.tied)) w.pending
  let w := w.addSpaces (gap ++ c.spaces)
  let missing := min (next.line - w.here.line) maxBreaks
  let missing := if c.broken && missing == maxBreaks then maxBreaks - 1 else missing
  let w :=
    if w.ends then w
    else w.addSpaces (List.replicate missing (if c.lostBlock then .block else .newline))
  { w with pending := [] }

/-- Adds a piece, with the comments that go before it. -/
def add (w : Woven) : Piece → Woven
  | .space s =>
    { w with pending := w.pending ++ [s], ends := w.ends && !s.isBreak }
  | .word text spot ends manner =>
    let next := spot.getD w.here
    let before := w.remarks.takeWhile (·.first.before next)
    let spaced :=
      match before.getLast? with
      | none => { w.addSpaces w.pending with pending := [] }
      | some r =>
        (w.addRemarks next (text == "\x7d") false before).addClosing next text manner r.spot.line
    let stop := next.shift text.length
    { spaced with
      done := .word text spot ends manner :: spaced.done
      here := stop
      last := stop
      lastWord := text
      ends := ends
      remarks := w.remarks.drop before.length }

end Woven

namespace Piece

/-- Puts comments among pieces, the first of which is a word before all of them. -/
def weave (remarks : List Remark) (pieces : List Piece) : List Piece :=
  if remarks.isEmpty then pieces
  else
    (pieces.foldl Woven.add ⟨[], [], ⟨0, 0⟩, ⟨0, 0⟩, "", false, remarks⟩).done.reverse

end Piece

end Reckoner.Nodes
