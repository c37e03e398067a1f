/-
The characters of a YAML text and a cursor in it, which knows the line and the column where it
stands. Line breaks are line feeds, next lines, line separators and paragraph separators; carriage
returns have been turned into line feeds before.
-/
namespace Reckoner.Yaml

/-! ## Characters -/

/-- Spaces and tabs. -/
def isGap (c : Char) : Bool :=
  c == ' ' || c == '\t'

/-- The characters that end a line. -/
def isBreak (c : Char) : Bool :=
  c == '\n' || c == '\u0085' || c == '\u2028' || c == '\u2029'

/-- The character that a line break leaves in a text: the separators of Unicode stay what they
are. -/
def breakChar (c : Char) : Char :=
  if c = '\u0085' then '\n' else c

/-- The characters of names: of anchors, directives and handles of tags. -/
def isNameChar (c : Char) : Bool :=
  c.isAlphanum || c == '_' || c == '-'

/-- The characters that a text may hold. -/
def isAllowed (c : Char) : Bool :=
  let n := c.toNat
  n == 0x09 || n == 0x0A || n == 0x0D || (0x20 ≤ n && n ≤ 0x7E) || n == 0x85 ||
    (0xA0 ≤ n && n ≤ 0xFFFD) || 0x10000 ≤ n

/-- The text with a line feed for every carriage return, alone or with a line feed behind it. -/
def unifyBreaks : List Char → List Char
  | [] => []
  | '\r' :: '\n' :: rest => '\n' :: unifyBreaks rest
  | c :: rest => (if c = '\r' then '\n' else c) :: unifyBreaks rest

/-- A gap, a line break or the end of the text comes next. -/
def endsWord : List Char → Bool
  | [] => true
  | c :: _ => isGap c || isBreak c

/-- The line ends here. -/
def endsLine : List Char → Bool
  | [] => true
  | c :: _ => isBreak c

/-- A marker that begins or ends a document comes next. It counts at the front of a line only. -/
def isMarker : List Char → Bool
  | a :: b :: c :: rest => a == b && b == c && (a == '-' || a == '.') && endsWord rest
  | _ => false

/-- What follows the gaps at the front. -/
def skipGaps (cs : List Char) : List Char :=
  cs.dropWhile isGap

/-- What is left from the end of the line on. -/
def skipLine (cs : List Char) : List Char :=
  cs.dropWhile (!isBreak ·)

/-! ## Cursors -/

/-- A place in a text: the number of characters before it, its line and its column, and the number
of line breaks since the last character that is no gap. -/
structure Place where
  index : Nat
  line : Nat
  column : Nat
  breaks : Nat
  deriving DecidableEq, Repr

namespace Place

/-- The front of a text. -/
def start : Place := ⟨0, 0, 0, 0⟩

/-- The place behind a character. -/
def past (p : Place) (c : Char) : Place :=
  if isBreak c then ⟨p.index + 1, p.line + 1, 0, p.breaks + 1⟩
  else ⟨p.index + 1, p.line, p.column + 1, if isGap c then p.breaks else 0⟩

end Place

/-- A place and what follows it. -/
structure Cursor where
  rest : List Char
  place : Place

namespace Cursor

/-- The cursor at the front of a text. -/
def start (cs : List Char) : Cursor := ⟨cs, .start⟩

/-- The cursor behind the next `n` characters. -/
def drop : Nat → Cursor → Cursor
  | 0, cursor => cursor
  | n + 1, ⟨c :: rest, place⟩ => drop n ⟨rest, place.past c⟩
  | _ + 1, ⟨[], place⟩ => ⟨[], place⟩

/-- The cursor where `rest` is left of the text. -/
def advance (cursor : Cursor) (rest : List Char) : Cursor :=
  cursor.drop (cursor.rest.length - rest.length)

end Cursor

end Reckoner.Yaml
