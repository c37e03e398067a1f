/-
Output channels that take one piece of text at a time and may stop taking any.
-/
namespace Reckoner

/-- A channel: how many more pieces it takes, if there is a limit, what it says to a piece that it
does not take, and the pieces it has taken so far. -/
structure Channel where
  capacity : Option Nat
  refusal : String
  pieces : List String

namespace Channel

/-- A channel that has taken nothing and takes everything. -/
def unlimited : Channel :=
  ⟨none, "", []⟩

/-- A channel that takes `n` pieces and refuses all later ones. -/
def limited (n : Nat) (refusal : String) : Channel :=
  ⟨some n, refusal, []⟩

/-- Hands a piece to a channel; `none` if it is refused. -/
def write? (c : Channel) (piece : String) : Option Channel :=
  match c.capacity with
  | none => some { c with pieces := c.pieces ++ [piece] }
  | some 0 => none
  | some (n + 1) => some { c with capacity := some n, pieces := c.pieces ++ [piece] }

/-- Hands pieces to a channel one by one, up to the first that is refused. The flag says whether
all were taken. -/
def writeAll (c : Channel) : List String → Bool × Channel
  | [] => (true, c)
  | piece :: rest =>
    match c.write? piece with
    | some c' => c'.writeAll rest
    | none => (false, c)

/-- The members of a list, one for each piece, that a channel takes: those up to its limit. -/
def taken {α : Type} (c : Channel) (pieces : List α) : List α :=
  match c.capacity with
  | none => pieces
  | some n => pieces.take n

/-- The text that a channel has taken. -/
def text (c : Channel) : String :=
  String.join c.pieces

end Channel

/-- A line with the line feed that ends it. -/
def endLine (line : String) : String :=
  line ++ "\n"

/-- Lines, each ended by a line feed. -/
def endLines (lines : List String) : String :=
  String.join (lines.map endLine)

end Reckoner
