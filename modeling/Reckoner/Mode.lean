/-
Modes: how far a source is taken through the stages.
-/
import Reckoner.Text.Quoted

namespace Reckoner

/-- A mode. Every mode without a name takes a source through all stages. -/
inductive Mode where
  | tokenize
  | parse
  | evaluate
  | unnamed (index : Int)
  deriving DecidableEq, Repr

namespace Mode

/-- The mode with an index. -/
def ofIndex : Int → Mode
  | 0 => .tokenize
  | 1 => .parse
  | 2 => .evaluate
  | n => .unnamed n

/-- The index of a mode. -/
def index : Mode → Int
  | .tokenize => 0
  | .parse => 1
  | .evaluate => 2
  | .unnamed n => n

/-- The name of a mode; a mode without one is shown by its index. -/
def name : Mode → String
  | .tokenize => "tokenize"
  | .parse => "parse"
  | .evaluate => "evaluate"
  | .unnamed n => "Mode(" ++ toString n ++ ")"

/-- The modes that can be asked for by name. -/
def named : List Mode :=
  [.tokenize, .parse, .evaluate]

/-- The mode with a name. -/
def ofName? (s : String) : Option Mode :=
  named.find? (·.name == s)

/-- The text that says that no mode has the name. -/
def unknownText (s : String) : String :=
  "unknown mode " ++ Text.quote s

end Mode

end Reckoner
