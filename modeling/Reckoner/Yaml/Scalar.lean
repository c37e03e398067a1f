/-
Scalars: plain ones, ones in single or double quotes, and blocks of lines. Within the first three a
line break between words counts as a space, and several of them as one break less.
-/
import Reckoner.Yaml.Cursor

namespace Reckoner.Yaml

/-! ## Folding -/

/-- The gap since the last character of a scalar: the spaces and tabs on one line, or line breaks.
Of these the first one may have been escaped. -/
inductive Gap where
  | inline (chars : List Char)
  | broken (first : Option Char) (more : List Char)

namespace Gap

/-- No gap at all. -/
def none : Gap := .inline []

/-- A gap that goes on with a space or a tab, which counts on the first line only. -/
def push (c : Char) : Gap → Gap
  | .inline chars => .inline (chars ++ [c])
  | gap => gap

/-- A gap that goes on with a line break. -/
def pushBreak (c : Char) : Gap → Gap
  | .inline _ => .broken (some (breakChar c)) []
  | .broken first more => .broken first (more ++ [breakChar c])

/-- What a gap contributes to the text. -/
def chars : Gap → List Char
  | .inline cs => cs
  | .broken .none more => more
  | .broken (some first) more =>
    if first = '\n' then if more = [] then [' '] else more
    else first :: more

/-- There is a gap. -/
def isSome : Gap → Bool
  | .inline [] => false
  | _ => true

/-- There is a line break in the gap. -/
def isBroken : Gap → Bool
  | .inline _ => false
  | .broken _ _ => true

end Gap

/-- Puts the text of a gap and a character in front of what was read behind them. -/
def prepend {α : Type} (gap : Gap) (c : Char) (r : Option (List Char × α)) :
    Option (List Char × α) :=
  r.map fun (cs, a) => (gap.chars ++ c :: cs, a)

/-! ## Quoted scalars -/

/-- A scalar in single quotes from behind the opening one, and what follows it. A quote inside is
written twice. No line of it may begin like a document; `fresh` says that a line begins. -/
def singleQuoted (fresh : Bool) (gap : Gap) : List Char → Option (List Char × List Char)
  | [] => none
  | '\'' :: '\'' :: rest => prepend gap '\'' (singleQuoted false .none rest)
  | c :: rest =>
    if fresh && isMarker (c :: rest) then none
    else if c = '\'' then some (gap.chars, rest)
    else if isBreak c then singleQuoted true (gap.pushBreak c) rest
    else if isGap c then singleQuoted false (gap.push c) rest
    else prepend gap c (singleQuoted false .none rest)

/-- The value of a hexadecimal digit. -/
def hexDigit? (c : Char) : Option Nat :=
  if c.isDigit then some (c.toNat - '0'.toNat)
  else if 'a' ≤ c && c ≤ 'f' then some (c.toNat - 'a'.toNat + 10)
  else if 'A' ≤ c && c ≤ 'F' then some (c.toNat - 'A'.toNat + 10)
  else none

/-- The number that some hexadecimal digits give. -/
def hexNumber? (digits : List Char) : Option Nat :=
  digits.foldlM (fun n c => (hexDigit? c).map (16 * n + ·)) 0

/-- The character whose number some hexadecimal digits give. -/
def hexChar? (digits : List Char) : Option Char := do
  let n ← hexNumber? digits
  guard n.isValidChar
  return Char.ofNat n

/-- The character that a backslash and a letter stand for. -/
def escaped? : Char → Option Char
  | '0' => some '\x00'
  | 'a' => some '\x07'
  | 'b' => some '\x08'
  | 't' => some '\t'
  | '\t' => some '\t'
  | 'n' => some '\n'
  | 'v' => some '\x0b'
  | 'f' => some '\x0c'
  | 'r' => some '\r'
  | 'e' => some '\x1b'
  | ' ' => some ' '
  | '"' => some '"'
  | '\'' => some '\''
  | '\\' => some '\\'
  | 'N' => some '\u0085'
  | '_' => some '\u00a0'
  | 'L' => some '\u2028'
  | 'P' => some '\u2029'
  | _ => none

/-- A scalar in double quotes from behind the opening one, and what follows it. A line break
behind a backslash does not count. -/
def doubleQuoted (fresh : Bool) (gap : Gap) : List Char → Option (List Char × List Char)
  | [] => none
  | '\\' :: 'x' :: a :: b :: rest => do
    prepend gap (← hexChar? [a, b]) (doubleQuoted false .none rest)
  | '\\' :: 'u' :: a :: b :: c :: d :: rest => do
    prepend gap (← hexChar? [a, b, c, d]) (doubleQuoted false .none rest)
  | '\\' :: 'U' :: a :: b :: c :: d :: e :: f :: g :: h :: rest => do
    prepend gap (← hexChar? [a, b, c, d, e, f, g, h]) (doubleQuoted false .none rest)
  | '\\' :: e :: rest =>
    if isBreak e then
      (doubleQuoted true (.broken none []) rest).map fun (cs, rest') => (gap.chars ++ cs, rest')
    else do prepend gap (← escaped? e) (doubleQuoted false .none rest)
  | c :: rest =>
    if fresh && isMarker (c :: rest) then none
    else if c = '"' then some (gap.chars, rest)
    else if isBreak c then doubleQuoted true (gap.pushBreak c) rest
    else if isGap c then doubleQuoted false (gap.push c) rest
    else prepend gap c (doubleQuoted false .none rest)

/-! ## Plain scalars -/

/-- The characters that structure collections between brackets. -/
def isFlowMark (c : Char) : Bool :=
  c == ',' || c == '[' || c == ']' || c == '\x7b' || c == '\x7d'

/-- The characters that mean something at the front of a node. -/
def isIndicator (c : Char) : Bool :=
  isFlowMark c || "-?:#&*!|>'\"%@\x60".toList.contains c

/-- A plain scalar can begin here. -/
def beginsPlain (inFlow : Bool) : List Char → Bool
  | [] => false
  | c :: rest =>
    if isGap c || isBreak c then false
    else if c == '-' then !endsWord rest
    else if c == '?' || c == ':' then !inFlow && !endsWord rest
    else !isIndicator c

/-- A plain scalar ends in front of these characters, wherever they stand. -/
def endsPlain (inFlow : Bool) : List Char → Bool
  | [] => true
  | c :: rest => (c == ':' && endsWord rest) || (inFlow && (isFlowMark c || c == '?'))

/-- A plain scalar ends behind a gap in front of these characters: outside brackets when they stand
too far to the left, and everywhere when they begin a document or a comment. -/
def endsPlainAfterGap (inFlow : Bool) (indent column : Nat) (cs : List Char) : Bool :=
  (!inFlow && column < indent) || (column == 0 && isMarker cs) || cs.head? == some '#'

/-- The text of a plain scalar, what follows it and the gap behind it, and whether there is a line
break in that gap. The lines after the first one begin at the column `indent` at least, and no tab
may stand in front of it. -/
def plain (inFlow : Bool) (indent column : Nat) (gap : Gap) :
    List Char → Option (List Char × List Char × Bool)
  | [] => some ([], [], gap.isBroken)
  | c :: rest =>
    if isBreak c then plain inFlow indent 0 (gap.pushBreak c) rest
    else if isGap c then
      if gap.isBroken && column < indent && c == '\t' then none
      else plain inFlow indent (column + 1) (gap.push c) rest
    else if endsPlain inFlow (c :: rest) ||
        (gap.isSome && endsPlainAfterGap inFlow indent column (c :: rest)) then
      some ([], c :: rest, gap.isBroken)
    else prepend gap c (plain inFlow indent (column + 1) .none rest)

/-! ## Blocks of lines -/

/-- What becomes of the line breaks at the end of a block. -/
inductive Chomping where
  | strip
  | clip
  | keep
  deriving DecidableEq, Repr

/-- The head of a block: whether its lines are folded, how far it is indented if that is given, and
what becomes of the breaks at its end. -/
structure BlockHead where
  folded : Bool
  indent : Option Nat
  chomping : Chomping

/-- The sign for the breaks at the end of a block. -/
def chomping? : Char → Option Chomping
  | '-' => some .strip
  | '+' => some .keep
  | _ => none

/-- The digit for the indentation of a block. -/
def blockIndent? (c : Char) : Option Nat :=
  if '1' ≤ c && c ≤ '9' then some (c.toNat - '0'.toNat) else none

/-- The head of a block from behind its first character, and what follows it on the line. The sign
and the digit may stand in either order. -/
def blockSigns (folded : Bool) : List Char → BlockHead × List Char
  | [] => (⟨folded, none, .clip⟩, [])
  | c :: rest =>
    match chomping? c, blockIndent? c with
    | some chomping, _ =>
      match rest with
      | d :: rest' =>
        match blockIndent? d with
        | some n => (⟨folded, some n, chomping⟩, rest')
        | none => (⟨folded, none, chomping⟩, rest)
      | [] => (⟨folded, none, chomping⟩, [])
    | none, some n =>
      match rest with
      | d :: rest' =>
        match chomping? d with
        | some chomping => (⟨folded, some n, chomping⟩, rest')
        | none => (⟨folded, some n, .clip⟩, rest)
      | [] => (⟨folded, some n, .clip⟩, [])
    | none, none => (⟨folded, none, .clip⟩, c :: rest)

/-- What follows a line whose rest is empty or a comment: nothing or its line break. -/
def afterComment? (cs : List Char) : Option (List Char) :=
  match skipGaps cs with
  | '#' :: rest => some (skipLine rest)
  | rest => if endsLine rest then some rest else none

/-- Lines without content: their breaks, the furthest column that their spaces reach, and what
follows, with its column. Spaces count up to the column `indent`, if that is known, and no tab may
stand among them. -/
def emptyLines (indent : Option Nat) (column deepest : Nat) :
    List Char → Option (List Char × Nat × Nat × List Char)
  | [] => some ([], max deepest column, column, [])
  | c :: rest =>
    let before := indent.all (column < ·)
    if c = ' ' && before then emptyLines indent (column + 1) deepest rest
    else if c = '\t' && before then none
    else if isBreak c then
      (emptyLines indent 0 (max deepest column) rest).map fun (breaks, more) =>
        (breakChar c :: breaks, more)
    else some ([], max deepest column, column, c :: rest)

/-- A line of a block: its characters, its line break if it has one, and those of the empty lines
after it. -/
structure BlockLine where
  chars : List Char
  ending : Option Char
  breaks : List Char

namespace BlockLine

/-- The line begins with a gap. -/
def isIndented (l : BlockLine) : Bool :=
  (l.chars.head?.map isGap).getD false

end BlockLine

/-- The lines of a block whose column is `indent`, for at most `n` of them, and what follows. -/
def blockLines (indent : Nat) : Nat → Nat → List Char → Option (List BlockLine × List Char)
  | 0, _, rest => some ([], rest)
  | n + 1, column, rest =>
    if column != indent || rest = [] then some ([], rest)
    else
      let chars := rest.takeWhile (!isBreak ·)
      let behind := skipLine rest
      match emptyLines (some indent) 0 0 (behind.drop 1) with
      | none => none
      | some (breaks, _, column', rest') =>
        (blockLines indent n column' rest').map fun (lines, after) =>
          (⟨chars, behind.head?.map breakChar, breaks⟩ :: lines, after)

/-- What joins a line to the one before it: in a folded block a break between two lines that are
not indented further counts as a space, or not at all if empty lines follow it. -/
def joint (folded : Bool) (before line : BlockLine) : List Char :=
  let ending := before.ending.toList
  let opening :=
    if folded && !before.isIndented && !line.isIndented && ending == ['\n'] then
      if before.breaks = [] then [' '] else []
    else ending
  opening ++ before.breaks

/-- The text of the lines after a given one. -/
def blockTail (folded : Bool) (before : BlockLine) : List BlockLine → List Char
  | [] => []
  | line :: rest => joint folded before line ++ line.chars ++ blockTail folded line rest

/-- The text of a block with some breaks in front of its lines. -/
def blockText (head : BlockHead) (leading : List Char) : List BlockLine → List Char
  | [] => if head.chomping = .keep then leading else []
  | first :: rest =>
    let last := (first :: rest).getLastD first
    let ending := match head.chomping with
      | .strip => []
      | .clip => last.ending.toList
      | .keep => last.ending.toList ++ last.breaks
    leading ++ first.chars ++ blockTail head.folded first rest ++ ending

/-- The text of a block from behind its first character, and what follows it. The block belongs to
what stands in the column `parent`, where `-1` is the text as a whole. Without a digit its column
is the furthest one that the empty lines and the first line reach. -/
def block? (folded : Bool) (parent : Int) (cs : List Char) : Option (List Char × List Char) := do
  let (head, rest) := blockSigns folded cs
  let rest ← afterComment? rest
  let given := head.indent.map fun n => (max parent 0).toNat + n
  let (leading, deepest, column, rest) ← emptyLines given 0 0 (rest.drop 1)
  let indent := given.getD (max deepest (max (parent + 1).toNat 1))
  let (lines, after) ← blockLines indent rest.length column rest
  return (blockText head leading lines, after)

end Reckoner.Yaml
