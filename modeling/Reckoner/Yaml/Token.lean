/-
The tokens of a YAML text. Mappings and sequences that are told by indentation have tokens at their
beginnings and ends like those between brackets, and a key has a token in front of it, whether it
is marked as one or shows only by the colon behind it.

A candidate for a key is remembered at each level of brackets until the colon comes. It has to come
on the same line and within 1024 characters; where the indentation leaves no other reading it is an
error if it does not.
-/
import Reckoner.Yaml.Tag

namespace Reckoner.Yaml

/-- A token. -/
inductive Token where
  | directive (d : Directive)
  | documentStart
  | documentEnd
  | sequenceStart
  | mappingStart
  | blockEnd
  | openBracket
  | closeBracket
  | openBrace
  | closeBrace
  | dash
  | comma
  | key
  | value
  | alias (name : String)
  | anchor (name : String)
  | tag (handle suffix : String)
  | scalar (text : String) (plain : Bool)
  | streamEnd
  deriving DecidableEq, Repr

/-- A token that may turn out to begin a key: how many tokens stand before it, where it begins, and
whether it has to be a key. -/
structure Candidate where
  number : Nat
  place : Place
  required : Bool

/-- The state of reading tokens: the tokens so far, the latest first, the columns of the open
collections that are told by indentation, the innermost first, and the candidate for a key at each
level of brackets, the innermost first. -/
structure Scan where
  cursor : Cursor
  tokens : List Token
  columns : List Nat
  candidates : List (Option Candidate)
  keyAllowed : Bool

namespace Scan

/-- The state at the front of a text. -/
def start (cs : List Char) : Scan where
  cursor := .start cs
  tokens := []
  columns := []
  candidates := [none]
  keyAllowed := true

/-- Some brackets are open. -/
def inFlow (s : Scan) : Bool :=
  1 < s.candidates.length

/-- The column of the innermost collection that is told by indentation, and `-1` without one. -/
def indent (s : Scan) : Int :=
  match s.columns with
  | [] => -1
  | column :: _ => column

/-- The column where the cursor stands. -/
def column (s : Scan) : Nat :=
  s.cursor.place.column

/-- Adds a token. -/
def push (s : Scan) (t : Token) : Scan :=
  { s with tokens := t :: s.tokens }

/-- Adds a token behind the first `number` ones. -/
def insert (s : Scan) (number : Nat) (t : Token) : Scan :=
  let later := s.tokens.length - number
  { s with tokens := s.tokens.take later ++ t :: s.tokens.drop later }

/-- Moves the cursor to where `rest` is left of the text. -/
def goTo (s : Scan) (rest : List Char) : Scan :=
  { s with cursor := s.cursor.advance rest }

/-- Moves the cursor over some characters. -/
def advance (s : Scan) (n : Nat) : Scan :=
  { s with cursor := s.cursor.drop n }

/-! ## Candidates for keys -/

/-- The greatest distance between a key and its colon. -/
def keyLimit : Nat := 1024

/-- The colon of a candidate may still come. -/
def isOpen (s : Scan) (c : Candidate) : Bool :=
  c.place.line == s.cursor.place.line && s.cursor.place.index ≤ c.place.index + keyLimit

/-- Gives up the candidate at the innermost level, unless it has to be a key. -/
def dropCandidate (s : Scan) : Option Scan :=
  match s.candidates with
  | some c :: outer => if c.required then none else some { s with candidates := none :: outer }
  | _ => some s

/-- Remembers the next token as a candidate, if a key may stand here. -/
def saveCandidate (s : Scan) : Option Scan :=
  if s.keyAllowed then
    s.dropCandidate.map fun s =>
      let c := ⟨s.tokens.length, s.cursor.place, !s.inFlow && s.indent == s.column⟩
      { s with candidates := some c :: s.candidates.drop 1 }
  else some s

/-- The numbers of the tokens that may still turn out to begin a key. -/
def pending (s : Scan) : List Nat :=
  s.candidates.filterMap fun c => match c with
    | some c => if s.isOpen c then some c.number else none
    | none => none

/-! ## Indentation -/

/-- The greatest number of collections in one another. -/
def depthLimit : Nat := 10000

/-- Begins a collection at a column behind the first `number` tokens, if it is further to the right
than the innermost one. Between brackets indentation does not count. -/
def indentTo (s : Scan) (column number : Nat) (t : Token) : Option Scan :=
  if s.inFlow || column ≤ s.indent then some s
  else if depthLimit ≤ s.columns.length then none
  else some { s.insert number t with columns := column :: s.columns }

/-- Ends the collections that are further to the right than a column. -/
def endBlocks (column : Int) : List Nat → List Token → List Nat × List Token
  | [], tokens => ([], tokens)
  | c :: outer, tokens =>
    if column < c then endBlocks column outer (.blockEnd :: tokens) else (c :: outer, tokens)

/-- Ends the collections that are further to the right than a column, unless brackets are open. -/
def unindentTo (s : Scan) (column : Int) : Scan :=
  if s.inFlow then s
  else
    let (columns, tokens) := endBlocks column s.columns s.tokens
    { s with columns, tokens }

/-! ## Between tokens -/

/-- How far a comment is looked for behind gaps and line breaks. -/
def commentReach : Nat := 512

/-- What follows a comment and the comments on the lines after it, for at most `n` of them. Only
gaps and line feeds may stand between them. -/
def skipComments : Nat → List Char → List Char
  | 0, cs => cs
  | n + 1, cs =>
    let rest := skipLine cs
    match rest with
    | '\n' :: more =>
      let between := more.takeWhile fun c => isGap c || c == '\n'
      match more.drop between.length with
      | '#' :: _ =>
        if between.length + 1 < commentReach then skipComments n (more.drop between.length)
        else rest
      | _ => rest
    | _ => rest

/-- Goes to the next token, for at most `n` lines. Outside brackets a line break allows a key, and
where a key may stand a tab is no gap. -/
def skipBlanks : Nat → Scan → Scan
  | 0, s => s
  | n + 1, s =>
    let isSkipped (c : Char) : Bool := c == ' ' || ((s.inFlow || !s.keyAllowed) && c == '\t')
    let rest := s.cursor.rest.dropWhile isSkipped
    let rest := if rest.head? == some '#' then skipComments rest.length rest else rest
    match rest with
    | c :: rest' =>
      if isBreak c then
        skipBlanks n { s.goTo rest' with keyAllowed := s.keyAllowed || !s.inFlow }
      else s.goTo rest
    | [] => s.goTo []

/-- Skips a comment behind a token on the same line. Behind a dash it belongs to what follows. -/
def skipLineComment (s : Scan) : Scan :=
  if s.tokens.head? == some .dash || s.cursor.place.breaks != 0 then s
  else
    let rest := skipGaps s.cursor.rest
    if rest.head? == some '#' && s.cursor.rest.length < rest.length + commentReach then
      s.goTo (skipLine rest)
    else s

/-! ## Tokens one by one -/

/-- The end of the text. -/
def atEnd (s : Scan) : Option Scan := do
  let s ← (s.unindentTo (-1)).dropCandidate
  return { s.push .streamEnd with keyAllowed := false }

/-- A directive. -/
def directive (s : Scan) (rest : List Char) : Option Scan := do
  let s ← (s.unindentTo (-1)).dropCandidate
  let (d, rest') ← directive? rest
  return { (s.push (.directive d)).goTo rest' with keyAllowed := false }

/-- A marker that begins or ends a document. -/
def marker (s : Scan) (t : Token) : Option Scan := do
  let s ← (s.unindentTo (-1)).dropCandidate
  return { (s.push t).advance 3 with keyAllowed := false }

/-- An opening bracket or brace. -/
def openFlow (s : Scan) (t : Token) : Option Scan := do
  let s ← s.saveCandidate
  guard (s.candidates.length ≤ depthLimit)
  return { (s.push t).advance 1 with candidates := none :: s.candidates, keyAllowed := true }

/-- A closing bracket or brace. -/
def closeFlow (s : Scan) (t : Token) : Option Scan := do
  let s ← s.dropCandidate
  let candidates := if s.inFlow then s.candidates.drop 1 else s.candidates
  return { (s.push t).advance 1 with candidates, keyAllowed := false }

/-- A comma between brackets. -/
def comma (s : Scan) : Option Scan := do
  let s ← s.dropCandidate
  return { (s.push .comma).advance 1 with keyAllowed := true }

/-- The dash of an item. -/
def dash (s : Scan) : Option Scan := do
  guard (s.inFlow || s.keyAllowed)
  let s ← s.indentTo s.column s.tokens.length .sequenceStart
  let s ← s.dropCandidate
  return { (s.push .dash).advance 1 with keyAllowed := true }

/-- The question mark of a key. -/
def markedKey (s : Scan) : Option Scan := do
  guard (s.inFlow || s.keyAllowed)
  let s ← s.indentTo s.column s.tokens.length .mappingStart
  let s ← s.dropCandidate
  return { (s.push .key).advance 1 with keyAllowed := !s.inFlow }

/-- The colon of a value whose key was marked or is missing. -/
def complexValue (s : Scan) : Option Scan := do
  guard (s.inFlow || s.keyAllowed)
  let s ← s.indentTo s.column s.tokens.length .mappingStart
  return { (s.push .value).advance 1 with keyAllowed := !s.inFlow }

/-- The colon of a value. If the candidate at this level is still open, it is the key; one that has
to be a key and is no longer open is an error. -/
def value (s : Scan) : Option Scan :=
  match s.candidates with
  | some c :: outer =>
    if s.isOpen c then do
      let s := { s.insert c.number .key with candidates := none :: outer, keyAllowed := false }
      let s ← s.indentTo c.place.column c.number .mappingStart
      return (s.push .value).advance 1
    else if c.required then none
    else complexValue { s with candidates := none :: outer }
  | _ => complexValue s

/-- An anchor, an alias, a tag or a scalar that is not a block: it may begin a key. -/
def keyPart (s : Scan) (t : Token) (rest : List Char) (keyAllowed : Bool) : Option Scan := do
  let s ← s.saveCandidate
  return { (s.push t).goTo rest with keyAllowed }

/-- An alias or an anchor. -/
def named (s : Scan) (token : String → Token) (cs : List Char) : Option Scan := do
  let (name, rest) ← anchor? cs
  s.keyPart (token name) rest false

/-- A tag. -/
def tag (s : Scan) (cs : List Char) : Option Scan := do
  let (handle, suffix, rest) ← tag? cs
  s.keyPart (.tag handle suffix) rest false

/-- A block of lines. -/
def block (s : Scan) (folded : Bool) (cs : List Char) : Option Scan := do
  let s ← s.dropCandidate
  let (text, rest) ← block? folded s.indent cs
  return { (s.push (.scalar (String.ofList text) false)).goTo rest with keyAllowed := true }

/-- A scalar in quotes. -/
def quoted (s : Scan) (r : Option (List Char × List Char)) : Option Scan := do
  let (text, rest) ← r
  s.keyPart (.scalar (String.ofList text) false) rest false

/-- A plain scalar. Behind one that ends with its line a key may stand. -/
def plainScalar (s : Scan) : Option Scan := do
  let (text, rest, broken) ←
    plain s.inFlow (s.indent + 1).toNat s.column .none s.cursor.rest
  s.keyPart (.scalar (String.ofList text) true) rest broken

/-- The token that begins with a character. -/
def token (s : Scan) (c : Char) (rest : List Char) : Option Scan :=
  if c = '[' then s.openFlow .openBracket
  else if c = '\x7b' then s.openFlow .openBrace
  else if c = ']' then s.closeFlow .closeBracket
  else if c = '\x7d' then s.closeFlow .closeBrace
  else if c = ',' then s.comma
  else if c = '-' && endsWord rest then s.dash
  else if c = '?' && (s.inFlow || endsWord rest) then s.markedKey
  else if c = ':' && (s.inFlow || endsWord rest) then s.value
  else if c = '*' then s.named .alias rest
  else if c = '&' then s.named .anchor rest
  else if c = '!' then s.tag (c :: rest)
  else if c = '|' && !s.inFlow then s.block false rest
  else if c = '>' && !s.inFlow then s.block true rest
  else if c = '\'' then s.quoted (singleQuoted false .none rest)
  else if c = '"' then s.quoted (doubleQuoted false .none rest)
  else if beginsPlain s.inFlow (c :: rest) then s.plainScalar
  else none

/-- Adds the next token, and those that indentation and keys put in front of it. -/
def next (s : Scan) : Option Scan :=
  let s := s.skipBlanks (s.cursor.rest.length + 1)
  let s := s.unindentTo s.column
  match s.cursor.rest with
  | [] => s.atEnd
  | c :: rest =>
    if s.column = 0 && c = '%' then s.directive rest
    else if s.column = 0 && isMarker (c :: rest) then
      s.marker (if c = '-' then .documentStart else .documentEnd)
    else (s.token c rest).map skipLineComment

/-- Adds all tokens, for at most `n` steps, up to the end or to what is no token. -/
def run : Nat → Scan → Scan
  | 0, s => s
  | n + 1, s =>
    if s.tokens.head? == some .streamEnd then s
    else match s.next with
      | some s' => run n s'
      | none => s

end Scan

/-- The tokens of a text. If they do not reach its end, the text goes on with something that is no
token, and `pending` are the numbers of the tokens that may still have turned out to begin a key. -/
structure Tokens where
  list : List Token
  pending : List Nat

namespace Tokens

/-- The tokens of a text. -/
def ofChars (cs : List Char) : Tokens :=
  let s := Scan.run (cs.length + 1) (.start cs)
  ⟨s.tokens.reverse, s.pending⟩

/-- The tokens reach the end of the text. -/
def areComplete (t : Tokens) : Bool :=
  t.list.getLast? == some .streamEnd

end Tokens

end Reckoner.Yaml
