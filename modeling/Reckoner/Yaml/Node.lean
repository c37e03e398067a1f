/-
The nodes that the tokens of a YAML text describe. A reader takes the first document of a text.

The tokens are looked at two ahead: what is no token and stands further behind the document than
that does not count.
-/
import Reckoner.Yaml.Token

namespace Reckoner.Yaml

/-- A node. The tag of a scalar is empty if the text alone says what it denotes. The alias of an
anchored node has the name and the number of the anchor and a number of its own. -/
inductive Node where
  | scalar (tag text : String)
  | sequence (items : List Node)
  | mapping (entries : List (Node × Node))
  | alias (name : String) (anchor number : Nat)

/-- A document: its node, and the nodes that are anchored in it, by the numbers of their anchors. -/
structure Document where
  root : Node
  anchored : List (Nat × Node)
  size : Nat

/-- The tag of text. -/
def textTag : String := "!!str"

namespace Node

/-- The node that stands where nothing is written. -/
def null : Node := .scalar "" ""

/-- A scalar with the tag that is written in front of it. A single exclamation mark says nothing,
and text that is not plain is text. -/
def ofScalar (tag text : String) (plain : Bool) : Node :=
  if tag = "" || tag = "!" then .scalar (if plain then "" else textTag) text else .scalar tag text

end Node

/-! ## Reading tokens -/

/-- The state of reading nodes: the tokens that are left, the anchors by name, the latest first,
the anchored nodes, and how many anchors and aliases there are so far. -/
structure Reading where
  tokens : List Token
  anchors : List (String × Nat)
  anchored : List (Nat × Node)
  count : Nat

/-- A reader of tokens, which may fail. -/
abbrev Reader := StateT Reading Option

namespace Reader

/-- The next token. -/
def peek : Reader Token := do
  match (← get).tokens with
  | [] => failure
  | t :: _ => return t

/-- Leaves out the next token. -/
def skip : Reader Unit :=
  modify fun r => { r with tokens := r.tokens.drop 1 }

/-- The next number for an anchor or an alias. -/
def fresh : Reader Nat := do
  let n := (← get).count
  modify fun r => { r with count := n + 1 }
  return n

/-- The number of a new anchor, if there is one. -/
def declare (name : Option String) : Reader (Option Nat) := do
  match name with
  | none => return none
  | some name =>
    let n ← fresh
    modify fun r => { r with anchors := (name, n) :: r.anchors }
    return some n

/-- Remembers an anchored node. -/
def bind (number : Option Nat) (node : Node) : Reader Node := do
  match number with
  | none => return node
  | some n =>
    modify fun r => { r with anchored := (n, node) :: r.anchored }
    return node

/-- The alias of the latest anchor with a name. -/
def aliasOf (name : String) : Reader Node := do
  match (← get).anchors.lookup name with
  | none => failure
  | some anchor => return .alias name anchor (← fresh)

end Reader

open Reader

/-! ## Tags -/

/-- What the handles of tags stand for. -/
abbrev Handles := List (String × String)

/-- The handles that need no directive. -/
def commonHandles : Handles :=
  [("!", "!"), ("!!", "tag:yaml.org,2002:")]

/-- The short form of a tag: a common one has two exclamation marks in front. -/
def shortTag (tag : String) : String :=
  let common := "tag:yaml.org,2002:".toList
  if common.isPrefixOf tag.toList then
    "!!" ++ String.ofList (tag.toList.drop common.length)
  else tag

/-- The tag with a handle and a suffix. -/
def fullTag? (handles : Handles) (handle suffix : String) : Option String :=
  if handle = "" then some (shortTag suffix)
  else match handles.lookup handle with
    | some address => some (shortTag (address ++ suffix))
    | none => none

/-- The anchor and the tag in front of a node, in either order. Without a tag it is empty. -/
def properties (handles : Handles) : Reader (Option String × String) := do
  match ← peek with
  | .anchor name =>
    skip
    match ← peek with
    | .tag handle suffix =>
      skip
      return (some name, ← fullTag? handles handle suffix)
    | _ => return (some name, "")
  | .tag handle suffix =>
    skip
    let tag ← fullTag? handles handle suffix
    match ← peek with
    | .anchor name =>
      skip
      return (some name, tag)
    | _ => return (none, tag)
  | _ => return (none, "")

/-! ## Nodes -/

/-- The tokens in front of which an item of a sequence in the column of its key is missing. -/
def endsItem : Token → Bool
  | .dash | .key | .value | .blockEnd => true
  | _ => false

/-- The tokens in front of which a key or a value of a mapping is missing. -/
def endsEntry : Token → Bool
  | .key | .value | .blockEnd => true
  | _ => false

mutual

/-- A node with what stands in front of it, for at most `n` steps. Outside brackets it may be a
collection that is told by indentation, and behind a key also a sequence in the key's column. -/
def node (handles : Handles) : Nat → Bool → Bool → Reader Node
  | 0, _, _ => failure
  | n + 1, inBlock, behindKey => do
    match ← peek with
    | .alias name =>
      skip
      aliasOf name
    | _ =>
      let (name, tag) ← properties handles
      let number ← declare name
      bind number (← content handles n inBlock behindKey tag (name.isSome || tag != ""))

/-- The content of a node. It may be missing if something stands in front of it. -/
def content (handles : Handles) : Nat → Bool → Bool → String → Bool → Reader Node
  | 0, _, _, _, _ => failure
  | n + 1, inBlock, behindKey, tag, mayBeMissing => do
    match ← peek, inBlock, behindKey with
    | .scalar text plain, _, _ =>
      skip
      return .ofScalar tag text plain
    | .openBracket, _, _ =>
      skip
      return .sequence (← bracketItems handles n true)
    | .openBrace, _, _ =>
      skip
      return .mapping (← braceEntries handles n true)
    | .sequenceStart, true, _ =>
      skip
      return .sequence (← blockItems handles n)
    | .mappingStart, true, _ =>
      skip
      return .mapping (← blockEntries handles n)
    | .dash, _, true => return .sequence (← columnItems handles n)
    | _, _, _ => if mayBeMissing then return .ofScalar tag "" true else failure

/-- The items of a sequence that is told by indentation, up to its end. -/
def blockItems (handles : Handles) : Nat → Reader (List Node)
  | 0 => failure
  | n + 1 => do
    match ← peek with
    | .dash =>
      skip
      let next ← peek
      let item ← if next == .dash || next == .blockEnd then pure Node.null
        else node handles n true false
      return item :: (← blockItems handles n)
    | .blockEnd =>
      skip
      return []
    | _ => failure

/-- The items of a sequence in the column of its key. -/
def columnItems (handles : Handles) : Nat → Reader (List Node)
  | 0 => failure
  | n + 1 => do
    match ← peek with
    | .dash =>
      skip
      let item ← if endsItem (← peek) then pure Node.null else node handles n true false
      return item :: (← columnItems handles n)
    | _ => return []

/-- The entries of a mapping that is told by indentation, up to its end. -/
def blockEntries (handles : Handles) : Nat → Reader (List (Node × Node))
  | 0 => failure
  | n + 1 => do
    match ← peek with
    | .key =>
      skip
      let key ← if endsEntry (← peek) then pure Node.null else node handles n true true
      let value ← blockValue handles n
      return (key, value) :: (← blockEntries handles n)
    | .blockEnd =>
      skip
      return []
    | _ => failure

/-- The value of an entry of a mapping that is told by indentation. -/
def blockValue (handles : Handles) : Nat → Reader Node
  | 0 => failure
  | n + 1 => do
    if (← peek) == .value then
      skip
      if endsEntry (← peek) then return .null else node handles n true true
    else return .null

/-- The items of a sequence between brackets. A pair of a key and a value among them is a mapping
of its own. -/
def bracketItems (handles : Handles) : Nat → Bool → Reader (List Node)
  | 0, _ => failure
  | n + 1, isFirst => do
    if (← peek) == .closeBracket then
      skip
      return []
    if !isFirst then
      if (← peek) == .comma then skip else failure
    match ← peek with
    | .closeBracket =>
      skip
      return []
    | .key =>
      skip
      let pair ← bracketPair handles n
      return .mapping [pair] :: (← bracketItems handles n false)
    | _ =>
      let item ← node handles n false false
      return item :: (← bracketItems handles n false)

/-- A key and a value among the items between brackets. A missing key takes the next token with
it. -/
def bracketPair (handles : Handles) : Nat → Reader (Node × Node)
  | 0 => failure
  | n + 1 => do
    let next ← peek
    let key ← if next == .value || next == .comma || next == .closeBracket then
        do skip; pure Node.null
      else node handles n false false
    if (← peek) == .value then
      skip
      let next ← peek
      if next == .comma || next == .closeBracket then return (key, .null)
      else return (key, ← node handles n false false)
    else return (key, .null)

/-- The entries of a mapping between braces. -/
def braceEntries (handles : Handles) : Nat → Bool → Reader (List (Node × Node))
  | 0, _ => failure
  | n + 1, isFirst => do
    if (← peek) == .closeBrace then
      skip
      return []
    if !isFirst then
      if (← peek) == .comma then skip else failure
    match ← peek with
    | .closeBrace =>
      skip
      return []
    | .key =>
      skip
      let next ← peek
      let key ← if next == .value || next == .comma || next == .closeBrace then pure Node.null
        else node handles n false false
      let value ← braceValue handles n
      return (key, value) :: (← braceEntries handles n false)
    | _ =>
      let key ← node handles n false false
      return (key, .null) :: (← braceEntries handles n false)

/-- The value of an entry between braces. -/
def braceValue (handles : Handles) : Nat → Reader Node
  | 0 => failure
  | n + 1 => do
    if (← peek) == .value then
      skip
      let next ← peek
      if next == .comma || next == .closeBrace then return .null
      else node handles n false false
    else return .null

end

/-! ## Documents -/

/-- The handles that the directives in front of a document declare, over the common ones. There is
at most one version, which is 1.1, and no handle is declared twice. -/
def directives : Nat → Bool → Handles → Reader Handles
  | 0, _, _ => failure
  | n + 1, versionSeen, handles => do
    match ← peek with
    | .directive (.version major minor) =>
      if versionSeen || major != 1 || minor != 1 then failure
      skip
      directives n true handles
    | .directive (.tag handle address) =>
      if (handles.lookup handle).isSome then failure
      skip
      directives n versionSeen ((handle, address) :: handles)
    | _ => return handles ++ commonHandles

/-- A token that ends a document without content. -/
def endsDocument : Token → Bool
  | .directive _ | .documentStart | .documentEnd | .streamEnd => true
  | _ => false

/-- The node of the first document, if the text has one. Behind a marker it may be missing. -/
def firstDocument : Reader (Option Node) := do
  let steps := 4 * (← get).tokens.length + 4
  match ← peek with
  | .streamEnd => return none
  | .directive _ | .documentStart =>
    let handles ← directives steps false []
    if (← peek) != .documentStart then failure
    skip
    if endsDocument (← peek) then return some .null
    return some (← node handles steps true false)
  | _ => return some (← node commonHandles steps true false)

/-- Two more tokens behind those that were taken are there, and the tokens that were taken are known
to begin a key or not. -/
def Tokens.suffice (t : Tokens) (left : Nat) : Bool :=
  t.areComplete || (3 ≤ left && t.pending.all (t.list.length - left < ·))

/-- The first document of a text; a text without one has nothing in it. -/
def read? (text : String) : Option Document :=
  let cs := match text.toList with
    | '\ufeff' :: rest => rest
    | cs => cs
  if cs.all isAllowed then
    let tokens := Tokens.ofChars (unifyBreaks cs)
    match firstDocument.run ⟨tokens.list, [], [], 0⟩ with
    | some (root, reading) =>
      if tokens.suffice reading.tokens.length then
        some ⟨root.getD .null, reading.anchored, tokens.list.length⟩
      else none
    | none => none
  else none

end Reckoner.Yaml
