/-
The parts of a source that come from the fields of a node type: the fields of its struct, the
parameters of its constructor, and the arguments that the constructor passes on. Each is read from
the words of the fields and laid out anew.
-/
import Reckoner.Nodes.Comment
import Reckoner.Nodes.Layout
import Reckoner.Nodes.Spec
import Reckoner.Nodes.Term.Reader

namespace Reckoner.Nodes

/-! ## Words -/

/-- The parameter for a field: its name with the first letter in lower case. Only an ASCII letter
has one. -/
def parameter? (field : String) : Option String :=
  match field.toList with
  | [] => none
  | c :: rest =>
    if c.toNat < 0x80 then some (String.ofList (c.toLower :: rest)) else none

/-- The tokens and comments of words with a blank between them. -/
def wordItems? : Spot → List String → Option (List Item)
  | _, [] => some []
  | spot, w :: rest => do
    let items ← items? spot w
    return items ++ (← wordItems? (spot.shift (w.length + 1)) rest)

/-- The tokens and comments of lists of words, each list on a line of its own. -/
def lineItems? : Nat → List (List String) → Option (List (List Item))
  | _, [] => some []
  | line, words :: rest => do
    let items ← wordItems? ⟨line, 1⟩ words
    return items :: (← lineItems? (line + 1) rest)

/-- The number of characters of words with a blank behind each. -/
def wordsWidth (words : List String) : Nat :=
  words.foldl (fun n w => n + (w.length + 1)) 0

/-- The column behind lists of words on one line, the first of which begins at column one. -/
def listWidth (lists : List (List String)) : Nat :=
  lists.foldl (fun n words => n + (wordsWidth words + 1)) 1

/-- The tokens and comments of lists of words on one line, with a comma and a blank between the
lists. -/
def listItems? : Nat → List (List String) → Option (List (List Item))
  | _, [] => some []
  | column, words :: rest => do
    let items ← wordItems? ⟨0, column⟩ words
    return items :: (← listItems? (column + wordsWidth words + 1) rest)

/-- The tokens among some items. -/
def tokensOf (items : List Item) : List Token :=
  items.filterMap Item.token?

/-- The comments among lists of items with a token between the lists. -/
def remarksOf (lists : List (List Item)) : List Remark :=
  lists.flatMap (Item.remarks none)

/-- A comment stands last. -/
def endsInRemark (items : List Item) : Bool :=
  match items.getLast? with
  | some (.remark _ _) => true
  | _ => false

/-! ## Fragments -/

/-- The field of a struct that some items stand for. -/
def member? (items : List Item) : Option Member :=
  (field? (tokensOf items)).map fun m => .mk m.names m.type m.tag (endsInRemark items)

/-- The fields of a struct in braces. -/
def structBody? (fields : List Field) : Option String := do
  let lists ← lineItems? 1 (fields.map fun f => [f.name, f.type])
  let members ← lists.mapM member?
  let remarks := remarksOf lists
  let pieces := fieldListPieces (remarks.map (·.spot)) ⟨0, 0⟩ ⟨fields.length + 1, 0⟩ members
  return Piece.text 0 (Piece.weave remarks pieces)

/-- The words of the parameters for fields. -/
def parameterWords? (fields : List Field) : Option (List (List String)) :=
  fields.mapM fun f => (parameter? f.name).map fun p => [p, f.type]

/-- The words of the arguments for fields. -/
def argumentWords? (fields : List Field) : Option (List (List String)) :=
  fields.mapM fun f => (parameter? f.name).map fun p => [p]

/-- The parameters with some words, in brackets. -/
def parametersOf? (words : List (List String)) : Option String := do
  let lists ← listItems? 1 words
  let declared ← lists.mapM fun items => declared? (tokensOf items)
  let members ← Declared.members? declared
  let remarks := remarksOf lists
  let stop : Spot := ⟨0, listWidth words⟩
  let pieces := parameterListPieces (remarks.map (·.spot)) ⟨0, 0⟩ stop members
  return Piece.text 0 (Piece.weave remarks pieces)

/-- The arguments with some words, in braces. -/
def argumentsOf? (words : List (List String)) : Option String := do
  let lists ← listItems? 1 words
  let arguments ← lists.mapM fun items => argument? (tokensOf items)
  let remarks := remarksOf lists
  let stop : Spot := ⟨0, listWidth words⟩
  let pieces := argumentListPieces (remarks.map (·.spot)) ⟨0, 0⟩ stop arguments
  return Piece.text 1 (Piece.weave remarks pieces)

/-- The parameters of a constructor in brackets. -/
def parameterList? (fields : List Field) : Option String :=
  (parameterWords? fields).bind parametersOf?

/-- The arguments that a constructor passes on, in braces. -/
def argumentList? (fields : List Field) : Option String :=
  (argumentWords? fields).bind argumentsOf?

end Reckoner.Nodes
