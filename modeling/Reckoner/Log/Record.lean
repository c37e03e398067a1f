/-
Log records and the two ways of writing them: a line of `key=value` pairs, or a line of JSON.
-/
import Reckoner.Json.Basic
import Reckoner.Log.Level
import Reckoner.Text.Blank

namespace Reckoner.Log

/-- A value that is no group. -/
inductive Scalar where
  | text (s : String)
  | int (n : Int)
  | bool (b : Bool)
  | null
  /-- A value of another kind, such as a fraction, a time or a failure: its text, whether this is
  quoted in any case, and the document for it. -/
  | other (text : String) (quoted : Bool) (document : Json) (wellFormed : document.WellFormed)

/-- The value of an attribute: a scalar, or a group of attributes by their keys. -/
inductive AttrValue where
  | scalar (value : Scalar)
  | group (members : List (String × AttrValue))

namespace AttrValue

/-- A text as a value. -/
@[match_pattern] def text (s : String) : AttrValue := .scalar (.text s)

/-- An integer as a value. -/
@[match_pattern] def int (n : Int) : AttrValue := .scalar (.int n)

/-- A truth value. -/
@[match_pattern] def bool (b : Bool) : AttrValue := .scalar (.bool b)

/-- The value that stands for none. -/
@[match_pattern] def null : AttrValue := .scalar .null

end AttrValue

/-- An attribute: a key and a value. -/
abbrev Attr :=
  String × AttrValue

/-- An attribute that is no group. -/
structure Leaf where
  key : String
  value : Scalar

namespace Leaf

/-- An attribute without key and value, which is never written. -/
def isEmpty : Leaf → Bool
  | ⟨key, .null⟩ => key == ""
  | _ => false

end Leaf

/-- What is written for an attribute or for a group, which has at least one field. -/
inductive Field where
  | leaf (a : Leaf)
  | group (name : String) (first : Field) (rest : List Field)

/-- Fields in a group. Without a name they stand for themselves, and without fields there is no
group. -/
def grouped (name : String) (fields : List Field) : List Field :=
  if name = "" then fields
  else match fields with
    | [] => []
    | first :: rest => [.group name first rest]

mutual

/-- The fields of an attribute. -/
def AttrValue.fields (key : String) : AttrValue → List Field
  | .scalar value => if (Leaf.mk key value).isEmpty then [] else [.leaf ⟨key, value⟩]
  | .group members => grouped key (fieldsOf members)

/-- The fields of several attributes. -/
def fieldsOf : List (String × AttrValue) → List Field
  | [] => []
  | (key, value) :: rest => value.fields key ++ fieldsOf rest

end

/-- A record that passes the threshold, with the fields of its logger and its own. -/
structure Record where
  level : Int
  message : String
  fields : List Field

/-! ## Lines of pairs -/

/-- Text that cannot stand unquoted in a pair. -/
def needsQuotes (s : String) : Bool :=
  s.isEmpty || s.toList.any fun c =>
    if c.toNat < 0x80 then c.toNat < 0x20 || c == ' ' || c == '=' || c == '"'
    else c.toNat == 0xFFFD || Text.isBlank c || !Text.isPrintable c

/-- Text that is quoted if it has to be. -/
def bare (s : String) : String :=
  if needsQuotes s then Text.quote s else s

/-- A key behind the names of the groups that hold it. -/
def pairKey (groups key : String) : String :=
  if groups.isEmpty then bare key
  else if needsQuotes groups || needsQuotes key then Text.quote (groups ++ key)
  else groups ++ key

/-- The text of a value. -/
def Scalar.shown : Scalar → String
  | .text s => s
  | .int n => toString n
  | .bool b => if b then "true" else "false"
  | .null => "<nil>"
  | .other s _ _ _ => s

/-- The value of a pair. -/
def Scalar.pairText : Scalar → String
  | .other s true _ _ => Text.quote s
  | value => bare value.shown

mutual

/-- The pairs of a field, each behind a blank. -/
def Field.pairs (groups : String) : Field → String
  | .leaf a => " " ++ pairKey groups a.key ++ "=" ++ a.value.pairText
  | .group name first rest =>
    first.pairs (groups ++ name ++ ".") ++ pairsOf (groups ++ name ++ ".") rest

/-- The pairs of several fields. -/
def pairsOf (groups : String) : List Field → String
  | [] => ""
  | f :: fs => f.pairs groups ++ pairsOf groups fs

end

/-- A record as a line of pairs, stamped with a time. -/
def Record.textLine (stamp : String) (r : Record) : String :=
  "time=" ++ stamp ++ " level=" ++ bare (levelName r.level) ++ " msg=" ++ bare r.message ++
    pairsOf "" r.fields ++ "\n"

/-! ## Lines of JSON -/

/-- A value as JSON. -/
def Scalar.json : Scalar → Json
  | .text s => .string s
  | .int n => .int n
  | .bool b => .bool b
  | .null => .null
  | .other _ _ document _ => document

mutual

/-- A field as a member of an object. -/
def Field.member : Field → String × Json
  | .leaf a => (a.key, a.value.json)
  | .group name first rest => (name, .object (first.member :: membersOf rest))

/-- Fields as the members of an object. -/
def membersOf : List Field → List (String × Json)
  | [] => []
  | f :: fs => f.member :: membersOf fs

end

/-- A record as a line of JSON, stamped with a time. -/
def Record.jsonLine (stamp : String) (r : Record) : String :=
  (Json.object (("time", .string stamp) :: ("level", .string (levelName r.level)) ::
    ("msg", .string r.message) :: membersOf r.fields)).render .log ++ "\n"

end Reckoner.Log
