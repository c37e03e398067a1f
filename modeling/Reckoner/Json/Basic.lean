/-
JSON values and their text. Two styles of writing strings differ in what they escape; both
escape quotes, backslashes, control characters and the two line separators of Unicode.
-/
import Reckoner.Text.Quoted

namespace Reckoner

/-- A JSON value. A number is kept as its numeral, and the members of an object in their order. -/
inductive Json where
  | null
  | bool (b : Bool)
  | number (numeral : String)
  | string (s : String)
  | array (items : List Json)
  | object (members : List (String × Json))

namespace Json

/-- The numeral of an integer as a value. -/
def int (n : Int) : Json :=
  .number (toString n)

/-! ## Well-formed values -/

/-- At least one decimal digit. -/
def IsDigits (cs : List Char) : Prop :=
  cs ≠ [] ∧ ∀ c ∈ cs, c.isDigit = true

/-- What stands before the point of a numeral: a zero, or digits that do not begin with one. -/
def IsWhole (cs : List Char) : Prop :=
  cs = ['0'] ∨ IsDigits cs ∧ cs.head? ≠ some '0'

/-- Nothing, or a point and the digits behind it. -/
def IsFraction (cs : List Char) : Prop :=
  cs = [] ∨ ∃ ds, IsDigits ds ∧ cs = '.' :: ds

/-- Nothing, or the letter for an exponent, a sign if there is one, and digits. -/
def IsExponent (cs : List Char) : Prop :=
  cs = [] ∨ ∃ e sign ds, (e = 'e' ∨ e = 'E') ∧ (sign = [] ∨ sign = ['+'] ∨ sign = ['-']) ∧ IsDigits ds ∧
    cs = e :: (sign ++ ds)

/-- The spelling of numbers. -/
def IsNumeral (s : String) : Prop :=
  ∃ sign whole fraction exponent, (sign = [] ∨ sign = ['-']) ∧ IsWhole whole ∧ IsFraction fraction ∧
    IsExponent exponent ∧ s.toList = sign ++ whole ++ fraction ++ exponent

/-- A value whose numbers are all spelled as numbers are. -/
inductive WellFormed : Json → Prop
  | null : WellFormed .null
  | bool (b : Bool) : WellFormed (.bool b)
  | number {numeral : String} (h : IsNumeral numeral) : WellFormed (.number numeral)
  | string (s : String) : WellFormed (.string s)
  | array {items : List Json} (h : ∀ v ∈ items, WellFormed v) : WellFormed (.array items)
  | object {members : List (String × Json)} (h : ∀ m ∈ members, WellFormed m.2) : WellFormed (.object members)

/-! ## Text -/

/-- What a style of writing strings does beyond the common escapes. -/
structure Style where
  /-- Escapes the characters that have a meaning in markup. -/
  markup : Bool
  /-- Has short forms for backspace and form feed. -/
  shortForms : Bool

namespace Style

/-- The style of documents that may be embedded in markup. -/
def document : Style := ⟨true, true⟩

/-- The style of log lines. -/
def log : Style := ⟨false, false⟩

end Style

/-- The escape of a character by its number. -/
def numbered (c : Char) : String :=
  "\\u" ++ Text.hex 4 c.toNat

/-- The way a character is written inside a string. -/
def escape (style : Style) (c : Char) : String :=
  if c = '"' then "\\\""
  else if c = '\\' then "\\\\"
  else if c = '\n' then "\\n"
  else if c = '\r' then "\\r"
  else if c = '\t' then "\\t"
  else if c.toNat = 0x08 && style.shortForms then "\\b"
  else if c.toNat = 0x0C && style.shortForms then "\\f"
  else if c.toNat < 0x20 then numbered c
  else if (c = '<' || c = '>' || c = '&') && style.markup then numbered c
  else if c.toNat = 0x2028 || c.toNat = 0x2029 then numbered c
  else String.singleton c

/-- A string between quotes. -/
def quoted (style : Style) (s : String) : String :=
  "\"" ++ String.join (s.toList.map (escape style)) ++ "\""

/-- Texts with commas between them. -/
def commaSeparated (texts : List String) : String :=
  String.intercalate "," texts

mutual

/-- The text of a value, without any blanks. -/
def render (style : Style) : Json → String
  | .null => "null"
  | .bool b => if b then "true" else "false"
  | .number numeral => numeral
  | .string s => quoted style s
  | .array items => "[" ++ commaSeparated (renderItems style items) ++ "]"
  | .object members => "\x7b" ++ commaSeparated (renderMembers style members) ++ "\x7d"

/-- The texts of the items of an array. -/
def renderItems (style : Style) : List Json → List String
  | [] => []
  | item :: rest => render style item :: renderItems style rest

/-- The texts of the members of an object. -/
def renderMembers (style : Style) : List (String × Json) → List String
  | [] => []
  | (key, value) :: rest =>
    (quoted style key ++ ":" ++ render style value) :: renderMembers style rest

end

end Json

end Reckoner
