/-
The values of the language: nil, truth values, double-precision numbers and strings.
-/
import Reckoner.Number.Decimal

namespace Reckoner

/-- The type of a value. -/
inductive ValueType where
  | nil
  | bool
  | number
  | string
  deriving DecidableEq, Repr

namespace ValueType

/-- The types in the order of their indices. -/
def all : List ValueType :=
  [.nil, .bool, .number, .string]

/-- The name of a type. -/
def name : ValueType → String
  | .nil => "nil"
  | .bool => "bool"
  | .number => "number"
  | .string => "string"

/-- The name of the type with an index; an index that no type has is unknown. -/
def nameOfIndex (n : Int) : String :=
  match n with
  | .ofNat i => (all[i]?.map name).getD "unknown"
  | .negSucc _ => "unknown"

end ValueType

/-- A value. -/
inductive Value where
  | nil
  | bool (b : Bool)
  | number (x : Float)
  | string (s : String)

namespace Value

/-- The type of a value. -/
def type : Value → ValueType
  | .nil => .nil
  | .bool _ => .bool
  | .number _ => .number
  | .string _ => .string

/-- The text by which a value is shown. -/
def display : Value → String
  | .nil => "nil"
  | .bool b => if b then "true" else "false"
  | .number x => Number.display x
  | .string s => s

/-- Nil and false count as false, everything else as true. -/
def isTruthy : Value → Bool
  | .nil => false
  | .bool b => b
  | .number _ => true
  | .string _ => true

/-- Equality of type and value. Numbers are compared as doubles: a NaN differs from itself, and
the two zeros are equal. -/
def equals : Value → Value → Bool
  | .nil, .nil => true
  | .bool a, .bool b => a == b
  | .number x, .number y => x == y
  | .string s, .string t => s == t
  | _, _ => false

end Value

end Reckoner
