/-
Log levels: integers, four of which have names. A level is written as the nearest named one at
or below it and the distance from there.
-/
import Reckoner.Number.Word
import Reckoner.Text.Quoted

namespace Reckoner.Log

/-- The levels that have names, in increasing order. -/
def namedLevels : List (String × Int) :=
  [("DEBUG", -4), ("INFO", 0), ("WARN", 4), ("ERROR", 8)]

/-- The level of what is of use only to those who look for a fault. -/
def debug : Int := -4

/-- The level of what is usually recorded. -/
def info : Int := 0

/-- The level of failures. -/
def error : Int := 8

/-- The name of a base level with the distance from it. -/
def relativeName (base : String) (distance : Int) : String :=
  if distance = 0 then base
  else if 0 < distance then base ++ "+" ++ toString distance
  else base ++ toString distance

/-- The text of a level. -/
def levelName (level : Int) : String :=
  if level < 0 then relativeName "DEBUG" (level + 4)
  else if level < 4 then relativeName "INFO" level
  else if level < 8 then relativeName "WARN" (level - 4)
  else relativeName "ERROR" (level - 8)

/-! ## Reading levels -/

/-- Why a text is no integer of 64 bits. -/
inductive IntegerFault where
  | notDecimal
  | outOfRange
  deriving DecidableEq, Repr

namespace IntegerFault

/-- The wording of a fault. -/
def message : IntegerFault → String
  | .notDecimal => "invalid syntax"
  | .outOfRange => "value out of range"

end IntegerFault

/-- The integer of 64 bits that a sign and decimal digits stand for. -/
def signedInteger (cs : List Char) : Except IntegerFault Int :=
  let (negative, digits) := match cs with
    | '-' :: rest => (true, rest)
    | '+' :: rest => (false, rest)
    | _ => (false, cs)
  if digits = [] || !digits.all Char.isDigit then .error .notDecimal
  else
    let magnitude : Int := Nat.ofDigitChars 10 digits 0
    let n := if negative then -magnitude else magnitude
    if Number.Word.fits n then .ok n else .error .outOfRange

/-- Why a text names no level. -/
inductive LevelFault where
  | unknownName
  | badDistance (text : String) (fault : IntegerFault)
  deriving DecidableEq, Repr

/-- The capital of a letter, for those letters whose capital belongs to the ASCII alphabet. -/
def capital (c : Char) : Char :=
  if c = 'ı' then 'I' else if c = 'ſ' then 'S' else c.toUpper

/-- The level of a name in any case, followed by a signed distance if there is one. -/
def levelOf (text : String) : Except LevelFault Int :=
  let isSign (c : Char) : Bool := c == '+' || c == '-'
  let cs := text.toList
  let name := String.ofList ((cs.takeWhile (!isSign ·)).map capital)
  let distance := cs.dropWhile (!isSign ·)
  match if distance = [] then .ok 0 else signedInteger distance with
  | .error fault => .error (.badDistance (String.ofList distance) fault)
  | .ok d =>
    match namedLevels.lookup name with
    | some base => .ok (Number.Word.wrap (base + d))
    | none => .error .unknownName

/-- The text that says why a text names no level. -/
def LevelFault.describe (text : String) (fault : LevelFault) : String :=
  let reason := match fault with
    | .unknownName => "unknown name"
    | .badDistance distance f =>
      "strconv.Atoi: parsing " ++ Text.quote distance ++ ": " ++ f.message
  "log level " ++ Text.quote text ++ ": slog: level string " ++ Text.quote text ++ ": " ++ reason

end Reckoner.Log
