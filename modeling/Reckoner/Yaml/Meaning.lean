/-
What a scalar denotes: nothing, a truth value, a number or text. A tag in front of it may decide;
otherwise its text does.
-/
import Reckoner.Number.Decimal
import Reckoner.Number.Word
import Reckoner.Text.Base64
import Reckoner.Yaml.Node
import Reckoner.Yaml.Timestamp

namespace Reckoner.Yaml

/-- What a scalar denotes. A number that is not written as an integer is given by its integer
part, if it is finite. -/
inductive Meaning where
  | null
  | bool
  | int (n : Int)
  | fraction (truncated : Int)
  | infinite (negative : Bool)
  | notANumber
  | text (s : String)
  deriving DecidableEq, Repr

/-- The texts that denote something that does not show in their form. -/
def wellKnown : List (String × Meaning) :=
  [("", .null), ("~", .null), ("null", .null), ("Null", .null), ("NULL", .null),
    ("true", .bool), ("True", .bool), ("TRUE", .bool),
    ("false", .bool), ("False", .bool), ("FALSE", .bool),
    (".nan", .notANumber), (".NaN", .notANumber), (".NAN", .notANumber),
    (".inf", .infinite false), (".Inf", .infinite false), (".INF", .infinite false),
    ("+.inf", .infinite false), ("+.Inf", .infinite false), ("+.INF", .infinite false),
    ("-.inf", .infinite true), ("-.Inf", .infinite true), ("-.INF", .infinite true)]

/-! ## Integers -/

/-- The value of some digits in a base, which all have to be digits of it. -/
def numeral? (base : Nat) (cs : List Char) : Option Nat :=
  let digit (c : Char) : Nat :=
    if c.isDigit then c.toNat - '0'.toNat
    else if c.isAlpha then c.toLower.toNat - 'a'.toNat + 10
    else base
  if cs = [] || cs.any (base ≤ digit ·) then none
  else some (cs.foldl (fun n c => base * n + digit c) 0)

/-- A natural number in the base that its first characters announce. -/
def natural? : List Char → Option Nat
  | '0' :: 'x' :: rest => numeral? 16 rest
  | '0' :: 'X' :: rest => numeral? 16 rest
  | '0' :: 'o' :: rest => numeral? 8 rest
  | '0' :: 'O' :: rest => numeral? 8 rest
  | '0' :: 'b' :: rest => numeral? 2 rest
  | '0' :: 'B' :: rest => numeral? 2 rest
  | '0' :: c :: rest => numeral? 8 (c :: rest)
  | cs => numeral? 10 cs

/-- A sign, if there is one, and what follows it. -/
def signed : List Char → Bool × List Char
  | '-' :: rest => (true, rest)
  | '+' :: rest => (false, rest)
  | cs => (false, cs)

/-- An integer of 64 bits, or one that has no sign and fits 64 bits without one, where `read` gives
the number behind the sign. -/
def integerBy? (read : List Char → Option Nat) (cs : List Char) : Option Int :=
  let (negative, digits) := signed cs
  match read digits with
  | none => none
  | some n =>
    let value : Int := if negative then -n else n
    if Number.Word.fits value || (digits = cs && n < Number.Word.count) then some value else none

/-- An integer. The letter for the base may also stand in front of the sign. -/
def integer? (cs : List Char) : Option Int :=
  match integerBy? natural? cs with
  | some n => some n
  | none =>
    match cs with
    | '0' :: 'b' :: rest => integerBy? (numeral? 2) rest
    | '0' :: 'o' :: rest => integerBy? (numeral? 8) rest
    | _ => none

/-! ## Fractions -/

/-- The exponent of a fraction: a sign and at least one digit. -/
def exponent? : List Char → Option Int
  | [] => some 0
  | c :: rest =>
    let (negative, digits) := signed rest
    match numeral? 10 digits with
    | some n => if c = 'e' || c = 'E' then some (if negative then -n else n) else none
    | none => none

/-- The integer part of a double. -/
def truncated (negative : Bool) (ordinal : Nat) : Int :=
  let whole : Int := Number.units ordinal / Nat.pow 2 1074
  if negative then -whole else whole

/-- An exponent that is no further from zero than a limit. -/
def clamp (limit : Nat) (e : Int) : Int :=
  max (-limit) (min limit e)

/-- A decimal number with a point or an exponent, rounded to a double and cut to its integer part.
One that exceeds the doubles is no number. -/
def fraction? (cs : List Char) : Option Int := do
  let (negative, body) := signed cs
  let whole := body.takeWhile Char.isDigit
  let rest := body.dropWhile Char.isDigit
  let (places, rest) := match rest with
    | '.' :: rest' => (rest'.takeWhile Char.isDigit, rest'.dropWhile Char.isDigit)
    | _ => ([], rest)
  guard (whole ≠ [] || places ≠ [])
  let exponent := clamp (cs.length + 2000) (← exponent? rest)
  let decimal := Number.Decimal.ofDigits whole places
  let ordinal := { decimal with exponent := decimal.exponent + exponent : Number.Decimal }.ordinal
  guard (ordinal < Number.infinity)
  return truncated negative ordinal

/-- Every underscore stands between two digits; `behindDigit` says that a digit has just passed. -/
def separatesDigits (behindDigit : Bool) : List Char → Bool
  | [] => true
  | '_' :: c :: rest => behindDigit && c.isDigit && separatesDigits true rest
  | c :: rest => c != '_' && separatesDigits c.isDigit rest

/-! ## Scalars -/

/-- What the text of a plain scalar denotes. Underscores in a number do not count; in one that
begins with a point they stand between digits only. -/
def plainMeaning (text : String) : Meaning :=
  match wellKnown.lookup text, text.toList with
  | some meaning, _ => meaning
  | none, [] => .null
  | none, c :: rest =>
    let digits := (c :: rest).filter (· != '_')
    if c.isDigit || c == '+' || c == '-' then
      match integer? digits, fraction? digits with
      | some n, _ => .int n
      | none, some n => .fraction n
      | none, none => .text text
    else if c == '.' && separatesDigits false (c :: rest) then
      match fraction? digits with
      | some n => .fraction n
      | none => .text text
    else .text text

/-- An integer of 64 bits as a number that is not written as one. -/
def asFraction? (n : Int) : Option Meaning :=
  if Number.Word.fits n then some (.fraction (truncated (n < 0) (Number.nearest n.natAbs 1)))
  else none

/-- What a scalar denotes. A common tag has to agree with its text; any other makes it text. -/
def meaning? (tag text : String) : Option Meaning :=
  if tag = "" then some (plainMeaning text)
  else if tag = "!!binary" then
    (Text.Base64.decode? text.toList).map fun cs => .text (String.ofList cs)
  else if tag = "!!timestamp" then if isTimestamp text then some (.text text) else none
  else if tag = "!!null" then if plainMeaning text = .null then some .null else none
  else if tag = "!!bool" then if plainMeaning text = .bool then some .bool else none
  else match tag, plainMeaning text with
    | "!!int", .int n => some (.int n)
    | "!!int", _ => none
    | "!!float", .int n => asFraction? n
    | "!!float", .fraction n => some (.fraction n)
    | "!!float", .infinite negative => some (.infinite negative)
    | "!!float", .notANumber => some .notANumber
    | "!!float", _ => none
    | _, _ => some (.text text)

end Reckoner.Yaml
