/-
Durations in nanoseconds, written as numbers with units.
-/
import Reckoner.Text.Blank

namespace Reckoner.Duration

/-- The nanoseconds of a second. -/
def second : Int := 1000000000

/-- The nanoseconds that no duration exceeds. -/
def limit : Nat := 9223372036854775808

/-- The units and their nanoseconds. The sign for micro is written in either of two ways. -/
def units : List (String × Nat) :=
  [("ns", 1), ("us", 1000), ("µs", 1000), ("μs", 1000), ("ms", 1000000),
    ("s", 1000000000), ("m", 60000000000), ("h", 3600000000000)]

/-- The characters that numbers are made of. -/
def isNumeric (c : Char) : Bool :=
  c.isDigit || c == '.'

/-- The digits behind a point as a number and a power of ten. Digits that no longer fit are left
out. -/
structure Places where
  value : Nat
  scale : Float
  full : Bool

namespace Places

/-- No digits. -/
def none : Places := ⟨0, 1.0, false⟩

/-- One more digit. -/
def push (p : Places) (c : Char) : Places :=
  let next := 10 * p.value + (c.toNat - '0'.toNat)
  if p.full || (limit - 1) / 10 < p.value || limit < next then { p with full := true }
  else ⟨next, p.scale * 10.0, false⟩

/-- The whole nanoseconds of the digits in a unit. -/
def nanoseconds (p : Places) (unit : Nat) : Nat :=
  if p.value = 0 then 0
  else (Float.ofNat p.value * (Float.ofNat unit / p.scale)).toUInt64.toNat

end Places

/-- The nanoseconds of a number in a unit. -/
def amount? (number unit : List Char) : Option Nat := do
  let scale ← units.lookup (String.ofList unit)
  let whole := number.takeWhile (· != '.')
  let places := (number.dropWhile (· != '.')).drop 1
  guard (whole ≠ [] || places ≠ [])
  guard (places.all Char.isDigit)
  let n := Nat.ofDigitChars 10 whole 0
  guard (n ≤ limit / scale)
  let total := n * scale + (places.foldl Places.push .none).nanoseconds scale
  guard (total ≤ limit)
  return total

/-- The sum of the amounts that are written by turns of a number and a unit. -/
def sum? (total : Nat) : List (List Char) → Option Nat
  | [] => some total
  | [_] => none
  | number :: unit :: rest =>
    if number.all isNumeric then
      match amount? number unit with
      | some n => if total + n ≤ limit then sum? (total + n) rest else none
      | none => none
    else none

/-- The nanoseconds of a duration without its sign. Only zero needs no unit. -/
def magnitude? (cs : List Char) : Option Nat :=
  if cs = [] then none
  else if cs = ['0'] then some 0
  else sum? 0 (cs.splitBy fun a b => isNumeric a == isNumeric b)

/-- The nanoseconds that a text stands for. The limit itself is reached by negative ones only. -/
def parse? (text : String) : Option Int :=
  let (negative, cs) := match text.toList with
    | '-' :: rest => (true, rest)
    | '+' :: rest => (false, rest)
    | cs => (false, cs)
  match magnitude? cs with
  | none => none
  | some n =>
    if negative then some (-n)
    else if n < limit then some n else none

end Reckoner.Duration
