/-
Decimals and the doubles they denote. A decimal is read as the nearest double. A double is
displayed as the shortest decimal that is read as it, without an exponent and with at least one
digit after the point.
-/
import Reckoner.Number.Ordinal

namespace Reckoner.Number

/-- The number `digits · 10^exponent`. -/
structure Decimal where
  digits : Nat
  exponent : Int
  deriving DecidableEq, Repr

namespace Decimal

/-- A decimal as a ratio of naturals. -/
def ratio (d : Decimal) : Nat × Nat :=
  match d.exponent with
  | .ofNat e => (d.digits * Nat.pow 10 e, 1)
  | .negSucc e => (d.digits, Nat.pow 10 (e + 1))

/-- The ordinal of the double that a decimal denotes. -/
def ordinal (d : Decimal) : Nat :=
  nearest d.ratio.1 d.ratio.2

/-- The double that a decimal denotes. -/
def toFloat (d : Decimal) : Float :=
  ofOrdinal false d.ordinal

/-- The decimal written by some digits before and some after a point. -/
def ofDigits (whole fraction : List Char) : Decimal :=
  ⟨Nat.ofDigitChars 10 (whole ++ fraction) 0, -(fraction.length : Int)⟩

/-! ## The shortest decimal of a double -/

/-- The exact value of a double in units of `10^-1074`. -/
def exactDigits (k : Nat) : Nat :=
  units k * Nat.pow 5 1074

/-- The number of decimal digits of a natural number. The number of its bits gives a bound that
is nearly always exact; otherwise the digits are counted. -/
def digitCount (n : Nat) : Nat :=
  let guess := n.log2 * 1233 / 4096
  if Nat.pow 10 guess ≤ n && n < Nat.pow 10 (guess + 1) then guess + 1
  else if Nat.pow 10 (guess + 1) ≤ n && n < Nat.pow 10 (guess + 2) then guess + 2
  else (Nat.toDigits 10 n).length

/-- The number of digits of the exact value. -/
def exactLength (k : Nat) : Nat :=
  digitCount (exactDigits k)

/-- The decimals of at most `n` digits on either side of the double `k`, the lower one first, and
how much of their distance lies below the double. -/
def neighbours (k n : Nat) : Decimal × Decimal × Nat × Nat :=
  let shift := exactLength k - n
  let step := Nat.pow 10 shift
  let low := exactDigits k / step
  let exponent : Int := shift - 1074
  (⟨low, exponent⟩, ⟨low + 1, exponent⟩, exactDigits k % step, step)

/-- The one of two neighbouring decimals that is wanted: of two the nearer one, of two that are
equally near the one whose last digit is even. -/
def choose (wanted : Decimal → Bool) (low high : Decimal) (below step : Nat) : Option Decimal :=
  match wanted low, wanted high with
  | true, true =>
    match compare (2 * below) step with
    | .lt => some low
    | .gt => some high
    | .eq => if low.digits % 2 = 0 then some low else some high
  | true, false => some low
  | false, true => some high
  | false, false => none

/-- A decimal of at most `n` digits that is read as the double `k`, if there is one. -/
def within? (k n : Nat) : Option Decimal :=
  let (low, high, below, step) := neighbours k n
  choose (·.ordinal == k) low high below step

/-- The first hit with `n` digits, `n + 1` digits and so on, for a number of attempts; after that
the exact value. -/
def firstHit (hit? : Nat → Option Decimal) (exact : Decimal) : Nat → Nat → Decimal
  | _, 0 => exact
  | n, attempts + 1 =>
    match hit? n with
    | some d => d
    | none => firstHit hit? exact (n + 1) attempts

/-- The shortest decimal that is read as the double `k`. -/
def shortest (k : Nat) : Decimal :=
  firstHit (within? k) ⟨exactDigits k, -1074⟩ 1 (exactLength k)

/-! ## Positional notation -/

/-- Digits without the zeros at their end, but at least one digit. -/
def stripZeros (digits : List Char) : List Char :=
  match (digits.reverse.dropWhile (· == '0')).reverse with
  | [] => ['0']
  | stripped => stripped

/-- The numeral of a natural number, filled up with zeros on the left to a width. -/
def padded (width n : Nat) : List Char :=
  let digits := Nat.toDigits 10 n
  List.replicate (width - digits.length) '0' ++ digits

/-- A decimal without an exponent, with at least one digit after the point and no more of them
than needed. -/
def positional (d : Decimal) : List Char :=
  match d.exponent with
  | .ofNat e => Nat.toDigits 10 (d.digits * Nat.pow 10 e) ++ ['.', '0']
  | .negSucc e =>
    let step := Nat.pow 10 (e + 1)
    Nat.toDigits 10 (d.digits / step) ++ '.' :: stripZeros (padded (e + 1) (d.digits % step))

end Decimal

/-- The display of a magnitude. -/
def displayMagnitude (k : Nat) : List Char :=
  if k = 0 then ['0', '.', '0'] else (Decimal.shortest k).positional

/-- The display of a number: its shortest decimal in positional notation. -/
def display (x : Float) : String :=
  if infinity < ordinal x then "NaN"
  else
    let sign := if isNegative x then ['-'] else []
    if ordinal x = infinity then String.ofList (sign ++ "Infinity".toList)
    else String.ofList (sign ++ displayMagnitude (ordinal x))

end Reckoner.Number
