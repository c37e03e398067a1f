/-
The doubles in order. A non-negative double is known by its ordinal, its place in the increasing
sequence of doubles from zero on, which is also its bit pattern. Every finite double is a whole
number of units of `2^-1074`, so that nearness to a ratio of naturals is decided exactly.
-/
namespace Reckoner.Number

/-- The ordinal of infinity, the first one that no finite double has. -/
def infinity : Nat := 2047 * Nat.pow 2 52

/-- The value of the double with ordinal `k` in units of `2^-1074`. The doubles below `2^53`
units are one unit apart; from there on the distance doubles with every power of two. At
`infinity` it is the power of two that follows the largest finite double. -/
def units (k : Nat) : Nat :=
  let steps := k / Nat.pow 2 52 - 1
  (k - steps * Nat.pow 2 52) * Nat.pow 2 steps

/-- The ordinal of the largest double of at most `n` units. -/
def ordinalBelow (n : Nat) : Nat :=
  let steps := n.log2 - 52
  steps * Nat.pow 2 52 + n / Nat.pow 2 steps

/-- The ordinal of the double nearest to `num / den`; of two that are equally near the even one,
and `infinity` for all that lies at least half a step above the largest finite double. -/
def nearest (num den : Nat) : Nat :=
  let scaled := num * Nat.pow 2 1074
  let low := ordinalBelow (scaled / den)
  if infinity ≤ low then infinity
  else match compare (2 * scaled) ((units low + units (low + 1)) * den) with
    | .lt => low
    | .gt => low + 1
    | .eq => if low % 2 = 0 then low else low + 1

/-- The double with a sign and an ordinal. -/
def ofOrdinal (negative : Bool) (k : Nat) : Float :=
  Float.ofBits (UInt64.ofNat (if negative then Nat.pow 2 63 + k else k))

/-- The sign bit of a double. -/
def isNegative (x : Float) : Bool :=
  Nat.pow 2 63 ≤ x.toBits.toNat

/-- The ordinal of the magnitude of a double; above `infinity` exactly for a NaN. -/
def ordinal (x : Float) : Nat :=
  x.toBits.toNat % Nat.pow 2 63

end Reckoner.Number
