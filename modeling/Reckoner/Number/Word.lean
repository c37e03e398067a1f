/-
The integers that fit 64 bits.
-/
namespace Reckoner.Number.Word

/-- The number of words of 64 bits. -/
def count : Nat := 18446744073709551616

/-- The least integer of 64 bits. -/
def least : Int := -9223372036854775808

/-- The greatest integer of 64 bits. -/
def greatest : Int := 9223372036854775807

/-- An integer of 64 bits. -/
def fits (n : Int) : Bool :=
  least ≤ n && n ≤ greatest

/-- The integer of 64 bits that has the same remainder as a given one when divided by the number
of words. -/
def wrap (n : Int) : Int :=
  Int.bmod n count

end Reckoner.Number.Word
