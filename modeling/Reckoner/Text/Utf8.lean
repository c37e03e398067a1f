/-
Bytes and code points as characters. A byte that does not begin a valid UTF-8 sequence, and a
number that is no code point, stand for U+FFFD, so that any input whatever has a reading.
-/
namespace Reckoner.Text

/-- The character that stands for what cannot be read. -/
def replacement : Char := '�'

/-- The character with a given number, if there is one. -/
def charOfInt (n : Int) : Char :=
  if n < 0 then replacement
  else if n.toNat.isValidChar then Char.ofNat n.toNat else replacement

namespace Utf8

/-- The lower six bits of a continuation byte. -/
def tail? (b : UInt8) : Option Nat :=
  if 0x80 ≤ b && b < 0xC0 then some (b.toNat - 0x80) else none

/-- The code point of a two-byte sequence. -/
def pair? (a b : UInt8) : Option Nat := do
  guard (0xC2 ≤ a && a < 0xE0)
  return (a.toNat - 0xC0) * 64 + (← tail? b)

/-- The code point of a three-byte sequence: no overlong form and no surrogate. -/
def triple? (a b c : UInt8) : Option Nat := do
  guard (0xE0 ≤ a && a < 0xF0)
  let n := ((a.toNat - 0xE0) * 64 + (← tail? b)) * 64 + (← tail? c)
  guard (0x800 ≤ n && n.isValidChar)
  return n

/-- The code point of a four-byte sequence: no overlong form and nothing above U+10FFFF. -/
def quadruple? (a b c d : UInt8) : Option Nat := do
  guard (0xF0 ≤ a && a < 0xF5)
  let n := (((a.toNat - 0xF0) * 64 + (← tail? b)) * 64 + (← tail? c)) * 64 + (← tail? d)
  guard (0x10000 ≤ n && n.isValidChar)
  return n

/-- The character that begins at byte `a`, and how many of the bytes after it belong to it. -/
def first (a : UInt8) (rest : List UInt8) : Char × Nat :=
  if a < 0x80 then (Char.ofNat a.toNat, 0)
  else match rest with
    | b :: c :: d :: _ =>
      match pair? a b, triple? a b c, quadruple? a b c d with
      | some n, _, _ => (Char.ofNat n, 1)
      | none, some n, _ => (Char.ofNat n, 2)
      | none, none, some n => (Char.ofNat n, 3)
      | none, none, none => (replacement, 0)
    | [b, c] =>
      match pair? a b, triple? a b c with
      | some n, _ => (Char.ofNat n, 1)
      | none, some n => (Char.ofNat n, 2)
      | none, none => (replacement, 0)
    | [b] =>
      match pair? a b with
      | some n => (Char.ofNat n, 1)
      | none => (replacement, 0)
    | [] => (replacement, 0)

/-- The characters of the bytes after the first `skip` ones. -/
def decodeAfter : Nat → List UInt8 → List Char
  | _, [] => []
  | skip + 1, _ :: rest => decodeAfter skip rest
  | 0, a :: rest => (first a rest).1 :: decodeAfter (first a rest).2 rest

/-- The characters of a sequence of bytes. Each byte at which no valid sequence begins is read
as one U+FFFD, and reading goes on at the next byte. -/
def decode (bytes : List UInt8) : List Char :=
  decodeAfter 0 bytes

end Utf8

end Reckoner.Text
