/-
Forms: pairs of a key and a value, with a plus sign for a space and any byte as a percent sign and
two hexadecimal digits.
-/
import Reckoner.Text.Utf8

namespace Reckoner.Form

/-- The value of a hexadecimal digit. -/
def hexValue? (b : UInt8) : Option UInt8 :=
  if 0x30 ≤ b && b ≤ 0x39 then some (b - 0x30)
  else if 0x41 ≤ b && b ≤ 0x46 then some (b - 0x41 + 10)
  else if 0x61 ≤ b && b ≤ 0x66 then some (b - 0x61 + 10)
  else none

/-- Decodes a key or a value. A percent sign without two digits behind it stands for itself; from
one that is too near to the end on, all stands for itself. -/
def decode : List UInt8 → List UInt8
  | [] => []
  | 0x25 :: a :: b :: rest =>
    match hexValue? a, hexValue? b with
    | some x, some y => (x * 16 + y) :: decode rest
    | _, _ => 0x25 :: decode (a :: b :: rest)
  | 0x25 :: rest => 0x25 :: rest
  | 0x2B :: rest => 0x20 :: decode rest
  | b :: rest => b :: decode rest

/-- The bytes between the occurrences of a separator. -/
def pieces (sep : UInt8) : List UInt8 → List (List UInt8)
  | [] => [[]]
  | b :: bs =>
    if b = sep then [] :: pieces sep bs
    else match pieces sep bs with
      | [] => [[b]]
      | piece :: later => (b :: piece) :: later

/-- A pair, divided at the first equals sign. -/
def pair (bytes : List UInt8) : List UInt8 × List UInt8 :=
  (decode (bytes.takeWhile (· != 0x3D)), decode ((bytes.dropWhile (· != 0x3D)).drop 1))

/-- The pairs of a form, which stand between ampersands. -/
def pairs (bytes : List UInt8) : List (List UInt8 × List UInt8) :=
  (pieces 0x26 bytes).map pair

/-- A key with its brackets resolved: each opening one that is not closed at once stands for a
point, and `depth` of them are open. Brackets that do not match have no reading. -/
def resolveFrom : Nat → List Char → Option (List Char)
  | depth, [] => if depth = 0 then some [] else none
  | depth, '[' :: ']' :: rest => resolveFrom depth rest
  | depth, '[' :: [] => resolveFrom (depth + 1) []
  | depth, '[' :: rest => (resolveFrom (depth + 1) rest).map ('.' :: ·)
  | 0, ']' :: _ => none
  | depth + 1, ']' :: rest => resolveFrom depth rest
  | depth, c :: rest => (resolveFrom depth rest).map (c :: ·)

/-- A key with its brackets resolved. A key without an opening bracket is left as it is. -/
def resolve? (key : List Char) : Option (List Char) :=
  if key.contains '[' then resolveFrom 0 key else some key

end Reckoner.Form
