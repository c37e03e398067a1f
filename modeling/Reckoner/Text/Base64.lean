/-
Bytes in base 64: four characters for three bytes, and equals signs where bytes are missing at the
end.
-/
import Reckoner.Text.Utf8

namespace Reckoner.Text.Base64

/-- The value of a character. -/
def digit? (c : Char) : Option Nat :=
  if c.isUpper then some (c.toNat - 'A'.toNat)
  else if c.isLower then some (c.toNat - 'a'.toNat + 26)
  else if c.isDigit then some (c.toNat - '0'.toNat + 52)
  else if c = '+' then some 62
  else if c = '/' then some 63
  else none

/-- The bytes of some characters without line breaks. -/
def bytes? : List Char → Option (List UInt8)
  | [] => some []
  | [a, b, '=', '='] => do
    let n := (← digit? a) * 64 + (← digit? b)
    return [UInt8.ofNat (n / 16)]
  | [a, b, c, '='] => do
    let n := ((← digit? a) * 64 + (← digit? b)) * 64 + (← digit? c)
    return [UInt8.ofNat (n / 1024), UInt8.ofNat (n / 4)]
  | a :: b :: c :: d :: rest => do
    let n := (((← digit? a) * 64 + (← digit? b)) * 64 + (← digit? c)) * 64 + (← digit? d)
    return UInt8.ofNat (n / 65536) :: UInt8.ofNat (n / 256) :: UInt8.ofNat n :: (← bytes? rest)
  | _ => none

/-- The text that some characters stand for. Line breaks among them do not count. -/
def decode? (cs : List Char) : Option (List Char) :=
  (bytes? (cs.filter fun c => c != '\n' && c != '\r')).map Utf8.decode

end Reckoner.Text.Base64
