/-
Addresses to listen on: a host and a port, with a colon between them.
-/
import Reckoner.Text.Blank

namespace Reckoner.Http

/-- Why nobody can listen on an address. -/
inductive AddressFault where
  | missingPort
  | tooManyColons
  | missingBracket
  | unexpectedOpening
  | unexpectedClosing
  | invalidPort (port : String)
  | unknownPort (port : String)
  deriving DecidableEq, Repr

namespace AddressFault

/-- The text that says what is wrong with an address. -/
def describe (addr : String) : AddressFault → String
  | .missingPort => "address " ++ addr ++ ": missing port in address"
  | .tooManyColons => "address " ++ addr ++ ": too many colons in address"
  | .missingBracket => "address " ++ addr ++ ": missing ']' in address"
  | .unexpectedOpening => "address " ++ addr ++ ": unexpected '[' in address"
  | .unexpectedClosing => "address " ++ addr ++ ": unexpected ']' in address"
  | .invalidPort port => "address " ++ port ++ ": invalid port"
  | .unknownPort port => "lookup tcp4/" ++ port ++ ": unknown port"

end AddressFault

/-- The port behind the last colon of an address. A host that holds colons stands in brackets. -/
def portOf (addr : String) : Except AddressFault String :=
  let cs := addr.toList
  let port := (cs.reverse.takeWhile (· != ':')).reverse
  if !cs.contains ':' then .error .missingPort
  else match cs with
    | '[' :: rest =>
      let behind := (rest.dropWhile (· != ']')).drop 1
      if !rest.contains ']' then .error .missingBracket
      else if behind = ':' :: port then
        if rest.contains '[' then .error .unexpectedOpening
        else if behind.contains ']' then .error .unexpectedClosing
        else .ok (String.ofList port)
      else if behind.head? = some ':' then .error .tooManyColons
      else .error .missingPort
    | _ =>
      if 1 < cs.count ':' then .error .tooManyColons
      else if cs.contains '[' then .error .unexpectedOpening
      else if cs.contains ']' then .error .unexpectedClosing
      else .ok (String.ofList port)

/-- The digits of a port and whether it is negative. -/
def portDigits : List Char → Bool × List Char
  | '-' :: rest => (true, rest)
  | '+' :: rest => (false, rest)
  | cs => (false, cs)

/-- What is wrong with an address, if anything is. A port is a number of 16 bits; none is zero. -/
def addressFault? (addr : String) : Option AddressFault :=
  match portOf addr with
  | .error fault => some fault
  | .ok port =>
    let (negative, digits) := portDigits port.toList
    if !digits.all Char.isDigit then some (.unknownPort port)
    else
      let n := Nat.ofDigitChars 10 digits 0
      if (negative && n ≠ 0) || 65535 < n then some (.invalidPort port) else none

/-- The failure to listen on an address. -/
def listenFailure (addr : String) (fault : AddressFault) : String :=
  "failed to listen: listen tcp4: " ++ fault.describe addr

end Reckoner.Http
