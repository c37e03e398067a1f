/-
Request ids: 128 bits in hexadecimal, in any of four notations.
-/
namespace Reckoner.RequestId

/-- Hexadecimal digits in either case. -/
def isHexDigit (c : Char) : Bool :=
  c.isDigit || ('a' ≤ c && c ≤ 'f') || ('A' ≤ c && c ≤ 'F')

/-- The notation in groups of 8, 4, 4, 4 and 12 digits with dashes between them. -/
def isGrouped (cs : List Char) : Bool :=
  cs.length == 36 && cs.zipIdx.all fun (c, i) =>
    if i = 8 || i = 13 || i = 18 || i = 23 then c == '-' else isHexDigit c

/-- The notation without dashes. -/
def isPlain (cs : List Char) : Bool :=
  cs.length == 32 && cs.all isHexDigit

/-- What precedes the groups in the notation as a resource name, in any case. -/
def scheme : List Char :=
  "urn:uuid:".toList

/-- The notation as a resource name. -/
def isResourceName (cs : List Char) : Bool :=
  (cs.take scheme.length).map Char.toLower == scheme && isGrouped (cs.drop scheme.length)

/-- The notation between two characters of one byte each, which are meant to be braces. -/
def isBraced (cs : List Char) : Bool :=
  cs.length == 38 && cs.all (·.toNat < 0x80) && isGrouped ((cs.drop 1).take 36)

/-- A text that is a request id. -/
def isValid (s : String) : Bool :=
  let cs := s.toList
  isGrouped cs || isPlain cs || isResourceName cs || isBraced cs

/-- The id of a request that came with a text: the text itself if it is an id, and else a fresh
one. -/
def choose (given fresh : String) : String :=
  if isValid given then given else fresh

end Reckoner.RequestId
