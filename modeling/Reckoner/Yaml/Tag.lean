/-
Tags, anchors and directives: names that stand in front of a node or of a document.
-/
import Reckoner.Yaml.Scalar

namespace Reckoner.Yaml

/-! ## Anchors -/

/-- The name behind the sign of an anchor or an alias, and what follows it. -/
def anchor? (cs : List Char) : Option (String × List Char) :=
  let name := cs.takeWhile isNameChar
  let rest := cs.dropWhile isNameChar
  let ends := endsWord rest || "?:,]\x7d%@\x60".toList.contains (rest.headD ' ')
  if name != [] && ends then some (String.ofList name, rest) else none

/-! ## Tags -/

/-- The characters of the address that a tag is. -/
def isTagChar (c : Char) : Bool :=
  isNameChar c || ";/?:@&=+$,.!~*'()[]%".toList.contains c

/-- How many octets a character has that begins with a given one. -/
def octets? (first : Nat) : Option Nat :=
  if first < 0x80 then some 1
  else if 0xC0 ≤ first && first < 0xE0 then some 2
  else if 0xE0 ≤ first && first < 0xF0 then some 3
  else if 0xF0 ≤ first && first < 0xF8 then some 4
  else none

/-- The octets that follow the first one of a character, each behind a percent sign; they are all
there if the rest of the text is given. -/
def moreOctets? : Nat → List Char → Option (List Char)
  | 0, rest => some rest
  | n + 1, '%' :: a :: b :: rest =>
    match hexNumber? [a, b] with
    | some octet => if 0x80 ≤ octet && octet < 0xC0 then moreOctets? n rest else none
    | none => none
  | _ + 1, _ => none

/-- A character that is written as octets from behind the first percent sign, and what follows it.
Which one it is matters for a single octet only: no known tag has any other. -/
def escapedChar? : List Char → Option (Char × List Char)
  | a :: b :: rest => do
    let octet ← hexNumber? [a, b]
    let rest' ← moreOctets? ((← octets? octet) - 1) rest
    return (if octet < 0x80 then Char.ofNat octet else '\ufffd', rest')
  | _ => none

/-- The address at the front of a text, and what follows it, for at most `n` characters. -/
def address? : Nat → List Char → Option (List Char × List Char)
  | n + 1, '%' :: rest =>
    match escapedChar? rest with
    | some (c, rest') => (address? n rest').map fun (cs, rest'') => (c :: cs, rest'')
    | none => none
  | n + 1, c :: rest =>
    if isTagChar c then (address? n rest).map fun (cs, rest') => (c :: cs, rest')
    else some ([], c :: rest)
  | _, rest => some ([], rest)

/-- The handle at the front of a tag: an exclamation mark, and perhaps a name and another one. -/
def handle (cs : List Char) : List Char × List Char :=
  match cs with
  | '!' :: rest =>
    let name := rest.takeWhile isNameChar
    match rest.dropWhile isNameChar with
    | '!' :: rest' => ('!' :: name ++ ['!'], rest')
    | rest' => ('!' :: name, rest')
  | _ => ([], cs)

/-- A tag from its exclamation mark on, as a handle and a suffix, and what follows it. A tag
between angle brackets has no handle, and neither has the exclamation mark alone. -/
def tag? (cs : List Char) : Option (String × String × List Char) := do
  let (handle, suffix, rest) ←
    match cs with
    | '!' :: '<' :: rest =>
      match address? rest.length rest with
      | some (address, '>' :: rest') => if address = [] then none else some ([], address, rest')
      | _ => none
    | _ =>
      let (handle, rest) := handle cs
      match address? rest.length rest with
      | none => none
      | some (address, rest') =>
        if 1 < handle.length && handle.getLast? == some '!' then
          if address = [] then none else some (handle, address, rest')
        else
          let suffix := handle.drop 1 ++ address
          if suffix = [] then some ([], handle, rest') else some (['!'], suffix, rest')
  guard (endsWord rest)
  return (String.ofList handle, String.ofList suffix, rest)

/-! ## Directives -/

/-- A directive: the version of the format, or what the handle of a tag stands for. -/
inductive Directive where
  | version (major minor : Nat)
  | tag (handle address : String)
  deriving DecidableEq, Repr

/-- A number of one or two digits, and what follows it. -/
def versionNumber? (cs : List Char) : Option (Nat × List Char) :=
  let digits := cs.takeWhile Char.isDigit
  if digits = [] || 2 < digits.length then none
  else some (Nat.ofDigitChars 10 digits 0, cs.dropWhile Char.isDigit)

/-- The version behind the name of its directive, and what follows it. -/
def version? (cs : List Char) : Option (Directive × List Char) := do
  let (major, rest) ← versionNumber? (skipGaps cs)
  match rest with
  | '.' :: rest' =>
    let (minor, rest'') ← versionNumber? rest'
    return (.version major minor, rest'')
  | _ => none

/-- The handle and the address behind the name of their directive, and what follows them. -/
def tagDirective? (cs : List Char) : Option (Directive × List Char) := do
  let (handle, rest) := handle (skipGaps cs)
  guard (handle = ['!'] || (1 < handle.length && handle.getLast? == some '!'))
  guard ((rest.head?.map isGap).getD false)
  let (address, rest') ← address? rest.length (skipGaps rest)
  guard (address ≠ [] && endsWord rest')
  return (.tag (String.ofList handle) (String.ofList address), rest')

/-- A directive from behind its percent sign, and what follows its line. -/
def directive? (cs : List Char) : Option (Directive × List Char) := do
  let name := cs.takeWhile isNameChar
  let rest := cs.dropWhile isNameChar
  guard (endsWord rest)
  let (directive, rest') ←
    if name = "YAML".toList then version? rest
    else if name = "TAG".toList then tagDirective? rest
    else none
  let after ← afterComment? rest'
  return (directive, after.drop 1)

end Reckoner.Yaml
