/-
Reading JSON: the strict grammar, over a whole text. An escaped surrogate without its partner is
read as U+FFFD.
-/
import Reckoner.Json.Basic
import Reckoner.Text.Utf8

namespace Reckoner.Json

/-! ## Blanks, words and numerals -/

/-- The characters between tokens. -/
def isSpace (c : Char) : Bool :=
  c == ' ' || c == '\t' || c == '\n' || c == '\r'

/-- The text from its first character on that is no space. -/
def skipSpaces (cs : List Char) : List Char :=
  cs.dropWhile isSpace

/-- What follows a fixed word. -/
def afterWord? : List Char → List Char → Option (List Char)
  | [], cs => some cs
  | w :: ws, c :: cs => if w = c then afterWord? ws cs else none
  | _ :: _, [] => none

/-- At least one digit and what follows it. -/
def digits? (cs : List Char) : Option (List Char × List Char) :=
  match cs.takeWhile Char.isDigit with
  | [] => none
  | ds => some (ds, cs.dropWhile Char.isDigit)

/-- The part of a numeral before the point: a zero, or digits that do not begin with one. -/
def wholePart? : List Char → Option (List Char × List Char)
  | '0' :: rest => some (['0'], rest)
  | cs => digits? cs

/-- The point and the digits behind it, if there is a point. -/
def fractionPart? : List Char → Option (List Char × List Char)
  | '.' :: rest => (digits? rest).map fun (ds, rest') => ('.' :: ds, rest')
  | cs => some ([], cs)

/-- The sign of an exponent, if there is one. -/
def exponentSign : List Char → List Char × List Char
  | '+' :: rest => (['+'], rest)
  | '-' :: rest => (['-'], rest)
  | cs => ([], cs)

/-- The exponent, if there is one. -/
def exponentPart? (cs : List Char) : Option (List Char × List Char) :=
  match cs with
  | c :: rest =>
    if c = 'e' || c = 'E' then
      let (sign, rest') := exponentSign rest
      (digits? rest').map fun (ds, rest'') => (c :: sign ++ ds, rest'')
    else some ([], cs)
  | [] => some ([], [])

/-- A numeral and what follows it. -/
def numeral? (cs : List Char) : Option (List Char × List Char) := do
  let (sign, cs) := match cs with
    | '-' :: rest => (['-'], rest)
    | _ => ([], cs)
  let (whole, cs) ← wholePart? cs
  let (fraction, cs) ← fractionPart? cs
  let (exponent, cs) ← exponentPart? cs
  return (sign ++ whole ++ fraction ++ exponent, cs)

/-! ## Strings -/

/-- The value of a hexadecimal digit. -/
def hexValue? (c : Char) : Option Nat :=
  if c.isDigit then some (c.toNat - '0'.toNat)
  else if 'a' ≤ c && c ≤ 'f' then some (c.toNat - 'a'.toNat + 10)
  else if 'A' ≤ c && c ≤ 'F' then some (c.toNat - 'A'.toNat + 10)
  else none

/-- The value of four hexadecimal digits. -/
def hexFour? (a b c d : Char) : Option Nat := do
  return (((← hexValue? a) * 16 + (← hexValue? b)) * 16 + (← hexValue? c)) * 16 + (← hexValue? d)

/-- The character that a backslash and a letter stand for. -/
def shortEscape? : Char → Option Char
  | '"' => some '"'
  | '\\' => some '\\'
  | '/' => some '/'
  | 'b' => some '\x08'
  | 'f' => some '\x0c'
  | 'n' => some '\n'
  | 'r' => some '\r'
  | 't' => some '\t'
  | _ => none

/-- The numbers of the characters up to a closing quote, with surrogates as they are escaped. -/
def codeUnits? : List Char → Option (List Nat × List Char)
  | [] => none
  | '"' :: rest => some ([], rest)
  | '\\' :: 'u' :: a :: b :: c :: d :: rest => do
    let n ← hexFour? a b c d
    let (units, rest') ← codeUnits? rest
    return (n :: units, rest')
  | '\\' :: e :: rest => do
    let c ← shortEscape? e
    let (units, rest') ← codeUnits? rest
    return (c.toNat :: units, rest')
  | c :: rest => do
    guard (0x20 ≤ c.toNat && c != '\\')
    let (units, rest') ← codeUnits? rest
    return (c.toNat :: units, rest')

/-- The first half of a pair that stands for one character. -/
def isHighSurrogate (n : Nat) : Bool :=
  0xD800 ≤ n && n < 0xDC00

/-- The second half of a pair. -/
def isLowSurrogate (n : Nat) : Bool :=
  0xDC00 ≤ n && n < 0xE000

/-- The characters with the given numbers, where two surrogates that form a pair are one. -/
def joinPairs : List Nat → List Char
  | [] => []
  | [n] => [Text.charOfInt n]
  | a :: b :: rest =>
    if isHighSurrogate a && isLowSurrogate b then
      Char.ofNat (0x10000 + (a - 0xD800) * 0x400 + (b - 0xDC00)) :: joinPairs rest
    else Text.charOfInt a :: joinPairs (b :: rest)

/-- The string behind an opening quote and what follows it. -/
def string? (cs : List Char) : Option (String × List Char) :=
  (codeUnits? cs).map fun (units, rest) => (String.ofList (joinPairs units), rest)

/-! ## Values -/

mutual

/-- A value and what follows it, for at most `n` values in one another or in a row. -/
def value? : Nat → List Char → Option (Json × List Char)
  | 0, _ => none
  | n + 1, cs =>
    match skipSpaces cs with
    | '"' :: rest => (string? rest).map fun (s, rest') => (.string s, rest')
    | '[' :: rest =>
      match skipSpaces rest with
      | ']' :: rest' => some (.array [], rest')
      | rest' => (items? n rest').map fun (items, rest'') => (.array items, rest'')
    | '\x7b' :: rest =>
      match skipSpaces rest with
      | '\x7d' :: rest' => some (.object [], rest')
      | rest' => (members? n rest').map fun (members, rest'') => (.object members, rest'')
    | 't' :: rest => (afterWord? ['r', 'u', 'e'] rest).map fun rest' => (.bool true, rest')
    | 'f' :: rest => (afterWord? ['a', 'l', 's', 'e'] rest).map fun rest' => (.bool false, rest')
    | 'n' :: rest => (afterWord? ['u', 'l', 'l'] rest).map fun rest' => (.null, rest')
    | cs' => (numeral? cs').map fun (text, rest) => (.number (String.ofList text), rest)

/-- The items of an array up to its closing bracket. -/
def items? : Nat → List Char → Option (List Json × List Char)
  | 0, _ => none
  | n + 1, cs =>
    match value? n cs with
    | none => none
    | some (item, rest) =>
      match skipSpaces rest with
      | ',' :: rest' => (items? n rest').map fun (items, rest'') => (item :: items, rest'')
      | ']' :: rest' => some ([item], rest')
      | _ => none

/-- The members of an object up to its closing brace. -/
def members? : Nat → List Char → Option (List (String × Json) × List Char)
  | 0, _ => none
  | n + 1, cs =>
    match skipSpaces cs with
    | '"' :: rest =>
      match string? rest with
      | none => none
      | some (key, rest') =>
        match skipSpaces rest' with
        | ':' :: rest'' =>
          match value? n rest'' with
          | none => none
          | some (value, after) =>
            match skipSpaces after with
            | ',' :: after' =>
              (members? n after').map fun (members, end') => ((key, value) :: members, end')
            | '\x7d' :: after' => some ([(key, value)], after')
            | _ => none
        | _ => none
    | _ => none

end

/-- The value that a whole text stands for. -/
def read? (text : String) : Option Json :=
  let cs := text.toList
  match value? (cs.length + 1) cs with
  | some (value, rest) => if skipSpaces rest = [] then some value else none
  | none => none

end Reckoner.Json
