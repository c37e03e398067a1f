/-
Points in time: a date, and perhaps a time of day behind it.
-/
namespace Reckoner.Yaml

/-- A number of one or two digits, and what follows it. -/
def shortNumber? : List Char → Option (Nat × List Char)
  | a :: b :: rest =>
    if a.isDigit then
      if b.isDigit then some (10 * (a.toNat - '0'.toNat) + (b.toNat - '0'.toNat), rest)
      else some (a.toNat - '0'.toNat, b :: rest)
    else none
  | [a] => if a.isDigit then some (a.toNat - '0'.toNat, []) else none
  | [] => none

/-- A number below a limit that stands between a sign and what follows. -/
def numberBehind? (sign : Char) (limit : Nat) : List Char → Option (Nat × List Char)
  | c :: rest => do
    guard (c = sign)
    let (n, rest') ← shortNumber? rest
    guard (n < limit)
    return (n, rest')
  | [] => none

/-- A year with one day more. -/
def isLeapYear (year : Nat) : Bool :=
  year % 4 == 0 && (year % 100 != 0 || year % 400 == 0)

/-- The number of days of a month. -/
def daysIn (year month : Nat) : Nat :=
  if month = 2 then if isLeapYear year then 29 else 28
  else if [4, 6, 9, 11].contains month then 30 else 31

/-- What follows the date at the front of a text. -/
def afterDate? (cs : List Char) : Option (List Char) := do
  let year := cs.takeWhile Char.isDigit
  guard (year.length = 4)
  let (month, rest) ← numberBehind? '-' 13 (cs.dropWhile Char.isDigit)
  let (day, rest) ← numberBehind? '-' 32 rest
  guard (1 ≤ month && 1 ≤ day && day ≤ daysIn (Nat.ofDigitChars 10 year 0) month)
  return rest

/-- What follows the fraction of a second, if there is one. -/
def afterFraction : List Char → List Char
  | c :: d :: rest =>
    if (c = '.' || c = ',') && d.isDigit then rest.dropWhile Char.isDigit else c :: d :: rest
  | cs => cs

/-- What follows the time of day behind its sign. -/
def afterTime? (sign : Char) (cs : List Char) : Option (List Char) := do
  let (_, rest) ← numberBehind? sign 24 cs
  let (_, rest) ← numberBehind? ':' 60 rest
  let (_, rest) ← numberBehind? ':' 60 rest
  return afterFraction rest

/-- The zone of a time of day: its letter, or the hours and minutes by which it is ahead or
behind. -/
def isZone : List Char → Bool
  | ['Z'] => true
  | [sign, a, b, ':', c, d] =>
    (sign == '+' || sign == '-') && [a, b, c, d].all Char.isDigit &&
      Nat.ofDigitChars 10 [a, b] 0 ≤ 24 && Nat.ofDigitChars 10 [c, d] 0 ≤ 60
  | _ => false

/-- A point in time. Behind a letter the time of day has a zone, and behind a space it has none. -/
def isTimestamp (text : String) : Bool :=
  match afterDate? text.toList with
  | none => false
  | some [] => true
  | some (sign :: rest) =>
    match afterTime? sign (sign :: rest) with
    | none => false
    | some zone =>
      if sign == 'T' || sign == 't' then isZone zone else sign == ' ' && zone == []

end Reckoner.Yaml
