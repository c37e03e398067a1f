/-
Tokens of a Go source, and the comments between them. A text here has no blanks: the names and the
types of fields are single words.
-/
import Reckoner.Nodes.Name

namespace Reckoner.Nodes

/-- A place in a source. -/
structure Spot where
  line : Nat
  column : Nat
  deriving DecidableEq, Repr

namespace Spot

/-- One place stands before another. -/
def before (a b : Spot) : Bool :=
  a.line < b.line || (a.line == b.line && a.column < b.column)

/-- The place some characters further on the same line. -/
def shift (s : Spot) (n : Nat) : Spot :=
  ⟨s.line, s.column + n⟩

end Spot

/-- What a token is. A mark is an operator, a bracket or a keyword. -/
inductive Kind where
  | name
  | number
  | character
  | string
  | mark
  deriving DecidableEq, Repr

/-- A token at its place. -/
structure Token where
  kind : Kind
  text : String
  spot : Spot
  deriving DecidableEq, Repr

/-- A comment at its place. Comments without a token between them form a group, which `first`
begins. -/
structure Remark where
  text : String
  spot : Spot
  first : Spot
  deriving DecidableEq, Repr

/-! ## Numbers -/

/-- A digit of hexadecimal numbers. -/
def isHexDigit (c : Char) : Bool :=
  c.isDigit || ('a' ≤ c.toLower && c.toLower ≤ 'f')

/-- How the first characters of a number announce its base. -/
inductive Radix where
  | decimal
  | leadingZero
  | hexadecimal
  | octal
  | binary
  deriving DecidableEq, Repr

namespace Radix

/-- The base of the digits. -/
def base : Radix → Nat
  | .decimal => 10
  | .leadingZero => 8
  | .hexadecimal => 16
  | .octal => 8
  | .binary => 2

/-- The characters that announce the base, and those behind them. -/
def split : List Char → Radix × List Char × List Char
  | '0' :: c :: rest =>
    if c.toLower = 'x' then (.hexadecimal, ['0', c], rest)
    else if c.toLower = 'o' then (.octal, ['0', c], rest)
    else if c.toLower = 'b' then (.binary, ['0', c], rest)
    else (.leadingZero, ['0'], c :: rest)
  | ['0'] => (.leadingZero, ['0'], [])
  | cs => (.decimal, [], cs)

/-- A character in the digits of a number. Whether a decimal digit is one of the base shows only
at the end. -/
def isDigit (r : Radix) (c : Char) : Bool :=
  c == '_' || (if r = .hexadecimal then isHexDigit c else c.isDigit)

/-- A decimal digit that is none of the base. -/
def isStray (r : Radix) (c : Char) : Bool :=
  c.isDigit && r.base ≤ c.toNat - '0'.toNat

end Radix

/-- What stands before the next character of a number, for the place of underscores. -/
inductive Neighbour where
  | digit
  | underscore
  | other
  deriving DecidableEq, Repr

/-- Every underscore stands between digits. -/
def areSeparated (r : Radix) : Neighbour → List Char → Bool
  | last, [] => last != .underscore
  | last, c :: rest =>
    if c = '_' then last == .digit && areSeparated r .underscore rest
    else if r.isDigit c then areSeparated r .digit rest
    else last != .underscore && areSeparated r .other rest

/-- The fraction at the head of a text, with its point. -/
def fraction (r : Radix) : List Char → List Char × List Char
  | '.' :: rest => ('.' :: rest.takeWhile r.isDigit, rest.dropWhile r.isDigit)
  | cs => ([], cs)

/-- The exponent at the head of a text, with its letter and sign. -/
def exponent : List Char → List Char × List Char
  | e :: s :: rest =>
    if e.toLower = 'e' || e.toLower = 'p' then
      let sign := if s = '+' || s = '-' then [s] else []
      let digits := if s = '+' || s = '-' then rest else s :: rest
      (e :: sign ++ digits.takeWhile Radix.decimal.isDigit,
        digits.dropWhile Radix.decimal.isDigit)
    else ([], e :: s :: rest)
  | [e] => if e.toLower = 'e' || e.toLower = 'p' then ([e], []) else ([], [e])
  | [] => ([], [])

/-- An exponent fits the base of the number and has a digit. -/
def fitsExponent (r : Radix) (broken : Bool) : List Char → Bool
  | [] => !(r == .hexadecimal && broken)
  | e :: digits =>
    (if e.toLower = 'e' then r == .decimal || r == .leadingZero else r == .hexadecimal) &&
      digits.any (·.isDigit)

/-- A number at the head of a text, and what follows it. -/
def number? (cs : List Char) : Option (List Char × List Char) :=
  let (r, announced, body) := Radix.split cs
  let whole := body.takeWhile r.isDigit
  let (part, behindPart) := fraction r (body.dropWhile r.isDigit)
  let (power, behindPower) := exponent behindPart
  let (unit, behind) :=
    match behindPower with
    | 'i' :: rest => (['i'], rest)
    | rest => ([], rest)
  let mantissa := whole ++ part
  let isWhole := part.isEmpty && power.isEmpty && unit.isEmpty
  let hasDigit := r == .leadingZero || mantissa.any fun c => c != '_' && c != '.'
  let start := if r = .decimal || r = .leadingZero then Neighbour.other else Neighbour.digit
  let digits := (if r = .leadingZero then announced else []) ++ mantissa ++ power ++ unit
  if hasDigit && fitsExponent r (!part.isEmpty) power &&
      !(!part.isEmpty && (r == .octal || r == .binary)) &&
      !(isWhole && whole.any r.isStray) && areSeparated r start digits then
    some (announced ++ mantissa ++ power ++ unit, behind)
  else none

/-! ## Characters and strings -/

/-- The value of some digits in a base, if they are digits of it. -/
def digitsValue? (base : Nat) (cs : List Char) : Option Nat :=
  cs.foldlM (fun n c =>
    let d :=
      if c.isDigit then c.toNat - '0'.toNat
      else if isHexDigit c then c.toLower.toNat - 'a'.toNat + 10
      else 16
    if d < base then some (base * n + d) else none) 0

/-- What follows some digits in a base whose value is in a range. -/
def numbered? (count base : Nat) (allowed : Nat → Bool) (cs : List Char) : Option (List Char) :=
  if cs.length < count then none
  else
    match digitsValue? base (cs.take count) with
    | some n => if allowed n then some (cs.drop count) else none
    | none => none

/-- The number of a character that is no half of a pair. -/
def isScalarValue (n : Nat) : Bool :=
  n < 0xD800 || (0xE000 ≤ n && n < 0x110000)

/-- What follows an escape, whose backslash has been read. -/
def escape? (quote : Char) : List Char → Option (List Char)
  | [] => none
  | c :: rest =>
    if c = quote || "abfnrtv\\".toList.contains c then some rest
    else if c = 'x' then numbered? 2 16 (· < 256) rest
    else if c = 'u' then numbered? 4 16 isScalarValue rest
    else if c = 'U' then numbered? 8 16 isScalarValue rest
    else numbered? 3 8 (· < 256) (c :: rest)

/-- What follows a string, whose opening quote has been read, in at most `n` steps. -/
def stringEnd? : Nat → List Char → Option (List Char)
  | 0, _ => none
  | _, [] => none
  | n + 1, c :: rest =>
    if c = '"' then some rest
    else if c = '\\' then (escape? '"' rest).bind (stringEnd? n)
    else stringEnd? n rest

/-- What follows a character between quotes, whose opening quote has been read. -/
def characterEnd? : List Char → Option (List Char)
  | '\'' :: _ => none
  | c :: rest =>
    match if c = '\\' then escape? '\'' rest else some rest with
    | some ('\'' :: behind) => some behind
    | _ => none
  | [] => none

/-- What follows a raw string, whose opening quote has been read. -/
def rawEnd? (cs : List Char) : Option (List Char) :=
  match cs.dropWhile (· != '\x60') with
  | [] => none
  | _ :: rest => some rest

/-- What follows a comment, whose opening has been read. -/
def remarkEnd? : List Char → Option (List Char)
  | [] => none
  | c :: rest =>
    match c, rest with
    | '*', '/' :: behind => some behind
    | _, _ => remarkEnd? rest

/-! ## Marks -/

/-- The operators and brackets, each before those that it begins with. -/
def signs : List String :=
  ["<<=", ">>=", "&^=", "...", "<<", ">>", "&^", "+=", "-=", "*=", "/=", "%=", "&=", "|=", "^=",
    "&&", "||", "<-", "++", "--", "==", "!=", "<=", ">=", ":=", "+", "-", "*", "/", "%", "&", "|",
    "^", "<", ">", "=", "!", "~", "(", "[", "\x7b", ",", ".", ")", "]", "\x7d", ";", ":"]

/-- The operator or bracket at the head of a text. -/
def sign? (cs : List Char) : Option String :=
  signs.find? fun s => s.toList.isPrefixOf cs

/-! ## Scanning -/

/-- A token or a comment. -/
inductive Item where
  | token (t : Token)
  | remark (text : String) (spot : Spot)
  deriving DecidableEq, Repr

/-- What was read of a text when only its end is left. -/
def consumed (cs behind : List Char) : String :=
  String.ofList (cs.take (cs.length - behind.length))

/-- The token or comment at the head of a text, and what follows it. A comment to the end of the
line would hide what the source has behind the text, so it is refused. -/
def item? (spot : Spot) (cs : List Char) : Option (Item × List Char) :=
  let token (kind : Kind) (behind : List Char) : Item × List Char :=
    (.token ⟨kind, consumed cs behind, spot⟩, behind)
  match cs with
  | [] => none
  | '"' :: rest => (stringEnd? (rest.length + 1) rest).map (token .string)
  | '\'' :: rest => (characterEnd? rest).map (token .character)
  | '\x60' :: rest => (rawEnd? rest).map (token .string)
  | '/' :: '/' :: _ => none
  | '/' :: '*' :: rest =>
    (remarkEnd? rest).map fun behind => (.remark (consumed cs behind) spot, behind)
  | c :: rest =>
    if isNameStart c then
      let word := String.ofList (cs.takeWhile isNameChar)
      let kind := if keywords.contains word then Kind.mark else Kind.name
      some (.token ⟨kind, word, spot⟩, cs.dropWhile isNameChar)
    else if c.isDigit || (c == '.' && (rest.head?.map (·.isDigit)).getD false) then
      (number? cs).map fun (digits, behind) =>
        (.token ⟨.number, String.ofList digits, spot⟩, behind)
    else
      (sign? cs).map fun s => (.token ⟨.mark, s, spot⟩, cs.drop s.length)

/-- The tokens and comments of a text that begins at a place, in at most `n` steps. -/
def itemsFrom? : Nat → Spot → List Char → Option (List Item)
  | _, _, [] => some []
  | 0, _, _ => none
  | n + 1, spot, cs =>
    match item? spot cs with
    | none => none
    | some (item, behind) =>
      (itemsFrom? n (spot.shift (cs.length - behind.length)) behind).map (item :: ·)

/-- The tokens and comments of a text that begins at a place. -/
def items? (spot : Spot) (s : String) : Option (List Item) :=
  itemsFrom? s.length spot s.toList

namespace Item

/-- The token, if this is one. -/
def token? : Item → Option Token
  | .token t => some t
  | .remark _ _ => none

/-- The comments with the groups that they form. -/
def remarks : Option Spot → List Item → List Remark
  | _, [] => []
  | _, .token _ :: rest => remarks none rest
  | group, .remark text spot :: rest =>
    let first := group.getD spot
    ⟨text, spot, first⟩ :: remarks (some first) rest

end Item

end Reckoner.Nodes
