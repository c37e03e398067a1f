/-
The clause that names the package of a source. Blanks, comments and a semicolon may stand around
the name, but no declaration may follow it.
-/
import Reckoner.Nodes.Token

namespace Reckoner.Nodes

/-- What can stand in the clause. -/
inductive PackageItem where
  | name (text : String)
  | remark (text : String)
  | semicolon
  deriving DecidableEq, Repr

/-- The blanks between items. -/
def isPackageBlank (c : Char) : Bool :=
  c == ' ' || c == '\t' || c == '\n' || c == '\r'

/-- A comment to the end of a line without the blanks at its end. -/
def lineRemark (cs : List Char) : String :=
  String.ofList ((cs.reverse.dropWhile isPackageBlank).reverse)

/-- The items of a text with their lines, in at most `n` steps. -/
def packageItems? : Nat → Nat → List Char → Option (List (PackageItem × Nat))
  | _, _, [] => some []
  | 0, _, _ => none
  | n + 1, line, cs =>
    match cs with
    | [] => some []
    | '/' :: '/' :: _ =>
      (packageItems? n line (cs.dropWhile (· != '\n'))).map
        ((.remark (lineRemark (cs.takeWhile (· != '\n'))), line) :: ·)
    | '/' :: '*' :: rest =>
      match remarkEnd? rest with
      | none => none
      | some behind =>
        let text := consumed cs behind
        (packageItems? n (line + text.toList.count '\n') behind).map
          ((.remark text, line) :: ·)
    | ';' :: rest => (packageItems? n line rest).map ((.semicolon, line) :: ·)
    | c :: rest =>
      if c = '\n' then packageItems? n (line + 1) rest
      else if isPackageBlank c then packageItems? n line rest
      else if isNameStart c then
        (packageItems? n line (cs.dropWhile isNameChar)).map
          ((.name (String.ofList (cs.takeWhile isNameChar)), line) :: ·)
      else none

/-- The comments at the head of some items, and what follows them. -/
def leadingRemarks : List (PackageItem × Nat) → List (String × Nat) × List (PackageItem × Nat)
  | (.remark text, line) :: rest =>
    let (remarks, behind) := leadingRemarks rest
    ((text, line) :: remarks, behind)
  | items => ([], items)

/-- Ends of lines, so that at most one line stays empty. -/
def lineBreaks (n : Nat) : String :=
  String.ofList (List.replicate (min n 2) '\n')

/-- Texts behind one another, from the line of the last. A text on the same line follows a blank.
-/
def follow : Nat → List (String × Nat) → String
  | _, [] => ""
  | last, (text, line) :: rest =>
    (if line = last then " " else lineBreaks (line - last)) ++ text ++ follow line rest

/-- What follows the name: comments on its line, and comments on later lines after an empty one. -/
def trailing (last : Nat) : List (String × Nat) → String
  | [] => ""
  | (text, line) :: rest =>
    (if line = last then " " else lineBreaks (line - last + 1)) ++ text ++ follow line rest

/-- The clause that a text for the package gives, if it is one name with comments around it. A text that
goes on with declarations behind a semicolon is no such name and gives none. -/
def packageClause? (s : String) : Option String := do
  let items ← packageItems? s.length 0 s.toList
  let (before, rest) := leadingRemarks items
  match rest with
  | (.name name, line) :: behind => do
    guard (isName name)
    let (inner, rest) := leadingRemarks behind
    let remarks ←
      match rest with
      | [] => pure inner
      | (.semicolon, l) :: last => do
        guard (l = line)
        let (outer, rest) := leadingRemarks last
        guard rest.isEmpty
        pure (inner ++ outer)
      | _ => failure
    let head := if before.isEmpty then " " ++ name else follow 0 (before ++ [(name, line)])
    return "package" ++ head ++ trailing line remarks
  | _ => failure

end Reckoner.Nodes
