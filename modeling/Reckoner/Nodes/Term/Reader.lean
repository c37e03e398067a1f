/-
Reading types and expressions, and what a word for a field stands for in a struct, in a list of
parameters and in a list of arguments. The readers take a bound on the number of terms in one
another, which the number of tokens provides.
-/
import Reckoner.Nodes.Term.Basic

namespace Reckoner.Nodes

/-- A step that reads some of the tokens that are left, or fails. -/
abbrev Reading (α : Type) := StateT (List Token) Option α

namespace Reading

/-- The next token. -/
def head? : Reading (Option Token) := do
  return (← get).head?

/-- The text of the next mark, and nothing before another token or at the end. -/
def mark : Reading String := do
  match ← head? with
  | some t => return if t.kind = .mark then t.text else ""
  | none => return ""

/-- The next token is of a kind. -/
def isAt (kind : Kind) : Reading Bool := do
  match ← head? with
  | some t => return t.kind = kind
  | none => return false

/-- Reads the next token. -/
def next : Reading Token := do
  match ← get with
  | t :: rest =>
    set rest
    return t
  | [] => failure

/-- Reads a mark that must come next. -/
def expect (text : String) : Reading Spot := do
  let t ← next
  guard (t.kind = .mark && t.text = text)
  return t.spot

/-- Reads a name that must come next. -/
def word : Reading Word := do
  let t ← next
  guard (t.kind = .name)
  return ⟨t.text, t.spot⟩

/-- All of some tokens in one step. -/
def all? {α : Type} (r : Reading α) (tokens : List Token) : Option α :=
  match r.run tokens with
  | some (a, []) => some a
  | _ => none

end Reading

/-- The marks that a type can begin with. -/
def typeMarks : List String :=
  ["[", "struct", "*", "func", "interface", "map", "chan", "<-", "("]

/-- A type can begin with the next token. -/
def isAtType : Reading Bool := do
  return (← Reading.isAt .name) || typeMarks.contains (← Reading.mark)

/-- A name and a type, of which a parameter has at least one. -/
structure Declared where
  name : Option Word
  type : Option Term

namespace Declared

/-- The member that a lone parameter is: a name without a type is a type. -/
def member? : Declared → Option Member
  | ⟨none, some t⟩ => some (.mk [] t none false)
  | ⟨some w, some t⟩ => some (.mk [w] t none false)
  | ⟨some w, none⟩ => some (.mk [] (.name w) none false)
  | ⟨none, none⟩ => none

end Declared

mutual

/-- A type. -/
def readType : Nat → Reading Term
  | 0 => failure
  | n + 1 => do
    if ← Reading.isAt .name then
      readNamed n
    else
      match ← Reading.mark with
      | "[" => do
        let opening ← Reading.expect "["
        readArray n opening
      | "*" => do
        let spot ← Reading.expect "*"
        return .pointer spot (← readType n)
      | "(" => do
        let opening ← Reading.expect "("
        let inner ← readType n
        return .parenthesized opening inner (← Reading.expect ")")
      | "map" => do
        let spot ← Reading.expect "map"
        let _ ← Reading.expect "["
        let key ← readType n
        let _ ← Reading.expect "]"
        return .map spot key (← readType n)
      | "chan" => do
        let spot ← Reading.expect "chan"
        if (← Reading.mark) = "<-" then
          let arrow ← Reading.expect "<-"
          return .channel spot .send arrow (← readType n)
        else
          return .channel spot .both spot (← readType n)
      | "<-" => do
        let spot ← Reading.expect "<-"
        let _ ← Reading.expect "chan"
        return .channel spot .receive spot (← readType n)
      | "func" => do
        let spot ← Reading.expect "func"
        return .function spot (← readSignature n)
      | "struct" => do
        let spot ← Reading.expect "struct"
        let opening ← Reading.expect "\x7b"
        let fields ← readFields n
        return .record spot opening fields (← Reading.expect "\x7d")
      | "interface" => do
        let spot ← Reading.expect "interface"
        let opening ← Reading.expect "\x7b"
        let elements ← readElements n
        return .interface spot opening elements (← Reading.expect "\x7d")
      | _ => failure

/-- A type that begins with a name. -/
def readNamed : Nat → Reading Term
  | 0 => failure
  | n + 1 => do
    let w ← Reading.word
    readQualified n w

/-- The type that begins with a name which has been read. -/
def readQualified : Nat → Word → Reading Term
  | 0, _ => failure
  | n + 1, w => do
    let head ←
      if (← Reading.mark) = "." then do
        let _ ← Reading.expect "."
        pure (Term.selection (.name w) (← Reading.word))
      else
        pure (Term.name w)
    if (← Reading.mark) = "[" then
      let opening ← Reading.expect "["
      let argument ← readType n
      return .application head opening argument (← Reading.expect "]")
    else
      return head

/-- An array or slice type behind its opening bracket. -/
def readArray : Nat → Spot → Reading Term
  | 0, _ => failure
  | n + 1, opening => do
    match ← Reading.mark with
    | "]" => do
      let _ ← Reading.expect "]"
      return .slice opening (← readType n)
    | "..." => do
      let spot ← Reading.expect "..."
      let _ ← Reading.expect "]"
      return .array opening (.dots spot none) (← readType n)
    | _ => do
      let length ← readExpression n 1
      let _ ← Reading.expect "]"
      return .array opening length (← readType n)

/-- What follows a name before a bracket: the array type of what the name stands for, or an
argument of the type that the name is. -/
def readBracket : Nat → Word → Reading Declared
  | 0, _ => failure
  | n + 1, w => do
    let opening ← Reading.expect "["
    if (← Reading.mark) = "]" then
      let _ ← Reading.expect "]"
      return ⟨some w, some (.slice opening (← readType n))⟩
    else
      let argument ← readExpression n 1
      let closing ← Reading.expect "]"
      if ← isAtType then
        return ⟨some w, some (.array opening argument (← readType n))⟩
      else
        return ⟨none, some (.application (.name w) opening argument closing)⟩

/-- A parameter. -/
def readParameter : Nat → Reading Declared
  | 0 => failure
  | n + 1 => do
    if ← Reading.isAt .name then
      let w ← Reading.word
      match ← Reading.mark with
      | "[" => readBracket n w
      | "..." => do
        let spot ← Reading.expect "..."
        return ⟨some w, some (.dots spot (some (← readType n)))⟩
      | "." => return ⟨none, some (← readQualified n w)⟩
      | _ =>
        if ← isAtType then
          return ⟨some w, some (← readType n)⟩
        else
          return ⟨some w, none⟩
    else if (← Reading.mark) = "..." then
      let spot ← Reading.expect "..."
      return ⟨none, some (.dots spot (some (← readType n)))⟩
    else
      return ⟨none, some (← readType n)⟩

/-- The parameter between the brackets of a function, if there is one. -/
def readParameters : Nat → Reading (Spot × Option Member × Spot)
  | 0 => failure
  | n + 1 => do
    let opening ← Reading.expect "("
    if (← Reading.mark) = ")" then
      return (opening, none, ← Reading.expect ")")
    else
      let declared ← readParameter n
      let closing ← Reading.expect ")"
      match declared.member? with
      | some m => return (opening, some m, closing)
      | none => failure

/-- The parameter and the result of a function. -/
def readSignature : Nat → Reading Signature
  | 0 => failure
  | n + 1 => do
    let (opening, parameter, closing) ← readParameters n
    if (← Reading.mark) = "(" then
      let (resultOpening, result, resultClosing) ← readParameters n
      guard !((result.map (·.type.isDots)).getD false)
      return .mk opening parameter closing resultOpening result resultClosing
    else if ← isAtType then
      let result ← readType n
      return .mk opening parameter closing result.spot (some (.mk [] result none false)) closing
    else
      return .mk opening parameter closing closing none closing

/-- A field of a struct without what ends it. -/
def readField : Nat → Reading Member
  | 0 => failure
  | n + 1 => do
    let declared ←
      if (← Reading.mark) = "*" then do
        let spot ← Reading.expect "*"
        pure (Declared.mk none (some (Term.pointer spot (← readNamed n))))
      else do
        let w ← Reading.word
        match ← Reading.mark with
        | "." => pure (Declared.mk none (some (← readQualified n w)))
        | "[" => readBracket n w
        | _ =>
          if ← isAtType then
            pure (Declared.mk (some w) (some (← readType n)))
          else
            pure (Declared.mk (some w) none)
    let tag ←
      if ← Reading.isAt .string then do
        let t ← Reading.next
        pure (some (Word.mk t.text t.spot))
      else
        pure none
    match declared.member? with
    | some m => return .mk m.names m.type tag false
    | none => failure

/-- The fields of a struct, up to its closing brace. -/
def readFields : Nat → Reading (List Member)
  | 0 => failure
  | n + 1 => do
    if (← Reading.mark) = "\x7d" then
      return []
    else
      let field ← readField n
      if (← Reading.mark) = ";" then
        let _ ← Reading.expect ";"
        return field :: (← readFields n)
      else
        return [field]

/-- A term of a union: a type, or all types with an underlying type. -/
def readUnionTerm : Nat → Reading Term
  | 0 => failure
  | n + 1 => do
    if (← Reading.mark) = "~" then
      let spot ← Reading.expect "~"
      return .unary ⟨"~", spot⟩ (← readType n)
    else
      readType n

/-- A union whose first term has been read. -/
def readUnion : Nat → Term → Reading Term
  | 0, _ => failure
  | n + 1, left => do
    if (← Reading.mark) = "|" then
      let spot ← Reading.expect "|"
      let right ← readUnionTerm n
      readUnion n (.binary left ⟨"|", spot⟩ right)
    else
      return left

/-- An element of an interface: a method or a union of types. -/
def readElement : Nat → Reading Member
  | 0 => failure
  | n + 1 => do
    if ← Reading.isAt .name then
      let w ← Reading.word
      match ← Reading.mark with
      | "(" => do
        let signature ← readSignature n
        return .mk [w] (.function w.spot signature) none false
      | "[" => do
        let opening ← Reading.expect "["
        let argument ← readExpression n 1
        let closing ← Reading.expect "]"
        return .mk [] (← readUnion n (.application (.name w) opening argument closing)) none false
      | _ => do
        let left ← readQualified n w
        return .mk [] (← readUnion n left) none false
    else
      let left ← readUnionTerm n
      return .mk [] (← readUnion n left) none false

/-- The elements of an interface, up to its closing brace. -/
def readElements : Nat → Reading (List Member)
  | 0 => failure
  | n + 1 => do
    if (← Reading.mark) = "\x7d" then
      return []
    else
      let element ← readElement n
      if (← Reading.mark) = ";" then
        let _ ← Reading.expect ";"
        return element :: (← readElements n)
      else
        return [element]

/-- An expression of binary operators that bind at least as strongly as a bound. -/
def readExpression : Nat → Nat → Reading Term
  | 0, _ => failure
  | n + 1, bound => do
    let left ← readUnary n
    readOperators n bound left

/-- The binary operators behind an operand. -/
def readOperators : Nat → Nat → Term → Reading Term
  | 0, _, _ => failure
  | n + 1, bound, left => do
    match precedence? (← Reading.mark) with
    | some p =>
      if bound ≤ p then
        let t ← Reading.next
        let right ← readExpression n (p + 1)
        readOperators n bound (.binary left ⟨t.text, t.spot⟩ right)
      else
        return left
    | none => return left

/-- An operand with the operators before it. -/
def readUnary : Nat → Reading Term
  | 0 => failure
  | n + 1 => do
    let mark ← Reading.mark
    if unarySigns.contains mark then
      let spot ← Reading.expect mark
      return .unary ⟨mark, spot⟩ (← readUnary n)
    else if mark = "<-" then
      let arrow ← Reading.expect "<-"
      let operand ← readUnary n
      if operand.isChannel then
        match operand.received? arrow with
        | some t => return t
        | none => failure
      else
        return .unary ⟨"<-", arrow⟩ operand
    else if mark = "*" then
      let spot ← Reading.expect "*"
      return .pointer spot (← readUnary n)
    else
      let operand ← readOperand n
      readSuffixes n operand

/-- An operand without what follows it. -/
def readOperand : Nat → Reading Term
  | 0 => failure
  | n + 1 => do
    match (← Reading.head?).map Token.kind with
    | some .name => return .name (← Reading.word)
    | some .number => do
      let t ← Reading.next
      return .number ⟨t.text, t.spot⟩
    | some .mark =>
      match ← Reading.mark with
      | "(" => do
        let opening ← Reading.expect "("
        let inner ← readExpression n 1
        return .parenthesized opening inner (← Reading.expect ")")
      | "func" => do
        let spot ← Reading.expect "func"
        let signature ← readSignature n
        if (← Reading.mark) = "\x7b" then
          let opening ← Reading.expect "\x7b"
          return .closure spot signature opening (← Reading.expect "\x7d")
        else
          return .function spot signature
      | _ => readType n
    | some _ => do
      let t ← Reading.next
      return .quotation ⟨t.text, t.spot⟩
    | none => failure

/-- The selections, arguments and literal items behind an operand. -/
def readSuffixes : Nat → Term → Reading Term
  | 0, _ => failure
  | n + 1, operand => do
    match ← Reading.mark with
    | "." => do
      let _ ← Reading.expect "."
      if (← Reading.mark) = "(" then
        let opening ← Reading.expect "("
        if (← Reading.mark) = "type" then
          let _ ← Reading.expect "type"
          let closing ← Reading.expect ")"
          readSuffixes n (.assertion operand opening none closing)
        else
          let type ← readType n
          let closing ← Reading.expect ")"
          readSuffixes n (.assertion operand opening (some type) closing)
      else
        readSuffixes n (.selection operand (← Reading.word))
    | "[" => do
      let opening ← Reading.expect "["
      let argument ← readExpression n 1
      let closing ← Reading.expect "]"
      readSuffixes n (.application operand opening argument closing)
    | "(" => do
      let opening ← Reading.expect "("
      if (← Reading.mark) = ")" then
        let closing ← Reading.expect ")"
        readSuffixes n (.call operand opening none none closing)
      else
        let argument ← readExpression n 1
        let spread ←
          if (← Reading.mark) = "..." then do
            pure (some (← Reading.expect "..."))
          else
            pure none
        let closing ← Reading.expect ")"
        readSuffixes n (.call operand opening (some argument) spread closing)
    | "\x7b" =>
      if operand.bare.canHoldItems then do
        guard !operand.isParenthesized
        let literal ← readItems n (some operand)
        readSuffixes n literal
      else
        return operand
    | _ => return operand

/-- The items of a literal in braces. -/
def readItems : Nat → Option Term → Reading Term
  | 0, _ => failure
  | n + 1, type => do
    let opening ← Reading.expect "\x7b"
    match ← Reading.mark with
    | "\x7d" => return .composite type opening none (← Reading.expect "\x7d")
    | "\x7b" => do
      let item ← readItems n none
      return .composite type opening (some item) (← Reading.expect "\x7d")
    | _ => do
      let item ← readExpression n 1
      return .composite type opening (some item) (← Reading.expect "\x7d")

end

/-! ## Fields -/

/-- A bound on the terms in one another for some tokens. -/
def depthBound (tokens : List Token) : Nat :=
  8 * tokens.length + 8

/-- The field of a struct that some tokens stand for. -/
def field? (tokens : List Token) : Option Member :=
  (readField (depthBound tokens)).all? tokens

/-- The parameter that some tokens stand for. -/
def declared? (tokens : List Token) : Option Declared :=
  (readParameter (depthBound tokens)).all? tokens

/-- The argument that some tokens stand for. -/
def argument? (tokens : List Token) : Option Term :=
  (readExpression (depthBound tokens) 1).all? tokens

/-! ## Lists of parameters -/

namespace Declared

/-- The parameters from the last to the first, when some have a name and a type. Names without a
type share that of the next parameter. -/
def gather : List Declared → Option (List Member)
  | [] => some []
  | ⟨some w, some t⟩ :: rest => (gather rest).map (.mk [w] t none false :: ·)
  | ⟨some w, none⟩ :: rest =>
    match gather rest with
    | some (.mk names t tag remarked :: others) => some (.mk (w :: names) t tag remarked :: others)
    | _ => none
  | ⟨none, _⟩ :: _ => none

/-- A name with a type. -/
def isFull (d : Declared) : Bool :=
  d.name.isSome && d.type.isSome

/-- The parameters of a list. Either all have a name, or what looks like a name is a type. -/
def members? (ds : List Declared) : Option (List Member) :=
  if ds.any isFull then gather ds else ds.mapM member?

end Declared

end Reckoner.Nodes
