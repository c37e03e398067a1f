/-
The outline of a source: its package and its declarations. A source is first cut into words and signs. Comments
are passed over, and the end of a line ends a statement where the last word or sign allows it. Then statements
are read as declarations of interfaces, structs and functions that return at once.
-/
import Reckoner.Nodes.Name
import Mathlib.Data.List.Forall2

namespace Reckoner.Nodes

theorem isName_iff {s : String} :
    isName s = true ↔
      (∃ c rest, s.toList = c :: rest ∧ isNameStart c = true ∧ ∀ x ∈ rest, isNameChar x = true) ∧ s ∉ keywords := by
  unfold isName
  split
  · next h => simp [h]
  · next c rest h => simp [h]

theorem isName_chars {s : String} (h : isName s = true) : s.toList ≠ [] ∧ ∀ c ∈ s.toList, isNameChar c = true := by
  obtain ⟨⟨c, rest, hs, hc, hrest⟩, -⟩ := isName_iff.1 h
  rw [hs, List.forall_mem_cons]
  exact ⟨List.cons_ne_nil c rest, by simp [isNameChar, hc], hrest⟩

namespace Outline

/-! ## Words and signs -/

/-- A word, a sign, or the end of a statement. -/
inductive Lexeme where
  | word (text : String)
  | sign (c : Char)
  | ending
  deriving DecidableEq, Repr

/-- What the next character belongs to. -/
inductive Mode where
  | plain
  | word (begun : List Char)
  | slash
  | lineRemark
  /-- A comment. The last character was a star, and a line has ended in it. -/
  | remark (starred broken : Bool)
  deriving DecidableEq, Repr

/-- The state between two characters. With `ends` a line that ends here ends a statement. -/
structure State where
  mode : Mode
  ends : Bool
  deriving DecidableEq, Repr

/-- The state at the beginning of a statement. -/
def State.fresh : State := ⟨.plain, false⟩

/-- A statement can end with a word, unless it is one of most keywords. -/
def endsStatement (w : String) : Bool :=
  !keywords.contains w || ["break", "continue", "fallthrough", "return"].contains w

/-- A character outside of words and comments. -/
def plainStep (ends : Bool) (c : Char) : List Lexeme × State :=
  if isNameChar c then ([], ⟨.word [c], ends⟩)
  else if c = '/' then ([], ⟨.slash, ends⟩)
  else if c = '\n' then (if ends then [.ending] else [], .fresh)
  else if c = ' ' ∨ c = '\t' ∨ c = '\r' then ([], ⟨.plain, ends⟩)
  else if c = ';' then ([.ending], .fresh)
  else ([.sign c], ⟨.plain, c = ')' ∨ c = ']' ∨ c = '\x7d'⟩)

/-- What a character completes, and the state behind it. -/
def step (s : State) (c : Char) : List Lexeme × State :=
  match s.mode with
  | .plain => plainStep s.ends c
  | .word begun =>
    if isNameChar c then ([], ⟨.word (begun ++ [c]), s.ends⟩)
    else
      let next := plainStep (endsStatement (String.ofList begun)) c
      (.word (String.ofList begun) :: next.1, next.2)
  | .slash =>
    if c = '/' then ([], ⟨.lineRemark, s.ends⟩)
    else if c = '*' then ([], ⟨.remark false false, s.ends⟩)
    else
      let next := plainStep false c
      (.sign '/' :: next.1, next.2)
  | .lineRemark => if c = '\n' then plainStep s.ends c else ([], s)
  | .remark starred broken =>
    if starred ∧ c = '/' then
      (if broken ∧ s.ends then [.ending] else [], ⟨.plain, s.ends && !broken⟩)
    else ([], ⟨.remark (c = '*') (broken || c = '\n'), s.ends⟩)

/-- What some characters complete, and the state behind them. -/
def run (s : State) : List Char → List Lexeme × State
  | [] => ([], s)
  | c :: cs => ((step s c).1 ++ (run (step s c).2 cs).1, (run (step s c).2 cs).2)

/-- The words and signs of a source. A comment that was begun must be closed. -/
def lexemes? (source : String) : Option (List Lexeme) :=
  let (complete, last) := run .fresh source.toList
  match last.mode with
  | .plain => some complete
  | .word begun => some (complete ++ [.word (String.ofList begun)])
  | .slash => some (complete ++ [.sign '/'])
  | .lineRemark => some complete
  | .remark _ _ => none

/-! ## Declarations -/

/-- A type. `anything` is the interface without a method. -/
inductive TypeTerm where
  | name (text : String)
  | pointer (target : TypeTerm)
  | slice (item : TypeTerm)
  | anything
  deriving DecidableEq, Repr

/-- A name with a type: a parameter or a field. -/
structure Parameter where
  name : String
  type : TypeTerm
  deriving DecidableEq, Repr

/-- A method of an interface, or the head of a function. -/
structure Signature where
  name : String
  parameters : List Parameter
  results : List TypeTerm
  deriving DecidableEq, Repr

/-- What a function returns: a pointer to a struct with values for its fields, or what a method returns. -/
inductive Answer where
  | record (type : String) (items : List String)
  | call (operand method : String) (arguments : List String)
  deriving DecidableEq, Repr

/-- A declaration. -/
inductive Declaration where
  | interface (name : String) (methods : List Signature)
  | record (name : String) (fields : List Parameter)
  | function (receiver : Option Parameter) (signature : Signature) (answer : Answer)
  deriving DecidableEq, Repr

/-! ## Statements -/

/-- How deep in braces a sign leaves what follows it. -/
def depthAfter (depth : Nat) (c : Char) : Nat :=
  if c = '\x7b' then depth + 1 else if c = '\x7d' then depth - 1 else depth

/-- The statements outside of braces, the first of which has begun. -/
def statementsFrom (depth : Nat) (begun : List Lexeme) : List Lexeme → List (List Lexeme)
  | [] => if begun = [] then [] else [begun]
  | .word w :: rest => statementsFrom depth (begun ++ [.word w]) rest
  | .sign c :: rest => statementsFrom (depthAfter depth c) (begun ++ [.sign c]) rest
  | .ending :: rest =>
    if depth = 0 then
      if begun = [] then statementsFrom 0 [] rest else begun :: statementsFrom 0 [] rest
    else statementsFrom depth (begun ++ [.ending]) rest

/-- The statements outside of braces. -/
def statements (ls : List Lexeme) : List (List Lexeme) :=
  statementsFrom 0 [] ls

/-! ## Reading -/

/-- A word that is a name. -/
def name? : Lexeme → Option String
  | .word w => if isName w then some w else none
  | _ => none

/-- The type at the head, and what follows it. -/
def typeAhead? : List Lexeme → Option (TypeTerm × List Lexeme)
  | .sign '*' :: rest => (typeAhead? rest).map fun (t, behind) => (.pointer t, behind)
  | .sign '[' :: .sign ']' :: rest => (typeAhead? rest).map fun (t, behind) => (.slice t, behind)
  | .word "interface" :: .sign '\x7b' :: .sign '\x7d' :: rest => some (.anything, rest)
  | l :: rest => (name? l).map fun w => (.name w, rest)
  | [] => none

/-- A type and nothing else. -/
def type? (ls : List Lexeme) : Option TypeTerm :=
  match typeAhead? ls with
  | some (t, []) => some t
  | _ => none

/-- A name with a type. -/
def parameter? : List Lexeme → Option Parameter
  | l :: rest => do return ⟨← name? l, ← type? rest⟩
  | [] => none

/-- A name and nothing else. -/
def argument? : List Lexeme → Option String
  | [l] => name? l
  | _ => none

/-- What stands between commas. -/
def listed (ls : List Lexeme) : List (List Lexeme) :=
  if ls = [] then [] else ls.splitOn (.sign ',')

/-- What stands in brackets at the head, up to the first closing one, and what follows them. -/
def bracketed? (opening closing : Char) : List Lexeme → Option (List Lexeme × List Lexeme)
  | .sign c :: rest =>
    match rest.dropWhile (· ≠ .sign closing) with
    | _ :: behind => if c = opening then some (rest.takeWhile (· ≠ .sign closing), behind) else none
    | [] => none
  | _ => none

/-- What stands in brackets that are the first and the last sign. -/
def within? (opening closing : Char) : List Lexeme → Option (List Lexeme)
  | .sign c :: rest =>
    if c = opening ∧ rest.getLast? = some (.sign closing) then some rest.dropLast else none
  | _ => none

/-- The results at the head: several in brackets, or one, or none before a body or at the end. -/
def results? : List Lexeme → Option (List TypeTerm × List Lexeme)
  | [] => some ([], [])
  | .sign '\x7b' :: rest => some ([], .sign '\x7b' :: rest)
  | .sign '(' :: rest => do
    let (inner, behind) ← bracketed? '(' ')' (.sign '(' :: rest)
    return (← (listed inner).mapM type?, behind)
  | ls => (typeAhead? ls).map fun (t, behind) => ([t], behind)

/-- The signature at the head, and what follows it. -/
def signature? : List Lexeme → Option (Signature × List Lexeme)
  | l :: rest => do
    let (inner, behind) ← bracketed? '(' ')' rest
    let (results, body) ← results? behind
    return (⟨← name? l, ← (listed inner).mapM parameter?, results⟩, body)
  | [] => none

/-- A method of an interface. -/
def method? (ls : List Lexeme) : Option Signature :=
  match signature? ls with
  | some (s, []) => some s
  | _ => none

/-- The receiver at the head of a method, if there is one, and what follows it. -/
def receiver? : List Lexeme → Option (Option Parameter × List Lexeme)
  | .sign '(' :: rest => do
    let (inner, behind) ← bracketed? '(' ')' (.sign '(' :: rest)
    return (some (← parameter? inner), behind)
  | ls => some (none, ls)

/-- The statement that returns from a function. -/
def answer? : List Lexeme → Option Answer
  | .word "return" :: .sign '&' :: t :: rest => do
    return .record (← name? t) (← (listed (← within? '\x7b' '\x7d' rest)).mapM argument?)
  | .word "return" :: v :: .sign '.' :: m :: rest => do
    return .call (← name? v) (← name? m) (← (listed (← within? '(' ')' rest)).mapM argument?)
  | _ => none

/-- A declaration. -/
def declaration? : List Lexeme → Option Declaration
  | .word "type" :: n :: .word "interface" :: rest => do
    return .interface (← name? n) (← (statements (← within? '\x7b' '\x7d' rest)).mapM method?)
  | .word "type" :: n :: .word "struct" :: rest => do
    return .record (← name? n) (← (statements (← within? '\x7b' '\x7d' rest)).mapM parameter?)
  | .word "func" :: rest => do
    let (receiver, behind) ← receiver? rest
    let (signature, body) ← signature? behind
    match statements (← within? '\x7b' '\x7d' body) with
    | [s] => return .function receiver signature (← answer? s)
    | _ => none
  | _ => none

end Outline

/-- The package of a source and its declarations, in order. -/
structure Outline where
  package : String
  declarations : List Outline.Declaration
  deriving DecidableEq, Repr

namespace Outline

/-- The outline of a source. -/
def read? (source : String) : Option Outline := do
  match statements (← lexemes? source) with
  | [.word "package", n] :: rest => return ⟨← name? n, ← rest.mapM declaration?⟩
  | _ => none

/-! ## Running over texts -/

/-- Running over characters from one state to another completes some words and signs. -/
def Yields (s : State) (cs : List Char) (ls : List Lexeme) (s' : State) : Prop :=
  run s cs = (ls, s')

theorem Yields.append {s s' s'' : State} {cs ds : List Char} {ls ms : List Lexeme} (h : Yields s cs ls s')
    (h' : Yields s' ds ms s'') : Yields s (cs ++ ds) (ls ++ ms) s'' := by
  unfold Yields at *
  induction cs generalizing s ls with
  | nil =>
    obtain ⟨rfl, rfl⟩ := Prod.mk.inj h
    exact h'
  | cons c cs ih =>
    obtain ⟨rfl, rfl⟩ := Prod.mk.inj h
    simp only [List.cons_append, run, ih rfl, List.append_assoc]

/-- Characters of names continue a word. -/
theorem yields_more {w : List Char} (hw : ∀ c ∈ w, isNameChar c = true) (begun : List Char) (ends : Bool) :
    Yields ⟨.word begun, ends⟩ w [] ⟨.word (begun ++ w), ends⟩ := by
  unfold Yields
  induction w generalizing begun with
  | nil => simp [run]
  | cons c w ih =>
    rw [List.forall_mem_cons] at hw
    simp [run, step, hw.1, ih hw.2]

/-- A word begins behind blanks and signs. -/
theorem yields_word {w : List Char} (hne : w ≠ []) (hw : ∀ c ∈ w, isNameChar c = true) (ends : Bool) :
    Yields ⟨.plain, ends⟩ w [] ⟨.word w, ends⟩ := by
  obtain ⟨c, w, rfl⟩ := List.exists_cons_of_ne_nil hne
  rw [List.forall_mem_cons] at hw
  have hmore := yields_more hw.2 [c] ends
  unfold Yields at *
  simp [run, step, plainStep, hw.1, hmore]

theorem yields_name {w : String} (h : isName w = true) (ends : Bool) :
    Yields ⟨.plain, ends⟩ w.toList [] ⟨.word w.toList, ends⟩ :=
  yields_word (isName_chars h).1 (isName_chars h).2 ends

/-- Blanks change nothing. -/
theorem yields_blank {pad : List Char} (hpad : ∀ c ∈ pad, c = ' ' ∨ c = '\t') (ends : Bool) :
    Yields ⟨.plain, ends⟩ pad [] ⟨.plain, ends⟩ := by
  unfold Yields
  induction pad with
  | nil => rfl
  | cons c pad ih =>
    rw [List.forall_mem_cons] at hpad
    have hc : step ⟨.plain, ends⟩ c = ([], ⟨.plain, ends⟩) := by
      rcases hpad.1 with rfl | rfl <;> rfl
    simp [run, hc, ih hpad.2]

/-- A word is complete before a blank. -/
theorem yields_word_blank {pad : List Char} (hne : pad ≠ []) (hpad : ∀ c ∈ pad, c = ' ' ∨ c = '\t')
    (begun : List Char) (ends : Bool) :
    Yields ⟨.word begun, ends⟩ pad [.word (String.ofList begun)] ⟨.plain, endsStatement (String.ofList begun)⟩ := by
  obtain ⟨c, pad, rfl⟩ := List.exists_cons_of_ne_nil hne
  rw [List.forall_mem_cons] at hpad
  have hc : step ⟨.word begun, ends⟩ c =
      ([.word (String.ofList begun)], ⟨.plain, endsStatement (String.ofList begun)⟩) := by
    rcases hpad.1 with rfl | rfl <;> rfl
  have hrest := yields_blank hpad.2 (endsStatement (String.ofList begun))
  unfold Yields at *
  simp [run, hc, hrest]

/-- What a comment to the end of the line says does not count. -/
theorem yields_lineRemark {cs : List Char} (h : '\n' ∉ cs) (ends : Bool) :
    Yields ⟨.lineRemark, ends⟩ cs [] ⟨.lineRemark, ends⟩ := by
  unfold Yields
  induction cs with
  | nil => rfl
  | cons c cs ih =>
    simp only [List.mem_cons, not_or] at h
    simp [run, step, Ne.symm h.1, ih h.2]

end Outline

end Reckoner.Nodes
