/-
A parser that works with a position in a list of tokens. It looks at the token at its position and at
the one before it, and nothing but the first end of the tokens keeps it from going on. It never reaches
outside the tokens, it ends on every list of them, and it returns what `parse` does.

At a position before the first end or on it, what the machine does is determined by the tokens that are
pending there. Each of its functions is matched with the function on pending tokens that it follows.
-/
import Reckoner.Proofs.Grammar
import Reckoner.Proofs.Guarded.Access

namespace Reckoner.Guarded

/-! ## The machine -/

/-- A tree or an error, and the position at which the parser stopped. -/
abbrev Answer := Except ParseError Expr × Nat

namespace Cursor

/-- The token at the position. -/
def peek (tokens : List Token) (i : Nat) : Except Fault Token :=
  item tokens i

/-- The token before the position. -/
def prev (tokens : List Token) (i : Nat) : Except Fault Token :=
  item tokens (i - 1)

/-- Whether an end stands at the position. -/
def isEnd (tokens : List Token) (i : Nat) : Except Fault Bool := do
  return (← peek tokens i).kind = .eof

/-- Whether the token at the position has a kind. An end counts as having none. -/
def check (tokens : List Token) (kind : TokenKind) (i : Nat) : Except Fault Bool := do
  if ← isEnd tokens i then return false
  return (← peek tokens i).kind = kind

/-- Steps over the token at the position, unless it is an end, and returns the token before. -/
def advance (tokens : List Token) (i : Nat) : Except Fault (Token × Nat) := do
  let next := if ← isEnd tokens i then i else i + 1
  return (← prev tokens next, next)

/-- Steps over the token at the position if it has one of the kinds. -/
def accept (tokens : List Token) : List TokenKind → Nat → Except Fault (Bool × Nat)
  | [], i => return (false, i)
  | kind :: kinds, i => do
    if ← check tokens kind i then return (true, (← advance tokens i).2)
    else accept tokens kinds i

/-- Steps over the token at the position, which must have the kind. -/
def consume (tokens : List Token) (kind : TokenKind) (expected : Expectation) (i : Nat) :
    Except Fault (Except ParseError Unit × Nat) := do
  if ← check tokens kind i then return (.ok (), (← advance tokens i).2)
  else return (.error ⟨← peek tokens i, expected⟩, i)

/-- Goes on behind the token at the position if it has one of the kinds, and in front of it otherwise. -/
def branch (tokens : List Token) (kinds : List TokenKind) (found other : Nat → Except Fault Answer)
    (i : Nat) : Except Fault Answer := do
  match ← accept tokens kinds i with
  | (true, i) => found i
  | (false, i) => other i

/-- Goes on with the tree of an answer. -/
def andThen (answer : Answer) (f : Expr → Nat → Except Fault Answer) : Except Fault Answer :=
  match answer with
  | (.ok e, i) => f e i
  | (.error err, i) => .ok (.error err, i)

/-- Folds `( operator operand )*` to the left onto the expression `left`. -/
def rounds (tokens : List Token) (operand : Nat → Except Fault Answer) (ops : List TokenKind) :
    Nat → Expr → Nat → Except Fault Answer
  | 0, _ => fun _ => .error .unfinished
  | n + 1, left =>
    branch tokens ops
      (fun i => do
        let op ← prev tokens i
        andThen (← operand i) fun right i => rounds tokens operand ops n (.binary op left right) i)
      (fun i => return (.ok left, i))

/-- One level of binary operators over its operands. -/
def binary (tokens : List Token) (operand : Nat → Except Fault Answer) (ops : List TokenKind) (i : Nat) :
    Except Fault Answer := do
  andThen (← operand i) (rounds tokens operand ops (tokens.length + 1))

/-- The levels of binary operators over unary ones, from the loosest to the tightest. -/
def expression (tokens : List Token) (unary : Nat → Except Fault Answer) : Nat → Except Fault Answer :=
  let factor := binary tokens unary [.slash, .star]
  let term := binary tokens factor [.minus, .plus]
  let comparison := binary tokens term [.greater, .greaterEqual, .less, .lessEqual]
  binary tokens comparison [.bangEqual, .equalEqual]

/-- The end of a parenthesised expression. -/
def closeGroup (tokens : List Token) (inner : Expr) (i : Nat) : Except Fault Answer := do
  match ← consume tokens .rightParen .closingParen i with
  | (.error err, i) => return (.error err, i)
  | (.ok (), i) => return (.ok (.group inner), i)

/-- A literal, or an expression in parentheses. -/
def primary (tokens : List Token) (expression : Nat → Except Fault Answer) : Nat → Except Fault Answer :=
  branch tokens [.falseWord] (fun i => return (.ok (.literal (some (.bool false))), i)) <|
  branch tokens [.trueWord] (fun i => return (.ok (.literal (some (.bool true))), i)) <|
  branch tokens [.nilWord] (fun i => return (.ok (.literal (some .nil)), i)) <|
  branch tokens [.number, .string] (fun i => do return (.ok (.literal (← prev tokens i).literal), i)) <|
  branch tokens [.leftParen] (fun i => do andThen (← expression i) (closeGroup tokens)) <|
  fun i => do return (.error ⟨← peek tokens i, .expression⟩, i)

/-- Unary operators in front of a primary expression, for at most so many expressions in one another. -/
def unary (tokens : List Token) : Nat → Nat → Except Fault Answer
  | 0 => fun _ => .error .unfinished
  | n + 1 =>
    branch tokens [.bang, .minus]
      (fun i => do
        let op ← prev tokens i
        andThen (← unary tokens n i) fun e i => return (.ok (.unary op e), i))
      (primary tokens (expression tokens (unary tokens n)))

/-- Adds an end to tokens whose last one is none. -/
def complete (tokens : List Token) : Except Fault (List Token) := do
  if tokens.length = 0 then return tokens ++ [.endAt 1]
  let last ← item tokens ((tokens.length : Int) - 1)
  if last.kind = .eof then return tokens else return tokens ++ [.endAt last.line]

end Cursor

/-- One expression from the head of a list of tokens. -/
def parse (tokens : List Token) : Except Fault (Except ParseError Expr) := do
  let tokens ← Cursor.complete tokens
  return (← Cursor.expression tokens (Cursor.unary tokens (tokens.length + 1)) 0).1

/-! ## Positions -/

namespace Cursor

/-- The tokens begin with those of the stream: the pending ones, and the end. -/
structure Holds (tokens : List Token) (s : TokenStream) : Prop where
  begins : s.pending ++ [s.final] <+: tokens
  pending : ∀ t ∈ s.pending, t.kind ≠ .eof
  final : s.final.kind = .eof

variable {tokens : List Token} {s : TokenStream}

theorem Holds.length_lt (h : Holds tokens s) : s.pending.length < tokens.length := by
  have := h.begins.length_le
  simp only [List.length_append, List.length_singleton] at this
  omega

theorem le_of_drop_eq_cons {i : Nat} {t : Token} {rest : List Token} (ht : s.pending.drop i = t :: rest) :
    i + 1 ≤ s.pending.length ∧ s.pending.drop (i + 1) = rest := by
  have hlt : i < s.pending.length := by
    by_contra hge
    rw [List.drop_of_length_le (by omega)] at ht
    cases ht
  rw [List.drop_eq_getElem_cons hlt] at ht
  cases ht
  exact ⟨hlt, rfl⟩

theorem peek_eq (h : Holds tokens s) {i : Nat} (hi : i ≤ s.pending.length) :
    peek tokens i = .ok ((s.pending.drop i).head?.getD s.final) :=
  item_ofNat (TokenStream.getElem?_of_begins h.begins hi)

theorem prev_eq (h : Holds tokens s) {i : Nat} {t : Token} {rest : List Token}
    (ht : s.pending.drop i = t :: rest) : prev tokens (i + 1) = .ok t := by
  have hi := (le_of_drop_eq_cons ht).1
  have hitem := TokenStream.getElem?_of_begins h.begins (k := i) (by omega)
  rw [ht] at hitem
  exact item_pred hitem

theorem isEnd_eq (h : Holds tokens s) {i : Nat} (hi : i ≤ s.pending.length) :
    isEnd tokens i = .ok (s.pending.drop i).isEmpty := by
  unfold isEnd
  rw [peek_eq h hi]
  cases ht : s.pending.drop i with
  | nil => simp [h.final]
  | cons t rest => simp [h.pending t (List.mem_of_mem_drop (ht ▸ List.mem_cons_self))]

theorem check_eq (h : Holds tokens s) (kind : TokenKind) {i : Nat} (hi : i ≤ s.pending.length) :
    check tokens kind i = .ok ((s.pending.drop i).head?.any (·.kind = kind)) := by
  unfold check
  rw [isEnd_eq h hi, peek_eq h hi]
  cases s.pending.drop i <;> simp

theorem advance_eq (h : Holds tokens s) {i : Nat} {t : Token} {rest : List Token}
    (ht : s.pending.drop i = t :: rest) : advance tokens i = .ok (t, i + 1) := by
  have hi := (le_of_drop_eq_cons ht).1
  unfold advance
  rw [isEnd_eq h (by omega), ht]
  simp [prev_eq h ht]

theorem accept_end (h : Holds tokens s) (kinds : List TokenKind) {i : Nat} (hi : i ≤ s.pending.length)
    (hend : s.pending.drop i = []) : accept tokens kinds i = .ok (false, i) := by
  induction kinds with
  | nil => rfl
  | cons kind kinds ih =>
    unfold accept
    rw [check_eq h kind hi, hend]
    exact ih

theorem accept_eq (h : Holds tokens s) (kinds : List TokenKind) {i : Nat} {t : Token} {rest : List Token}
    (ht : s.pending.drop i = t :: rest) :
    accept tokens kinds i = .ok (if t.kind ∈ kinds then (true, i + 1) else (false, i)) := by
  have hi := (le_of_drop_eq_cons ht).1
  induction kinds with
  | nil => rfl
  | cons kind kinds ih =>
    unfold accept
    rw [check_eq h kind (by omega), ht, advance_eq h ht, ih]
    by_cases hk : t.kind = kind <;> simp [hk]

/-! ## Functions on pending tokens -/

/-- An answer of the machine tells an outcome on pending tokens: the same tree or error, and the
position, not before `i`, from which on the rest is pending. -/
inductive Tells (s : TokenStream) (i : Nat) : Parser.Outcome → Answer → Prop
  | parsed {e : Expr} {j : Nat} : i ≤ j → j ≤ s.pending.length →
      Tells s i (.parsed e (s.pending.drop j)) (.ok e, j)
  | failed (expected : Expectation) {j : Nat} : i ≤ j → j ≤ s.pending.length →
      Tells s i (.failed expected (s.pending.drop j))
        (.error ⟨(s.pending.drop j).head?.getD s.final, expected⟩, j)

theorem Tells.mono {i i' : Nat} {o : Parser.Outcome} {a : Answer} (hi : i ≤ i') (h : Tells s i' o a) :
    Tells s i o a := by
  cases h with
  | parsed hj hlen => exact .parsed (by omega) hlen
  | failed expected hj hlen => exact .failed expected (by omega) hlen

/-- The machine's `q` follows `p` at all positions with at most `n` pending tokens, without a fault. -/
def Follows (s : TokenStream) (n : Nat) (p : List Token → Parser.Outcome)
    (q : Nat → Except Fault Answer) : Prop :=
  ∀ i, i ≤ s.pending.length → s.pending.length - i ≤ n →
    ∃ a, q i = .ok a ∧ Tells s i (p (s.pending.drop i)) a

/-- At the end of the tokens no branch is taken. -/
theorem branch_end (h : Holds tokens s) (kinds : List TokenKind) (found other : Nat → Except Fault Answer)
    {i : Nat} (hi : i ≤ s.pending.length) (hend : s.pending.drop i = []) :
    branch tokens kinds found other i = other i := by
  unfold branch
  rw [accept_end h kinds hi hend, ok_bind]

/-- A branch is followed if both of its sides are. -/
theorem branch_tells (h : Holds tokens s) {kinds : List TokenKind} {found other : Nat → Except Fault Answer}
    {i : Nat} {t : Token} {rest : List Token} (ht : s.pending.drop i = t :: rest) {o o' : Parser.Outcome}
    (hfound : ∃ a, found (i + 1) = .ok a ∧ Tells s i o a) (hother : ∃ a, other i = .ok a ∧ Tells s i o' a) :
    ∃ a, branch tokens kinds found other i = .ok a ∧ Tells s i (if t.kind ∈ kinds then o else o') a := by
  unfold branch
  rw [accept_eq h kinds ht, ok_bind]
  by_cases hk : t.kind ∈ kinds
  · simpa only [if_pos hk] using hfound
  · simpa only [if_neg hk] using hother

/-- What goes on with a tree is followed if it is at every position from `i` on. -/
theorem andThen_tells {i : Nat} {o : Parser.Outcome} {a : Answer} (h : Tells s i o a)
    {f : Expr → List Token → Parser.Outcome} {g : Expr → Nat → Except Fault Answer}
    (hg : ∀ e j, i ≤ j → j ≤ s.pending.length → ∃ b, g e j = .ok b ∧ Tells s j (f e (s.pending.drop j)) b) :
    ∃ b, andThen a g = .ok b ∧ Tells s i (o.andThen f) b := by
  cases h with
  | @parsed e j hj hlen =>
    obtain ⟨b, hb, htells⟩ := hg e j hj hlen
    exact ⟨b, hb, htells.mono hj⟩
  | failed expected hj hlen => exact ⟨_, rfl, .failed expected hj hlen⟩

theorem chain_nil (p : List Token → Parser.Outcome) (ops : List TokenKind) (n : Nat) (left : Expr) :
    Parser.chain p ops n left [] = .parsed left [] := by
  cases n <;> rfl

/-- The rounds of a level follow the fold over the pending tokens. -/
theorem rounds_tells (h : Holds tokens s) {n : Nat} {p : List Token → Parser.Outcome}
    {q : Nat → Except Fault Answer} (hq : Follows s n p q) (ops : List TokenKind) :
    ∀ (m fuel : Nat) (left : Expr) (i : Nat), i ≤ s.pending.length → s.pending.length - i ≤ n →
      s.pending.length - i ≤ m → s.pending.length - i < fuel →
      ∃ a, rounds tokens q ops fuel left i = .ok a ∧
        Tells s i (Parser.chain p ops m left (s.pending.drop i)) a
  | _, 0, _, _, _, _, _, hf => by omega
  | m, fuel + 1, left, i, hi, hn, hm, hf => by
    have hstop := Tells.parsed (s := s) (e := left) (Nat.le_refl i) hi
    unfold rounds
    cases ht : s.pending.drop i with
    | nil =>
      rw [branch_end h ops _ _ hi ht, chain_nil, ← ht]
      exact ⟨_, rfl, hstop⟩
    | cons t rest =>
      obtain ⟨hlt, hrest⟩ := le_of_drop_eq_cons ht
      obtain ⟨m, rfl⟩ : ∃ k, m = k + 1 := ⟨m - 1, by omega⟩
      -- the operand starts behind the operator, and the next round not before the operand
      obtain ⟨a, ha, htells⟩ := hq (i + 1) hlt (by omega)
      rw [hrest] at htells
      rw [Parser.chain]
      refine branch_tells h ht ?_ ⟨_, rfl, ht ▸ hstop⟩
      rw [prev_eq h ht, ok_bind, ha, ok_bind]
      obtain ⟨b, hb, htells⟩ := andThen_tells htells
        (f := fun right => Parser.chain p ops m (.binary t left right)) fun right j hj hlen =>
          rounds_tells h hq ops m fuel (.binary t left right) j hlen (by omega) (by omega) (by omega)
      exact ⟨b, hb, htells.mono (by omega)⟩

/-- A level follows the fold over its operands if its operands do. -/
theorem binary_follows (h : Holds tokens s) {n : Nat} {p : List Token → Parser.Outcome}
    {q : Nat → Except Fault Answer} (hq : Follows s n p q) (ops : List TokenKind) :
    Follows s n (fun ts => (p ts).andThen fun left rest => Parser.chain p ops rest.length left rest)
      (binary tokens q ops) := by
  intro i hi hn
  obtain ⟨a, ha, htells⟩ := hq i hi hn
  have hlt := h.length_lt
  unfold binary
  rw [ha, ok_bind]
  refine andThen_tells htells fun left j hj hlen => ?_
  exact rounds_tells h hq ops _ _ left j hlen (by omega) (by simp) (by omega)

theorem expression_follows (h : Holds tokens s) {n : Nat} {p : List Token → Parser.Outcome}
    {q : Nat → Except Fault Answer} (hq : Follows s n p q) :
    Follows s n (Parser.binary p Parser.levels) (expression tokens q) :=
  binary_follows h (binary_follows h (binary_follows h (binary_follows h hq _) _) _) _

theorem closeGroup_tells (h : Holds tokens s) (inner : Expr) {i : Nat} (hi : i ≤ s.pending.length) :
    ∃ a, closeGroup tokens inner i = .ok a ∧ Tells s i (Parser.closeGroup inner (s.pending.drop i)) a := by
  have herror := Tells.failed (s := s) .closingParen (Nat.le_refl i) hi
  unfold closeGroup consume
  rw [check_eq h _ hi, peek_eq h hi]
  cases ht : s.pending.drop i with
  | nil =>
    rw [ht] at herror
    exact ⟨_, rfl, herror⟩
  | cons t rest =>
    obtain ⟨hlt, hrest⟩ := le_of_drop_eq_cons ht
    rw [ht] at herror
    by_cases hk : t.kind = .rightParen
    · simp only [List.head?_cons, Option.any_some, hk, decide_true, ok_bind, if_true, advance_eq h ht,
        Parser.closeGroup, ← hrest]
      exact ⟨_, rfl, .parsed (by omega) hlt⟩
    · simp only [List.head?_cons, Option.any_some, hk, decide_false, ok_bind, Parser.closeGroup, if_false]
      exact ⟨_, rfl, herror⟩

/-- An operand by the kind of its first token, in the order in which the machine tries the kinds. -/
theorem operand_cons (n : Nat) (t : Token) (rest : List Token) :
    Parser.operand (n + 1) (t :: rest) =
      if t.kind ∈ [.bang, .minus] then
        (Parser.operand n rest).andThen fun e rest' => .parsed (.unary t e) rest'
      else if t.kind ∈ [.falseWord] then .parsed (.literal (some (.bool false))) rest
      else if t.kind ∈ [.trueWord] then .parsed (.literal (some (.bool true))) rest
      else if t.kind ∈ [.nilWord] then .parsed (.literal (some .nil)) rest
      else if t.kind ∈ [.number, .string] then .parsed (.literal t.literal) rest
      else if t.kind ∈ [.leftParen] then
        (Parser.binary (Parser.operand n) Parser.levels rest).andThen Parser.closeGroup
      else .failed .expression (t :: rest) := by
  rw [Parser.operand]
  generalize t.kind = kind
  cases kind <;> rfl

/-- At the end of the tokens there is no operand. -/
theorem unary_end (h : Holds tokens s) (n : Nat) {i : Nat} (hi : i ≤ s.pending.length)
    (hend : s.pending.drop i = []) :
    unary tokens (n + 1) i = .ok (.error ⟨s.final, .expression⟩, i) := by
  unfold unary primary
  simp only [branch_end h _ _ _ hi hend, peek_eq h hi, hend, ok_bind]
  rfl

/-- One step of an operand: if operands with fewer tokens are followed, so is one with a token more. -/
theorem unary_tells (h : Holds tokens s) {n fuel : Nat}
    (ih : Follows s n (Parser.operand n) (unary tokens fuel)) {i : Nat} {t : Token} {rest : List Token}
    (hn : s.pending.length - i ≤ n + 1) (ht : s.pending.drop i = t :: rest) :
    ∃ a, unary tokens (fuel + 1) i = .ok a ∧ Tells s i (Parser.operand (n + 1) (t :: rest)) a := by
  obtain ⟨hlt, hrest⟩ := le_of_drop_eq_cons ht
  have hnext (e : Expr) : Tells s i (.parsed e rest) (.ok e, i + 1) := by
    rw [← hrest]
    exact .parsed (by omega) hlt
  have hstop := Tells.failed (s := s) .expression (Nat.le_refl i) (by omega)
  rw [operand_cons]
  unfold unary primary
  -- one branch for each kind of first token, in the machine's order; the words are done at once
  refine branch_tells h ht ?_ (branch_tells h ht ⟨_, rfl, hnext _⟩ (branch_tells h ht ⟨_, rfl, hnext _⟩
    (branch_tells h ht ⟨_, rfl, hnext _⟩ (branch_tells h ht ?_ (branch_tells h ht ?_ ?_)))))
  · obtain ⟨a, ha, htells⟩ := ih (i + 1) hlt (by omega)
    rw [hrest] at htells
    rw [prev_eq h ht, ok_bind, ha, ok_bind]
    obtain ⟨b, hb, htells⟩ := andThen_tells htells (f := fun e rest' => .parsed (.unary t e) rest')
      fun e j hj hlen => ⟨_, rfl, .parsed (Nat.le_refl j) hlen⟩
    exact ⟨b, hb, htells.mono (by omega)⟩
  · rw [prev_eq h ht, ok_bind]
    exact ⟨_, rfl, hnext _⟩
  · obtain ⟨a, ha, htells⟩ := expression_follows h ih (i + 1) hlt (by omega)
    rw [hrest] at htells
    rw [ha, ok_bind]
    obtain ⟨b, hb, htells⟩ := andThen_tells htells (f := Parser.closeGroup)
      fun e j hj hlen => closeGroup_tells h e hlen
    exact ⟨b, hb, htells.mono (by omega)⟩
  · rw [peek_eq h (by omega), ok_bind, ← ht]
    exact ⟨_, rfl, hstop⟩

theorem unary_follows (h : Holds tokens s) :
    ∀ (n fuel : Nat), n < fuel → Follows s n (Parser.operand n) (unary tokens fuel)
  | _, 0, hfuel => by omega
  | n, fuel + 1, hfuel => by
    intro i hi hn
    cases ht : s.pending.drop i with
    | nil =>
      have htells := Tells.failed (s := s) .expression (Nat.le_refl i) hi
      have hoperand : Parser.operand n [] = .failed .expression [] := by
        cases n <;> rfl
      rw [ht] at htells
      rw [hoperand]
      exact ⟨_, unary_end h fuel hi ht, htells⟩
    | cons t rest =>
      obtain ⟨hlt, -⟩ := le_of_drop_eq_cons ht
      obtain ⟨n, rfl⟩ : ∃ k, n = k + 1 := ⟨n - 1, by omega⟩
      exact unary_tells h (unary_follows h n fuel (by omega)) hn ht

/-! ## Whole parses -/

theorem complete_eq (tokens : List Token) : complete tokens = .ok (TokenStream.complete tokens) := by
  unfold complete TokenStream.complete
  cases hlast : tokens.getLast? with
  | none =>
    rw [List.getLast?_eq_none_iff.1 hlast]
    rfl
  | some t =>
    have hne : tokens ≠ [] := by
      rintro rfl
      cases hlast
    have hpos := List.length_pos_iff.2 hne
    have hitem : item tokens ((tokens.length : Int) - 1) = .ok t := by
      rw [List.getLast?_eq_getElem?] at hlast
      have := item_pred hlast
      rwa [Nat.sub_add_cancel hpos] at this
    rw [if_neg (by omega), hitem, ok_bind]
    by_cases hk : t.kind = .eof <;> simp [hk]

theorem holds_complete (tokens : List Token) :
    Holds (TokenStream.complete tokens) (.ofTokens tokens) :=
  ⟨TokenStream.complete_begins tokens, TokenStream.pending_kind_ne_eof tokens,
    TokenStream.final_kind tokens⟩

end Cursor

/-- The machine parses every list of tokens without a fault. -/
theorem parse_eq (tokens : List Token) : parse tokens = .ok (Reckoner.parse (.ofTokens tokens)).1 := by
  have hholds := Cursor.holds_complete tokens
  have hlt := hholds.length_lt
  have hunary := Cursor.unary_follows hholds (TokenStream.ofTokens tokens).pending.length
    ((TokenStream.complete tokens).length + 1) (by omega)
  obtain ⟨a, ha, htells⟩ := Cursor.expression_follows hholds hunary 0 (by omega) (by omega)
  unfold parse Reckoner.parse Parser.expression
  rw [Cursor.complete_eq, ok_bind, ha, ok_bind]
  rw [List.drop_zero] at htells
  generalize Parser.binary _ _ _ = o at htells ⊢
  cases htells with
  | parsed hj hlen => rfl
  | failed expected hj hlen => rfl

end Reckoner.Guarded
