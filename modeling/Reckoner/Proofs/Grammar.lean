/-
The grammar of expressions, and the parser against it: on every list of tokens a parse succeeds
with the tree `e` after exactly `k` tokens if and only if the first `k` tokens derive `e` and the
token behind them is no binary operator.

Soundness is an induction on the depth that the parser allows its operands, with one lemma for a
binary level over any parser of its operands. Completeness is an induction on the derivation. Both
are about what may follow: a level stops only at a token that is no operator of its own level or of
a tighter one.
-/
import Reckoner.Parser
import Mathlib.Data.List.TakeWhile

namespace Reckoner

namespace Grammar

/-! ## The rules -/

/-- The levels of binary operators, the most loosely binding one first. -/
inductive Level where
  | equality
  | comparison
  | term
  | factor
  deriving DecidableEq, Repr

/-- The left-hand sides of the grammar. -/
inductive Rule where
  | expression
  | binary (level : Level)
  | unary
  | primary
  deriving DecidableEq, Repr

/-- The operators of a level. -/
def Level.operators : Level → List TokenKind
  | .equality => [.bangEqual, .equalEqual]
  | .comparison => [.greater, .greaterEqual, .less, .lessEqual]
  | .term => [.minus, .plus]
  | .factor => [.slash, .star]

/-- The rule for the operands of a level. -/
def Level.operand : Level → Rule
  | .equality => .binary .comparison
  | .comparison => .binary .term
  | .term => .binary .factor
  | .factor => .unary

/-- The ten binary operators. -/
def binaryOperators : List TokenKind :=
  [.bangEqual, .equalEqual, .greater, .greaterEqual, .less, .lessEqual, .minus, .plus, .slash, .star]

/-- One round of `( operator operand )*`: the operator, the tokens of the operand and its tree. -/
structure Step where
  op : Token
  tokens : List Token
  operand : Expr

/-- The tokens of a round. -/
def Step.span (s : Step) : List Token :=
  s.op :: s.tokens

/-- The tree of a round whose left operand is `left`. -/
def Step.onto (left : Expr) (s : Step) : Expr :=
  .binary s.op left s.operand

/-- Derivations: by `Derives r ts e` the rule `r` derives the tokens `ts`, and `e` is their tree.
The rounds of a binary level are folded to the left. -/
inductive Derives : Rule → List Token → Expr → Prop
  | expression {ts e} : Derives (.binary .equality) ts e → Derives .expression ts e
  | binary (level : Level) {ts first} (steps : List Step) : Derives level.operand ts first →
      (∀ s ∈ steps, s.op.kind ∈ level.operators) →
      (∀ s ∈ steps, Derives level.operand s.tokens s.operand) →
      Derives (.binary level) (ts ++ steps.flatMap Step.span) (steps.foldl Step.onto first)
  | prefixed {op ts e} : op.kind = .bang ∨ op.kind = .minus → Derives .unary ts e →
      Derives .unary (op :: ts) (.unary op e)
  | primary {ts e} : Derives .primary ts e → Derives .unary ts e
  | literal {t} : t.kind = .number ∨ t.kind = .string → Derives .primary [t] (.literal t.literal)
  | trueWord {t} : t.kind = .trueWord → Derives .primary [t] (.literal (some (.bool true)))
  | falseWord {t} : t.kind = .falseWord → Derives .primary [t] (.literal (some (.bool false)))
  | nilWord {t} : t.kind = .nilWord → Derives .primary [t] (.literal (some .nil))
  | group {opening ts e closing} : opening.kind = .leftParen → Derives .expression ts e →
      closing.kind = .rightParen → Derives .primary (opening :: ts ++ [closing]) (.group e)

/-- No end of tokens is derived. -/
theorem Derives.kind_ne_eof {r : Rule} {ts : List Token} {e : Expr} (h : Derives r ts e) :
    ∀ t ∈ ts, t.kind ≠ .eof := by
  induction h with
  | expression _ ih => exact ih
  | primary _ ih => exact ih
  | binary level steps _ hop _ ih ihs =>
    intro t ht
    rcases List.mem_append.1 ht with ht | ht
    · exact ih t ht
    · obtain ⟨s, hs, ht⟩ := List.mem_flatMap.1 ht
      rcases List.mem_cons.1 ht with rfl | ht
      · intro hk
        have := hop s hs
        rw [hk] at this
        cases level <;> simp [Level.operators] at this
      · exact ihs s hs t ht
  | prefixed hk _ ih =>
    intro t ht
    rcases List.mem_cons.1 ht with rfl | ht
    · rcases hk with hk | hk <;> simp [hk]
    · exact ih t ht
  | literal hk => rcases hk with hk | hk <;> simp [hk]
  | trueWord hk => simp [hk]
  | falseWord hk => simp [hk]
  | nilWord hk => simp [hk]
  | group ho _ hc ih =>
    intro t ht
    simp only [List.cons_append, List.mem_cons, List.mem_append, List.not_mem_nil, or_false] at ht
    rcases ht with rfl | ht | rfl
    · simp [ho]
    · exact ih t ht
    · simp [hc]

/-- Something is derived from at least one token. -/
theorem Derives.ne_nil {r : Rule} {ts : List Token} {e : Expr} (h : Derives r ts e) : ts ≠ [] := by
  induction h with
  | expression _ ih => exact ih
  | primary _ ih => exact ih
  | binary _ _ _ _ _ ih => simp [ih]
  | _ => simp

/-- An operand alone is what its level derives without a round. -/
theorem Derives.of_operand (level : Level) {ts : List Token} {e : Expr}
    (h : Derives level.operand ts e) : Derives (.binary level) ts e := by
  simpa using Derives.binary level [] h (by simp) (by simp)

/-- Without a round every level derives the unary expressions. -/
theorem Derives.of_unary {ts : List Token} {e : Expr} (h : Derives .unary ts e) (level : Level) :
    Derives (.binary level) ts e := by
  have hfactor := h.of_operand .factor
  have hterm := hfactor.of_operand .term
  have hcomparison := hterm.of_operand .comparison
  cases level with
  | factor => exact hfactor
  | term => exact hterm
  | comparison => exact hcomparison
  | equality => exact hcomparison.of_operand .equality

/-- Whatever a rule derives is an expression. -/
theorem Derives.to_expression {r : Rule} {ts : List Token} {e : Expr} (h : Derives r ts e) :
    Derives .expression ts e := by
  cases r with
  | expression => exact h
  | unary => exact .expression (h.of_unary .equality)
  | primary => exact .expression ((Derives.primary h).of_unary .equality)
  | binary level =>
    refine .expression ?_
    cases level with
    | equality => exact h
    | comparison => exact h.of_operand .equality
    | term => exact (h.of_operand .comparison).of_operand .equality
    | factor => exact ((h.of_operand .term).of_operand .comparison).of_operand .equality

/-- A level derives one more round behind what it derives. -/
theorem Derives.round {level : Level} {left ts : List Token} {e e' : Expr} {op : Token}
    (h : Derives (.binary level) left e) (hop : op.kind ∈ level.operators)
    (h' : Derives level.operand ts e') : Derives (.binary level) (left ++ op :: ts) (.binary op e e') := by
  cases h with
  | binary _ steps hfirst hops hsteps =>
    have hall : ∀ s ∈ steps ++ [⟨op, ts, e'⟩],
        s.op.kind ∈ level.operators ∧ Derives level.operand s.tokens s.operand := by
      intro s hs
      rcases List.mem_append.1 hs with hs | hs
      · exact ⟨hops s hs, hsteps s hs⟩
      · obtain rfl := List.mem_singleton.1 hs
        exact ⟨hop, h'⟩
    have := Derives.binary level (steps ++ [⟨op, ts, e'⟩]) hfirst (fun s hs => (hall s hs).1)
      (fun s hs => (hall s hs).2)
    simpa [Step.span, Step.onto] using this

/-! ## The nodes of a tree -/

/-- What the tokens `ts` allow at a node: the value of a number or string token or of one of the three
words, and operators that are among the tokens. -/
def Allows (ts : List Token) : Expr.Node → Prop
  | .literal v => v ∈ [some (.bool true), some (.bool false), some .nil] ∨ ∃ t ∈ ts, v = t.literal
  | .group => True
  | .unary op => op ∈ ts ∧ (op.kind = .bang ∨ op.kind = .minus)
  | .binary op => op ∈ ts ∧ op.kind ∈ binaryOperators

theorem Allows.mono {ts ts' : List Token} {node : Expr.Node} (hsub : ts ⊆ ts') (h : Allows ts node) :
    Allows ts' node := by
  cases node with
  | literal v =>
    rcases h with h | ⟨t, ht, hv⟩
    · exact .inl h
    · exact .inr ⟨t, hsub ht, hv⟩
  | group => trivial
  | unary op => exact ⟨hsub h.1, h.2⟩
  | binary op => exact ⟨hsub h.1, h.2⟩

theorem postorder_foldl (steps : List Step) (first : Expr) : (steps.foldl Step.onto first).postorder =
    first.postorder ++ steps.flatMap fun s => s.operand.postorder ++ [.binary s.op] := by
  induction steps generalizing first with
  | nil => simp
  | cons s steps ih => simp [ih, Step.onto, Expr.postorder]

theorem Level.operators_subset (l : Level) : l.operators ⊆ binaryOperators := by
  cases l <;> decide

/-- The tokens of a derivation allow all nodes of its tree. -/
theorem Derives.allows {r : Rule} {ts : List Token} {e : Expr} (h : Derives r ts e) :
    ∀ node ∈ e.postorder, Allows ts node := by
  induction h with
  | expression _ ih => exact ih
  | primary _ ih => exact ih
  | @binary level ts first steps _ hop _ ih ihs =>
    intro node hnode
    rw [postorder_foldl] at hnode
    rcases List.mem_append.1 hnode with hnode | hnode
    · exact (ih node hnode).mono (List.subset_append_left _ _)
    · obtain ⟨s, hs, hnode⟩ := List.mem_flatMap.1 hnode
      have hspan : s.span ⊆ ts ++ steps.flatMap Step.span := fun t ht =>
        List.mem_append_right _ (List.mem_flatMap.2 ⟨s, hs, ht⟩)
      rcases List.mem_append.1 hnode with hnode | hnode
      · exact (ihs s hs node hnode).mono fun t ht => hspan (List.mem_cons_of_mem _ ht)
      · obtain rfl := List.mem_singleton.1 hnode
        exact ⟨hspan List.mem_cons_self, level.operators_subset (hop s hs)⟩
  | @prefixed op ts e hk _ ih =>
    intro node hnode
    rcases List.mem_append.1 hnode with hnode | hnode
    · exact (ih node hnode).mono (List.subset_cons_self _ _)
    · obtain rfl := List.mem_singleton.1 hnode
      exact ⟨List.mem_cons_self, hk⟩
  | literal _ =>
    intro node hnode
    obtain rfl := List.mem_singleton.1 hnode
    exact .inr ⟨_, List.mem_singleton_self _, rfl⟩
  | trueWord _ | falseWord _ | nilWord _ =>
    intro node hnode
    obtain rfl := List.mem_singleton.1 hnode
    exact .inl (by simp)
  | @group opening ts e closing _ _ _ ih =>
    intro node hnode
    rcases List.mem_append.1 hnode with hnode | hnode
    · exact (ih node hnode).mono fun t ht => by simp [ht]
    · obtain rfl := List.mem_singleton.1 hnode
      trivial

/-! ## The parser of a rule -/

/-- The levels of operators that a rule can leave to its operands or handle itself. -/
def Rule.levels : Rule → List (List TokenKind)
  | .expression => Parser.levels
  | .binary .equality => Parser.levels
  | .binary .comparison => Parser.levels.drop 1
  | .binary .term => Parser.levels.drop 2
  | .binary .factor => Parser.levels.drop 3
  | .unary => []
  | .primary => []

/-- The part of the parser that reads what a rule derives, with operands of depth at most `n`. -/
def Rule.parser (r : Rule) (n : Nat) : List Token → Parser.Outcome :=
  Parser.binary (Parser.operand n) r.levels

/-- What follows does not go on with an operator that the rule would take. -/
def Rule.StopsAt (r : Rule) (rest : List Token) : Prop :=
  ∀ t ∈ rest.head?, t.kind ∉ r.levels.flatten

theorem Level.levels_eq (l : Level) : (Rule.binary l).levels = l.operators :: l.operand.levels := by
  cases l <;> rfl

theorem Level.parser_eq (l : Level) (n : Nat) (tokens : List Token) :
    (Rule.binary l).parser n tokens = (l.operand.parser n tokens).andThen fun left rest =>
      Parser.chain (l.operand.parser n) l.operators rest.length left rest := by
  unfold Rule.parser
  rw [Level.levels_eq]
  rfl

theorem Level.stopsAt_iff (l : Level) (rest : List Token) : (Rule.binary l).StopsAt rest ↔
    (∀ t ∈ rest.head?, t.kind ∉ l.operators) ∧ l.operand.StopsAt rest := by
  unfold Rule.StopsAt
  rw [Level.levels_eq]
  simp only [List.flatten_cons, List.mem_append, not_or]
  exact ⟨fun h => ⟨fun t ht => (h t ht).1, fun t ht => (h t ht).2⟩,
    fun h t ht => ⟨h.1 t ht, h.2 t ht⟩⟩

/-- An operator of a level is none of a tighter level. -/
theorem Level.not_mem_operand (l : Level) :
    ∀ k ∈ l.operators, k ∉ l.operand.levels.flatten := by
  cases l <;> decide

/-! ## Soundness -/

/-- A parser finds derivations of a rule and stops where the rule does. -/
def Sound (p : List Token → Parser.Outcome) (r : Rule) : Prop :=
  ∀ tokens e rest, p tokens = .parsed e rest →
    ∃ ts, tokens = ts ++ rest ∧ Derives r ts e ∧ r.StopsAt rest

theorem andThen_parsed {o : Parser.Outcome} {f : Expr → List Token → Parser.Outcome} {e : Expr}
    {rest : List Token} (h : o.andThen f = .parsed e rest) :
    ∃ e' rest', o = .parsed e' rest' ∧ f e' rest' = .parsed e rest := by
  cases o with
  | parsed e' rest' => exact ⟨e', rest', rfl, h⟩
  | failed _ _ => cases h

/-- The rounds that a chain reads. With at least as many rounds as tokens it stops only where no
operator of its level follows. -/
theorem chain_sound {p : List Token → Parser.Outcome} {r : Rule} (hp : Sound p r)
    {ops : List TokenKind} : ∀ (n : Nat) (left : Expr) (tokens : List Token) (e : Expr)
    (rest : List Token), tokens.length ≤ n → r.StopsAt tokens →
    Parser.chain p ops n left tokens = .parsed e rest →
    ∃ steps : List Step, tokens = steps.flatMap Step.span ++ rest ∧
      e = steps.foldl Step.onto left ∧ (∀ s ∈ steps, s.op.kind ∈ ops) ∧
      (∀ s ∈ steps, Derives r s.tokens s.operand) ∧
      (∀ t ∈ rest.head?, t.kind ∉ ops) ∧ r.StopsAt rest
  | n, left, [], e, rest, _, hstop, h => by
    have h : Parser.Outcome.parsed left [] = .parsed e rest := by cases n <;> exact h
    cases h
    exact ⟨[], rfl, rfl, by simp, by simp, by simp, hstop⟩
  | n + 1, left, op :: tokens, e, rest, hn, hstop, h => by
    unfold Parser.chain at h
    split at h
    · rename_i hop
      obtain ⟨right, rest', hr, h⟩ := andThen_parsed h
      obtain ⟨ts, htok, hd, hstop'⟩ := hp _ _ _ hr
      -- a round takes its operator at least, so the bound still covers what is left
      have hn' : rest'.length ≤ n := by
        have := congrArg List.length htok
        simp only [List.length_append, List.length_cons] at this hn
        omega
      obtain ⟨steps, h1, h2, h3, h4, h5, h6⟩ := chain_sound hp n _ rest' e rest hn' hstop' h
      refine ⟨⟨op, ts, right⟩ :: steps, ?_, h2, ?_, ?_, h5, h6⟩
      · simp [Step.span, htok, h1]
      · intro s hs
        rcases List.mem_cons.1 hs with rfl | hs
        · exact hop
        · exact h3 s hs
      · intro s hs
        rcases List.mem_cons.1 hs with rfl | hs
        · exact hd
        · exact h4 s hs
    · rename_i hop
      cases h
      exact ⟨[], rfl, rfl, by simp, by simp, by simpa using hop, hstop⟩
  | 0, _, _ :: _, _, _, hn, _, _ => by simp at hn

/-- A binary level is sound when its operands are. -/
theorem level_sound (l : Level) (n : Nat) (h : Sound (l.operand.parser n) l.operand) :
    Sound ((Rule.binary l).parser n) (.binary l) := by
  intro tokens e rest hp
  rw [Level.parser_eq] at hp
  obtain ⟨left, rest', hl, hp⟩ := andThen_parsed hp
  obtain ⟨ts, htok, hd, hstop⟩ := h _ _ _ hl
  obtain ⟨steps, h1, h2, h3, h4, h5, h6⟩ := chain_sound h _ left rest' e rest (Nat.le_refl _) hstop hp
  refine ⟨ts ++ steps.flatMap Step.span, ?_, ?_, ?_⟩
  · rw [htok, h1, List.append_assoc]
  · rw [h2]
    exact .binary l steps hd h3 h4
  · exact (Level.stopsAt_iff l rest).2 ⟨h5, h6⟩

theorem expression_sound (n : Nat) (h : Sound (Parser.operand n) .unary) :
    Sound (Rule.expression.parser n) .expression := by
  have hf := level_sound .factor n h
  have ht := level_sound .term n hf
  have hc := level_sound .comparison n ht
  have he := level_sound .equality n hc
  intro tokens e rest hp
  obtain ⟨ts, htok, hd, hstop⟩ := he tokens e rest hp
  exact ⟨ts, htok, .expression hd, hstop⟩

theorem closeGroup_parsed {inner e : Expr} {tokens rest : List Token}
    (h : Parser.closeGroup inner tokens = .parsed e rest) :
    ∃ t, t.kind = .rightParen ∧ tokens = t :: rest ∧ e = .group inner := by
  unfold Parser.closeGroup at h
  split at h
  · split at h
    · rename_i t _ ht
      cases h
      exact ⟨t, ht, rfl, rfl⟩
    · cases h
  · cases h

theorem operand_sound : ∀ n, Sound (Parser.operand n) .unary
  | 0 => by
    intro tokens e rest h
    simp [Parser.operand] at h
  | n + 1 => by
    intro tokens e rest h
    have stops : Rule.unary.StopsAt rest := by simp [Rule.StopsAt, Rule.levels]
    cases tokens with
    | nil => simp [Parser.operand] at h
    | cons t tokens =>
      unfold Parser.operand at h
      split at h
      case h_1 hk | h_2 hk =>
        obtain ⟨e', rest', h1, h2⟩ := andThen_parsed h
        obtain ⟨ts, htok, hd, -⟩ := operand_sound n _ _ _ h1
        cases h2
        exact ⟨t :: ts, by simp [htok], .prefixed (by simp [hk]) hd, stops⟩
      case h_3 hk =>
        cases h
        exact ⟨[t], rfl, .primary (.falseWord hk), stops⟩
      case h_4 hk =>
        cases h
        exact ⟨[t], rfl, .primary (.trueWord hk), stops⟩
      case h_5 hk =>
        cases h
        exact ⟨[t], rfl, .primary (.nilWord hk), stops⟩
      case h_6 hk | h_7 hk =>
        cases h
        exact ⟨[t], rfl, .primary (.literal (by simp [hk])), stops⟩
      case h_8 hk =>
        obtain ⟨e', rest', h1, h2⟩ := andThen_parsed h
        obtain ⟨ts, htok, hd, -⟩ := expression_sound n (operand_sound n) _ _ _ h1
        obtain ⟨c, hc, hrest, rfl⟩ := closeGroup_parsed h2
        exact ⟨t :: ts ++ [c], by simp [htok, hrest], .primary (.group hk hd hc), stops⟩
      case h_9 => cases h

/-! ## Completeness -/

@[simp] theorem parser_unary (n : Nat) : Rule.unary.parser n = Parser.operand n := rfl

@[simp] theorem parser_primary (n : Nat) : Rule.primary.parser n = Parser.operand n := rfl

theorem operand_leftParen {opening : Token} (h : opening.kind = .leftParen) (n : Nat) (rest : List Token) :
    Parser.operand (n + 1) (opening :: rest) =
      (Rule.expression.parser n rest).andThen Parser.closeGroup := by
  simp only [Parser.operand, h]
  rfl

/-- An operand stops at the operator of the next round, or where the rounds end. -/
theorem stopsAt_steps {r : Rule} {ops : List TokenKind} (hops : ∀ k ∈ ops, k ∉ r.levels.flatten)
    {steps : List Step} (hop : ∀ s ∈ steps, s.op.kind ∈ ops) {rest : List Token}
    (hrest : r.StopsAt rest) : r.StopsAt (steps.flatMap Step.span ++ rest) := by
  cases steps with
  | nil => exact hrest
  | cons s steps =>
    intro t ht
    cases ht
    exact hops _ (hop s (List.mem_cons_self ..))

theorem tokens_length_le {steps : List Step} {s : Step} (h : s ∈ steps) :
    s.tokens.length ≤ (steps.flatMap Step.span).length := by
  obtain ⟨before, after, rfl⟩ := List.append_of_mem h
  simp only [List.flatMap_append, List.flatMap_cons, List.length_append, Step.span, List.length_cons]
  omega

/-- A chain reads rounds whose operands can be read wherever they stop. -/
theorem chain_complete {p : List Token → Parser.Outcome} {r : Rule} {ops : List TokenKind}
    (hops : ∀ k ∈ ops, k ∉ r.levels.flatten) {rest : List Token} (hrest : r.StopsAt rest)
    (hend : ∀ t ∈ rest.head?, t.kind ∉ ops) : ∀ (steps : List Step) (n : Nat) (left : Expr),
    (steps.flatMap Step.span ++ rest).length ≤ n → (∀ s ∈ steps, s.op.kind ∈ ops) →
    (∀ s ∈ steps, ∀ rest', r.StopsAt rest' →
      p (s.tokens ++ rest') = .parsed s.operand rest') →
    Parser.chain p ops n left (steps.flatMap Step.span ++ rest) =
      .parsed (steps.foldl Step.onto left) rest
  | [], n, left, _, _, _ => by
    cases n with
    | zero => cases rest <;> rfl
    | succ n =>
      cases rest with
      | nil => rfl
      | cons t rest =>
        have ht : t.kind ∉ ops := hend t rfl
        simp [Parser.chain, ht]
  | s :: steps, n, left, hn, hop, hp => by
    have hs : s.op.kind ∈ ops := hop s (List.mem_cons_self ..)
    have hop' : ∀ s' ∈ steps, s'.op.kind ∈ ops := fun s' h => hop s' (List.mem_cons_of_mem _ h)
    cases n with
    | zero => simp [Step.span] at hn
    | succ n =>
      have hn' : (steps.flatMap Step.span ++ rest).length ≤ n := by
        simp only [List.flatMap_cons, Step.span, List.cons_append, List.append_assoc,
          List.length_cons, List.length_append] at hn ⊢
        omega
      have ih := chain_complete hops hrest hend steps n (s.onto left) hn' hop'
        (fun s' h => hp s' (List.mem_cons_of_mem _ h))
      simp only [List.flatMap_cons, Step.span, List.cons_append, List.append_assoc, Parser.chain, hs,
        if_true, hp s (List.mem_cons_self ..) _ (stopsAt_steps hops hop' hrest),
        Parser.Outcome.andThen]
      exact ih

/-- The parser of a rule finds every derivation of it that what follows does not go on with. -/
theorem Derives.parser_eq {r : Rule} {ts : List Token} {e : Expr} (h : Derives r ts e) :
    ∀ (n : Nat) (rest : List Token), ts.length ≤ n → r.StopsAt rest →
      r.parser n (ts ++ rest) = .parsed e rest := by
  induction h with
  | expression _ ih => exact ih
  | primary _ ih => exact ih
  | @binary level ts first steps _ hop _ ih ihs =>
    intro n rest hn hrest
    obtain ⟨hend, hrest'⟩ := (Level.stopsAt_iff level rest).1 hrest
    rw [List.length_append] at hn
    -- the operand stops in front of the operator of the first round, which is none of its own
    have hfirst := ih n _ (by omega) (stopsAt_steps level.not_mem_operand hop hrest')
    rw [Level.parser_eq, List.append_assoc, hfirst]
    refine chain_complete level.not_mem_operand hrest' hend steps _ first (Nat.le_refl _) hop ?_
    intro s hs rest' hstop
    have := tokens_length_le hs
    exact ihs s hs n rest' (by omega) hstop
  | prefixed hk _ ih =>
    intro n rest hn hrest
    cases n with
    | zero => simp at hn
    | succ n =>
      have := ih n rest (by simpa using hn) hrest
      rcases hk with hk | hk <;>
        simp_all [Parser.operand, Parser.Outcome.andThen]
  | literal hk =>
    intro n rest hn hrest
    cases n with
    | zero => simp at hn
    | succ n => rcases hk with hk | hk <;> simp [Parser.operand, hk]
  | trueWord hk | falseWord hk | nilWord hk =>
    intro n rest hn hrest
    cases n with
    | zero => simp at hn
    | succ n => simp [Parser.operand, hk]
  | @group opening ts e closing ho _ hc ih =>
    intro n rest hn hrest
    cases n with
    | zero => simp at hn
    | succ n =>
      have hstop : Rule.expression.StopsAt (closing :: rest) := by
        intro t ht
        cases ht
        rw [hc]
        decide
      have := ih n (closing :: rest) (by simp at hn; omega) hstop
      rw [parser_primary, List.cons_append, List.cons_append, List.append_assoc, List.singleton_append,
        operand_leftParen ho, this]
      simp [Parser.Outcome.andThen, Parser.closeGroup, hc]

/-- A parse of an expression succeeds exactly on a derivation that no binary operator follows. -/
theorem expression_parsed_iff (tokens : List Token) (e : Expr) (rest : List Token) :
    Parser.expression tokens = .parsed e rest ↔
      ∃ ts, tokens = ts ++ rest ∧ Derives .expression ts e ∧ Rule.expression.StopsAt rest := by
  constructor
  · exact expression_sound tokens.length (operand_sound tokens.length) tokens e rest
  · rintro ⟨ts, rfl, hd, hstop⟩
    exact hd.parser_eq _ rest (by simp) hstop

end Grammar

/-! ## Streams -/

namespace TokenStream

/-- The tokens that a parser works on: where the last of the given ones marks no end, one is
added on its line, which is line 1 when there is none. -/
def complete (tokens : List Token) : List Token :=
  match tokens.getLast? with
  | some t => if t.kind = .eof then tokens else tokens ++ [.endAt t.line]
  | none => [.endAt 1]

/-- Reading exactly `k` tokens of the stream `before` leaves the stream `after`. -/
structure Reads (k : Nat) (before after : TokenStream) : Prop where
  enough : k ≤ before.pending.length
  pending : after.pending = before.pending.drop k
  final : after.final = before.final

theorem pending_kind_ne_eof (tokens : List Token) :
    ∀ t ∈ (ofTokens tokens).pending, t.kind ≠ .eof := by
  intro t ht
  simpa using List.mem_takeWhile_imp ht

theorem final_kind (tokens : List Token) : (ofTokens tokens).final.kind = .eof := by
  unfold ofTokens finalOf
  split
  · rename_i t ht
    simpa using List.find?_some ht
  · rfl

/-- The tokens of the stream are those of the completed list up to its first end. -/
theorem complete_eq (tokens : List Token) : ∃ later,
    complete tokens = (ofTokens tokens).pending ++ (ofTokens tokens).final :: later := by
  unfold ofTokens finalOf
  cases hf : tokens.find? (·.kind == .eof) with
  | some t =>
    obtain ⟨ht, before, after, rfl, hb⟩ := List.find?_eq_some_iff_append.1 hf
    have hpending : (before ++ t :: after).takeWhile (·.kind != .eof) = before := by
      rw [List.takeWhile_append_of_pos (by simpa using hb), List.takeWhile_cons_of_neg (by simpa using ht),
        List.append_nil]
    have hcomplete : ∃ added, complete (before ++ t :: after) = before ++ t :: after ++ added := by
      unfold complete
      split
      · split
        · exact ⟨[], by simp⟩
        · exact ⟨_, rfl⟩
      · rename_i hl
        simp at hl
    obtain ⟨added, hadded⟩ := hcomplete
    exact ⟨after ++ added, by rw [hadded, hpending]; simp⟩
  | none =>
    have hkinds : ∀ t ∈ tokens, t.kind ≠ .eof := by simpa using List.find?_eq_none.1 hf
    have hpending : tokens.takeWhile (·.kind != .eof) = tokens :=
      List.takeWhile_eq_self_iff.2 (by simpa using hkinds)
    refine ⟨[], ?_⟩
    rw [hpending]
    unfold complete
    cases hl : tokens.getLast? with
    | none => simp [List.getLast?_eq_none_iff.1 hl]
    | some t => simp [hkinds t (List.mem_of_getLast? hl)]

theorem complete_begins (tokens : List Token) :
    (ofTokens tokens).pending ++ [(ofTokens tokens).final] <+: complete tokens := by
  obtain ⟨later, hc⟩ := complete_eq tokens
  exact ⟨later, by rw [hc, List.append_assoc, List.singleton_append]⟩

/-- The token at a place of the stream: a pending one, or the end behind them. -/
theorem getElem?_of_begins {s : TokenStream} {tokens : List Token}
    (h : s.pending ++ [s.final] <+: tokens) {k : Nat} (hk : k ≤ s.pending.length) :
    tokens[k]? = some ((s.pending.drop k).head?.getD s.final) := by
  obtain ⟨later, rfl⟩ := h
  rw [List.append_assoc, List.head?_drop, List.getElem?_append]
  split
  · rename_i hlt
    simp [List.getElem?_eq_getElem hlt]
  · rename_i hlt
    obtain rfl : k = s.pending.length := by omega
    simp

/-- The first tokens of the completed list are pending as long as none of them is an end. -/
theorem complete_take {tokens : List Token} {k : Nat} (h : k ≤ (ofTokens tokens).pending.length) :
    (complete tokens).take k = (ofTokens tokens).pending.take k := by
  obtain ⟨later, hc⟩ := complete_eq tokens
  rw [hc, List.take_append_of_le_length h]

/-- As many tokens as do not go beyond an end are pending. -/
theorem le_pending_length {tokens : List Token} {k : Nat}
    (h : ∀ t ∈ (complete tokens).take k, t.kind ≠ .eof) : k ≤ (ofTokens tokens).pending.length := by
  by_contra hlt
  obtain ⟨later, hc⟩ := complete_eq tokens
  refine h (ofTokens tokens).final ?_ (final_kind tokens)
  -- beyond the pending tokens the next one is the end
  rw [hc, List.take_append, List.mem_append]
  right
  obtain ⟨m, hm⟩ : ∃ m, k - (ofTokens tokens).pending.length = m + 1 :=
    ⟨k - (ofTokens tokens).pending.length - 1, by omega⟩
  rw [hm]
  simp

end TokenStream

open Grammar

theorem parse_eq_ok_iff (s s' : TokenStream) (e : Expr) : parse s = (.ok e, s') ↔
    Parser.expression s.pending = .parsed e s'.pending ∧ s'.final = s.final := by
  unfold parse
  cases h : Parser.expression s.pending with
  | parsed e' rest =>
    obtain ⟨pending, final⟩ := s'
    simp only [Prod.mk.injEq, Except.ok.injEq, TokenStream.mk.injEq, Parser.Outcome.parsed.injEq]
    exact ⟨fun ⟨h1, h2, h3⟩ => ⟨⟨h1, h2⟩, h3.symm⟩, fun ⟨⟨h1, h2⟩, h3⟩ => ⟨h1, h2, h3.symm⟩⟩
  | failed _ _ => simp

/-- The tree of a parse has only nodes that the tokens allow. -/
theorem parse_allows {tokens : List Token} {e : Expr} (h : (parse (.ofTokens tokens)).1 = .ok e) :
    ∀ node ∈ e.postorder, Allows tokens node := by
  obtain ⟨hexpr, -⟩ :=
    (parse_eq_ok_iff (.ofTokens tokens) (parse (.ofTokens tokens)).2 e).1 (Prod.ext h rfl)
  obtain ⟨ts, htok, hd, -⟩ := (expression_parsed_iff _ _ _).1 hexpr
  intro node hnode
  refine (hd.allows node hnode).mono fun t ht => ?_
  have hpending : t ∈ (TokenStream.ofTokens tokens).pending := by
    rw [htok]
    exact List.mem_append_left _ ht
  exact (List.takeWhile_sublist _).subset hpending

/-- A parse of any tokens succeeds with a tree after exactly `k` of them if and only if the first
`k` tokens derive the tree and the next token is no binary operator. -/
theorem parse_ok_iff_derives (tokens : List Token) (e : Expr) (k : Nat) :
    (∃ rest, parse (.ofTokens tokens) = (.ok e, rest) ∧
      TokenStream.Reads k (.ofTokens tokens) rest) ↔
    Derives .expression ((TokenStream.complete tokens).take k) e ∧
      ∃ t, (TokenStream.complete tokens)[k]? = some t ∧ t.kind ∉ binaryOperators := by
  constructor
  · rintro ⟨rest, hparse, hk, hpending, -⟩
    obtain ⟨hexpr, -⟩ := (parse_eq_ok_iff _ _ _).1 hparse
    obtain ⟨ts, htok, hd, hstop⟩ := (expression_parsed_iff _ _ _).1 hexpr
    -- what is left is the pending tokens from `k` on, so the others are the first `k`
    have hts : ts = (TokenStream.ofTokens tokens).pending.take k := by
      rw [hpending] at htok
      have := (List.take_append_drop k (TokenStream.ofTokens tokens).pending).trans htok
      exact (List.append_cancel_right this).symm
    refine ⟨by rw [TokenStream.complete_take hk, ← hts]; exact hd, _,
      TokenStream.getElem?_of_begins (TokenStream.complete_begins tokens) hk, ?_⟩
    rw [← hpending]
    cases hh : rest.pending.head? with
    | none => simp [TokenStream.final_kind, binaryOperators]
    | some t => exact hstop t hh
  · rintro ⟨hd, t, ht, hkind⟩
    have hk : k ≤ (TokenStream.ofTokens tokens).pending.length :=
      TokenStream.le_pending_length hd.kind_ne_eof
    rw [TokenStream.complete_take hk] at hd
    rw [TokenStream.getElem?_of_begins (TokenStream.complete_begins tokens) hk,
      Option.some.injEq] at ht
    refine ⟨⟨(TokenStream.ofTokens tokens).pending.drop k, (TokenStream.ofTokens tokens).final⟩, ?_,
      hk, rfl, rfl⟩
    refine (parse_eq_ok_iff _ _ _).2 ⟨(expression_parsed_iff _ _ _).2 ⟨_, ?_, hd, ?_⟩, rfl⟩
    · exact (List.take_append_drop k _).symm
    · intro t' ht'
      rw [Option.mem_def.1 ht', Option.getD_some] at ht
      subst ht
      exact hkind

end Reckoner
