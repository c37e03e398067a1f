/-
Parentheses that change nothing. Around the tokens of any node of a parsed tree a pair of parentheses
can be put: the tree is then the same one with that node in a group, what is left to read is the same,
and so is the value or the error of the tree.

The node is given by what stands around it in the tree. A derivation is opened at its root node only
(`Derives.rooted`), with the means to put it together again over other operands of the same rules;
going down to the node and back up is then an induction on what stands around it.
-/
import Reckoner.Proofs.Grammar
import Reckoner.Evaluation

namespace Reckoner

/-! ## Nodes and their tokens -/

/-- What stands around a node of a tree. -/
inductive Expr.Context where
  | hole
  | group (inner : Context)
  | unary (op : Token) (operand : Context)
  | left (op : Token) (left : Context) (right : Expr)
  | right (op : Token) (left : Expr) (right : Context)

/-- The tree with a node in the place that was left open. -/
def Expr.Context.fill : Context → Expr → Expr
  | .hole, n => n
  | .group c, n => .group (c.fill n)
  | .unary op c, n => .unary op (c.fill n)
  | .left op c r, n => .binary op (c.fill n) r
  | .right op l c, n => .binary op l (c.fill n)

/-- The tokens that a tree is read from: those of its operands in their order, with its operator or its
parentheses. -/
inductive Expr.ReadFrom : Expr → List Token → Prop
  | literal {t v} : Grammar.Derives .primary [t] (.literal v) → ReadFrom (.literal v) [t]
  | group {opening closing e ts} : opening.kind = .leftParen → closing.kind = .rightParen →
      ReadFrom e ts → ReadFrom (.group e) (opening :: ts ++ [closing])
  | unary {op e ts} : ReadFrom e ts → ReadFrom (.unary op e) (op :: ts)
  | binary {op l r ts us} : ReadFrom l ts → ReadFrom r us → ReadFrom (.binary op l r) (ts ++ op :: us)

/-- The tokens before and after those of a node that what stands around the node is read from. -/
inductive Expr.Context.ReadFrom : Context → List Token → List Token → Prop
  | hole : ReadFrom .hole [] []
  | group {opening closing c before after} : opening.kind = .leftParen → closing.kind = .rightParen →
      ReadFrom c before after → ReadFrom (.group c) (opening :: before) (after ++ [closing])
  | unary {op c before after} : ReadFrom c before after → ReadFrom (.unary op c) (op :: before) after
  | left {op c r before after us} : ReadFrom c before after → r.ReadFrom us →
      ReadFrom (.left op c r) before (after ++ op :: us)
  | right {op l c before after ts} : l.ReadFrom ts → ReadFrom c before after →
      ReadFrom (.right op l c) (ts ++ op :: before) after

namespace Expr

variable {e : Expr} {c : Context} {ts before after : List Token}

theorem ReadFrom.length_eq (h : e.ReadFrom ts) : ∀ {us}, e.ReadFrom us → ts.length = us.length := by
  induction h with
  | literal _ =>
    intro us h
    cases h with
    | literal _ => rfl
  | group _ _ _ ih =>
    intro us h
    cases h with
    | group _ _ h => simp [ih h]
  | unary _ ih =>
    intro us h
    cases h with
    | unary h => simp [ih h]
  | binary _ _ ihl ihr =>
    intro us h
    cases h with
    | binary hl hr => simp [ihl hl, ihr hr]

theorem Context.ReadFrom.length_eq (h : c.ReadFrom before after) : ∀ {before' after'},
    c.ReadFrom before' after' → before.length = before'.length ∧ after.length = after'.length := by
  induction h with
  | hole =>
    intro before' after' h
    cases h with
    | hole => exact ⟨rfl, rfl⟩
  | group _ _ _ ih =>
    intro before' after' h
    cases h with
    | group _ _ h =>
      obtain ⟨hbefore, hafter⟩ := ih h
      simp [hbefore, hafter]
  | unary _ ih =>
    intro before' after' h
    cases h with
    | unary h =>
      obtain ⟨hbefore, hafter⟩ := ih h
      simp [hbefore, hafter]
  | left _ hr ih =>
    intro before' after' h
    cases h with
    | left h hr' =>
      obtain ⟨hbefore, hafter⟩ := ih h
      simp [hbefore, hafter, hr.length_eq hr']
  | right hl _ ih =>
    intro before' after' h
    cases h with
    | right hl' h =>
      obtain ⟨hbefore, hafter⟩ := ih h
      simp [hbefore, hafter, hl.length_eq hl']

/-- The tokens of a node, and those around it, are the only ones that stand for it. -/
theorem Context.ReadFrom.unique {n : Expr} {span later before' span' after' later' : List Token}
    (h : c.ReadFrom before after) (hn : n.ReadFrom span) (h' : c.ReadFrom before' after')
    (hn' : n.ReadFrom span') (heq : before ++ span ++ after ++ later = before' ++ span' ++ after' ++ later') :
    before = before' ∧ span = span' ∧ after = after' ∧ later = later' := by
  obtain ⟨hbefore, hafter⟩ := h.length_eq h'
  have hspan := hn.length_eq hn'
  obtain ⟨heq, hlater⟩ := List.append_inj heq (by simp [hbefore, hspan, hafter])
  obtain ⟨heq, hafter⟩ := List.append_inj heq (by simp [hbefore, hspan])
  obtain ⟨hbefore, hspan⟩ := List.append_inj heq hbefore
  exact ⟨hbefore, hspan, hafter, hlater⟩

/-- What a tree evaluates to depends on a node only through what the node evaluates to. -/
theorem Context.eval_fill {n n' : Expr} (h : n.eval = n'.eval) :
    ∀ c : Context, (c.fill n).eval = (c.fill n').eval
  | .hole => h
  | .group c => eval_fill h c
  | .unary op c => by simp only [fill, eval, eval_fill h c]
  | .left op c r => by simp only [fill, eval, eval_fill h c]
  | .right op l c => by simp only [fill, eval, eval_fill h c]

end Expr

namespace Grammar

/-! ## Derivations by their root -/

/-- A derivation by the rule `r`, opened at the root of the tree. The same rule derives the tree with
other operands in place of its own, as long as these are derived by the same rules. -/
inductive Rooted (r : Rule) : List Token → Expr → Prop
  | literal {t v} : Derives .primary [t] (.literal v) → Rooted r [t] (.literal v)
  | group {opening closing ts e} : opening.kind = .leftParen → closing.kind = .rightParen →
      Derives .expression ts e → (∀ {ts' e'}, Derives .expression ts' e' →
        Derives r (opening :: ts' ++ [closing]) (.group e')) →
      Rooted r (opening :: ts ++ [closing]) (.group e)
  | unary {op ts e} : Derives .unary ts e → (∀ {ts' e'}, Derives .unary ts' e' →
        Derives r (op :: ts') (.unary op e')) → Rooted r (op :: ts) (.unary op e)
  | binary {op ts us e₁ e₂} (level : Level) : Derives (.binary level) ts e₁ →
      Derives level.operand us e₂ → (∀ {ts' us' e₁' e₂'}, Derives (.binary level) ts' e₁' →
        Derives level.operand us' e₂' → Derives r (ts' ++ op :: us') (.binary op e₁' e₂')) →
      Rooted r (ts ++ op :: us) (.binary op e₁ e₂)

theorem Rooted.mono {r r' : Rule} (hr : ∀ {ts e}, Derives r ts e → Derives r' ts e) {ts : List Token}
    {e : Expr} (h : Rooted r ts e) : Rooted r' ts e := by
  cases h with
  | literal h => exact .literal h
  | group ho hc h hagain => exact .group ho hc h fun h' => hr (hagain h')
  | unary h hagain => exact .unary h fun h' => hr (hagain h')
  | binary level h₁ h₂ hagain => exact .binary level h₁ h₂ fun h₁' h₂' => hr (hagain h₁' h₂')

theorem Derives.rooted {r : Rule} {ts : List Token} {e : Expr} (h : Derives r ts e) : Rooted r ts e := by
  induction h with
  | expression _ ih => exact ih.mono .expression
  | primary _ ih => exact ih.mono .primary
  | prefixed hk h _ => exact .unary h fun h' => .prefixed hk h'
  | literal hk => exact .literal (.literal hk)
  | trueWord hk => exact .literal (.trueWord hk)
  | falseWord hk => exact .literal (.falseWord hk)
  | nilWord hk => exact .literal (.nilWord hk)
  | group ho h hc _ => exact .group ho hc h fun h' => .group ho h' hc
  | @binary level ts first steps hfirst hop hsteps ih _ =>
    -- the root is the operator of the last round, if there is a round
    rcases List.eq_nil_or_concat steps with rfl | ⟨init, last, rfl⟩
    · simpa using ih.mono (Derives.of_operand level)
    · simp only [List.concat_eq_append, List.mem_append, List.mem_singleton] at hop hsteps
      have hinit : Derives (.binary level) (ts ++ init.flatMap Step.span) (init.foldl Step.onto first) :=
        .binary level init hfirst (fun s hs => hop s (.inl hs)) fun s hs => hsteps s (.inl hs)
      have hroot : Rooted (.binary level) (ts ++ init.flatMap Step.span ++ last.op :: last.tokens)
          (.binary last.op (init.foldl Step.onto first) last.operand) :=
        .binary level hinit (hsteps last (.inr rfl)) fun h₁ h₂ => h₁.round (hop last (.inr rfl)) h₂
      simpa [Step.span, Step.onto] using hroot

theorem Derives.readFrom {r : Rule} {ts : List Token} {e : Expr} (h : Derives r ts e) : e.ReadFrom ts := by
  induction e generalizing r ts with
  | literal v =>
    cases h.rooted with
    | literal h => exact .literal h
  | group e ih =>
    cases h.rooted with
    | group ho hc h _ => exact .group ho hc (ih h)
  | unary op e ih =>
    cases h.rooted with
    | unary h _ => exact .unary (ih h)
  | binary op l r ihl ihr =>
    cases h.rooted with
    | binary level h₁ h₂ _ => exact .binary (ihl h₁) (ihr h₂)

/-- What is primary is derived by every rule. -/
theorem Derives.of_primary {ts : List Token} {e : Expr} (h : Derives .primary ts e) :
    ∀ r, Derives r ts e
  | .expression => h.to_expression
  | .binary level => (Derives.primary h).of_unary level
  | .unary => .primary h
  | .primary => h

/-- In a derivation the tokens of a node can be put in parentheses. -/
theorem Derives.parenthesize (c : Expr.Context) {n : Expr} {r : Rule} {ts : List Token}
    (h : Derives r ts (c.fill n)) :
    ∃ before span after, ts = before ++ span ++ after ∧ c.ReadFrom before after ∧
      (∃ r', Derives r' span n) ∧ ∀ opening closing : Token, opening.kind = .leftParen →
        closing.kind = .rightParen →
        Derives r (before ++ opening :: span ++ closing :: after) (c.fill (.group n)) := by
  induction c generalizing r ts with
  | hole =>
    refine ⟨[], ts, [], by simp, .hole, ⟨r, h⟩, fun opening closing ho hc => ?_⟩
    exact (Derives.group ho h.to_expression hc).of_primary r
  | group c ih =>
    cases h.rooted with
    | @group o cl ts _ ho hc h hagain =>
      obtain ⟨before, span, after, rfl, hread, hd, hparen⟩ := ih h
      refine ⟨o :: before, span, after ++ [cl], by simp, .group ho hc hread, hd,
        fun opening closing ho' hc' => ?_⟩
      simpa [Expr.Context.fill] using hagain (hparen opening closing ho' hc')
  | unary op c ih =>
    cases h.rooted with
    | unary h hagain =>
      obtain ⟨before, span, after, rfl, hread, hd, hparen⟩ := ih h
      refine ⟨op :: before, span, after, by simp, .unary hread, hd, fun opening closing ho hc => ?_⟩
      simpa [Expr.Context.fill] using hagain (hparen opening closing ho hc)
  | left op c e ih =>
    cases h.rooted with
    | @binary _ _ us _ _ level h₁ h₂ hagain =>
      obtain ⟨before, span, after, rfl, hread, hd, hparen⟩ := ih h₁
      refine ⟨before, span, after ++ op :: us, by simp, .left hread h₂.readFrom, hd,
        fun opening closing ho hc => ?_⟩
      simpa [Expr.Context.fill] using hagain (hparen opening closing ho hc) h₂
  | right op e c ih =>
    cases h.rooted with
    | @binary _ ts _ _ _ level h₁ h₂ hagain =>
      obtain ⟨before, span, after, rfl, hread, hd, hparen⟩ := ih h₂
      refine ⟨ts ++ op :: before, span, after, by simp, .right h₁.readFrom hread, hd,
        fun opening closing ho hc => ?_⟩
      simpa [Expr.Context.fill] using hagain h₁ (hparen opening closing ho hc)

end Grammar

theorem TokenStream.pending_append {ts : List Token} (h : ∀ t ∈ ts, t.kind ≠ .eof) (later : List Token) :
    (ofTokens (ts ++ later)).pending = ts ++ (ofTokens later).pending :=
  List.takeWhile_append_of_pos (by simpa using h)

open Grammar

/-- Any other expression in place of the one that was parsed leaves the same tokens pending. -/
theorem parse_ok_split {tokens : List Token} {e : Expr} {left : TokenStream}
    (h : parse (.ofTokens tokens) = (.ok e, left)) :
    ∃ ts later, tokens = ts ++ later ∧ Derives .expression ts e ∧
      ∀ ts' e', Derives .expression ts' e' → ∃ left', parse (.ofTokens (ts' ++ later)) = (.ok e', left') ∧
        left'.pending = left.pending := by
  obtain ⟨hexpr, -⟩ := (parse_eq_ok_iff _ _ _).1 h
  obtain ⟨ts, hts, hd, hstop⟩ := (expression_parsed_iff _ _ _).1 hexpr
  obtain ⟨later, rfl⟩ : ts <+: tokens := by
    have hpending : ts <+: (TokenStream.ofTokens tokens).pending := ⟨left.pending, hts.symm⟩
    exact hpending.trans (List.takeWhile_prefix _)
  have hlater : (TokenStream.ofTokens later).pending = left.pending := by
    rw [TokenStream.pending_append hd.kind_ne_eof] at hts
    exact List.append_cancel_left hts
  refine ⟨ts, later, rfl, hd, fun ts' e' hd' => ?_⟩
  refine ⟨⟨left.pending, (TokenStream.ofTokens (ts' ++ later)).final⟩,
    (parse_eq_ok_iff _ _ _).2 ⟨?_, rfl⟩, rfl⟩
  rw [TokenStream.pending_append hd'.kind_ne_eof, hlater]
  exact (expression_parsed_iff _ _ _).2 ⟨ts', rfl, hd', hstop⟩

/-- Around the tokens of any node of a parsed tree parentheses can be put. The tokens of the node are
determined by the tree; the tree of the new tokens is the old one with the node in a group, what is left
to be read is the same, and so are the value or the error of the tree. -/
theorem redundant_parentheses (tokens : List Token) (e : Expr) (left : TokenStream)
    (h : parse (.ofTokens tokens) = (.ok e, left)) (c : Expr.Context) (n : Expr) (hn : c.fill n = e) :
    ∃ before span after later, tokens = before ++ span ++ after ++ later ∧
      c.ReadFrom before after ∧ n.ReadFrom span ∧ (∃ r, Derives r span n) ∧
      (∀ before' span' after' later', tokens = before' ++ span' ++ after' ++ later' →
        c.ReadFrom before' after' → n.ReadFrom span' →
        before' = before ∧ span' = span ∧ after' = after ∧ later' = later) ∧
      ∀ opening closing : Token, opening.kind = .leftParen → closing.kind = .rightParen →
        (∃ left', parse (.ofTokens (before ++ opening :: span ++ closing :: after ++ later)) =
          (.ok (c.fill (.group n)), left') ∧ left'.pending = left.pending) ∧
        (c.fill (.group n)).eval = e.eval := by
  obtain ⟨ts, later, htokens, hd, hagain⟩ := parse_ok_split h
  rw [← hn] at hd
  obtain ⟨before, span, after, rfl, hread, ⟨r, hspan⟩, hparen⟩ := hd.parenthesize c
  refine ⟨before, span, after, later, htokens, hread, hspan.readFrom, ⟨r, hspan⟩, ?_, ?_⟩
  · intro before' span' after' later' heq hread' hspan'
    exact hread'.unique hspan' hread hspan.readFrom (heq.symm.trans htokens)
  · intro opening closing ho hc
    refine ⟨hagain _ _ (hparen opening closing ho hc), ?_⟩
    rw [← hn]
    exact Expr.Context.eval_fill (show (Expr.group n).eval = n.eval from rfl) c

/-- In `1 - 2 - 3` the difference that is the left operand can be put in parentheses. -/
theorem redundant_parentheses_at :
    let number (lexeme : String) (x : Value) : Token := ⟨.number, lexeme, some x, 1⟩
    let one := number "1" (.number 1)
    let two := number "2" (.number 2)
    let three := number "3" (.number 3)
    let minus : Token := ⟨.minus, "-", none, 1⟩
    let opening : Token := ⟨.leftParen, "(", none, 1⟩
    let closing : Token := ⟨.rightParen, ")", none, 1⟩
    let n : Expr := .binary minus (.literal one.literal) (.literal two.literal)
    let c : Expr.Context := .left minus .hole (.literal three.literal)
    parse (.ofTokens [one, minus, two, minus, three]) = (.ok (c.fill n), ⟨[], .endAt 1⟩) ∧
      (∃ left', parse (.ofTokens [opening, one, minus, two, closing, minus, three]) =
        (.ok (c.fill (.group n)), left') ∧ left'.pending = []) ∧
      (c.fill (.group n)).eval = (c.fill n).eval := by
  intro number one two three minus opening closing n c
  have hparse : parse (.ofTokens [one, minus, two, minus, three]) = (.ok (c.fill n), ⟨[], .endAt 1⟩) := rfl
  obtain ⟨before, span, after, later, -, -, -, -, hunique, hparen⟩ :=
    redundant_parentheses _ _ _ hparse c n rfl
  have hone : (Expr.literal one.literal).ReadFrom [one] := .literal (.literal (.inl rfl))
  have htwo : (Expr.literal two.literal).ReadFrom [two] := .literal (.literal (.inl rfl))
  have hthree : (Expr.literal three.literal).ReadFrom [three] := .literal (.literal (.inl rfl))
  obtain ⟨rfl, rfl, rfl, rfl⟩ :=
    hunique [] [one, minus, two] [minus, three] [] rfl (.left .hole hthree) (.binary hone htwo)
  exact ⟨hparse, hparen opening closing rfl rfl⟩

end Reckoner
