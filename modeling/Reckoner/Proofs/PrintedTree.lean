/-
The printed tree determines the tree. Operators are printed in front of their operands, in parentheses
and with blanks between, so that a printed tree can be read off a text in one way only, whatever follows
it there: what stands in front of the operands of a node reaches up to the first blank, and behind the
first operand a blank announces a second one. Two trees with the same text therefore have the same nodes,
provided that no two literals have the same text and none runs into a blank or a parenthesis. Strings are
the only literals of which this cannot be said.
-/
import Reckoner.Proofs.FirstFailure
import Reckoner.Proofs.Parentheses
import Reckoner.Proofs.ReadBack
import Reckoner.Proofs.Spacing

namespace Reckoner

open Grammar Lexicon

/-! ## Words -/

/-- Texts without a blank and without a closing parenthesis. -/
def Bare (w : List Char) : Prop :=
  ∀ c ∈ w, c ∉ [' ', ')']

/-- What can follow a bare text in a printed tree: nothing, a blank or a closing parenthesis. -/
def Delimited (rest : List Char) : Prop :=
  ∀ c ∈ rest.head?, c ∈ [' ', ')']

theorem delimited_nil : Delimited [] := by
  simp [Delimited]

theorem delimited_blank (rest : List Char) : Delimited (' ' :: rest) := by
  simp [Delimited]

theorem delimited_paren (rest : List Char) : Delimited (')' :: rest) := by
  simp [Delimited]

theorem Bare.cons_paren {w : List Char} (h : Bare w) : Bare ('(' :: w) := by
  intro c hc
  rcases List.mem_cons.1 hc with rfl | hc
  · decide
  · exact h c hc

theorem Bare.takeWhile_append {w rest : List Char} (hw : Bare w) (hrest : Delimited rest) :
    (w ++ rest).takeWhile (fun c => decide (c ∉ [' ', ')'])) = w := by
  rw [List.takeWhile_append_of_pos fun c hc => decide_eq_true (hw c hc)]
  cases rest with
  | nil => simp
  | cons c rest =>
    have hc := hrest c rfl
    rw [List.takeWhile_cons_of_neg (by simpa only [decide_eq_true_eq, not_not] using hc), List.append_nil]

theorem Bare.append_inj {w w' rest rest' : List Char} (hw : Bare w) (hw' : Bare w') (hrest : Delimited rest)
    (hrest' : Delimited rest') (h : w ++ rest = w' ++ rest') : w = w' ∧ rest = rest' := by
  have heq : w = w' := by
    rw [← hw.takeWhile_append hrest, h, hw'.takeWhile_append hrest']
  subst heq
  exact ⟨rfl, List.append_cancel_left h⟩

/-! ## Literals -/

namespace Number

/-- A decimal denotes a finite number, or the infinity if it is too large. -/
theorem toFloat_cases (d : Decimal) : d.toFloat.isFinite = true ∨ d.toFloat = ofOrdinal false infinity := by
  rcases Nat.lt_or_eq_of_le (nearest_le_infinity d.ratio.1 d.ratio.2) with h | h
  · left
    rw [isFinite_iff, Decimal.toFloat, Decimal.ordinal, ordinal_ofOrdinal h]
    exact h
  · right
    rw [Decimal.toFloat, Decimal.ordinal, h]

theorem mem_display {x : Float} (h : x.isFinite = true) {c : Char} (hc : c ∈ (display x).toList) :
    c = '-' ∨ c = '.' ∨ c.isDigit = true := by
  have hx := (isFinite_iff x).1 h
  obtain ⟨whole, fraction, heq, ⟨hw, hf, -, -⟩, -⟩ := displayMagnitude_eq hx
  rw [display_of_finite hx, heq] at hc
  simp only [List.mem_append, List.mem_cons] at hc
  rcases hc with hc | hc | rfl | hc
  · split at hc
    · exact .inl (List.mem_singleton.1 hc)
    · cases hc
  · exact .inr (.inr (hw.2 c hc))
  · exact .inr (.inl rfl)
  · exact .inr (.inr (hf.2 c hc))

end Number

namespace Value

/-- The values of literals that are no strings. Their numbers are finite, or the infinity that too large
a numeral denotes. -/
def Plain : Value → Prop
  | .nil => True
  | .bool _ => True
  | .number x => x.isFinite = true ∨ x = Number.ofOrdinal false Number.infinity
  | .string _ => False

variable {v v' : Value}

theorem Plain.mem_display (h : v.Plain) : ∀ c ∈ v.display.toList, c ∉ [' ', '(', ')'] := by
  cases v with
  | nil => simp [display]
  | bool b => cases b <;> simp [display]
  | number x =>
    rcases h with h | rfl
    · intro c hc hmem
      simp only [List.mem_cons, List.not_mem_nil, or_false] at hmem
      have hchar := Number.mem_display h hc
      rcases hmem with rfl | rfl | rfl <;> exact absurd hchar (by decide)
    · rw [show (number (Number.ofOrdinal false Number.infinity)).display = "Infinity" from rfl]
      simp
  | string s => exact h.elim

/-- All these values but one are read back from their displays. -/
theorem Plain.yields (h : v.Plain) :
    Yields v.display v ∨ v = .number (Number.ofOrdinal false Number.infinity) := by
  cases v with
  | nil => exact .inl yields_display_nil
  | bool b => exact .inl (yields_display_bool b)
  | number x =>
    rcases h with h | rfl
    · exact .inl (yields_display_number h)
    · exact .inr rfl
  | string s => exact h.elim

/-- The display of the infinity is an identifier, which is no expression. -/
theorem not_yields_infinity (v : Value) :
    ¬ Yields (number (Number.ofOrdinal false Number.infinity)).display v := by
  intro h
  have hnone : (run .evaluate (number (Number.ofOrdinal false Number.infinity)).display).value = none := rfl
  rw [h.value] at hnone
  cases hnone

theorem Plain.display_inj (h : v.Plain) (h' : v'.Plain) (heq : v.display = v'.display) : v = v' := by
  rcases h.yields with hy | rfl
  · rw [heq] at hy
    rcases h'.yields with hy' | rfl
    · exact Option.some.inj (hy.value.symm.trans hy'.value)
    · exact absurd hy (not_yields_infinity v)
  · rcases h'.yields with hy' | rfl
    · rw [← heq] at hy'
      exact absurd hy' (not_yields_infinity v')
    · rfl

theorem plain_of_lexeme {w : List Char} {literal : Option Value} (h : Lexeme w (.token .number literal)) :
    ∃ v, literal = some v ∧ v.Plain := by
  cases h with
  | whole _ => exact ⟨_, rfl, Number.toFloat_cases _⟩
  | decimal _ _ => exact ⟨_, rfl, Number.toFloat_cases _⟩
  | punctuator h => simp [punctuators] at h
  | keyword h => simp [TokenKind.keywords] at h

end Value

/-! ## Nodes -/

/-- The kinds of the operators, unary or binary. -/
def operatorKinds : List TokenKind :=
  .bang :: binaryOperators

theorem bare_group : Bare "group".toList := by
  simp [Bare]

theorem operator_lexeme {w : List Char} {kind : TokenKind} {literal : Option Value}
    (h : Lexeme w (.token kind literal)) (hk : kind ∈ operatorKinds) : Bare w ∧ w ≠ "group".toList := by
  cases h with
  | punctuator hw =>
    have hall : ∀ p ∈ punctuators, p.2 ∈ operatorKinds → Bare p.1 ∧ p.1 ≠ "group".toList := by
      simp [punctuators, operatorKinds, binaryOperators, Bare]
    exact hall _ hw hk
  | keyword hw =>
    have hall : ∀ p ∈ TokenKind.keywords, p.2 ∉ operatorKinds := by decide
    exact absurd hk (hall _ hw)
  | string | whole | decimal | identifier => exact absurd hk (by decide)

theorem Token.IsLexeme.alike {t t' : Token} (h : t.IsLexeme) (h' : t'.IsLexeme)
    (heq : t.lexeme.toList = t'.lexeme.toList) : t.Alike t' := by
  unfold Token.IsLexeme at h h'
  rw [heq] at h
  have hmeaning := h'.meaning_unique h
  simp only [Meaning.token.injEq] at hmeaning
  exact ⟨hmeaning.1, (String.toList_inj.1 heq).symm, hmeaning.2⟩

namespace Expr

namespace Node

/-- The nodes of the trees of sources without strings. -/
def Plain : Node → Prop
  | .literal v => ∃ u, v = some u ∧ u.Plain
  | .group => True
  | .unary op => op.IsLexeme ∧ op.kind ∈ operatorKinds
  | .binary op => op.IsLexeme ∧ op.kind ∈ operatorKinds

/-- What is printed of a node in front of its operands. -/
def head : Node → List Char
  | .literal v => (Expr.literal v).display.toList
  | .group => '(' :: "group".toList
  | .unary op => '(' :: op.lexeme.toList
  | .binary op => '(' :: op.lexeme.toList

/-- Nodes that are printed alike in front of their operands: they can differ in the line of an operator,
and in the number of its operands. -/
def Like : Node → Node → Prop
  | .literal v, .literal v' => v = v'
  | .group, .group => True
  | .unary op, .unary op' => op.Alike op'
  | .unary op, .binary op' => op.Alike op'
  | .binary op, .unary op' => op.Alike op'
  | .binary op, .binary op' => op.Alike op'
  | _, _ => False

variable {n n' : Node}

theorem Plain.bare_head (h : n.Plain) : Bare n.head := by
  cases n with
  | literal v =>
    obtain ⟨u, rfl, hu⟩ := h
    intro c hc hmem
    exact hu.mem_display c hc ((by decide : [' ', ')'] ⊆ [' ', '(', ')']) hmem)
  | group => exact bare_group.cons_paren
  | unary op => exact (operator_lexeme h.1 h.2).1.cons_paren
  | binary op => exact (operator_lexeme h.1 h.2).1.cons_paren

/-- The literals are the nodes in front of which no parenthesis is opened. -/
theorem literal_head_ne {v : Option Value} (h : (literal v).Plain) (w : List Char) :
    (literal v).head ≠ '(' :: w := by
  obtain ⟨u, rfl, hu⟩ := h
  intro heq
  have hmem : '(' ∈ (Expr.literal (some u)).display.toList := by
    rw [show (Expr.literal (some u)).display.toList = '(' :: w from heq]
    exact List.mem_cons_self
  exact hu.mem_display '(' hmem (by decide)

theorem Plain.like (h : n.Plain) (h' : n'.Plain) (heq : n.head = n'.head) : n.Like n' := by
  cases n with
  | literal v =>
    cases n' with
    | literal v' =>
      obtain ⟨u, rfl, hu⟩ := h
      obtain ⟨u', rfl, hu'⟩ := h'
      exact congrArg some (hu.display_inj hu' (String.toList_inj.1 heq))
    | group | unary op' | binary op' => exact absurd heq (literal_head_ne h _)
  | group =>
    cases n' with
    | literal v' => exact absurd heq.symm (literal_head_ne h' _)
    | group => trivial
    | unary op' | binary op' =>
      exact absurd (List.cons.inj heq).2.symm (operator_lexeme h'.1 h'.2).2
  | unary op | binary op =>
    cases n' with
    | literal v' => exact absurd heq.symm (literal_head_ne h' _)
    | group => exact absurd (List.cons.inj heq).2 (operator_lexeme h.1 h.2).2
    | unary op' | binary op' => exact h.1.alike h'.1 (List.cons.inj heq).2

end Node

/-! ## Trees -/

/-- The trees of sources without strings. -/
def Plain (e : Expr) : Prop :=
  ∀ node ∈ e.postorder, node.Plain

theorem plain_iff {e : Expr} : e.Plain ↔ e.root.Plain ∧ ∀ o ∈ e.operands, o.Plain := by
  unfold Plain
  cases e with
  | literal v => simp [postorder, root, operands]
  | group e => simp [postorder, root, operands, or_imp, forall_and, and_comm]
  | unary op e => simp [postorder, root, operands, or_imp, forall_and, and_comm]
  | binary op l r => simp [postorder, root, operands, or_imp, forall_and, and_comm, and_left_comm]

/-- What is printed of a tree from its operands on, and what follows it. -/
def tail : Expr → List Char → List Char
  | .literal _, rest => rest
  | .group e, rest => ' ' :: (e.display.toList ++ ')' :: rest)
  | .unary _ e, rest => ' ' :: (e.display.toList ++ ')' :: rest)
  | .binary _ l r, rest => ' ' :: (l.display.toList ++ ' ' :: (r.display.toList ++ ')' :: rest))

theorem display_append (e : Expr) (rest : List Char) :
    e.display.toList ++ rest = e.root.head ++ e.tail rest := by
  cases e <;> simp [display, root, Node.head, tail]

theorem delimited_tail (e : Expr) {rest : List Char} (h : Delimited rest) : Delimited (e.tail rest) := by
  cases e with
  | literal v => exact h
  | group | unary | binary => exact delimited_blank _

theorem root_like {e e' : Expr} {rest rest' : List Char} (he : e.Plain) (he' : e'.Plain)
    (hrest : Delimited rest) (hrest' : Delimited rest')
    (h : e.display.toList ++ rest = e'.display.toList ++ rest') :
    e.root.Like e'.root ∧ e.tail rest = e'.tail rest' := by
  rw [display_append, display_append] at h
  have hroot := (plain_iff.1 he).1
  have hroot' := (plain_iff.1 he').1
  obtain ⟨hhead, htail⟩ := hroot.bare_head.append_inj hroot'.bare_head (delimited_tail e hrest)
    (delimited_tail e' hrest') h
  exact ⟨hroot.like hroot' hhead, htail⟩

/-- Trees can be told from each other, and from what follows them in a text. -/
theorem Plain.display_append_inj {e e' : Expr} {rest rest' : List Char} (he : e.Plain) (he' : e'.Plain)
    (hrest : Delimited rest) (hrest' : Delimited rest')
    (h : e.display.toList ++ rest = e'.display.toList ++ rest') :
    e.Corresponds Token.Alike e' ∧ rest = rest' := by
  induction e generalizing e' rest rest' with
  | literal v =>
    obtain ⟨hroot, htail⟩ := root_like he he' hrest hrest' h
    cases e' with
    | literal v' =>
      obtain rfl : v = v' := hroot
      exact ⟨.literal v, htail⟩
    | group | unary | binary => exact hroot.elim
  | group e ih =>
    obtain ⟨hroot, htail⟩ := root_like he he' hrest hrest' h
    have hops := (plain_iff.1 he).2
    have hops' := (plain_iff.1 he').2
    cases e' with
    | group e' =>
      obtain ⟨hcorr, hrests⟩ := ih (hops e (by simp [operands])) (hops' e' (by simp [operands]))
        (delimited_paren _) (delimited_paren _) (List.cons.inj htail).2
      exact ⟨.group hcorr, (List.cons.inj hrests).2⟩
    | literal | unary | binary => exact hroot.elim
  | unary op e ih =>
    obtain ⟨hroot, htail⟩ := root_like he he' hrest hrest' h
    have hops := (plain_iff.1 he).2
    have hops' := (plain_iff.1 he').2
    cases e' with
    | unary op' e' =>
      obtain ⟨hcorr, hrests⟩ := ih (hops e (by simp [operands])) (hops' e' (by simp [operands]))
        (delimited_paren _) (delimited_paren _) (List.cons.inj htail).2
      exact ⟨.unary hroot hcorr, (List.cons.inj hrests).2⟩
    | binary op' l' r' =>
      -- the operands agree up to where the one node is closed and the other one goes on
      obtain ⟨-, hrests⟩ := ih (hops e (by simp [operands])) (hops' l' (by simp [operands]))
        (delimited_paren _) (delimited_blank _) (List.cons.inj htail).2
      cases hrests
    | literal | group => exact hroot.elim
  | binary op l r ihl ihr =>
    obtain ⟨hroot, htail⟩ := root_like he he' hrest hrest' h
    have hops := (plain_iff.1 he).2
    have hops' := (plain_iff.1 he').2
    cases e' with
    | unary op' e' =>
      obtain ⟨-, hrests⟩ := ihl (hops l (by simp [operands])) (hops' e' (by simp [operands]))
        (delimited_blank _) (delimited_paren _) (List.cons.inj htail).2
      cases hrests
    | binary op' l' r' =>
      obtain ⟨hleft, htail⟩ := ihl (hops l (by simp [operands])) (hops' l' (by simp [operands]))
        (delimited_blank _) (delimited_blank _) (List.cons.inj htail).2
      obtain ⟨hright, hrests⟩ := ihr (hops r (by simp [operands])) (hops' r' (by simp [operands]))
        (delimited_paren _) (delimited_paren _) (List.cons.inj htail).2
      exact ⟨.binary hroot hleft hright, (List.cons.inj hrests).2⟩
    | literal | group => exact hroot.elim

theorem Plain.display_inj_iff {e e' : Expr} (he : e.Plain) (he' : e'.Plain) :
    e.display = e'.display ↔ e.Corresponds Token.Alike e' := by
  constructor
  · intro h
    exact (he.display_append_inj he' delimited_nil delimited_nil (by rw [h])).1
  · intro h
    exact (display_corresponds (fun ht => ht) h).symm

theorem ReadFrom.literal_derives {e : Expr} {ts : List Token} (h : e.ReadFrom ts) :
    ∀ v, .literal v ∈ e.postorder → ∃ t ∈ ts, Derives .primary [t] (.literal v) := by
  induction h with
  | @literal t w h =>
    intro v hv
    obtain rfl : v = w := by simpa [postorder] using hv
    exact ⟨t, List.mem_singleton_self t, h⟩
  | group _ _ _ ih =>
    intro v hv
    obtain ⟨t, ht, hd⟩ := ih v (by simpa [postorder] using hv)
    exact ⟨t, by simp [ht], hd⟩
  | unary _ ih =>
    intro v hv
    obtain ⟨t, ht, hd⟩ := ih v (by simpa [postorder] using hv)
    exact ⟨t, by simp [ht], hd⟩
  | binary _ _ ihl ihr =>
    intro v hv
    simp only [postorder, List.mem_append, List.mem_singleton, reduceCtorEq, or_false] at hv
    rcases hv with hv | hv
    · obtain ⟨t, ht, hd⟩ := ihl v hv
      exact ⟨t, by simp [ht], hd⟩
    · obtain ⟨t, ht, hd⟩ := ihr v hv
      exact ⟨t, by simp [ht], hd⟩

end Expr

theorem plain_of_primary {ts : List Token} {v : Option Value} (h : Derives .primary ts (.literal v))
    (hts : ∀ t ∈ ts, t.IsLexeme ∧ t.kind ≠ .string) : ∃ u, v = some u ∧ u.Plain := by
  cases h with
  | @literal t hk =>
    obtain ⟨ht, hkind⟩ := hts t (List.mem_singleton_self t)
    unfold Token.IsLexeme at ht
    rw [hk.resolve_right hkind] at ht
    exact Value.plain_of_lexeme ht
  | trueWord _ => exact ⟨_, rfl, trivial⟩
  | falseWord _ => exact ⟨_, rfl, trivial⟩
  | nilWord _ => exact ⟨_, rfl, trivial⟩

theorem Grammar.Derives.plain {r : Rule} {ts : List Token} {e : Expr} (h : Derives r ts e)
    (hts : ∀ t ∈ ts, t.IsLexeme ∧ t.kind ≠ .string) : e.Plain := by
  intro node hnode
  have hallows := h.allows node hnode
  cases node with
  | literal v =>
    obtain ⟨t, ht, hd⟩ := h.readFrom.literal_derives v hnode
    exact plain_of_primary hd fun u hu => hts u (List.mem_singleton.1 hu ▸ ht)
  | group => trivial
  | unary op =>
    obtain ⟨hmem, hkind⟩ := hallows
    exact ⟨(hts op hmem).1, by rcases hkind with hkind | hkind <;> rw [hkind] <;> decide⟩
  | binary op =>
    obtain ⟨hmem, hkind⟩ := hallows
    exact ⟨(hts op hmem).1, List.mem_cons_of_mem _ hkind⟩

theorem plain_of_parse {source : List Char} {e : Expr}
    (h : (parse (.ofTokens (scan source).tokens)).1 = .ok e)
    (hstring : ∀ t ∈ (scan source).tokens, t.kind ≠ .string) : e.Plain := by
  obtain ⟨ts, later, htokens, hd, -⟩ := parse_ok_split (Prod.ext h rfl)
  refine hd.plain fun t ht => ?_
  have hmem : t ∈ (scan source).tokens := by
    rw [htokens]
    exact List.mem_append_left _ ht
  exact ⟨isLexeme_of_mem_scan hmem (hd.kind_ne_eof t ht), hstring t hmem⟩

/-! ## Runs -/

theorem RunsTo.parsed_of_errors {scanned : Scan} {res : Result} (h : RunsTo .parse scanned res)
    (herrors : res.errors = []) : ∃ e, res.expr = some e ∧ res.output = [e.display] ∧
      (parse (.ofTokens scanned.tokens)).1 = .ok e := by
  cases h with
  | parsed _ _ hparse => exact ⟨_, rfl, rfl, hparse⟩
  | misread hs => exact absurd (List.map_eq_nil_iff.1 herrors) hs
  | tokenized _ hmode => cases hmode
  | unparsed => cases herrors
  | failed _ _ hmode | evaluated _ _ hmode => exact absurd rfl hmode

/-- The printed tree determines the tree. Two sources that are parsed without an error and have no string
among their tokens are printed alike if and only if their trees are equal up to the lines of the operators:
they have the same nodes, with operators of the same kind and text, and with the same literals. -/
theorem output_eq_iff_corresponds (s s' : String) (hs : (run .parse s).errors = [])
    (hs' : (run .parse s').errors = []) (hstring : ∀ t ∈ (run .parse s).tokens, t.kind ≠ .string)
    (hstring' : ∀ t ∈ (run .parse s').tokens, t.kind ≠ .string) :
    ∃ e e', (run .parse s).expr = some e ∧ (run .parse s').expr = some e' ∧
      ((run .parse s).output = (run .parse s').output ↔ e.Corresponds Token.Alike e') := by
  obtain ⟨e, hexpr, houtput, hparse⟩ := (run_runsTo .parse s).parsed_of_errors hs
  obtain ⟨e', hexpr', houtput', hparse'⟩ := (run_runsTo .parse s').parsed_of_errors hs'
  rw [(run_runsTo .parse s).tokens_eq] at hstring
  rw [(run_runsTo .parse s').tokens_eq] at hstring'
  refine ⟨e, e', hexpr, hexpr', ?_⟩
  rw [houtput, houtput', List.singleton_inj]
  exact (plain_of_parse hparse hstring).display_inj_iff (plain_of_parse hparse' hstring')

/-- Two sources of the same tree, and two that differ in which minus has one operand. -/
theorem output_eq_iff_corresponds_at :
    (∃ e e', (run .parse "1 - -2.50").expr = some e ∧ (run .parse "1.0 // one\n- - 2.5").expr = some e' ∧
      e.Corresponds Token.Alike e') ∧
    ∃ e e', (run .parse "-1 - 2").expr = some e ∧ (run .parse "-(1 - 2)").expr = some e' ∧
      ¬ e.Corresponds Token.Alike e' := by
  constructor
  · obtain ⟨e, e', he, he', hiff⟩ :=
      output_eq_iff_corresponds "1 - -2.50" "1.0 // one\n- - 2.5" rfl rfl (by decide) (by decide)
    exact ⟨e, e', he, he', hiff.1 (by decide +kernel)⟩
  · obtain ⟨e, e', he, he', hiff⟩ :=
      output_eq_iff_corresponds "-1 - 2" "-(1 - 2)" rfl rfl (by decide) (by decide)
    exact ⟨e, e', he, he', fun h => absurd (hiff.2 h) (by decide)⟩

-- a string is printed without its quotes, and so it can look like any other tree
example : (run .parse "\"(- 1.0)\"").output = (run .parse "-1").output := by decide +kernel

end Reckoner
