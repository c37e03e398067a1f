/-
Runs on corresponding tokens. Where two sources have as many tokens, and each token of the one is
related to the token at the same place of the other, no stage tells them apart as long as related tokens
have the same kind, text and literal: the parser makes the same tree of them up to the tokens at the
operators, or fails at related tokens; the tree has the same display and the same value, or fails at
related operators. So the runs have the same output, value and exit status.
-/
import Reckoner.Proofs.RunShape
import Mathlib.Data.List.Forall2
import Mathlib.Data.Option.Basic

namespace Reckoner

/-- Tokens that differ in their lines at most. -/
structure Token.Alike (t t' : Token) : Prop where
  kind : t'.kind = t.kind
  lexeme : t'.lexeme = t.lexeme
  literal : t'.literal = t.literal

/-! ## Correspondence -/

/-- Trees of the same shape and with the same literals, at whose operators stand related tokens. -/
inductive Expr.Corresponds (R : Token → Token → Prop) : Expr → Expr → Prop
  | literal (v : Option Value) : Corresponds R (.literal v) (.literal v)
  | group {e e'} : Corresponds R e e' → Corresponds R (.group e) (.group e')
  | unary {op op' e e'} : R op op' → Corresponds R e e' → Corresponds R (.unary op e) (.unary op' e')
  | binary {op op' l l' r r'} : R op op' → Corresponds R l l' → Corresponds R r r' →
      Corresponds R (.binary op l r) (.binary op' l' r')

/-- The same sort of problem with the same message, at related tokens if it is placed by a token. -/
inductive Diagnostic.Corresponds (R : Token → Token → Prop) : Diagnostic → Diagnostic → Prop
  | syntactic {t t'} (message : String) : R t t' →
      Corresponds R (.syntactic t message) (.syntactic t' message)
  | runtime {t t'} (message : String) : R t t' → Corresponds R (.runtime t message) (.runtime t' message)
  | plain (message : String) : Corresponds R (.plain message) (.plain message)

/-- Results that differ in nothing but their tokens, which are related. -/
structure Result.Corresponds (R : Token → Token → Prop) (res res' : Result) : Prop where
  tokens : List.Forall₂ R res.tokens res'.tokens
  output : res'.output = res.output
  exitCode : res'.exitCode = res.exitCode
  value : res'.value = res.value
  expr : Option.Rel (Expr.Corresponds R) res.expr res'.expr
  errors : List.Forall₂ (Diagnostic.Corresponds R) res.errors res'.errors

variable {R : Token → Token → Prop}

/-! ## Parsing -/

namespace Parser

/-- Parses that both succeed or both fail, with corresponding trees and with related tokens left. -/
inductive Outcome.Corresponds (R : Token → Token → Prop) : Outcome → Outcome → Prop
  | parsed {e e' rest rest'} : e.Corresponds R e' → List.Forall₂ R rest rest' →
      Corresponds R (.parsed e rest) (.parsed e' rest')
  | failed (expected : Expectation) {rest rest'} : List.Forall₂ R rest rest' →
      Corresponds R (.failed expected rest) (.failed expected rest')

/-- Two parsers that do the same on related tokens. -/
def Agree (R : Token → Token → Prop) (p p' : List Token → Outcome) : Prop :=
  ∀ {tokens tokens'}, List.Forall₂ R tokens tokens' → (p tokens).Corresponds R (p' tokens')

theorem Outcome.Corresponds.andThen {o o' : Outcome} {f f' : Expr → List Token → Outcome}
    (ho : o.Corresponds R o') (hf : ∀ {e e'}, e.Corresponds R e' → Agree R (f e) (f' e')) :
    (o.andThen f).Corresponds R (o'.andThen f') := by
  cases ho with
  | parsed he hrest => exact hf he hrest
  | failed expected hrest => exact .failed expected hrest

section

variable (hR : ∀ {t t'}, R t t' → t.Alike t')

include hR

theorem chain_agree {p p' : List Token → Outcome} (hp : Agree R p p') (ops : List TokenKind) :
    ∀ (n : Nat) {left left' : Expr}, left.Corresponds R left' →
      Agree R (chain p ops n left) (chain p' ops n left')
  | 0, _, _, hleft, _, _, h => by
    rw [chain.eq_def, chain.eq_def]
    exact .parsed hleft h
  | n + 1, _, _, hleft, _, _, .nil => .parsed hleft .nil
  | n + 1, _, _, hleft, _, _, .cons hop hrest => by
    simp only [chain, (hR hop).kind]
    -- whether the chain goes on depends on no more than the kind of the next token
    split
    · exact (hp hrest).andThen fun hright => chain_agree hp ops n (.binary hop hleft hright)
    · exact .parsed hleft (.cons hop hrest)

theorem binary_agree {p p' : List Token → Outcome} (hp : Agree R p p') :
    ∀ levels, Agree R (binary p levels) (binary p' levels)
  | [] => hp
  | ops :: tighter => fun h =>
    (binary_agree hp tighter h).andThen fun hleft _ _ hrest => by
      -- the rounds are counted by the tokens that are left, of which there are as many on both sides
      rw [hrest.length_eq]
      exact chain_agree hR (binary_agree hp tighter) ops _ hleft hrest

theorem closeGroup_agree {inner inner' : Expr} (hinner : inner.Corresponds R inner') :
    Agree R (closeGroup inner) (closeGroup inner') := by
  intro tokens tokens' h
  cases h with
  | nil => exact .failed .closingParen .nil
  | cons ht hrest =>
    simp only [closeGroup, (hR ht).kind]
    split
    · exact .parsed (.group hinner) hrest
    · exact .failed .closingParen (.cons ht hrest)

theorem operand_agree : ∀ n, Agree R (operand n) (operand n)
  | 0, _, _, h => by
    rw [operand.eq_def, operand.eq_def]
    exact .failed .expression h
  | n + 1, _, _, .nil => .failed .expression .nil
  | n + 1, _, _, .cons ht hrest => by
    have hprefixed := (operand_agree n hrest).andThen
      fun he _ _ hrest' => Outcome.Corresponds.parsed (.unary ht he) hrest'
    simp only [operand, (hR ht).kind, (hR ht).literal]
    split
    · exact hprefixed
    · exact hprefixed
    · exact .parsed (.literal _) hrest
    · exact .parsed (.literal _) hrest
    · exact .parsed (.literal _) hrest
    · exact .parsed (.literal _) hrest
    · exact .parsed (.literal _) hrest
    · exact (binary_agree hR (operand_agree n) levels hrest).andThen fun he => closeGroup_agree hR he
    · exact .failed .expression (.cons ht hrest)

theorem expression_agree : Agree R expression expression := by
  intro tokens tokens' h
  unfold expression
  rw [h.length_eq]
  exact binary_agree hR (operand_agree hR _) levels h

end

end Parser

/-- What comes of parsing or of evaluating: related results, or related errors. -/
inductive ExceptRel {ε α ε' α' : Type} (E : ε → ε' → Prop) (A : α → α' → Prop) :
    Except ε α → Except ε' α' → Prop
  | ok {a a'} : A a a' → ExceptRel E A (.ok a) (.ok a')
  | error {err err'} : E err err' → ExceptRel E A (.error err) (.error err')

/-- Failures to parse at related tokens, for the same reason. -/
structure ParseError.Corresponds (R : Token → Token → Prop) (err err' : ParseError) : Prop where
  token : R err.token err'.token
  expected : err'.expected = err.expected

theorem parse_corresponds (hR : ∀ {t t'}, R t t' → t.Alike t') {s s' : TokenStream}
    (hpending : List.Forall₂ R s.pending s'.pending) (hfinal : R s.final s'.final) :
    ExceptRel (ParseError.Corresponds R) (Expr.Corresponds R) (parse s).1 (parse s').1 := by
  unfold parse
  have houtcome := Parser.expression_agree hR hpending
  generalize Parser.expression s.pending = o at houtcome ⊢
  generalize Parser.expression s'.pending = o' at houtcome ⊢
  cases houtcome with
  | parsed he _ => exact .ok he
  | failed expected hrest =>
    refine .error ⟨?_, rfl⟩
    cases hrest with
    | nil => exact hfinal
    | cons ht _ => exact ht

theorem forall₂_concat {xs ys : List Token} {x y : Token} (h : List.Forall₂ R (xs ++ [x]) (ys ++ [y])) :
    List.Forall₂ R xs ys ∧ R x y := by
  rw [← List.forall₂_reverse_iff, List.reverse_concat, List.reverse_concat] at h
  obtain ⟨hlast, hinit⟩ := List.forall₂_cons.1 h
  exact ⟨List.forall₂_reverse_iff.1 hinit, hlast⟩

/-- The tokens of two sources are parsed alike. -/
theorem parse_scan_corresponds (hR : ∀ {t t'}, R t t' → t.Alike t') {source source' : List Char}
    (h : List.Forall₂ R (scan source).tokens (scan source').tokens) :
    ExceptRel (ParseError.Corresponds R) (Expr.Corresponds R)
      (parse (.ofTokens (scan source).tokens)).1 (parse (.ofTokens (scan source').tokens)).1 := by
  have hstreams := h
  rw [← stream_scan source, ← stream_scan source'] at hstreams
  obtain ⟨hpending, hfinal⟩ := forall₂_concat hstreams
  exact parse_corresponds hR hpending hfinal

/-! ## Evaluating -/

/-- Failures to evaluate at related operators, for the same reason. -/
inductive EvalError.Corresponds (R : Token → Token → Prop) : EvalError → EvalError → Prop
  | operandTypes {op op'} (fault : TypeFault) : R op op' →
      Corresponds R (.operandTypes op fault) (.operandTypes op' fault)
  | unknownUnary (kind : TokenKind) : Corresponds R (.unknownUnary kind) (.unknownUnary kind)
  | unknownBinary (kind : TokenKind) : Corresponds R (.unknownBinary kind) (.unknownBinary kind)

/-- Evaluations with the same value, or that fail at related operators. -/
abbrev SameValue (R : Token → Token → Prop) : Except EvalError Value → Except EvalError Value → Prop :=
  ExceptRel (EvalError.Corresponds R) (· = ·)

theorem SameValue.bind {x x' : Except EvalError Value} {f f' : Value → Except EvalError Value}
    (h : SameValue R x x') (hf : ∀ v, SameValue R (f v) (f' v)) : SameValue R (x >>= f) (x' >>= f') := by
  cases h with
  | ok hv => exact hv ▸ hf _
  | error herr => exact .error herr

theorem applyUnary_corresponds {op op' : Token} (hop : R op op') (hkind : op'.kind = op.kind) (v : Value) :
    SameValue R (v.applyUnary op) (v.applyUnary op') := by
  unfold Value.applyUnary
  rw [hkind]
  split
  · exact .ok rfl
  · split
    · exact .ok rfl
    · exact .error (.operandTypes _ hop)
  · exact .error (.unknownUnary _)

theorem sameValue_arithmetic (kind : TokenKind) (x y : Float) :
    SameValue R (Value.arithmetic kind x y) (Value.arithmetic kind x y) := by
  unfold Value.arithmetic
  split
  iterate 7 exact .ok rfl
  exact .error (.unknownBinary _)

theorem applyBinary_corresponds {op op' : Token} (hop : R op op') (hkind : op'.kind = op.kind) (l r : Value) :
    SameValue R (l.applyBinary op r) (l.applyBinary op' r) := by
  unfold Value.applyBinary
  rw [hkind]
  split
  · exact .ok rfl
  · exact .ok rfl
  · split
    · exact .ok rfl
    · exact .ok rfl
    · exact .error (.operandTypes _ hop)
  · split
    · exact sameValue_arithmetic _ _ _
    · exact .error (.operandTypes _ hop)

/-- Corresponding trees have the same value, or fail at related operators. -/
theorem eval_corresponds (hR : ∀ {t t'}, R t t' → t.Alike t') {e e' : Expr} (h : e.Corresponds R e') :
    SameValue R e.eval e'.eval := by
  induction h with
  | literal v => exact .ok rfl
  | group _ ih => exact ih
  | unary hop _ ih =>
    rw [Guarded.eval_unary, Guarded.eval_unary]
    exact ih.bind (applyUnary_corresponds hop (hR hop).kind)
  | binary hop _ _ ihl ihr =>
    rw [Guarded.eval_binary, Guarded.eval_binary]
    exact ihl.bind fun lhs => ihr.bind (applyBinary_corresponds hop (hR hop).kind lhs)

/-- Corresponding trees are displayed alike. -/
theorem display_corresponds (hR : ∀ {t t'}, R t t' → t.Alike t') {e e' : Expr} (h : e.Corresponds R e') :
    e'.display = e.display := by
  induction h with
  | literal v => rfl
  | group _ ih => rw [Expr.display, ih, Expr.display]
  | unary hop _ ih => rw [Expr.display, ih, (hR hop).lexeme, Expr.display]
  | binary hop _ _ ihl ihr => rw [Expr.display, ihl, ihr, (hR hop).lexeme, Expr.display]

/-! ## Running -/

theorem text_of_alike {t t' : Token} (h : t.Alike t') : t'.text = t.text := by
  unfold Token.text Token.literalText
  rw [h.kind, h.lexeme, h.literal]

theorem texts_corresponds (hR : ∀ {t t'}, R t t' → t.Alike t') {tokens tokens' : List Token}
    (h : List.Forall₂ R tokens tokens') : tokens'.map (·.text) = tokens.map (·.text) := by
  induction h with
  | nil => rfl
  | cons ht _ ih => rw [List.map_cons, List.map_cons, text_of_alike (hR ht), ih]

theorem EvalError.Corresponds.diagnostic {err err' : EvalError} (h : err.Corresponds R err') :
    err.diagnostic.Corresponds R err'.diagnostic := by
  cases h with
  | operandTypes fault hop => exact .runtime _ hop
  | unknownUnary kind => exact .plain _
  | unknownBinary kind => exact .plain _

theorem ParseError.Corresponds.diagnostic {err err' : ParseError} (h : err.Corresponds R err') :
    err.diagnostic.Corresponds R err'.diagnostic := by
  unfold ParseError.diagnostic
  rw [h.expected]
  exact .syntactic _ h.token

/-- The stages after scanning do the same on tokens that are parsed alike. -/
theorem runTokens_corresponds (hR : ∀ {t t'}, R t t' → t.Alike t') {tokens tokens' : List Token}
    (htokens : List.Forall₂ R tokens tokens')
    (h : ExceptRel (ParseError.Corresponds R) (Expr.Corresponds R)
      (parse (.ofTokens tokens)).1 (parse (.ofTokens tokens')).1) (mode : Mode) :
    (runTokens mode tokens).Corresponds R (runTokens mode tokens') := by
  unfold runTokens
  generalize (parse (.ofTokens tokens)).1 = parsed at h ⊢
  generalize (parse (.ofTokens tokens')).1 = parsed' at h ⊢
  cases h with
  | error herr => exact ⟨htokens, rfl, rfl, rfl, .none, .cons herr.diagnostic .nil⟩
  | @ok e e' he =>
    dsimp only
    split
    · exact ⟨htokens, by rw [display_corresponds hR he], rfl, rfl, .some he, .nil⟩
    · have hvalues := eval_corresponds hR he
      generalize e.eval = v at hvalues ⊢
      generalize e'.eval = v' at hvalues ⊢
      cases hvalues with
      | ok hv =>
        subst hv
        exact ⟨htokens, rfl, rfl, rfl, .some he, .nil⟩
      | error herr => exact ⟨htokens, rfl, rfl, rfl, .some he, .cons herr.diagnostic .nil⟩

/-- Runs of sources whose tokens are related correspond. -/
theorem run_corresponds (hR : ∀ {t t'}, R t t' → t.Alike t') {source source' : String}
    (hs : (scan source.toList).errors = []) (hs' : (scan source'.toList).errors = [])
    (h : List.Forall₂ R (scan source.toList).tokens (scan source'.toList).tokens) (mode : Mode) :
    (run mode source).Corresponds R (run mode source') := by
  unfold run
  by_cases hmode : mode = .tokenize
  · simp only [hs, hs', hmode, ne_eq, not_true_eq_false, if_false, if_true]
    exact ⟨h, texts_corresponds hR h, rfl, rfl, .none, .nil⟩
  · simp only [hs, hs', hmode, ne_eq, not_true_eq_false, if_false]
    exact runTokens_corresponds hR h (parse_scan_corresponds hR h) mode

end Reckoner
