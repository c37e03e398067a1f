/-
Where a parse fails. It fails at the first token with which no expression can go on: the tokens before
it begin an expression, with that token they begin none, and whatever follows it makes no difference.
What is expected there is an operand exactly when a number could follow, and a closing parenthesis
exactly when one could follow.

What a failing parse has read is an unfinished derivation. Soundness is an induction on the depth that
the parser allows its operands, as for finished derivations; the converse, that the parser fails behind
every unfinished derivation whose next token is refused, is an induction on the derivation, and it is
what makes the failure independent of the tokens further on.
-/
import Reckoner.Proofs.Grammar

namespace Reckoner

/-- A token of this kind cannot stand where the expectation is. An expression that is to be closed may
also go on with an operator. -/
def Expectation.Refuses : Expectation → TokenKind → Prop
  | .expression, kind =>
    kind ∉ [.bang, .minus, .falseWord, .trueWord, .nilWord, .number, .string, .leftParen]
  | .closingParen, kind => kind ≠ .rightParen ∧ kind ∉ Grammar.binaryOperators

theorem Expectation.message_inj {x y : Expectation} : x.message = y.message ↔ x = y := by
  cases x <;> cases y <;> simp [message]

theorem Expectation.refuses_eof (x : Expectation) : x.Refuses .eof := by
  cases x <;> simp [Refuses, Grammar.binaryOperators]

namespace Grammar

/-! ## Unfinished derivations -/

/-- By `Unfinished r x ts` the tokens `ts` lead a derivation by the rule `r` up to a place where `x` is
expected. -/
inductive Unfinished : Rule → Expectation → List Token → Prop
  | expression {x ts} : Unfinished (.binary .equality) x ts → Unfinished .expression x ts
  | first (level : Level) {x ts} : Unfinished level.operand x ts → Unfinished (.binary level) x ts
  | round (level : Level) {x left e op ts} : Derives (.binary level) left e →
      op.kind ∈ level.operators → Unfinished level.operand x ts →
      Unfinished (.binary level) x (left ++ op :: ts)
  | prefixed {x op ts} : op.kind = .bang ∨ op.kind = .minus → Unfinished .unary x ts →
      Unfinished .unary x (op :: ts)
  | primary {x ts} : Unfinished .primary x ts → Unfinished .unary x ts
  | start : Unfinished .primary .expression []
  | inner {x opening ts} : opening.kind = .leftParen → Unfinished .expression x ts →
      Unfinished .primary x (opening :: ts)
  | unclosed {opening ts e} : opening.kind = .leftParen → Derives .expression ts e →
      Unfinished .primary .closingParen (opening :: ts)

/-! ## Failures are unfinished derivations -/

/-- On at most `n` tokens the parser fails only behind an unfinished derivation of the rule, at a token
that is refused there. -/
def FailsWithin (n : Nat) (p : List Token → Parser.Outcome) (r : Rule) : Prop :=
  ∀ tokens x rest, tokens.length ≤ n → p tokens = .failed x rest →
    ∃ ts, tokens = ts ++ rest ∧ Unfinished r x ts ∧ ∀ t ∈ rest.head?, x.Refuses t.kind

theorem andThen_failed {o : Parser.Outcome} {f : Expr → List Token → Parser.Outcome} {x : Expectation}
    {rest : List Token} (h : o.andThen f = .failed x rest) :
    o = .failed x rest ∨ ∃ e rest', o = .parsed e rest' ∧ f e rest' = .failed x rest := by
  cases o with
  | parsed e rest' => exact .inr ⟨e, rest', rfl, h⟩
  | failed _ _ => exact .inl h

/-- A chain fails in the operand of some round. What was read before it is the left operand of that
round. -/
theorem chain_fails {level : Level} {n : Nat} {p : List Token → Parser.Outcome}
    (hs : Sound p level.operand) (hf : FailsWithin n p level.operand) :
    ∀ (m : Nat) (left : Expr) (done tokens : List Token) (x : Expectation) (rest : List Token),
      tokens.length ≤ n → Derives (.binary level) done left →
      Parser.chain p level.operators m left tokens = .failed x rest →
      ∃ ts, done ++ tokens = ts ++ rest ∧ Unfinished (.binary level) x ts ∧
        ∀ t ∈ rest.head?, x.Refuses t.kind
  | 0, left, done, tokens, x, rest, _, _, h => by cases tokens <;> cases h
  | m + 1, left, done, [], x, rest, _, _, h => by cases h
  | m + 1, left, done, op :: tokens, x, rest, hn, hd, h => by
    rw [List.length_cons] at hn
    unfold Parser.chain at h
    split at h
    · rename_i hop
      rcases andThen_failed h with h1 | ⟨right, rest', h1, h2⟩
      · obtain ⟨ts, rfl, hu, hrefuses⟩ := hf _ _ _ (by omega) h1
        exact ⟨done ++ op :: ts, by simp, .round level hd hop hu, hrefuses⟩
      · obtain ⟨ts, rfl, hd', -⟩ := hs _ _ _ h1
        rw [List.length_append] at hn
        obtain ⟨ts', heq, hu⟩ := chain_fails hs hf m _ (done ++ op :: ts) rest' x rest (by omega)
          (hd.round hop hd') h2
        exact ⟨ts', by rw [← heq]; simp, hu⟩
    · cases h

theorem level_fails (l : Level) {m n : Nat} (hs : Sound (l.operand.parser m) l.operand)
    (hf : FailsWithin n (l.operand.parser m) l.operand) :
    FailsWithin n ((Rule.binary l).parser m) (.binary l) := by
  intro tokens x rest hn h
  rw [Level.parser_eq] at h
  rcases andThen_failed h with h1 | ⟨left, rest', h1, h2⟩
  · obtain ⟨ts, htok, hu, hrefuses⟩ := hf _ _ _ hn h1
    exact ⟨ts, htok, .first l hu, hrefuses⟩
  · obtain ⟨ts, rfl, hd, -⟩ := hs _ _ _ h1
    rw [List.length_append] at hn
    exact chain_fails hs hf _ left ts rest' x rest (by omega) (hd.of_operand l) h2

theorem expression_fails {m n : Nat} (hf : FailsWithin n (Parser.operand m) .unary) :
    FailsWithin n (Rule.expression.parser m) .expression := by
  have sf := level_sound .factor m (operand_sound m)
  have st := level_sound .term m sf
  have sc := level_sound .comparison m st
  have ff := level_fails .factor (operand_sound m) hf
  have ft := level_fails .term sf ff
  have fc := level_fails .comparison st ft
  have fe := level_fails .equality sc fc
  intro tokens x rest hn h
  obtain ⟨ts, htok, hu, hrefuses⟩ := fe tokens x rest hn h
  exact ⟨ts, htok, .expression hu, hrefuses⟩

theorem closeGroup_failed {inner : Expr} {x : Expectation} {tokens rest : List Token}
    (h : Parser.closeGroup inner tokens = .failed x rest) :
    x = .closingParen ∧ tokens = rest ∧ ∀ t ∈ rest.head?, t.kind ≠ .rightParen := by
  unfold Parser.closeGroup at h
  split at h
  · split at h
    · cases h
    · rename_i ht
      cases h
      exact ⟨rfl, rfl, by simpa using ht⟩
  · cases h
    exact ⟨rfl, rfl, by simp⟩

theorem operand_fails : ∀ n, FailsWithin n (Parser.operand n) .unary
  | 0 => by
    intro tokens x rest hn h
    obtain rfl := List.length_eq_zero_iff.1 (Nat.le_zero.1 hn)
    cases h
    exact ⟨[], rfl, .primary .start, by simp⟩
  | n + 1 => by
    intro tokens x rest hn h
    cases tokens with
    | nil =>
      cases h
      exact ⟨[], rfl, .primary .start, by simp⟩
    | cons t tokens =>
      rw [List.length_cons] at hn
      unfold Parser.operand at h
      split at h
      case h_1 hk | h_2 hk =>
        rcases andThen_failed h with h | ⟨e, rest', -, h⟩
        · obtain ⟨ts, rfl, hu, hrefuses⟩ := operand_fails n _ _ _ (by omega) h
          exact ⟨t :: ts, rfl, .prefixed (by simp [hk]) hu, hrefuses⟩
        · cases h
      case h_8 hk =>
        rcases andThen_failed h with h1 | ⟨e, rest', h1, h2⟩
        · obtain ⟨ts, rfl, hu, hrefuses⟩ := expression_fails (operand_fails n) _ _ _ (by omega) h1
          exact ⟨t :: ts, rfl, .primary (.inner hk hu), hrefuses⟩
        · obtain ⟨ts, rfl, hd, hstop⟩ := expression_sound n (operand_sound n) _ _ _ h1
          obtain ⟨rfl, rfl, hclose⟩ := closeGroup_failed h2
          exact ⟨t :: ts, rfl, .primary (.unclosed hk hd), fun u hu => ⟨hclose u hu, hstop u hu⟩⟩
      case h_9 =>
        cases h
        refine ⟨[], rfl, .primary .start, ?_⟩
        simp_all [Expectation.Refuses]
      all_goals cases h

/-! ## Behind unfinished derivations the parser fails -/

/-- A chain reads rounds one after the other. -/
theorem chain_steps {p : List Token → Parser.Outcome} {r : Rule} {ops : List TokenKind}
    (hops : ∀ k ∈ ops, k ∉ r.levels.flatten) {rest : List Token} (hrest : r.StopsAt rest) (n : Nat) :
    ∀ (steps : List Step) (left : Expr), (∀ s ∈ steps, s.op.kind ∈ ops) →
      (∀ s ∈ steps, ∀ rest', r.StopsAt rest' → p (s.tokens ++ rest') = .parsed s.operand rest') →
      Parser.chain p ops (steps.length + n) left (steps.flatMap Step.span ++ rest) =
        Parser.chain p ops n (steps.foldl Step.onto left) rest
  | [], left, _, _ => by simp
  | s :: steps, left, hop, hp => by
    obtain ⟨hs, hop⟩ := List.forall_mem_cons.1 hop
    obtain ⟨hp, hps⟩ := List.forall_mem_cons.1 hp
    rw [List.length_cons, Nat.add_right_comm]
    simp only [List.flatMap_cons, Step.span, List.cons_append, List.append_assoc, Parser.chain, hs,
      if_true, hp _ (stopsAt_steps hops hop hrest), Parser.Outcome.andThen]
    exact chain_steps hops hrest n steps _ hop hps

theorem length_le_spans : ∀ steps : List Step, steps.length ≤ (steps.flatMap Step.span).length
  | [] => Nat.le_refl 0
  | s :: steps => by
    have := length_le_spans steps
    simp only [List.flatMap_cons, List.length_append, List.length_cons, Step.span]
    omega

/-- Behind a round's operator a level fails where the operand does. -/
theorem round_fails {level : Level} {left ts rest : List Token} {e : Expr} {op : Token} {n : Nat}
    {x : Expectation} (h : Derives (.binary level) left e) (hn : left.length ≤ n)
    (hop : op.kind ∈ level.operators) (hf : level.operand.parser n ts = .failed x rest) :
    (Rule.binary level).parser n (left ++ op :: ts) = .failed x rest := by
  cases h with
  | @binary _ first e₀ steps hfirst hops hsteps =>
    rw [List.length_append] at hn
    have hstop : level.operand.StopsAt (op :: ts) := by
      intro t ht
      cases ht
      exact level.not_mem_operand _ hop
    have hparsed := hfirst.parser_eq n _ (by omega) (stopsAt_steps level.not_mem_operand hops hstop)
    rw [Level.parser_eq, List.append_assoc, hparsed]
    -- the rounds are at most as many as their tokens, so one more can be read
    obtain ⟨m, hm⟩ : ∃ m, (steps.flatMap Step.span ++ op :: ts).length = steps.length + (m + 1) := by
      have := length_le_spans steps
      refine ⟨(steps.flatMap Step.span).length - steps.length + ts.length, ?_⟩
      rw [List.length_append, List.length_cons]
      omega
    simp only [Parser.Outcome.andThen]
    rw [hm, chain_steps level.not_mem_operand hstop (m + 1) steps e₀ hops fun s hs rest' hrest' => ?_]
    · simp [Parser.chain, hop, hf, Parser.Outcome.andThen]
    · have := tokens_length_le hs
      exact (hsteps s hs).parser_eq n rest' (by omega) hrest'

theorem operand_refused {n : Nat} {rest : List Token}
    (h : ∀ t ∈ rest.head?, Expectation.expression.Refuses t.kind) :
    Parser.operand n rest = .failed .expression rest := by
  cases n with
  | zero => rfl
  | succ n =>
    cases rest with
    | nil => rfl
    | cons t rest =>
      have ht := h t rfl
      unfold Parser.operand
      split <;> simp_all [Expectation.Refuses]

theorem Unfinished.parser_eq {r : Rule} {x : Expectation} {ts : List Token} (h : Unfinished r x ts) :
    ∀ (n : Nat) (rest : List Token), ts.length ≤ n → (∀ t ∈ rest.head?, x.Refuses t.kind) →
      r.parser n (ts ++ rest) = .failed x rest := by
  induction h with
  | expression _ ih => exact ih
  | primary _ ih => exact ih
  | first level _ ih =>
    intro n rest hn hrest
    rw [Level.parser_eq, ih n rest hn hrest]
    rfl
  | round level hd hop _ ih =>
    intro n rest hn hrest
    rw [List.length_append, List.length_cons] at hn
    rw [List.append_assoc, List.cons_append]
    exact round_fails hd (by omega) hop (ih n rest (by omega) hrest)
  | start =>
    intro n rest _ hrest
    exact operand_refused hrest
  | prefixed hk _ ih =>
    intro n rest hn hrest
    cases n with
    | zero => simp at hn
    | succ n =>
      have := ih n rest (by simpa using hn) hrest
      rcases hk with hk | hk <;> simp_all [Parser.operand, Parser.Outcome.andThen]
  | inner hk _ ih =>
    intro n rest hn hrest
    cases n with
    | zero => simp at hn
    | succ n =>
      rw [parser_primary, List.cons_append, operand_leftParen hk, ih n rest (by simpa using hn) hrest]
      rfl
  | @unclosed opening ts e hk hd =>
    intro n rest hn hrest
    cases n with
    | zero => simp at hn
    | succ n =>
      have hinner := hd.parser_eq n rest (by simpa using hn) fun t ht => (hrest t ht).2
      have hclose : Parser.closeGroup e rest = .failed .closingParen rest := by
        cases rest with
        | nil => rfl
        | cons t rest => simp [Parser.closeGroup, (hrest t rfl).1]
      rw [parser_primary, List.cons_append, operand_leftParen hk, hinner]
      exact hclose

/-- A parse of an expression fails exactly behind an unfinished derivation, at a token that is refused. -/
theorem expression_failed_iff (tokens : List Token) (x : Expectation) (rest : List Token) :
    Parser.expression tokens = .failed x rest ↔
      ∃ ts, tokens = ts ++ rest ∧ Unfinished .expression x ts ∧ ∀ t ∈ rest.head?, x.Refuses t.kind := by
  constructor
  · exact expression_fails (operand_fails tokens.length) tokens x rest (Nat.le_refl _)
  · rintro ⟨ts, rfl, hu, hrest⟩
    exact hu.parser_eq _ rest (by simp) hrest

/-! ## Viable beginnings -/

/-- The tokens begin some expression. -/
def Viable (ts : List Token) : Prop :=
  ∃ later e, Derives .expression (ts ++ later) e

/-- The kind of token that puts an end to an expectation. -/
def answer : Expectation → TokenKind
  | .expression => .number
  | .closingParen => .rightParen

/-- What is expected lets a derivation be finished. -/
theorem Unfinished.answered {r : Rule} {x : Expectation} {ts : List Token} (h : Unfinished r x ts) :
    ∀ t : Token, t.kind = answer x → ∃ later e, Derives r (ts ++ t :: later) e := by
  induction h with
  | expression _ ih =>
    intro t ht
    obtain ⟨later, e, hd⟩ := ih t ht
    exact ⟨later, e, .expression hd⟩
  | first level _ ih =>
    intro t ht
    obtain ⟨later, e, hd⟩ := ih t ht
    exact ⟨later, e, hd.of_operand level⟩
  | round level hleft hop _ ih =>
    intro t ht
    obtain ⟨later, e, hd⟩ := ih t ht
    exact ⟨later, _, by simpa using hleft.round hop hd⟩
  | prefixed hk _ ih =>
    intro t ht
    obtain ⟨later, e, hd⟩ := ih t ht
    exact ⟨later, _, .prefixed hk hd⟩
  | primary _ ih =>
    intro t ht
    obtain ⟨later, e, hd⟩ := ih t ht
    exact ⟨later, e, .primary hd⟩
  | start =>
    intro t ht
    exact ⟨[], _, .literal (.inl ht)⟩
  | inner hk _ ih =>
    intro t ht
    obtain ⟨later, e, hd⟩ := ih t ht
    let closing : Token := ⟨.rightParen, ")", none, 1⟩
    have hgroup := Derives.group hk hd (show closing.kind = .rightParen from rfl)
    exact ⟨later ++ [closing], .group e, by simpa using hgroup⟩
  | unclosed hk hd =>
    intro t ht
    exact ⟨[], _, .group hk hd ht⟩

theorem Unfinished.viable {x : Expectation} {ts : List Token} (h : Unfinished .expression x ts) :
    Viable ts := by
  obtain ⟨later, e, hd⟩ := h.answered ⟨answer x, "", none, 1⟩ rfl
  exact ⟨_, e, hd⟩

/-- With a token that is refused no expression begins: the parser would have to succeed on it and to
fail. -/
theorem Unfinished.not_viable {x : Expectation} {ts : List Token} (h : Unfinished .expression x ts)
    {t : Token} (ht : x.Refuses t.kind) : ¬ Viable (ts ++ [t]) := by
  rintro ⟨later, e, hd⟩
  rw [List.append_assoc, List.singleton_append] at hd
  have hparsed := hd.parser_eq (ts ++ t :: later).length [] (Nat.le_refl _) (by simp [Rule.StopsAt])
  have hfailed := h.parser_eq (ts ++ t :: later).length (t :: later) (by simp) (by simpa using ht)
  rw [List.append_nil, hfailed] at hparsed
  cases hparsed

/-- A token that would answer one of the two expectations can follow exactly where that is the one. -/
theorem Unfinished.viable_answer_iff {x : Expectation} {ts : List Token}
    (h : Unfinished .expression x ts) (y : Expectation) {t : Token} (ht : t.kind = answer y) :
    Viable (ts ++ [t]) ↔ x = y := by
  constructor
  · intro hv
    by_contra hne
    refine h.not_viable ?_ hv
    rw [ht]
    cases x <;> cases y <;> simp_all [Expectation.Refuses, answer, binaryOperators]
  · rintro rfl
    obtain ⟨later, e, hd⟩ := h.answered t ht
    exact ⟨later, e, by simpa using hd⟩

end Grammar

/-! ## Streams -/

namespace TokenStream

/-- A stream whose completed tokens begin with tokens that mark no end, and one more. -/
theorem pending_of_begins {tokens ts : List Token} {u : Token} (hts : ∀ t ∈ ts, t.kind ≠ .eof)
    (h : ts ++ [u] <+: complete tokens) :
    ∃ rest, (ofTokens tokens).pending = ts ++ rest ∧ rest.head?.getD (ofTokens tokens).final = u := by
  obtain ⟨later, hc⟩ := h
  have htake : (complete tokens).take ts.length = ts := by rw [← hc]; simp
  have hk : ts.length ≤ (ofTokens tokens).pending.length := by
    refine le_pending_length ?_
    rw [htake]
    exact hts
  refine ⟨(ofTokens tokens).pending.drop ts.length, ?_, ?_⟩
  · rw [complete_take hk] at htake
    have hsplit := List.take_append_drop ts.length (ofTokens tokens).pending
    rw [htake] at hsplit
    exact hsplit.symm
  · have hu : (complete tokens)[ts.length]? = some u := by rw [← hc]; simp
    rw [getElem?_of_begins (complete_begins tokens) hk] at hu
    exact Option.some.inj hu

end TokenStream

open Grammar

/-- A parse fails exactly behind an unfinished derivation, at a token that is refused there or at the
end, and leaves the stream at that token. -/
theorem parse_eq_error_iff (s s' : TokenStream) (err : ParseError) : parse s = (.error err, s') ↔
    ∃ ts, s.pending = ts ++ s'.pending ∧ Unfinished .expression err.expected ts ∧
      (∀ t ∈ s'.pending.head?, err.expected.Refuses t.kind) ∧ err.token = s'.peek ∧ s'.final = s.final := by
  have hfailed := expression_failed_iff s.pending
  unfold parse
  constructor
  · intro h
    split at h
    · cases h
    · rename_i x rest hx
      cases h
      obtain ⟨ts, hts, hu, hrefuses⟩ := (hfailed x rest).1 hx
      exact ⟨ts, hts, hu, hrefuses, rfl, rfl⟩
  · rintro ⟨ts, hts, hu, hrefuses, htoken, hfinal⟩
    rw [(hfailed err.expected s'.pending).2 ⟨ts, hts, hu, hrefuses⟩]
    obtain ⟨pending, final⟩ := s'
    obtain ⟨token, expected⟩ := err
    cases htoken
    cases hfinal
    rfl

/-- The token of a failure is refused, be it the end of the tokens or one before it. -/
theorem refuses_peek {tokens rest : List Token} {x : Expectation} (h : ∀ t ∈ rest.head?, x.Refuses t.kind) :
    x.Refuses (TokenStream.peek ⟨rest, (TokenStream.ofTokens tokens).final⟩).kind := by
  unfold TokenStream.peek
  cases rest with
  | nil =>
    rw [List.head?_nil, Option.getD_none, TokenStream.final_kind]
    exact x.refuses_eof
  | cons t rest => exact h t rfl

/-- A parse fails at the first token with which no expression can go on. The tokens before it begin an
expression, with it they do not, and all lists that begin with these tokens fail in the same way. The
failure asks for a closing parenthesis exactly where one can follow, and for an expression exactly
where a number can. -/
theorem parse_fails_at_first_impossible (tokens : List Token) (err : ParseError) (left : TokenStream)
    (h : parse (.ofTokens tokens) = (.error err, left)) :
    ∃ k, TokenStream.Reads k (.ofTokens tokens) left ∧
      (TokenStream.complete tokens)[k]? = some err.token ∧
      Viable ((TokenStream.complete tokens).take k) ∧
      ¬ Viable ((TokenStream.complete tokens).take (k + 1)) ∧
      (∀ others, (TokenStream.complete tokens).take (k + 1) <+: TokenStream.complete others →
        ∃ left', parse (.ofTokens others) = (.error err, left') ∧
          TokenStream.Reads k (.ofTokens others) left') ∧
      (∀ t : Token, t.kind = .rightParen → (err.expected.message = "Expect ')' after expression." ↔
        Viable ((TokenStream.complete tokens).take k ++ [t]))) ∧
      (∀ t : Token, t.kind = .number → (err.expected.message = "Expect expression." ↔
        Viable ((TokenStream.complete tokens).take k ++ [t]))) ∧
      ∀ e, (parse (.ofTokens tokens)).1 ≠ .ok e := by
  obtain ⟨ts, hts, hu, hrefuses, htoken, hfinal⟩ := (parse_eq_error_iff _ _ _).1 h
  have hk : ts.length ≤ (TokenStream.ofTokens tokens).pending.length := by
    rw [hts, List.length_append]
    omega
  have htake : (TokenStream.complete tokens).take ts.length = ts := by
    rw [TokenStream.complete_take hk, hts, List.take_left]
  have hget : (TokenStream.complete tokens)[ts.length]? = some err.token := by
    rw [TokenStream.getElem?_of_begins (TokenStream.complete_begins tokens) hk, hts, List.drop_left,
      ← hfinal, htoken]
    rfl
  have hnext : (TokenStream.complete tokens).take (ts.length + 1) = ts ++ [err.token] := by
    rw [List.take_add_one, htake, hget]
    rfl
  have hrefused : err.expected.Refuses err.token.kind := by
    rw [htoken, show left = ⟨left.pending, (TokenStream.ofTokens tokens).final⟩ by rw [← hfinal]]
    exact refuses_peek hrefuses
  refine ⟨ts.length, ⟨hk, by rw [hts, List.drop_left], hfinal⟩, hget, ?_, ?_, ?_, ?_, ?_, ?_⟩
  · rw [htake]
    exact hu.viable
  · rw [hnext]
    exact hu.not_viable hrefused
  · intro others hothers
    rw [hnext] at hothers
    have hends : ∀ t ∈ ts, t.kind ≠ .eof := fun t ht =>
      TokenStream.pending_kind_ne_eof tokens t (by rw [hts]; exact List.mem_append_left _ ht)
    obtain ⟨rest, hpending, hhead⟩ := TokenStream.pending_of_begins hends hothers
    refine ⟨⟨rest, (TokenStream.ofTokens others).final⟩,
      (parse_eq_error_iff _ _ _).2 ⟨ts, hpending, hu, ?_, hhead.symm, rfl⟩,
      by rw [hpending, List.length_append]; omega, by rw [hpending, List.drop_left], rfl⟩
    -- the next token is that of the failure, whatever comes behind it
    intro t ht
    rw [Option.mem_def.1 ht, Option.getD_some] at hhead
    rw [hhead]
    exact hrefused
  · intro t ht
    rw [htake, hu.viable_answer_iff .closingParen ht]
    exact Expectation.message_inj (y := .closingParen)
  · intro t ht
    rw [htake, hu.viable_answer_iff .expression ht]
    exact Expectation.message_inj (y := .expression)
  · intro e he
    rw [h] at he
    cases he

/-- In `( 1 2` the second number is the first impossible token: only a closing parenthesis, or an
operator, can follow the first. -/
theorem parse_fails_at_first_impossible_at :
    let opening : Token := ⟨.leftParen, "(", none, 1⟩
    let one : Token := ⟨.number, "1", some (.number 1), 1⟩
    let two : Token := ⟨.number, "2", some (.number 2), 1⟩
    parse (.ofTokens [opening, one, two]) = (.error ⟨two, .closingParen⟩, ⟨[two], .endAt 1⟩) ∧
      ∃ k, (TokenStream.complete [opening, one, two])[k]? = some two ∧
        Viable ((TokenStream.complete [opening, one, two]).take k) ∧
        ¬ Viable ((TokenStream.complete [opening, one, two]).take (k + 1)) := by
  intro opening one two
  have hparse : parse (.ofTokens [opening, one, two]) = (.error ⟨two, .closingParen⟩, ⟨[two], .endAt 1⟩) :=
    rfl
  obtain ⟨k, -, hget, hviable, hnot, -⟩ := parse_fails_at_first_impossible _ _ _ hparse
  exact ⟨hparse, k, hget, hviable, hnot⟩

end Reckoner
