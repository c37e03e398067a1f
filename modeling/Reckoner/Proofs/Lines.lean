/-
Lines. Every token, the end included, carries the line on which it starts: one more than the number of
line ends in front of it. A lexical error carries the line of the stray character, or that of the quote
which opens an unclosed string. The parser and the evaluator complain of tokens of the source only, so
that the lines in the texts of their errors are the lines on which these tokens start.
-/
import Reckoner.Proofs.RunShape

namespace Reckoner

namespace Lexicon

/-! ## Places -/

/-- A cut that is a token. -/
def Cut.isToken (c : Cut) : Bool :=
  match c.meaning with
  | .token _ _ => true
  | _ => false

/-- A cut that is an error. -/
def Cut.isFault (c : Cut) : Bool :=
  match c.meaning with
  | .fault _ => true
  | _ => false

/-- Token number `i` starts behind the runes `before`: it is one of the longest matches, and `i` of
those in front of it are tokens. The end, which is the last token, starts behind all runes. -/
inductive TokenStarts (runes : List Int) : (i : Nat) → (before : List Int) → Prop
  | lexeme {earlier c later} : LongestMatch runes (earlier ++ c :: later) → c.isToken = true →
      TokenStarts runes (earlier.countP Cut.isToken) (earlier.flatMap Cut.runes)
  | ending {cuts} : LongestMatch runes cuts → TokenStarts runes (cuts.countP Cut.isToken) runes

/-- Error number `i` starts behind the runes `before`, where no lexeme matches. -/
inductive FaultStarts (runes : List Int) : (i : Nat) → (before : List Int) → Prop
  | intro {earlier c later} : LongestMatch runes (earlier ++ c :: later) → c.isFault = true →
      FaultStarts runes (earlier.countP Cut.isFault) (earlier.flatMap Cut.runes)

/-- A cut is determined by how many of the cuts in front of it are of its sort. -/
theorem earlier_unique {p : Cut → Bool} :
    ∀ {earlier earlier' : List Cut} {c c' : Cut} {later later' : List Cut},
    earlier ++ c :: later = earlier' ++ c' :: later' → p c = true → p c' = true →
    earlier.countP p = earlier'.countP p → earlier = earlier'
  | [], [], _, _, _, _, _, _, _, _ => rfl
  | [], d :: _, _, _, _, _, heq, hc, _, hcount => by
    obtain ⟨rfl, -⟩ := List.cons.inj heq
    simp [hc] at hcount
  | d :: _, [], _, _, _, _, heq, _, hc', hcount => by
    obtain ⟨rfl, -⟩ := List.cons.inj heq
    simp [hc'] at hcount
  | d :: earlier, d' :: earlier', _, _, _, _, heq, hc, hc', hcount => by
    obtain ⟨rfl, htail⟩ := List.cons.inj heq
    rw [earlier_unique htail hc hc' (by simpa [List.countP_cons] using hcount)]

theorem TokenStarts.unique {runes : List Int} {i : Nat} {before before' : List Int}
    (h : TokenStarts runes i before) (h' : TokenStarts runes i before') : before' = before := by
  generalize hi : i = j at h'
  cases h with
  | @lexeme earlier c later hm hc =>
    cases h' with
    | @lexeme earlier' c' later' hm' hc' =>
      rw [earlier_unique (hm.unique hm') hc' hc hi.symm]
    | ending hm' =>
      -- the token itself is among all cuts, but not among those in front of it
      rw [hm.unique hm'] at hi
      simp [hc] at hi
  | ending hm =>
    cases h' with
    | lexeme hm' hc' =>
      rw [← hm.unique hm'] at hi
      simp [hc'] at hi
    | ending _ => rfl

theorem FaultStarts.unique {runes : List Int} {i : Nat} {before before' : List Int}
    (h : FaultStarts runes i before) (h' : FaultStarts runes i before') : before' = before := by
  generalize hi : i = j at h'
  cases h with
  | intro hm hc =>
    cases h' with
    | intro hm' hc' => rw [earlier_unique (hm.unique hm') hc' hc hi.symm]

/-! ## Lines of tokens and errors -/

theorem exists_cuts (runes : List Int) : ∃ cuts, LongestMatch runes cuts ∧
    scan (shown runes) = .ofPieces (lineAfter []) (cuts.map Cut.piece) := by
  obtain ⟨cuts, hcuts, hpieces⟩ := longestMatch_upTo runes.length runes (Nat.le_refl _)
  refine ⟨cuts, hcuts, ?_⟩
  rw [hpieces, scan, Piece.all, shown_length]
  rfl

/-- Token number `i` of cuts that stand behind the runes `before`: it comes from one of them, with its
line and its text, or it is the end. -/
def TokenOf (before : List Int) (cuts : List Cut) (i : Nat) (t : Token) : Prop :=
  (∃ earlier c later, cuts = earlier ++ c :: later ∧ c.isToken = true ∧
    earlier.countP Cut.isToken = i ∧ t.line = lineAfter (before ++ earlier.flatMap Cut.runes) ∧
    t.lexeme = String.ofList (shown c.runes)) ∨
  (cuts.countP Cut.isToken = i ∧ t = .endAt (lineAfter (before ++ cuts.flatMap Cut.runes)))

theorem TokenOf.cons (c : Cut) {before : List Int} {cuts : List Cut} {i : Nat} {t : Token}
    (h : TokenOf (before ++ c.runes) cuts i t) :
    TokenOf before (c :: cuts) (i + if c.isToken then 1 else 0) t := by
  rcases h with ⟨earlier, d, later, rfl, hd, rfl, hline, hlexeme⟩ | ⟨rfl, rfl⟩
  · exact .inl ⟨c :: earlier, d, later, rfl, hd, List.countP_cons, by simpa using hline, hlexeme⟩
  · exact .inr ⟨List.countP_cons, by simp⟩

theorem tokenOf_cuts : ∀ (cuts : List Cut) (before : List Int) (i : Nat) (t : Token),
    (Scan.ofPieces (lineAfter before) (cuts.map Cut.piece)).tokens[i]? = some t →
      TokenOf before cuts i t
  | [], before, 0, t, h => by
    cases h
    exact .inr ⟨rfl, by simp⟩
  | [], before, i + 1, t, h => by cases h
  | ⟨runes, .token kind literal⟩ :: cuts, before, 0, t, h => by
    cases h
    exact .inl ⟨[], _, cuts, rfl, rfl, rfl, by simp, rfl⟩
  | ⟨runes, .token kind literal⟩ :: cuts, before, i + 1, t, h => by
    have hlater := tokenOf_cuts cuts (before ++ runes) i t
    rw [lineAfter_append before ⟨runes, .token kind literal⟩] at hlater
    exact (hlater h).cons ⟨runes, .token kind literal⟩
  | ⟨runes, .layout⟩ :: cuts, before, i, t, h => by
    have hlater := tokenOf_cuts cuts (before ++ runes) i t
    rw [lineAfter_append before ⟨runes, .layout⟩] at hlater
    exact (hlater h).cons ⟨runes, .layout⟩
  | ⟨runes, .fault f⟩ :: cuts, before, i, t, h => by
    have hlater := tokenOf_cuts cuts (before ++ runes) i t
    rw [lineAfter_append before ⟨runes, .fault f⟩] at hlater
    exact (hlater h).cons ⟨runes, .fault f⟩

/-- Error number `i` of cuts that stand behind the runes `before` comes from one of them. -/
def ErrorOf (before : List Int) (cuts : List Cut) (i : Nat) (e : LexicalError) : Prop :=
  ∃ earlier c later, cuts = earlier ++ c :: later ∧ c.meaning = .fault e.fault ∧
    earlier.countP Cut.isFault = i ∧ e.line = lineAfter (before ++ earlier.flatMap Cut.runes)

theorem ErrorOf.cons (c : Cut) {before : List Int} {cuts : List Cut} {i : Nat} {e : LexicalError}
    (h : ErrorOf (before ++ c.runes) cuts i e) :
    ErrorOf before (c :: cuts) (i + if c.isFault then 1 else 0) e := by
  obtain ⟨earlier, d, later, rfl, hd, rfl, hline⟩ := h
  exact ⟨c :: earlier, d, later, rfl, hd, List.countP_cons, by simpa using hline⟩

theorem errorOf_cuts : ∀ (cuts : List Cut) (before : List Int) (i : Nat) (e : LexicalError),
    (Scan.ofPieces (lineAfter before) (cuts.map Cut.piece)).errors[i]? = some e →
      ErrorOf before cuts i e
  | [], before, i, e, h => by cases h
  | ⟨runes, .fault f⟩ :: cuts, before, 0, e, h => by
    cases h
    exact ⟨[], _, cuts, rfl, rfl, rfl, by simp⟩
  | ⟨runes, .fault f⟩ :: cuts, before, i + 1, e, h => by
    have hlater := errorOf_cuts cuts (before ++ runes) i e
    rw [lineAfter_append before ⟨runes, .fault f⟩] at hlater
    exact (hlater h).cons ⟨runes, .fault f⟩
  | ⟨runes, .layout⟩ :: cuts, before, i, e, h => by
    have hlater := errorOf_cuts cuts (before ++ runes) i e
    rw [lineAfter_append before ⟨runes, .layout⟩] at hlater
    exact (hlater h).cons ⟨runes, .layout⟩
  | ⟨runes, .token kind literal⟩ :: cuts, before, i, e, h => by
    have hlater := errorOf_cuts cuts (before ++ runes) i e
    rw [lineAfter_append before ⟨runes, .token kind literal⟩] at hlater
    exact (hlater h).cons ⟨runes, .token kind literal⟩

/-- The cuts behind some others are those of the runes behind them. -/
theorem LongestMatch.behind {later : List Cut} : ∀ {earlier : List Cut} {runes : List Int},
    LongestMatch runes (earlier ++ later) →
      ∃ rest, runes = earlier.flatMap Cut.runes ++ rest ∧ LongestMatch rest later
  | [], runes, h => ⟨runes, rfl, h⟩
  | d :: earlier, runes, h => by
    rcases h.shapes with ⟨-, hcuts⟩ | ⟨w, rest, m, cuts, rfl, hcuts, -, -, hrest⟩ |
      ⟨-, rest, -, hcuts⟩ | ⟨-, r, rest, cuts, rfl, -, hcuts, hrest⟩
    · cases hcuts
    · obtain ⟨rfl, rfl⟩ := List.cons.inj hcuts
      obtain ⟨rest', rfl, hlater⟩ := hrest.behind
      exact ⟨rest', by simp, hlater⟩
    · -- nothing is left behind an unclosed string
      obtain ⟨rfl, htail⟩ := List.cons.inj hcuts
      obtain ⟨rfl, rfl⟩ := List.append_eq_nil_iff.1 htail
      exact ⟨[], by simp, .done⟩
    · obtain ⟨rfl, rfl⟩ := List.cons.inj hcuts
      obtain ⟨rest', rfl, hlater⟩ := hrest.behind
      exact ⟨rest', by simp, hlater⟩

theorem not_lexeme_fault {w : List Char} {f : LexicalFault} : ¬ Lexeme w (.fault f) := by
  intro h
  cases h

/-- The runes at which a fault stands: the stray character, or an opening quote. -/
def FaultAt (rest : List Int) : LexicalFault → Prop
  | .unexpected c => ∃ r later, rest = r :: later ∧ Text.charOfInt r = c
  | .unterminated => ∃ later, rest = quote :: later

theorem LongestMatch.faultAt {rest : List Int} {c : Cut} {later : List Cut} {f : LexicalFault}
    (h : LongestMatch rest (c :: later)) (hc : c.meaning = .fault f) : FaultAt rest f := by
  rcases h.shapes with ⟨-, hcuts⟩ | ⟨w, rest', m, cuts, -, hcuts, hl, -⟩ | ⟨-, rest', hr, hcuts⟩ |
    ⟨-, r, rest', cuts, hr, -, hcuts, -⟩
  · cases hcuts
  · obtain ⟨rfl, -⟩ := List.cons.inj hcuts
    exact absurd ((show m = Meaning.fault f from hc) ▸ hl) not_lexeme_fault
  · obtain ⟨rfl, -⟩ := List.cons.inj hcuts
    cases hc
    exact ⟨rest', hr⟩
  · obtain ⟨rfl, -⟩ := List.cons.inj hcuts
    cases hc
    exact ⟨r, rest', hr, rfl⟩

end Lexicon

open Lexicon

/-- A token stands where it starts and carries the line of that place. -/
theorem token_starts {runes : List Int} {i : Nat} {t : Token}
    (h : (scan (shown runes)).tokens[i]? = some t) : ∃ before, TokenStarts runes i before ∧
      t.line = 1 + before.count 10 ∧ t.lexeme.toList <+: shown (runes.drop before.length) := by
  obtain ⟨cuts, hcuts, hscan⟩ := exists_cuts runes
  rw [hscan] at h
  rcases tokenOf_cuts cuts [] i t h with ⟨earlier, c, later, rfl, hc, rfl, hline, hlexeme⟩ | ⟨rfl, rfl⟩
  · refine ⟨earlier.flatMap Cut.runes, .lexeme hcuts hc, hline, ?_⟩
    have hruns := hcuts.flatMap_runes
    rw [← hruns, List.flatMap_append, List.drop_left, hlexeme, String.toList_ofList]
    exact shown_isPrefix (by simp)
  · refine ⟨runes, .ending hcuts, ?_, by simp [Token.endAt]⟩
    rw [hcuts.flatMap_runes]
    rfl

/-- A lexical error stands where it starts and carries the line of that place. -/
theorem fault_starts {runes : List Int} {i : Nat} {e : LexicalError}
    (h : (scan (shown runes)).errors[i]? = some e) : ∃ before, FaultStarts runes i before ∧
      e.line = 1 + before.count 10 ∧ FaultAt (runes.drop before.length) e.fault := by
  obtain ⟨cuts, hcuts, hscan⟩ := exists_cuts runes
  rw [hscan] at h
  obtain ⟨earlier, c, later, rfl, hc, rfl, hline⟩ := errorOf_cuts cuts [] i e h
  have hfault : c.isFault = true := by simp [Cut.isFault, hc]
  obtain ⟨rest, hrunes, hrest⟩ := hcuts.behind
  refine ⟨earlier.flatMap Cut.runes, .intro hcuts hfault, hline, ?_⟩
  rw [hrunes, List.drop_left]
  exact hrest.faultAt hc

/-! ## What the parser and the evaluator complain of -/

namespace Parser

/-- The tokens that are left after a parse, successful or not. -/
def Outcome.rest : Outcome → List Token
  | .parsed _ rest => rest
  | .failed _ rest => rest

/-- What is left is an end of what there was. -/
def LeavesSuffix (p : List Token → Outcome) : Prop :=
  ∀ tokens, (p tokens).rest <:+ tokens

theorem andThen_rest {o : Outcome} {f : Expr → List Token → Outcome} {tokens : List Token}
    (ho : o.rest <:+ tokens) (hf : ∀ e, LeavesSuffix (f e)) : (o.andThen f).rest <:+ tokens := by
  cases o with
  | parsed e rest => exact (hf e rest).trans ho
  | failed expected rest => exact ho

theorem chain_leavesSuffix {p : List Token → Outcome} (hp : LeavesSuffix p) (ops : List TokenKind) :
    ∀ (n : Nat) (left : Expr), LeavesSuffix (chain p ops n left)
  | 0, left, tokens => by
    rw [chain.eq_def]
    exact List.suffix_rfl
  | n + 1, left, [] => List.suffix_rfl
  | n + 1, left, op :: rest => by
    rw [chain.eq_def]
    dsimp only
    split
    · refine (andThen_rest (hp rest) fun right => ?_).trans (List.suffix_cons ..)
      exact chain_leavesSuffix hp ops n _
    · exact List.suffix_rfl

theorem binary_leavesSuffix {p : List Token → Outcome} (hp : LeavesSuffix p) :
    ∀ levels, LeavesSuffix (binary p levels)
  | [] => hp
  | ops :: tighter => fun tokens =>
    andThen_rest (binary_leavesSuffix hp tighter tokens) fun left rest =>
      chain_leavesSuffix (binary_leavesSuffix hp tighter) ops rest.length left rest

theorem closeGroup_leavesSuffix (inner : Expr) : LeavesSuffix (closeGroup inner)
  | [] => List.suffix_rfl
  | t :: rest => by
    simp only [closeGroup]
    split
    · exact List.suffix_cons ..
    · exact List.suffix_rfl

theorem operand_leavesSuffix : ∀ n, LeavesSuffix (operand n)
  | 0, tokens => by
    rw [operand.eq_def]
    exact List.suffix_rfl
  | n + 1, [] => List.suffix_rfl
  | n + 1, t :: rest => by
    rw [operand.eq_def]
    dsimp only
    split
    · refine (andThen_rest (operand_leavesSuffix n rest) fun e rest' => ?_).trans (List.suffix_cons ..)
      exact List.suffix_rfl
    · refine (andThen_rest (operand_leavesSuffix n rest) fun e rest' => ?_).trans (List.suffix_cons ..)
      exact List.suffix_rfl
    · exact List.suffix_cons ..
    · exact List.suffix_cons ..
    · exact List.suffix_cons ..
    · exact List.suffix_cons ..
    · exact List.suffix_cons ..
    · refine (andThen_rest ?_ closeGroup_leavesSuffix).trans (List.suffix_cons ..)
      exact binary_leavesSuffix (operand_leavesSuffix n) levels rest
    · exact List.suffix_rfl

theorem expression_leavesSuffix (tokens : List Token) : (expression tokens).rest <:+ tokens :=
  binary_leavesSuffix (operand_leavesSuffix tokens.length) levels tokens

end Parser

/-- A parse fails at a token of the stream. -/
theorem parse_error_mem {s : TokenStream} {err : ParseError} (h : (parse s).1 = .error err) :
    err.token ∈ s.pending ++ [s.final] := by
  have hsuffix := Parser.expression_leavesSuffix s.pending
  unfold parse at h
  cases ho : Parser.expression s.pending with
  | parsed e rest => simp [ho] at h
  | failed expected rest =>
    simp only [ho, Except.error.injEq] at h hsuffix
    subst h
    rw [TokenStream.peek]
    cases rest with
    | nil => simp
    | cons t rest => exact List.mem_append_left _ (hsuffix.subset List.mem_cons_self)

theorem applyUnary_error {op op' : Token} {v : Value} {fault : TypeFault}
    (h : v.applyUnary op = .error (.operandTypes op' fault)) : op' = op := by
  unfold Value.applyUnary at h
  split at h
  · cases h
  · split at h
    · cases h
    · cases h
      rfl
  · cases h

theorem arithmetic_error {kind : TokenKind} {x y : Float} {op : Token} {fault : TypeFault} :
    Value.arithmetic kind x y ≠ .error (.operandTypes op fault) := by
  unfold Value.arithmetic
  split <;> simp

theorem applyBinary_error {op op' : Token} {l r : Value} {fault : TypeFault}
    (h : l.applyBinary op r = .error (.operandTypes op' fault)) : op' = op := by
  unfold Value.applyBinary at h
  split at h
  · cases h
  · cases h
  · split at h
    · cases h
    · cases h
    · cases h
      rfl
  · split at h
    · exact absurd h arithmetic_error
    · cases h
      rfl

/-- An operator that complains of its operands is one of the tree. -/
theorem eval_error_mem {e : Expr} {op : Token} {fault : TypeFault}
    (h : e.eval = .error (.operandTypes op fault)) :
    .unary op ∈ e.postorder ∨ .binary op ∈ e.postorder := by
  induction e with
  | literal v => cases h
  | group e ih => exact (ih h).imp (List.mem_append_left _) (List.mem_append_left _)
  | unary o e ih =>
    rw [Expr.eval] at h
    split at h
    · obtain rfl := applyUnary_error h
      exact .inl (by simp [Expr.postorder])
    · rename_i err he
      cases h
      exact (ih he).imp (List.mem_append_left _) (List.mem_append_left _)
  | binary o l r ihl ihr =>
    rw [Expr.eval] at h
    split at h
    · split at h
      · obtain rfl := applyBinary_error h
        exact .inr (by simp [Expr.postorder])
      · rename_i err he
        cases h
        exact (ihr he).imp (fun hm => by simp [Expr.postorder, hm]) fun hm => by simp [Expr.postorder, hm]
    · rename_i err he
      cases h
      exact (ihl he).imp (fun hm => by simp [Expr.postorder, hm]) fun hm => by simp [Expr.postorder, hm]

/-- A problem that is placed by a token is placed by one of the given ones. -/
def Refers (tokens : List Token) : Diagnostic → Prop
  | .syntactic token _ => token ∈ tokens
  | .runtime token _ => token ∈ tokens
  | _ => True

theorem RunsTo.refers {mode : Mode} {source : List Char} {res : Result}
    (h : RunsTo mode (scan source) res) : ∀ d ∈ res.errors, Refers res.tokens d := by
  cases h with
  | misread =>
    intro d hd
    obtain ⟨e, -, rfl⟩ := List.mem_map.1 hd
    trivial
  | tokenized | parsed | evaluated => simp
  | unparsed _ _ hparse =>
    intro d hd
    obtain rfl := List.mem_singleton.1 hd
    have hmem := parse_error_mem hparse
    rwa [stream_scan] at hmem
  | failed _ _ _ hparse heval =>
    intro d hd
    obtain rfl := List.mem_singleton.1 hd
    rcases eval_error_mem heval with hop | hop
    · exact (parse_allows hparse _ hop).1
    · exact (parse_allows hparse _ hop).1

/-! ## Sources -/

/-- The runes of a source. -/
def runesOf (source : String) : List Int :=
  source.toList.map fun c => c.toNat

theorem shown_runesOf (source : String) : shown (runesOf source) = source.toList := by
  have hchar : ∀ c : Char, Text.charOfInt c.toNat = c := by
    intro c
    have hv : (c.toNat : Int).toNat.isValidChar := c.valid
    rw [Text.charOfInt, if_neg (by omega), if_pos hv]
    simp
  rw [shown, runesOf, List.map_map]
  exact (List.map_congr_left fun c _ => hchar c).trans (List.map_id _)

/-- The tokens of a run have their places in the source. -/
theorem starts_of_mem {mode : Mode} {source : String} {t : Token} (h : t ∈ (run mode source).tokens) :
    ∃ i before, (run mode source).tokens[i]? = some t ∧ TokenStarts (runesOf source) i before ∧
      t.line = 1 + before.count 10 := by
  rw [(run_runsTo mode source).tokens_eq, ← shown_runesOf] at h ⊢
  obtain ⟨i, hi⟩ := List.getElem?_of_mem h
  obtain ⟨before, hstarts, hline, -⟩ := token_starts hi
  exact ⟨i, before, hi, hstarts, hline⟩

/-- Lines are exact. On every sequence of runes each token starts at one place, where its text stands,
and carries the line of that place; an error carries the line of the stray character or of the opening
quote at which it starts. In every run, whatever its mode and its source, a parse error and a runtime
error refer to a token of the source, and their texts name the line on which it starts. -/
theorem lines_exact :
    (∀ (runes : List Int) (i : Nat) (t : Token), (scan (shown runes)).tokens[i]? = some t →
      ∃ before, TokenStarts runes i before ∧ (∀ other, TokenStarts runes i other → other = before) ∧
        t.line = 1 + before.count 10 ∧ t.lexeme.toList <+: shown (runes.drop before.length)) ∧
    (∀ (runes : List Int) (i : Nat) (e : LexicalError), (scan (shown runes)).errors[i]? = some e →
      ∃ before, FaultStarts runes i before ∧ (∀ other, FaultStarts runes i other → other = before) ∧
        e.line = 1 + before.count 10 ∧ FaultAt (runes.drop before.length) e.fault) ∧
    (∀ (mode : Mode) (source : String) (token : Token) (message : String),
      .syntactic token message ∈ (run mode source).errors →
      ∃ i before, (run mode source).tokens[i]? = some token ∧ TokenStarts (runesOf source) i before ∧
        (Diagnostic.syntactic token message).text = "[line " ++ toString (1 + before.count 10) ++
          "] Error at '" ++ token.lexeme ++ "': " ++ message) ∧
    (∀ (mode : Mode) (source : String) (token : Token) (message : String),
      .runtime token message ∈ (run mode source).errors →
      ∃ i before, (run mode source).tokens[i]? = some token ∧ TokenStarts (runesOf source) i before ∧
        (Diagnostic.runtime token message).text =
          message ++ "\n[line " ++ toString (1 + before.count 10) ++ "]") := by
  refine ⟨fun runes i t h => ?_, fun runes i e h => ?_, fun mode source token message h => ?_,
    fun mode source token message h => ?_⟩
  · obtain ⟨before, hstarts, hline, htext⟩ := token_starts h
    exact ⟨before, hstarts, fun other => hstarts.unique, hline, htext⟩
  · obtain ⟨before, hstarts, hline, hfault⟩ := fault_starts h
    exact ⟨before, hstarts, fun other => hstarts.unique, hline, hfault⟩
  · obtain ⟨i, before, hi, hstarts, hline⟩ := starts_of_mem ((run_runsTo mode source).refers _ h)
    refine ⟨i, before, hi, hstarts, ?_⟩
    rw [Diagnostic.text, hline]
    rfl
  · obtain ⟨i, before, hi, hstarts, hline⟩ := starts_of_mem ((run_runsTo mode source).refers _ h)
    refine ⟨i, before, hi, hstarts, ?_⟩
    rw [Diagnostic.text, hline]
    rfl

/-- Behind a string of two lines: an operator that cannot be applied, an operand that is missing, and a
stray character. -/
theorem lines_exact_at :
    (∃ i before, (run .evaluate "\"a\nb\"\n* true").tokens[i]? = some ⟨.star, "*", none, 3⟩ ∧
      TokenStarts (runesOf "\"a\nb\"\n* true") i before) ∧
    (∃ i before, (run .parse "\"a\nb\"\n*").tokens[i]? = some (.endAt 3) ∧
      TokenStarts (runesOf "\"a\nb\"\n*") i before) ∧
    (∃ before, TokenStarts (runesOf "\"a\nb\"\n*") 1 before ∧ (3 : Int) = 1 + before.count 10) ∧
    (∃ before, FaultStarts (runesOf "\"a\nb\"\n@") 0 before ∧ (3 : Int) = 1 + before.count 10) := by
  obtain ⟨htoken, hfault, hsyntactic, hruntime⟩ := lines_exact
  have hstar : (run .evaluate "\"a\nb\"\n* true").errors =
      [.runtime ⟨.star, "*", none, 3⟩ "Operands must be numbers."] := rfl
  have hmissing : (run .parse "\"a\nb\"\n*").errors =
      [.syntactic (.endAt 3) "Expect expression."] := rfl
  have hsecond : (scan (shown (runesOf "\"a\nb\"\n*"))).tokens[1]? = some ⟨.star, "*", none, 3⟩ := rfl
  have hstray : (scan (shown (runesOf "\"a\nb\"\n@"))).errors[0]? = some ⟨3, .unexpected '@'⟩ := rfl
  obtain ⟨i, before, hi, hstarts, -⟩ := hruntime _ _ _ _ (hstar ▸ List.mem_cons_self)
  obtain ⟨j, before', hj, hstarts', -⟩ := hsyntactic _ _ _ _ (hmissing ▸ List.mem_cons_self)
  obtain ⟨before₁, hstarts₁, -, hline₁, -⟩ := htoken _ _ _ hsecond
  obtain ⟨before₂, hstarts₂, -, hline₂, -⟩ := hfault _ _ _ hstray
  exact ⟨⟨i, before, hi, hstarts⟩, ⟨j, before', hj, hstarts'⟩, ⟨before₁, hstarts₁, hline₁⟩,
    ⟨before₂, hstarts₂, hline₂⟩⟩

end Reckoner
