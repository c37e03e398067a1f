/-
The shapes of a run. A run ends in one of six ways, by the mode and by how far the source gets: it
cannot be scanned, its tokens are all that is asked for, they do not parse, their tree is all that is
asked for, the tree has no value, or it has one. Each way fixes all fields of the result, so that the
exit status can be read off the errors alone; and this is the status of a fresh reporter to which they
were reported.
-/
import Reckoner.Run
import Reckoner.Proofs.Guarded.Run

namespace Reckoner

open Lexicon

/-! ## Scanned tokens -/

theorem Lexicon.Lexeme.kind_ne_eof {w : List Char} {kind : TokenKind} {literal : Option Value}
    (h : Lexeme w (.token kind literal)) : kind ≠ .eof := by
  cases h with
  | punctuator h =>
    rintro rfl
    simp [punctuators] at h
  | keyword h =>
    rintro rfl
    simp [TokenKind.keywords] at h
  | string | whole | decimal | identifier => simp

/-- The tokens of pieces that are no ends are followed by one end. -/
theorem ofPieces_tokens : ∀ (pieces : List Piece) (line : Int),
    (∀ p ∈ pieces, ∀ kind literal, p.meaning = .token kind literal → kind ≠ .eof) →
    ∃ before last, (Scan.ofPieces line pieces).tokens = before ++ [.endAt last] ∧
      ∀ t ∈ before, t.kind ≠ .eof
  | [], line, _ => ⟨[], line, rfl, by simp⟩
  | p :: pieces, line, h => by
    obtain ⟨before, last, htokens, hbefore⟩ := ofPieces_tokens pieces (line + p.lineEnds)
      fun q hq => h q (List.mem_cons_of_mem _ hq)
    unfold Scan.ofPieces
    split
    · exact ⟨before, last, htokens, hbefore⟩
    · rename_i kind literal hp
      refine ⟨⟨kind, String.ofList p.text, literal, line⟩ :: before, last, by simp [htokens], ?_⟩
      intro t ht
      rcases List.mem_cons.1 ht with rfl | ht
      · exact h p List.mem_cons_self kind literal hp
      · exact hbefore t ht
    · exact ⟨before, last, htokens, hbefore⟩

/-- The tokens of a source end with their only end. -/
theorem scan_tokens (source : List Char) : ∃ before line,
    (scan source).tokens = before ++ [.endAt line] ∧ ∀ t ∈ before, t.kind ≠ .eof :=
  ofPieces_tokens _ _ fun _ hp _ _ hm => (lexeme_of_mem_all hp hm).kind_ne_eof

/-- The stream of the tokens of a source holds all of them. -/
theorem stream_scan (source : List Char) :
    (TokenStream.ofTokens (scan source).tokens).pending ++
      [(TokenStream.ofTokens (scan source).tokens).final] = (scan source).tokens := by
  obtain ⟨before, line, htokens, hbefore⟩ := scan_tokens source
  have hkinds : ∀ t ∈ before, (t.kind != .eof) = true := by simpa using hbefore
  have hfind : before.find? (·.kind == .eof) = none := by simpa using hbefore
  rw [htokens]
  unfold TokenStream.ofTokens TokenStream.finalOf
  rw [List.takeWhile_append_of_pos hkinds, List.find?_append, hfind]
  simp [Token.endAt]

/-! ## The ways a run ends -/

/-- The lines that are output when the tokens are what is asked for. -/
def tokenLines (mode : Mode) (tokens : List Token) : List String :=
  if mode = .tokenize then tokens.map (·.text) else []

/-- The ways a run of a source with the given tokens and lexical errors ends, each with its result. -/
inductive RunsTo (mode : Mode) (scanned : Scan) : Result → Prop
  | misread : scanned.errors ≠ [] → RunsTo mode scanned ⟨mode, scanned.tokens, none, none,
      tokenLines mode scanned.tokens, scanned.errors.map (·.diagnostic), Exit.dataError⟩
  | tokenized : scanned.errors = [] → mode = .tokenize → RunsTo mode scanned
      ⟨mode, scanned.tokens, none, none, tokenLines mode scanned.tokens, [], Exit.success⟩
  | unparsed {err} : scanned.errors = [] → mode ≠ .tokenize →
      (parse (.ofTokens scanned.tokens)).1 = .error err → RunsTo mode scanned
        ⟨mode, scanned.tokens, none, none, [], [err.diagnostic], Exit.dataError⟩
  | parsed {e} : scanned.errors = [] → mode = .parse →
      (parse (.ofTokens scanned.tokens)).1 = .ok e → RunsTo mode scanned
        ⟨mode, scanned.tokens, some e, none, [e.display], [], Exit.success⟩
  | failed {e op fault} : scanned.errors = [] → mode ≠ .tokenize → mode ≠ .parse →
      (parse (.ofTokens scanned.tokens)).1 = .ok e → e.eval = .error (.operandTypes op fault) →
      RunsTo mode scanned
        ⟨mode, scanned.tokens, some e, none, [], [.runtime op fault.message], Exit.software⟩
  | evaluated {e v} : scanned.errors = [] → mode ≠ .tokenize → mode ≠ .parse →
      (parse (.ofTokens scanned.tokens)).1 = .ok e → e.eval = .ok v → RunsTo mode scanned
        ⟨mode, scanned.tokens, some e, some v, [v.display], [], Exit.success⟩

variable {mode : Mode} {scanned : Scan} {res : Result}

/-- A tree that was parsed has a value, or an operator of it complains of its operands. -/
theorem runsTo_runTokens (hs : scanned.errors = []) (hmode : mode ≠ .tokenize) :
    RunsTo mode scanned (runTokens mode scanned.tokens) := by
  unfold runTokens
  cases hparse : (parse (.ofTokens scanned.tokens)).1 with
  | error err => exact .unparsed hs hmode hparse
  | ok e =>
    by_cases hp : mode = .parse
    · simp only [hp, if_true]
      exact hp ▸ .parsed hs hp hparse
    · simp only [hp, if_false]
      -- the parser makes no operator that the evaluator does not know
      rcases Guarded.eval_settled (Guarded.known_of_parse hparse) with ⟨v, hv⟩ | ⟨op, fault, hv⟩
      · simp only [hv]
        exact .evaluated hs hmode hp hparse hv
      · simp only [hv]
        exact .failed hs hmode hp hparse hv

/-- Every run ends in one of the six ways. -/
theorem run_runsTo (mode : Mode) (source : String) :
    RunsTo mode (scan source.toList) (run mode source) := by
  unfold run
  by_cases hs : (scan source.toList).errors = []
  · by_cases hmode : mode = .tokenize
    · simp only [hs, hmode, ne_eq, not_true_eq_false, if_false, if_true]
      have htokenized : RunsTo mode (scan source.toList) _ := .tokenized hs hmode
      simpa [tokenLines, hmode] using htokenized
    · simp only [hs, hmode, ne_eq, not_true_eq_false, if_false]
      exact runsTo_runTokens hs hmode
  · simp only [hs, ne_eq, not_false_eq_true, if_true]
    exact .misread hs

/-! ## Reporters -/

/-- A reporter that is told of problems none of which is a runtime problem. -/
theorem foldl_note_of_not_runtime : ∀ (ds : List Diagnostic) (r : Reporter),
    (∀ d ∈ ds, d.isRuntime = false) → ds ≠ [] → ds.foldl Reporter.note r = { r with sawError := true }
  | [], _, _, hne => absurd rfl hne
  | d :: ds, r, h, _ => by
    have hd : r.note d = { r with sawError := true } := by
      simp [Reporter.note, h d List.mem_cons_self]
    rw [List.foldl_cons, hd]
    by_cases hne : ds = []
    · rw [hne]
      rfl
    · exact foldl_note_of_not_runtime ds _ (fun d' h' => h d' (List.mem_cons_of_mem _ h')) hne

/-- The status of a reporter that is told of the errors of a run is that of the run. -/
theorem RunsTo.exitCode_note (h : RunsTo mode scanned res) :
    (res.errors.foldl Reporter.note .fresh).exitCode = res.exitCode := by
  cases h with
  | misread hs =>
    have hlexical : ∀ d ∈ scanned.errors.map (·.diagnostic), d.isRuntime = false := by
      intro d hd
      obtain ⟨e, -, rfl⟩ := List.mem_map.1 hd
      rfl
    rw [foldl_note_of_not_runtime _ _ hlexical (by simpa using hs)]
    rfl
  | tokenized | unparsed | parsed | failed | evaluated => rfl

/-! ## Shapes -/

/-- There are problems, and all of them are lexical. -/
def OnlyLexical (ds : List Diagnostic) : Prop :=
  ds ≠ [] ∧ ∀ d ∈ ds, ∃ line message, d = .lexical line message

/-- There is one problem, which is one of the parser. -/
def OneSyntactic (ds : List Diagnostic) : Prop :=
  ∃ token message, ds = [.syntactic token message]

/-- There is one problem, which is one of an operator with its operands. -/
def OneRuntime (ds : List Diagnostic) : Prop :=
  ∃ token message, ds = [.runtime token message]

theorem onlyLexical_map {errors : List LexicalError} :
    OnlyLexical (errors.map (·.diagnostic)) ↔ errors ≠ [] := by
  refine ⟨fun h => by simpa using h.1, fun h => ⟨by simpa using h, fun d hd => ?_⟩⟩
  obtain ⟨e, -, rfl⟩ := List.mem_map.1 hd
  exact ⟨_, _, rfl⟩

/-- The three exit statuses of a run, each with its errors and with what is missing for them. -/
theorem RunsTo.exitCode_cases (h : RunsTo mode scanned res) :
    (res.exitCode = 0 ∧ res.errors = []) ∨
    (res.exitCode = 65 ∧ (OnlyLexical res.errors ∨ mode ≠ .tokenize ∧ OneSyntactic res.errors) ∧
      res.expr = none ∧ res.value = none) ∨
    (res.exitCode = 70 ∧ mode ≠ .tokenize ∧ mode ≠ .parse ∧ OneRuntime res.errors ∧
      res.expr.isSome = true ∧ res.value = none) := by
  cases h with
  | misread hs => exact .inr (.inl ⟨rfl, .inl (onlyLexical_map.2 hs), rfl, rfl⟩)
  | tokenized | parsed | evaluated => exact .inl ⟨rfl, rfl⟩
  | unparsed _ hmode => exact .inr (.inl ⟨rfl, .inr ⟨hmode, _, _, rfl⟩, rfl, rfl⟩)
  | failed _ hmode hp => exact .inr (.inr ⟨rfl, hmode, hp, ⟨_, _, rfl⟩, rfl, rfl⟩)

theorem OneRuntime.not_lexical_or_syntactic {ds : List Diagnostic} (h : OneRuntime ds) :
    ¬ OnlyLexical ds ∧ ¬ OneSyntactic ds := by
  obtain ⟨token, message, rfl⟩ := h
  refine ⟨fun hlexical => ?_, fun ⟨_, _, hone⟩ => by cases hone⟩
  obtain ⟨_, _, hd⟩ := hlexical.2 _ List.mem_cons_self
  cases hd

theorem not_lexical_syntactic_runtime_nil :
    ¬ OnlyLexical [] ∧ ¬ OneSyntactic [] ∧ ¬ OneRuntime [] := by
  refine ⟨fun h => h.1 rfl, ?_, ?_⟩
  · rintro ⟨_, _, ⟨⟩⟩
  · rintro ⟨_, _, ⟨⟩⟩

theorem RunsTo.exitCode_zero_iff (h : RunsTo mode scanned res) : res.exitCode = 0 ↔ res.errors = [] := by
  obtain ⟨hl, hs, hr⟩ := not_lexical_syntactic_runtime_nil
  rcases h.exitCode_cases with ⟨hc, he⟩ | ⟨hc, he, -⟩ | ⟨hc, -, -, he, -⟩
  · simp [hc, he]
  · refine ⟨fun h0 => by omega, fun hnil => ?_⟩
    rw [hnil] at he
    exact (he.elim hl fun h => hs h.2).elim
  · refine ⟨fun h0 => by omega, fun hnil => ?_⟩
    rw [hnil] at he
    exact (hr he).elim

theorem RunsTo.exitCode_data_iff (h : RunsTo mode scanned res) :
    res.exitCode = 65 ↔ OnlyLexical res.errors ∨ mode ≠ .tokenize ∧ OneSyntactic res.errors := by
  obtain ⟨hl, hs, -⟩ := not_lexical_syntactic_runtime_nil
  rcases h.exitCode_cases with ⟨hc, he⟩ | ⟨hc, he, -⟩ | ⟨hc, -, -, he, -⟩
  · simp [hc, he, hl, hs]
  · simp [hc, he]
  · obtain ⟨hl, hs⟩ := he.not_lexical_or_syntactic
    simp [hc, hl, hs]

theorem RunsTo.exitCode_software_iff (h : RunsTo mode scanned res) :
    res.exitCode = 70 ↔ mode ≠ .tokenize ∧ mode ≠ .parse ∧ OneRuntime res.errors := by
  obtain ⟨-, -, hr⟩ := not_lexical_syntactic_runtime_nil
  rcases h.exitCode_cases with ⟨hc, he⟩ | ⟨hc, he, -⟩ | ⟨hc, hmode, hp, he, -⟩
  · simp [hc, he, hr]
  · refine ⟨fun h70 => by omega, fun ⟨_, _, hone⟩ => ?_⟩
    obtain ⟨hl, hs⟩ := hone.not_lexical_or_syntactic
    exact (he.elim hl fun h => hs h.2).elim
  · simp [hc, hmode, hp, he]

/-- Only a tree that was evaluated without an error has a value. -/
theorem RunsTo.value_isSome_iff (h : RunsTo mode scanned res) :
    res.value.isSome = true ↔ mode ≠ .tokenize ∧ mode ≠ .parse ∧ res.exitCode = 0 := by
  cases h with
  | misread | unparsed | failed => simp [Exit.dataError, Exit.software]
  | tokenized _ hmode => simp [hmode]
  | parsed _ hmode => simp [hmode]
  | evaluated _ hmode hp => simp [hmode, hp, Exit.success]

/-- Outside tokenize mode there is one line of output for a success, and none for a failure. -/
theorem RunsTo.output_length (h : RunsTo mode scanned res) (hmode : mode ≠ .tokenize) :
    res.output.length = if res.exitCode = 0 then 1 else 0 := by
  cases h with
  | misread => simp [tokenLines, hmode, Exit.dataError]
  | tokenized _ ht => exact absurd ht hmode
  | unparsed | parsed | failed | evaluated => rfl

/-- In tokenize mode the output is the tokens line by line, with or without errors. -/
theorem RunsTo.output_tokenize (h : RunsTo .tokenize scanned res) :
    res.output = scanned.tokens.map (·.text) := by
  cases h with
  | misread | tokenized => rfl
  | unparsed _ hmode => exact absurd rfl hmode
  | parsed _ hmode => cases hmode
  | failed _ hmode => exact absurd rfl hmode
  | evaluated _ hmode => exact absurd rfl hmode

theorem RunsTo.tokens_eq (h : RunsTo mode scanned res) : res.tokens = scanned.tokens := by
  cases h <;> rfl

theorem text_endAt (line : Int) : (Token.endAt line).text = "EOF  null" := rfl

/-- The shape of a run, whatever its mode and its source. The exit status is that of a fresh reporter
after printing, wherever the output goes. It is 0, 65 or 70: without errors, with lexical errors or a
single parse error, and with a single runtime error. Only an evaluation without an error has a value. In
tokenize mode the output has a line for each token, in the other modes it has one line at success and
none otherwise. The tokens end with the only end among them. -/
theorem run_shape (mode : Mode) (source : String) :
    let res := run mode source
    (∀ channel, (res.print .fresh channel).reporter.exitCode = res.exitCode) ∧
    (res.exitCode = 0 ∨ res.exitCode = 65 ∨ res.exitCode = 70) ∧
    (res.exitCode = 0 ↔ res.errors = []) ∧
    (res.exitCode = 65 ↔ OnlyLexical res.errors ∨ mode ≠ .tokenize ∧ OneSyntactic res.errors) ∧
    (res.exitCode = 65 → res.expr = none ∧ res.value = none) ∧
    (res.exitCode = 70 ↔ mode ≠ .tokenize ∧ mode ≠ .parse ∧ OneRuntime res.errors) ∧
    (res.exitCode = 70 → res.expr.isSome = true ∧ res.value = none) ∧
    (res.value.isSome = true ↔ mode ≠ .tokenize ∧ mode ≠ .parse ∧ res.exitCode = 0) ∧
    (mode = .tokenize →
      res.output = res.tokens.map (·.text) ∧ res.output.getLast? = some "EOF  null") ∧
    (mode ≠ .tokenize → res.output.length = if res.exitCode = 0 then 1 else 0) ∧
    (∃ before line, res.tokens = before ++ [.endAt line] ∧ ∀ t ∈ before, t.kind ≠ .eof) := by
  have h := run_runsTo mode source
  obtain ⟨before, line, htokens, hbefore⟩ := scan_tokens source.toList
  rw [← h.tokens_eq] at htokens
  refine ⟨fun _ => h.exitCode_note, ?_, h.exitCode_zero_iff, h.exitCode_data_iff, fun hc => ?_,
    h.exitCode_software_iff, fun hc => ?_, h.value_isSome_iff, ?_, h.output_length,
    before, line, htokens, hbefore⟩
  · rcases h.exitCode_cases with ⟨hc, -⟩ | ⟨hc, -⟩ | ⟨hc, -⟩ <;> simp [hc]
  · rcases h.exitCode_cases with ⟨h0, -⟩ | ⟨-, -, hmissing⟩ | ⟨h70, -⟩
    · omega
    · exact hmissing
    · omega
  · rcases h.exitCode_cases with ⟨h0, -⟩ | ⟨h65, -⟩ | ⟨-, -, -, -, hmissing⟩
    · omega
    · omega
    · exact hmissing
  · rintro rfl
    have houtput := h.output_tokenize
    rw [← h.tokens_eq] at houtput
    refine ⟨houtput, ?_⟩
    rw [houtput, htokens, List.map_append, List.map_singleton, List.getLast?_concat, text_endAt]

/-- A source with a stray character and an unclosed string, of which the tokens are asked for. -/
theorem run_shape_at :
    (run .tokenize "true @\n\"a").output = ["TRUE true null", "EOF  null"] ∧
    (run .tokenize "true @\n\"a").exitCode = 65 ∧
    OnlyLexical (run .tokenize "true @\n\"a").errors ∧ (run .tokenize "true @\n\"a").expr = none := by
  obtain ⟨-, -, -, hdata, hmissing, -, -, -, hlines, -⟩ := run_shape .tokenize "true @\n\"a"
  have hcode : (run .tokenize "true @\n\"a").exitCode = 65 := by decide
  refine ⟨?_, hcode, ?_, (hmissing hcode).1⟩
  · rw [(hlines rfl).1]
    decide
  · exact (hdata.1 hcode).resolve_right fun h => h.1 rfl

end Reckoner
