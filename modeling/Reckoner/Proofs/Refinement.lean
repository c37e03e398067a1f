/-
The modes refine one another. A source gets equally far in every mode that asks for it: where it cannot be
scanned, all modes report the same errors; where it does not parse, the modes that ask for a tree report
the same error; and a tree that is printed in one mode is the one that is evaluated in the other.

Every result is compared with the one way that a run of its mode can end (`RunsTo`), so that no two runs
have to be opened at once.
-/
import Reckoner.Proofs.RunShape

namespace Reckoner

variable {mode : Mode} {scanned : Scan} {res : Result}

/-! ## The way that a run ends -/

theorem RunsTo.of_misread (h : RunsTo mode scanned res) (hs : scanned.errors ≠ []) :
    res.errors = scanned.errors.map (·.diagnostic) ∧ res.exitCode = 65 := by
  cases h with
  | misread => exact ⟨rfl, rfl⟩
  | tokenized hs' | unparsed hs' | parsed hs' | failed hs' | evaluated hs' => exact absurd hs' hs

theorem RunsTo.of_tokenized (h : RunsTo .tokenize scanned res) (hs : scanned.errors = []) :
    res.errors = [] ∧ res.exitCode = 0 := by
  cases h with
  | misread hs' => exact absurd hs hs'
  | tokenized => exact ⟨rfl, rfl⟩
  | unparsed _ hmode | failed _ hmode | evaluated _ hmode => exact absurd rfl hmode
  | parsed _ hmode => cases hmode

theorem RunsTo.of_unparsed (h : RunsTo mode scanned res) (hs : scanned.errors = []) (hmode : mode ≠ .tokenize)
    {err : ParseError} (hparse : (parse (.ofTokens scanned.tokens)).1 = .error err) :
    res.errors = [err.diagnostic] ∧ res.exitCode = 65 := by
  cases h with
  | misread hs' => exact absurd hs hs'
  | tokenized _ hmode' => exact absurd hmode' hmode
  | unparsed _ _ hparse' =>
    cases hparse.symm.trans hparse'
    exact ⟨rfl, rfl⟩
  | parsed _ _ hparse' | failed _ _ _ hparse' | evaluated _ _ _ hparse' =>
    cases hparse.symm.trans hparse'

theorem RunsTo.of_parsed (h : RunsTo .parse scanned res) (hs : scanned.errors = []) {e : Expr}
    (hparse : (parse (.ofTokens scanned.tokens)).1 = .ok e) :
    res.expr = some e ∧ res.output = [e.display] ∧ res.errors = [] ∧ res.exitCode = 0 := by
  cases h with
  | misread hs' => exact absurd hs hs'
  | tokenized _ hmode => cases hmode
  | unparsed _ _ hparse' =>
    cases hparse.symm.trans hparse'
  | parsed _ _ hparse' =>
    cases hparse.symm.trans hparse'
    exact ⟨rfl, rfl, rfl, rfl⟩
  | failed _ _ hmode | evaluated _ _ hmode => exact absurd rfl hmode

/-- A result that holds the outcome of evaluating a tree, which is a value or a complaint of an operator. -/
inductive Settles (e : Expr) (res : Result) : Prop
  | value {v : Value} : e.eval = .ok v → res.value = some v → res.output = [v.display] → res.errors = [] →
      res.exitCode = 0 → Settles e res
  | failure {op : Token} {fault : TypeFault} : e.eval = .error (.operandTypes op fault) → res.value = none →
      res.output = [] → res.errors = [.runtime op fault.message] → res.exitCode = 70 → Settles e res

theorem RunsTo.of_evaluated (h : RunsTo .evaluate scanned res) (hs : scanned.errors = []) {e : Expr}
    (hparse : (parse (.ofTokens scanned.tokens)).1 = .ok e) : res.expr = some e ∧ Settles e res := by
  cases h with
  | misread hs' => exact absurd hs hs'
  | tokenized _ hmode | parsed _ hmode => cases hmode
  | unparsed _ _ hparse' =>
    cases hparse.symm.trans hparse'
  | failed _ _ _ hparse' heval =>
    cases hparse.symm.trans hparse'
    exact ⟨rfl, .failure heval rfl rfl rfl rfl⟩
  | evaluated _ _ _ hparse' heval =>
    cases hparse.symm.trans hparse'
    exact ⟨rfl, .value heval rfl rfl rfl rfl⟩

/-! ## Three runs of a source -/

/-- The modes refine one another on every source. If scanning it reports errors, then parsing and evaluating
it report just these, with the same status 65. Otherwise, if parsing it reports an error, it is the only one,
and evaluating the source reports it too, with status 65. Otherwise the tree that is evaluated is the one that
was parsed and printed, and what comes of the run is what comes of the tree, with status 70 if this is a
failure. So a status of 0 or 70 when evaluating means that parsing succeeds, and this means that scanning
does; and the tokens are the same in every mode. -/
theorem modes_refine (source : String) :
    let tokenized := run .tokenize source
    let parsed := run .parse source
    let evaluated := run .evaluate source
    (tokenized.errors ≠ [] →
      parsed.errors = tokenized.errors ∧ evaluated.errors = tokenized.errors ∧
      tokenized.exitCode = 65 ∧ parsed.exitCode = 65 ∧ evaluated.exitCode = 65) ∧
    (tokenized.errors = [] → parsed.errors ≠ [] →
      (∃ err, parsed.errors = [err] ∧ evaluated.errors = [err]) ∧
      parsed.exitCode = 65 ∧ evaluated.exitCode = 65) ∧
    (tokenized.errors = [] → parsed.errors = [] →
      ∃ e, parsed.expr = some e ∧ parsed.output = [e.display] ∧ evaluated.expr = some e ∧ Settles e evaluated) ∧
    (evaluated.exitCode = 0 ∨ evaluated.exitCode = 70 → parsed.exitCode = 0) ∧
    (parsed.exitCode = 0 → tokenized.exitCode = 0) ∧
    ∀ mode, (run mode source).tokens = tokenized.tokens := by
  intro tokenized parsed evaluated
  have ht : RunsTo .tokenize (scan source.toList) tokenized := run_runsTo .tokenize source
  have hp : RunsTo .parse (scan source.toList) parsed := run_runsTo .parse source
  have hv : RunsTo .evaluate (scan source.toList) evaluated := run_runsTo .evaluate source
  have htokens (mode : Mode) : (run mode source).tokens = tokenized.tokens := by
    rw [(run_runsTo mode source).tokens_eq, ht.tokens_eq]
  -- how far the source gets does not depend on the mode
  by_cases hs : (scan source.toList).errors = []
  · obtain ⟨hte, htc⟩ := ht.of_tokenized hs
    cases hparse : (parse (.ofTokens (scan source.toList).tokens)).1 with
    | error err =>
      obtain ⟨hpe, hpc⟩ := hp.of_unparsed hs (by decide) hparse
      obtain ⟨hve, hvc⟩ := hv.of_unparsed hs (by decide) hparse
      refine ⟨fun h => absurd hte h, fun _ _ => ⟨⟨_, hpe, hve⟩, hpc, hvc⟩, fun _ h => ?_, ?_, ?_, htokens⟩
      · rw [hpe] at h
        cases h
      · rintro (h | h) <;> omega
      · intro _
        exact htc
    | ok e =>
      obtain ⟨hpx, hpo, hpe, hpc⟩ := hp.of_parsed hs hparse
      obtain ⟨hvx, hsettles⟩ := hv.of_evaluated hs hparse
      exact ⟨fun h => absurd hte h, fun _ h => absurd hpe h, fun _ _ => ⟨e, hpx, hpo, hvx, hsettles⟩,
        fun _ => hpc, fun _ => htc, htokens⟩
  · obtain ⟨hte, htc⟩ := ht.of_misread hs
    obtain ⟨hpe, hpc⟩ := hp.of_misread hs
    obtain ⟨hve, hvc⟩ := hv.of_misread hs
    have hne : tokenized.errors ≠ [] := by simpa [hte] using hs
    refine ⟨fun _ => ⟨hpe.trans hte.symm, hve.trans hte.symm, htc, hpc, hvc⟩, fun h => absurd h hne,
      fun h => absurd h hne, ?_, ?_, htokens⟩
    · rintro (h | h) <;> omega
    · intro h
      omega

/-- A source that can be scanned and parsed and has no value, and one whose error is found by the parser. -/
theorem modes_refine_at :
    ((run .evaluate "-(nil)").exitCode = 70 ∧ (run .parse "-(nil)").exitCode = 0 ∧
      (run .tokenize "-(nil)").exitCode = 0) ∧
    (run .tokenize "(nil\n;").errors = [] ∧ (run .parse "(nil\n;").errors ≠ [] ∧
      ∃ err, (run .parse "(nil\n;").errors = [err] ∧ (run .evaluate "(nil\n;").errors = [err] := by
  obtain ⟨-, -, -, hparsed, htokenized, -⟩ := modes_refine "-(nil)"
  obtain ⟨-, hunparsed, -⟩ := modes_refine "(nil\n;"
  have hcode : (run .evaluate "-(nil)").exitCode = 70 := by decide
  have hscanned : (run .tokenize "(nil\n;").errors = [] := by rfl
  have hfailed : (run .parse "(nil\n;").errors ≠ [] := by
    intro h
    have hlength := congrArg List.length h
    exact absurd hlength (by decide)
  exact ⟨⟨hcode, hparsed (.inr hcode), htokenized (hparsed (.inr hcode))⟩, hscanned, hfailed,
    (hunparsed hscanned hfailed).1⟩

end Reckoner
