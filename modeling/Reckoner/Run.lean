/-
Runs: a source is scanned, parsed and evaluated, as far as the mode asks. The lexical errors, the
parse error or the runtime error end a run; in tokenize mode the tokens are output all the same.
-/
import Reckoner.Diagnostic
import Reckoner.Mode
import Reckoner.Reporter
import Reckoner.Channel

namespace Reckoner

/-- Everything that a run of a source produces. -/
structure Result where
  mode : Mode
  tokens : List Token
  expr : Option Expr
  value : Option Value
  output : List String
  errors : List Diagnostic
  exitCode : Nat

/-- The stage after scanning without errors. -/
def runTokens (mode : Mode) (tokens : List Token) : Result :=
  match (parse (.ofTokens tokens)).1 with
  | .error err => ⟨mode, tokens, none, none, [], [err.diagnostic], Exit.dataError⟩
  | .ok e =>
    if mode = .parse then ⟨mode, tokens, some e, none, [e.display], [], Exit.success⟩
    else match e.eval with
      | .error err => ⟨mode, tokens, some e, none, [], [err.diagnostic], Exit.software⟩
      | .ok v => ⟨mode, tokens, some e, some v, [v.display], [], Exit.success⟩

/-- Takes a source through the stages of a mode. -/
def run (mode : Mode) (source : String) : Result :=
  let scanned := scan source.toList
  let lines := if mode = .tokenize then scanned.tokens.map (·.text) else []
  if scanned.errors ≠ [] then
    ⟨mode, scanned.tokens, none, none, lines, scanned.errors.map (·.diagnostic), Exit.dataError⟩
  else if mode = .tokenize then ⟨mode, scanned.tokens, none, none, lines, [], Exit.success⟩
  else runTokens mode scanned.tokens

/-- What printing a result leaves behind. -/
structure Printed where
  reports : List String
  reporter : Reporter
  channel : Channel
  complete : Bool

/-- Prints a result: first all errors to the reporter, then the output lines to the channel until
one is refused. -/
def Result.print (res : Result) (reporter : Reporter) (channel : Channel) : Printed :=
  let (complete, channel') := channel.writeAll (res.output.map endLine)
  ⟨res.errors.map (·.text), res.errors.foldl Reporter.note reporter, channel', complete⟩

end Reckoner
