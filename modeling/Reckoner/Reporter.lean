/-
Reporters: they write every diagnostic as it comes and remember which sorts they have seen.
-/
import Reckoner.Diagnostic
import Reckoner.Exit

namespace Reckoner

/-- What a reporter has seen since it was last reset. -/
structure Reporter where
  sawError : Bool
  sawRuntimeError : Bool
  deriving DecidableEq, Repr

namespace Reporter

/-- A reporter that has seen nothing. -/
def fresh : Reporter :=
  ⟨false, false⟩

/-- Takes note of a diagnostic. -/
def note (r : Reporter) (d : Diagnostic) : Reporter :=
  if d.isRuntime then { r with sawRuntimeError := true } else { r with sawError := true }

/-- The exit status for what was seen: runtime errors come before all others. -/
def exitCode (r : Reporter) : Nat :=
  if r.sawRuntimeError then Exit.software
  else if r.sawError then Exit.dataError
  else Exit.success

end Reporter

end Reckoner
