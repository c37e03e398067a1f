/-
Exit statuses, with the numbers that system programs use for them.
-/
namespace Reckoner.Exit

/-- Nothing went wrong. -/
def success : Nat := 0

/-- The command line or the settings are wrong. -/
def usage : Nat := 64

/-- The source does not scan or parse. -/
def dataError : Nat := 65

/-- The source cannot be read. -/
def noInput : Nat := 66

/-- The source fails when evaluated, or the program cannot go on. -/
def software : Nat := 70

end Reckoner.Exit
