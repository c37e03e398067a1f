/-
Journals: a family of loggers that share a threshold and a log file. The first one is made from
the settings and all others are derived from it.
-/
import Reckoner.Disk
import Reckoner.Log.Logger

namespace Reckoner.Log

/-- What the first logger is made from. An empty file name stands for none. -/
structure Options where
  level : String
  format : String
  file : String
  deriving DecidableEq, Repr

/-- Why no logger can be made. -/
inductive OpenError where
  | level (text : String) (fault : LevelFault)
  | file (error : FileError)
  deriving DecidableEq, Repr

namespace OpenError

/-- The text of a failure. -/
def message : OpenError → String
  | .level text fault => fault.describe text
  | .file e => "open log file: " ++ e.message

end OpenError

/-- A journal: the threshold that holds for all loggers, and the loggers by number. -/
structure Journal where
  threshold : Int
  loggers : List Logger

namespace Journal

/-- Makes the first logger. The level is judged before the file is opened; a file that is not
there is made. -/
def start (options : Options) (disk : Disk) : Except OpenError (Journal × Disk) :=
  match levelOf options.level with
  | .error fault => .error (.level options.level fault)
  | .ok threshold =>
    let logger : Logger := ⟨.ofName options.format, options.file != "", []⟩
    if options.file = "" then .ok (⟨threshold, [logger]⟩, disk)
    else match disk.append options.file "" with
      | .error e => .error (.file e)
      | .ok disk' => .ok (⟨threshold, [logger]⟩, disk')

/-- The logger with a number. -/
def logger? (j : Journal) (n : Nat) : Option Logger :=
  j.loggers[n]?

/-- Sets the threshold for all loggers. A text that names no level changes nothing. -/
def setLevel (j : Journal) (text : String) : Journal × Option LevelFault :=
  match levelOf text with
  | .ok threshold => ({ j with threshold := threshold }, none)
  | .error fault => (j, some fault)

/-- Adds a logger that is derived from another one. -/
def derive (j : Journal) (n : Nat) (f : Logger → Logger) : Journal :=
  { j with loggers := j.loggers ++ ((j.logger? n).map f).toList }

/-- What an entry adds to the sinks when a logger records it. -/
def log (j : Journal) (n : Nat) (stamp : String) (e : Entry) : Written :=
  match j.logger? n with
  | some l => l.log j.threshold stamp e
  | none => ⟨"", ""⟩

end Journal

end Reckoner.Log
