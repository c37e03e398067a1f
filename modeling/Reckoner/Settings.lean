/-
Settings: defaults, over which a file, the environment and the command line are laid, each as far
as it says anything.
-/
import Reckoner.Disk
import Reckoner.Duration
import Reckoner.Log.Journal
import Reckoner.Yaml.Record

namespace Reckoner

/-- The settings of the server. Timeouts are in nanoseconds. -/
structure ServerSettings where
  addr : String
  readTimeout : Int
  writeTimeout : Int
  maxSourceSize : Int
  deriving DecidableEq, Repr

/-- The settings of the interactive prompt. -/
structure PromptSettings where
  prompt : String
  historyFile : String
  deriving DecidableEq, Repr

/-- All settings. -/
structure Settings where
  log : Log.Options
  server : ServerSettings
  repl : PromptSettings
  deriving DecidableEq, Repr

/-- What one source says about the settings. -/
structure Overrides where
  level : Option String
  format : Option String
  file : Option String
  addr : Option String
  readTimeout : Option Int
  writeTimeout : Option Int
  maxSourceSize : Option Int
  prompt : Option String
  historyFile : Option String
  deriving DecidableEq, Repr

namespace Overrides

/-- A source that says nothing. -/
def nothing : Overrides :=
  ⟨none, none, none, none, none, none, none, none, none⟩

end Overrides

namespace Settings

/-- The settings when nothing is said. -/
def default : Settings where
  log := ⟨"info", "text", ""⟩
  server := ⟨":8080", 30 * Duration.second, 30 * Duration.second, 1048576⟩
  repl := ⟨"> ", ""⟩

/-- Settings under what a source says. -/
def under (s : Settings) (o : Overrides) : Settings where
  log := ⟨o.level.getD s.log.level, o.format.getD s.log.format, o.file.getD s.log.file⟩
  server := ⟨o.addr.getD s.server.addr, o.readTimeout.getD s.server.readTimeout,
    o.writeTimeout.getD s.server.writeTimeout, o.maxSourceSize.getD s.server.maxSourceSize⟩
  repl := ⟨o.prompt.getD s.repl.prompt, o.historyFile.getD s.repl.historyFile⟩

end Settings

/-! ## Files -/

/-- A section of a file: the document that it stands in and its fields. -/
structure Section where
  document : Yaml.Document
  fields : Yaml.Fields

namespace Section

/-- The section under a key with its own keys, if it is well formed. A missing one is empty. -/
def inner? (s : Section) (key : String) (keys : List String) : Option Section :=
  match s.fields.entries.lookup key with
  | none => some ⟨s.document, .none⟩
  | some value => (s.document.record? keys value).map (⟨s.document, ·⟩)

/-- What the scalar under a key denotes, and its text, if there is one and it denotes something. -/
def scalar? (s : Section) (key : String) : Option (Option (Yaml.Meaning × String)) :=
  match s.fields.entries.lookup key with
  | none => some none
  | some value =>
    (s.document.scalar? value).map fun scalar => if scalar.1 = .null then none else some scalar

/-- A text: that of any scalar, as it is written. -/
def text? (s : Section) (key : String) : Option (Option String) :=
  (s.scalar? key).map fun scalar => scalar.map fun (meaning, text) =>
    match meaning with
    | .text s => s
    | _ => text

/-- A number of 64 bits that a scalar denotes. A fraction is cut to its integer part, and one far
below zero counts as the least number. -/
def number? : Yaml.Meaning → Option Int
  | .int n => if Number.Word.fits n then some n else none
  | .fraction n =>
    if Number.Word.greatest + 1 < n then none
    else if Number.Word.fits n then some n else some Number.Word.least
  | .infinite true => some Number.Word.least
  | _ => none

/-- A number of 64 bits. -/
def int? (s : Section) (key : String) : Option (Option Int) :=
  match s.scalar? key with
  | none => none
  | some none => some none
  | some (some (meaning, _)) => (number? meaning).map some

/-- A duration, which is written as text. -/
def duration? (s : Section) (key : String) : Option (Option Int) :=
  match s.scalar? key with
  | none => none
  | some none => some none
  | some (some (.text text, _)) => (Duration.parse? text).map some
  | some (some _) => none

end Section

/-- What a document says about the settings. -/
def Overrides.ofDocument? (document : Yaml.Document) : Option Overrides := do
  let top : Section :=
    ⟨document, ← document.record? ["log", "server", "repl"] ⟨document.root, []⟩⟩
  let log ← top.inner? "log" ["level", "format", "file"]
  let server ← top.inner? "server" ["addr", "read_timeout", "write_timeout", "max_source_size"]
  let repl ← top.inner? "repl" ["prompt", "history_file"]
  return {
    level := ← log.text? "level"
    format := ← log.text? "format"
    file := ← log.text? "file"
    addr := ← server.text? "addr"
    readTimeout := ← server.duration? "read_timeout"
    writeTimeout := ← server.duration? "write_timeout"
    maxSourceSize := ← server.int? "max_source_size"
    prompt := ← repl.text? "prompt"
    historyFile := ← repl.text? "history_file" }

/-- What the text of a file says about the settings. -/
def Overrides.ofText? (text : String) : Option Overrides :=
  (Yaml.read? text).bind Overrides.ofDocument?

/-! ## The environment -/

/-- A text that says something unless it is empty. -/
def nonEmpty (s : String) : Option String :=
  if s = "" then none else some s

/-- What the environment says about the settings. -/
def Overrides.ofEnvironment (env : String → String) : Overrides :=
  { Overrides.nothing with
    level := nonEmpty (env "GLOX_LOG_LEVEL")
    format := nonEmpty (env "GLOX_LOG_FORMAT")
    file := nonEmpty (env "GLOX_LOG_FILE")
    addr := nonEmpty (env "GLOX_ADDR")
    prompt := nonEmpty (env "GLOX_PROMPT")
    historyFile := nonEmpty (env "GLOX_HISTORY_FILE") }

/-! ## Loading -/

/-- Why settings cannot be loaded. -/
inductive LoadError where
  | unreadable (path : String) (error : FileError)
  | malformed (path : String)
  deriving DecidableEq, Repr

namespace LoadError

/-- The text of a failure. -/
def message : LoadError → String
  | .unreadable path e => "read config " ++ path ++ ": " ++ e.message
  | .malformed path => "parse config " ++ path ++ ": not a mapping of settings"

end LoadError

namespace Settings

/-- The file that is read when none is named. -/
def defaultPath : String := "glox.yaml"

/-- The file to read: the one that is named, else the one that the environment names. -/
def chosenPath (env : String → String) (path : String) : String :=
  (nonEmpty path).getD ((nonEmpty (env "GLOX_CONFIG")).getD defaultPath)

/-- The file may be missing: nobody named one, or no other one than the default. -/
def mayBeMissing (env : String → String) (path : String) : Bool :=
  path == "" && chosenPath env path == defaultPath

/-- What the chosen file says. -/
def fileOverrides (disk : Disk) (env : String → String) (path : String) :
    Except LoadError Overrides :=
  let chosen := chosenPath env path
  match disk.read chosen with
  | .ok text =>
    match Overrides.ofText? text with
    | some o => .ok o
    | none => .error (.malformed chosen)
  | .error e =>
    if e.fault = .missing && mayBeMissing env path then .ok .nothing
    else .error (.unreadable chosen e)

/-- Loads the settings: the file goes over the defaults and the environment over the file. -/
def load (disk : Disk) (env : String → String) (path : String) : Except LoadError Settings :=
  (fileOverrides disk env path).map fun o => (default.under o).under (.ofEnvironment env)

/-! ## Validation -/

/-- A setting with a value that is not supported. -/
inductive Fault where
  | level (text : String)
  | format (text : String)
  | maxSourceSize (n : Int)
  deriving DecidableEq, Repr

/-- The text that names a fault. -/
def Fault.message : Fault → String
  | .level text => "unknown log level " ++ Text.quote text
  | .format text => "unknown log format " ++ Text.quote text
  | .maxSourceSize n => "server.max_source_size must be positive, got " ++ toString n

/-- The levels that the settings may name. -/
def levels : List String :=
  ["debug", "info", "warn", "error"]

/-- The formats that the settings may name. -/
def formats : List String :=
  ["text", "json"]

/-- The first fault of the settings. -/
def fault? (s : Settings) : Option Fault :=
  if s.log.level ∉ levels then some (.level s.log.level)
  else if s.log.format ∉ formats then some (.format s.log.format)
  else if s.server.maxSourceSize ≤ 0 then some (.maxSourceSize s.server.maxSourceSize)
  else none

end Settings

end Reckoner
