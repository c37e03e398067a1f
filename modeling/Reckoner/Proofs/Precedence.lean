/-
Which source a setting comes from. Flags go over the environment, the environment over the file, and the
file over the defaults, each as far as it says something. A file says something under each of its keys
that is there and does not stand for null, and it may be missing if nobody named it. What it says is stated
about the nodes of its document, apart from how they are read (`Overrides.SaidBy`).
Only what comes of all sources together is judged, so a value that another one goes over is never
looked at.

That two sources laid over settings one after the other are one source (`under_under`) reduces the whole
to what each field of that one source says.
-/
import Reckoner.Command.Execute
import Reckoner.Proofs.Records
import Mathlib.Algebra.Group.Int.Defs

namespace Reckoner

/-! ## Sources in their order -/

/-- What the first source that says something says, or else the default. -/
def firstSaid {α : Type} (sources : List (Option α)) (default : α) : α :=
  (sources.findSome? id).getD default

@[simp] theorem firstSaid_nil {α : Type} (default : α) : firstSaid [] default = default := rfl

@[simp] theorem firstSaid_cons {α : Type} (said : Option α) (sources : List (Option α)) (default : α) :
    firstSaid (said :: sources) default = said.getD (firstSaid sources default) := by
  cases said <;> rfl

namespace Section

/-- As a text, a scalar denotes what it says or, where that is no text, its own letters. -/
def asText (meaning : Yaml.Meaning) (letters : String) : Option String :=
  some (meaning.spelling letters)

/-- As a number of 64 bits, a scalar denotes an integer in their range or the integer part of a fraction. A
fraction below the range counts as the least number, and so does the first one above it. -/
def asNumber : Yaml.Meaning → String → Option Int
  | .int n, _ => if -2 ^ 63 ≤ n ∧ n < 2 ^ 63 then some n else none
  | .fraction n, _ =>
    if n < -2 ^ 63 ∨ n = 2 ^ 63 then some (-2 ^ 63)
    else if n < 2 ^ 63 then some n
    else none
  | .infinite true, _ => some (-2 ^ 63)
  | _, _ => none

/-- As a duration, a scalar denotes the one that is written in it, if it is text. -/
def asDuration : Yaml.Meaning → String → Option Int
  | .text text, _ => Duration.parse? text
  | _, _ => none

variable {document : Yaml.Document} {fields : Yaml.Fields} {pairs : List (String × Yaml.Located)}

variable {known keys : List String} {name : String}

end Section

namespace Overrides

open Section

/-- The sections of a document, with their keys. -/
def sections : List (String × List String) :=
  [("log", ["level", "format", "file"]),
    ("server", ["addr", "read_timeout", "write_timeout", "max_source_size"]),
    ("repl", ["prompt", "history_file"])]

/-- A document that merges nothing, neither at its top nor in a section. -/
structure Plain (document : Yaml.Document) : Prop where
  top : document.Plain (sections.map (·.1)) ⟨document.root, []⟩
  inner : ∀ name keys, (name, keys) ∈ sections → ∀ top value, document.IsRecord ⟨document.root, []⟩ top →
    top.lookup name = some value → document.Plain keys value

/-- What a document says in its sections, each setting under its own key. -/
structure SaidIn (o : Overrides) (document : Yaml.Document) (log server repl : List (String × Yaml.Located)) :
    Prop where
  level : document.Says log "level" asText o.level
  format : document.Says log "format" asText o.format
  file : document.Says log "file" asText o.file
  addr : document.Says server "addr" asText o.addr
  readTimeout : document.Says server "read_timeout" asDuration o.readTimeout
  writeTimeout : document.Says server "write_timeout" asDuration o.writeTimeout
  maxSourceSize : document.Says server "max_source_size" asNumber o.maxSourceSize
  prompt : document.Says repl "prompt" asText o.prompt
  historyFile : document.Says repl "history_file" asText o.historyFile

/-- What a document says is what its sections list. -/
def SaidBy (o : Overrides) (document : Yaml.Document) : Prop :=
  ∃ log server repl, document.InSection "log" log ∧ document.InSection "server" server ∧
    document.InSection "repl" repl ∧ o.SaidIn document log server repl

variable {document : Yaml.Document} {o o' : Overrides}

theorem SaidBy.unique (h : o.SaidBy document) (h' : o'.SaidBy document) : o = o' := by
  obtain ⟨log, server, repl, hlog, hserver, hrepl, hsaid⟩ := h
  obtain ⟨log', server', repl', hlog', hserver', hrepl', hsaid'⟩ := h'
  obtain rfl := hlog.unique hlog'
  obtain rfl := hserver.unique hserver'
  obtain rfl := hrepl.unique hrepl'
  rw [Overrides.mk.injEq]
  exact ⟨hsaid.level.unique hsaid'.level, hsaid.format.unique hsaid'.format, hsaid.file.unique hsaid'.file,
    hsaid.addr.unique hsaid'.addr, hsaid.readTimeout.unique hsaid'.readTimeout,
    hsaid.writeTimeout.unique hsaid'.writeTimeout, hsaid.maxSourceSize.unique hsaid'.maxSourceSize,
    hsaid.prompt.unique hsaid'.prompt, hsaid.historyFile.unique hsaid'.historyFile⟩

end Overrides

namespace Settings

end Settings

namespace Command

/-- The settings are what comes of the flags, the environment and what the file says: for each of them
the first source that says something, in the order in which the sources are listed. -/
structure Merged (env : String → String) (p : Parsed) (o : Overrides) (s : Settings) : Prop where
  level : s.log.level =
    firstSaid [nonEmpty p.logLevel, nonEmpty (env "GLOX_LOG_LEVEL"), o.level] "info"
  format : s.log.format =
    firstSaid [nonEmpty p.logFormat, nonEmpty (env "GLOX_LOG_FORMAT"), o.format] "text"
  file : s.log.file = firstSaid [nonEmpty (env "GLOX_LOG_FILE"), o.file] ""
  addr : s.server.addr = firstSaid [nonEmpty (env "GLOX_ADDR"), o.addr] ":8080"
  listen : listenAddress s.server p =
    firstSaid [nonEmpty p.addr, nonEmpty (env "GLOX_ADDR"), o.addr] ":8080"
  readTimeout : s.server.readTimeout = firstSaid [o.readTimeout] (30 * Duration.second)
  writeTimeout : s.server.writeTimeout = firstSaid [o.writeTimeout] (30 * Duration.second)
  maxSourceSize : s.server.maxSourceSize = firstSaid [o.maxSourceSize] 1048576
  prompt : s.repl.prompt = firstSaid [nonEmpty (env "GLOX_PROMPT"), o.prompt] "> "
  historyFile : s.repl.historyFile = firstSaid [nonEmpty (env "GLOX_HISTORY_FILE"), o.historyFile] ""

/-- No other settings come of the same sources. -/
theorem Merged.unique {env : String → String} {p : Parsed} {o : Overrides} {s s' : Settings}
    (h : Merged env p o s) (h' : Merged env p o s') : s = s' := by
  obtain ⟨⟨level, format, file⟩, ⟨addr, readTimeout, writeTimeout, maxSourceSize⟩, ⟨prompt, historyFile⟩⟩ := s
  obtain rfl := h.level.trans h'.level.symm
  obtain rfl := h.format.trans h'.format.symm
  obtain rfl := h.file.trans h'.file.symm
  obtain rfl := h.addr.trans h'.addr.symm
  obtain rfl := h.readTimeout.trans h'.readTimeout.symm
  obtain rfl := h.writeTimeout.trans h'.writeTimeout.symm
  obtain rfl := h.maxSourceSize.trans h'.maxSourceSize.symm
  obtain rfl := h.prompt.trans h'.prompt.symm
  obtain rfl := h.historyFile.trans h'.historyFile.symm
  rfl

end Command

end Reckoner
