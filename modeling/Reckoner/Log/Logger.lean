/-
Loggers: they hold attributes and open groups, drop what lies below the threshold, and write
every other record to a main sink and, if there is one, to a file.
-/
import Reckoner.Log.Record

namespace Reckoner.Log

/-- The format of the main sink. -/
inductive Format where
  | text
  | json
  deriving DecidableEq, Repr

namespace Format

/-- The format with a name; every name but one is that of pairs. -/
def ofName (s : String) : Format :=
  if s = "json" then .json else .text

/-- A record in a format. -/
def line (f : Format) (stamp : String) (r : Record) : String :=
  match f with
  | .text => r.textLine stamp
  | .json => r.jsonLine stamp

end Format

/-- One step by which a logger was derived from another one. -/
inductive Scope where
  | attrs (attrs : List Attr)
  | group (name : String)

/-- A logger: the format of its main sink, whether it also writes to a file, and its scopes from
the outermost one on. -/
structure Logger where
  format : Format
  hasFile : Bool
  scopes : List Scope

/-- Something to be recorded: its level, a message with attributes, and the id of the request
that it belongs to. -/
structure Entry where
  level : Int
  message : String
  attrs : List Attr
  requestId : Option String

/-- What was added to the main sink and to the file. -/
structure Written where
  main : String
  file : String

namespace Logger

/-- A logger with further attributes; none at all change nothing. -/
def withAttrs (l : Logger) (attrs : List Attr) : Logger :=
  if attrs = [] then l else { l with scopes := l.scopes ++ [.attrs attrs] }

/-- A logger with a further open group; a group without a name changes nothing. -/
def withGroup (l : Logger) (name : String) : Logger :=
  if name = "" then l else { l with scopes := l.scopes ++ [.group name] }

/-- The fields of a record: those of the scopes, with the record's own attributes in the
innermost group. -/
def nest : List Scope → List Attr → List Field
  | [], attrs => fieldsOf attrs
  | .attrs outer :: inner, attrs => fieldsOf outer ++ nest inner attrs
  | .group name :: inner, attrs => grouped name (nest inner attrs)

/-- The attribute that carries the id of a request. -/
def requestAttr (id : String) : Attr :=
  ⟨"request_id", .text id⟩

/-- The record of an entry, unless it lies below the threshold. The id of the request, if there
is one, follows the attributes of the entry. -/
def record? (l : Logger) (threshold : Int) (e : Entry) : Option Record :=
  if e.level < threshold then none
  else some ⟨e.level, e.message, nest l.scopes (e.attrs ++ (e.requestId.map requestAttr).toList)⟩

/-- What a record adds to the main sink and to the file; a logger without a file adds nothing
there. -/
def write (l : Logger) (stamp : String) : Option Record → Written
  | none => ⟨"", ""⟩
  | some r => ⟨l.format.line stamp r, if l.hasFile then r.jsonLine stamp else ""⟩

/-- What an entry adds to the two sinks. -/
def log (l : Logger) (threshold : Int) (stamp : String) (e : Entry) : Written :=
  l.write stamp (l.record? threshold e)

end Logger

end Reckoner.Log
