/-
Request bodies: the source that a body holds, as JSON or as a form. The server is open to other ways of
finding the source of a request; this is the one for the two kinds of body that clients of it send.
-/
import Reckoner.Form
import Reckoner.Http.Message
import Reckoner.Json.Reader

namespace Reckoner.Http

/-- A source that was sent, with its size in bytes. -/
structure Source where
  text : String
  size : Nat

namespace Source

/-- A source given as text. -/
def ofText (s : String) : Source :=
  ⟨s, s.utf8ByteSize⟩

/-- A source given as bytes. -/
def ofBytes (bytes : List UInt8) : Source :=
  ⟨String.ofList (Text.Utf8.decode bytes), bytes.length⟩

/-- The source that is meant when none is given. -/
def empty : Source := ⟨"", 0⟩

end Source

/-- A way to find the source of a request, or else a text that says why there is none. -/
abbrev Decoder :=
  Request → Except String Source

/-- Why a body holds no source. -/
inductive BodyFault where
  | unsupportedType
  | malformedJson
  | malformedForm
  deriving DecidableEq, Repr

namespace BodyFault

/-- The wording of a fault. -/
def message : BodyFault → String
  | .unsupportedType => "Unprocessable Entity"
  | .malformedJson => "no JSON object with a source text"
  | .malformedForm => "unmatched brackets"

end BodyFault

/-! ## Content types -/

/-- The ways a body can be read. -/
inductive BodyKind where
  | json
  | form
  deriving DecidableEq, Repr

/-- A content type without its parameters. -/
def withoutParameters (cs : List Char) : List Char :=
  cs.takeWhile (· != ';')

/-- A content type in which the suffix behind a plus sign takes the place of the subtype. -/
def structuredType (cs : List Char) : List Char :=
  let base := withoutParameters cs
  if base.contains '+' && cs.contains '/' then
    cs.takeWhile (· != '/') ++ '/' :: ((base.dropWhile (· != '+')).drop 1)
  else base

/-- The type of forms. -/
def formType : String :=
  "application/x-www-form-urlencoded"

/-- The way to read a body with a content type. -/
def BodyKind.ofContentType? (contentType : String) : Option BodyKind :=
  let type := structuredType (lowerAscii contentType).toList
  if "json".toList.isSuffixOf type then some .json
  else if formType.toList.isPrefixOf type then some .form
  else none

/-! ## Sources -/

/-- The letter that stands for all its variants in keys. -/
def foldLetter (c : Char) : Char :=
  if c = 'ſ' then 's' else c.toLower

/-- A key that stands for the source, in any case. -/
def isSourceKey (key : List Char) : Bool :=
  key.map foldLetter == "source".toList

/-- The source after one more member of the document. A null leaves it as it was. -/
def takeMember (source : Source) : String × Json → Except BodyFault Source
  | (key, value) =>
    if isSourceKey key.toList then
      match value with
      | .string s => .ok (.ofText s)
      | .null => .ok source
      | _ => .error .malformedJson
    else .ok source

/-- The source in a document. -/
def sourceOfJson (body : String) : Except BodyFault Source :=
  match Json.read? body with
  | some (.object members) => members.foldlM takeMember .empty
  | some .null => .ok .empty
  | _ => .error .malformedJson

/-- The source after one more pair of the form. -/
def takePair (source : Source) : List UInt8 × List UInt8 → Except BodyFault Source
  | (key, value) =>
    match Form.resolve? (Text.Utf8.decode key) with
    | none => .error .malformedForm
    | some k => .ok (if isSourceKey k then .ofBytes value else source)

/-- The source in a form. -/
def sourceOfForm (body : String) : Except BodyFault Source :=
  (Form.pairs body.toUTF8.toList).foldlM takePair .empty

/-- The source in a body with a content type, where this is that of a document or of a form. A form is only
looked into if its type is spelled in lower case and without a suffix; any other one has no pairs. -/
def sourceOf (contentType body : String) : Except BodyFault Source :=
  match BodyKind.ofContentType? contentType with
  | none => .error .unsupportedType
  | some .json => sourceOfJson body
  | some .form => if contentType.startsWith formType then sourceOfForm body else .ok .empty

/-- The way to find a source in a document or in a form that is sent as it is. -/
def Decoder.plain : Decoder := fun r =>
  (sourceOf r.contentType r.body).mapError BodyFault.message

end Reckoner.Http
