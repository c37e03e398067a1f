/-
Requests and responses.
-/
import Reckoner.Json.Basic

namespace Reckoner.Http

/-- The methods that are known. -/
inductive Method where
  | get
  | head
  | post
  | put
  | delete
  | connect
  | options
  | trace
  | patch
  deriving DecidableEq, Repr

namespace Method

/-- The name of a method. -/
def name : Method → String
  | .get => "GET"
  | .head => "HEAD"
  | .post => "POST"
  | .put => "PUT"
  | .delete => "DELETE"
  | .connect => "CONNECT"
  | .options => "OPTIONS"
  | .trace => "TRACE"
  | .patch => "PATCH"

/-- All methods. -/
def all : List Method :=
  [.get, .head, .post, .put, .delete, .connect, .options, .trace, .patch]

/-- The method with a name; no name stands for `GET`. -/
def ofName? (s : String) : Option Method :=
  if s = "" then some .get else all.find? (·.name == s)

end Method

/-- A request, with the name of its method and its header fields as they were sent. -/
structure Request where
  method : String
  target : String
  headers : List (String × String)
  body : String

/-- The blanks around the value of a header field. -/
def isHeaderBlank (c : Char) : Bool :=
  c == ' ' || c == '\t' || c == '\n' || c == '\r'

/-- The value of a header field without the blanks around it. -/
def headerValue (s : String) : String :=
  String.ofList ((s.toList.dropWhile isHeaderBlank).reverse.dropWhile isHeaderBlank).reverse

/-- Text with the capitals of the ASCII alphabet in lower case. -/
def lowerAscii (s : String) : String :=
  s.map Char.toLower

namespace Request

/-- The values of the header fields with a name, in order. -/
def values (r : Request) (name : String) : List String :=
  (r.headers.filter fun (n, _) => lowerAscii n == lowerAscii name).map fun (_, v) => headerValue v

/-- The content type: the last one that was sent. -/
def contentType (r : Request) : String :=
  ((r.values "Content-Type").getLast?).getD ""

/-- The id that was sent: the first one. -/
def id (r : Request) : String :=
  ((r.values "X-Request-Id").head?).getD ""

/-- The path: the target up to a query or a fragment. -/
def path (r : Request) : String :=
  String.ofList (r.target.toList.takeWhile fun c => c != '?' && c != '#')

/-- The bytes of all that is sent before the body: the line with the method, the target and the version, a
line for each header field with a colon and a blank behind its name, and a blank line. Lines end in two
characters. -/
def headSize (r : Request) : Nat :=
  let line := r.method.utf8ByteSize + r.target.utf8ByteSize + " ".utf8ByteSize + " HTTP/1.1".utf8ByteSize + 2
  let fields := r.headers.foldl (fun size (name, value) => size + name.utf8ByteSize + value.utf8ByteSize + 4) 0
  line + fields + 2

end Request

/-- A response. -/
structure Response where
  status : Nat
  contentType : String
  requestId : Option String
  body : String

namespace Response

/-- A response with a document. -/
def json (status : Nat) (requestId : String) (document : Json) : Response :=
  ⟨status, "application/json", some requestId, document.render .document⟩

/-- The document that says what went wrong. -/
def errorDocument (message : String) : Json :=
  .object [("error", .string message)]

/-- A response that says what went wrong. -/
def error (status : Nat) (requestId message : String) : Response :=
  .json status requestId (errorDocument message)

/-- A response to a request for the header only. -/
def withoutBody (r : Response) : Response :=
  { r with body := "" }

end Response

end Reckoner.Http
