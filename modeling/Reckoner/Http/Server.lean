/-
The server: it runs the sources that it is sent, one mode for each path, and says whether it is
alive. A request that is too large is refused before any of this; every other response to a known
method carries the id of its request.
-/
import Reckoner.Http.Body
import Reckoner.Log.Logger
import Reckoner.Number.Word
import Reckoner.RequestId
import Reckoner.Run

namespace Reckoner.Http

/-- What the paths lead to. -/
inductive Route where
  | health
  | pipeline (mode : Mode)
  deriving DecidableEq, Repr

namespace Route

/-- The route of a path. Neither case nor slashes at the end matter. -/
def ofPath? (path : String) : Option Route :=
  let cs := (lowerAscii path).toList
  let trimmed := if 1 < cs.length then (cs.reverse.dropWhile (· == '/')).reverse else cs
  match String.ofList trimmed with
  | "/healthz" => some .health
  | "/v1/tokenize" => some (.pipeline .tokenize)
  | "/v1/parse" => some (.pipeline .parse)
  | "/v1/evaluate" => some (.pipeline .evaluate)
  | _ => none

/-- The methods that a route serves. -/
def serves : Route → Method → Bool
  | .health, m => m == .get || m == .head
  | .pipeline _, m => m == .post

end Route

/-- A server: the size of the largest source it runs. -/
structure Server where
  maxSourceSize : Int

/-- What serving a request leads to: the response and what is logged. -/
structure Served where
  response : Response
  entries : List Log.Entry

/-! ## The transport -/

/-- The limit for bodies that applies when the configured one cannot. -/
def defaultBodyLimit : Int := 4 * 1024 * 1024

/-- The limit for bodies: some room beyond the largest source, in 64 bits. -/
def Server.bodyLimit (s : Server) : Int :=
  let limit := Number.Word.wrap (s.maxSourceSize + 1024)
  if 0 < limit then limit else defaultBodyLimit

/-- The transport lets a body through that keeps to the limit. -/
def Server.admits (s : Server) (body : String) : Bool :=
  body.utf8ByteSize ≤ s.bodyLimit

/-- The size of the buffer that the head of a request has to fit. -/
def readBufferSize : Nat := 4096

/-- Why the transport refuses a request. -/
inductive Refusal where
  | headTooLarge
  | bodyTooLarge
  deriving DecidableEq, Repr

namespace Refusal

/-- The status of a refusal. -/
def status : Refusal → Nat
  | .headTooLarge => 431
  | .bodyTooLarge => 413

/-- The wording of a refusal. -/
def message : Refusal → String
  | .headTooLarge => "Request Header Fields Too Large"
  | .bodyTooLarge => "Request Entity Too Large"

/-- The response of a refusal. No id was chosen for the request yet. -/
def response (refusal : Refusal) : Response :=
  ⟨refusal.status, "application/json", none, (Response.errorDocument refusal.message).render .document⟩

end Refusal

/-- Whether the transport refuses a request, and why. It reads the head before the body. -/
def Server.refusal? (s : Server) (r : Request) : Option Refusal :=
  if readBufferSize < r.headSize then some .headTooLarge
  else if s.admits r.body then none
  else some .bodyTooLarge

/-! ## Documents -/

/-- A token as a document. -/
def tokenDocument (t : Token) : Json :=
  .object [("kind", .string t.kind.name), ("lexeme", .string t.lexeme),
    ("literal", (t.literal.map fun v => Json.string v.display).getD .null), ("line", .int t.line)]

/-- A result as a document. The tokens are in it in tokenize mode only, and the type of the value
only if there is one. -/
def resultDocument (res : Result) : Json :=
  let common := [("mode", .string res.mode.name), ("output", .array (res.output.map .string)),
    ("errors", .array (res.errors.map fun e => .string e.text)), ("exitCode", .int res.exitCode)]
  let tokens := if res.mode = .tokenize
    then [("tokens", Json.array (res.tokens.map tokenDocument))] else []
  let type := (res.value.map fun v => ("type", Json.string v.type.name)).toList
  .object (common ++ tokens ++ type)

/-- The log entry of a result, with the time that it took. -/
def resultEntry (res : Result) (elapsed : Log.AttrValue) (requestId : String) : Log.Entry :=
  ⟨Log.debug, "ran source", [⟨"mode", .text res.mode.name⟩, ⟨"tokens", .int res.tokens.length⟩,
    ⟨"errors", .int res.errors.length⟩, ⟨"exit_code", .int res.exitCode⟩, ⟨"elapsed", elapsed⟩],
    some requestId⟩

/-! ## Serving -/

/-- Text in which the characters that have a meaning in markup are written as entities. -/
def entities (s : String) : String :=
  String.join (s.toList.map fun
    | '&' => "&amp;"
    | '\'' => "&#39;"
    | '<' => "&lt;"
    | '>' => "&gt;"
    | '"' => "&#34;"
    | c => String.singleton c)

/-- The status of the response to a result. -/
def resultStatus (res : Result) : Nat :=
  if res.exitCode = Exit.success then 200 else 422

section Serving

variable (s : Server) (decode : Decoder) (elapsed : Log.AttrValue)

/-- Runs the source of a request. -/
def Server.runSource (mode : Mode) (requestId : String) (r : Request) : Served :=
  match decode r with
  | .error fault => ⟨.error 400 requestId ("invalid request body: " ++ fault), []⟩
  | .ok source =>
    if s.maxSourceSize < source.size then ⟨.error 413 requestId "source too large", []⟩
    else
      let res := run mode source.text
      ⟨.json (resultStatus res) requestId (resultDocument res), [resultEntry res elapsed requestId]⟩

/-- Serves a request by its path and its method. -/
def Server.dispatch (requestId : String) (method : Method) (r : Request) : Served :=
  match Route.ofPath? r.path with
  | none => ⟨.error 404 requestId ("Cannot " ++ method.name ++ " " ++ entities r.path), []⟩
  | some route =>
    if route.serves method then
      match route with
      | .health => ⟨.json 200 requestId (.object [("status", .string "ok")]), []⟩
      | .pipeline mode => s.runSource decode elapsed mode requestId r
    else ⟨.error 405 requestId "Method Not Allowed", []⟩

/-- Serves a request that the transport lets through. -/
def Server.answer (freshId : String) (r : Request) : Served :=
  match Method.ofName? r.method with
  | none => ⟨⟨400, "text/plain; charset=utf-8", none, "Invalid http method"⟩, []⟩
  | some method =>
    let served := s.dispatch decode elapsed (RequestId.choose r.id freshId) method r
    if method = .head then { served with response := served.response.withoutBody } else served

/-- Serves a request, with a way to find its source. A fresh id is at hand for a request that came
without one, and `elapsed` is the time that a run takes. -/
def Server.serveWith (freshId : String) (r : Request) : Served :=
  match s.refusal? r with
  | some refusal => ⟨refusal.response, []⟩
  | none => s.answer decode elapsed freshId r

end Serving

/-- Serves a request whose source is in a document or in a form. -/
def Server.serve (s : Server) (elapsed : Log.AttrValue) (freshId : String) (r : Request) : Served :=
  s.serveWith .plain elapsed freshId r

end Reckoner.Http
