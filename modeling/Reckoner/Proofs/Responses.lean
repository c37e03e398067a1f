/-
What the server answers to a source. The status tells a body that holds no source, a source that is too
large, a run without errors and a run with errors from one another; and the document that answers a run,
read back from its text, accounts for all of the result. The tokens of a source are told twice, as lines of
output and as members of the document, and the two agree.
-/
import Reckoner.Proofs.FrontEnds
import Std.Data.String.ToInt

namespace Reckoner

/-! ## Taking documents apart -/

namespace Json

/-- The members of an object by their names, if each of the names occurs once and is one of those given. -/
def fields? (names : List String) : Json → Option (String → Option Json)
  | .object members =>
    if (members.map (·.1)).Nodup ∧ ∀ name ∈ members.map (·.1), name ∈ names then
      some fun name => members.lookup name
    else none
  | _ => none

/-- The text of a string. -/
def text? : Json → Option String
  | .string s => some s
  | _ => none

/-- The integer that a numeral stands for. -/
def integer? : Json → Option Int
  | .number numeral => numeral.toInt?
  | _ => none

/-- The items of an array, if each of them is read. -/
def list? {α : Type} (item? : Json → Option α) : Json → Option (List α)
  | .array items => items.mapM item?
  | _ => none

/-- A value that may be null. -/
def nullable? {α : Type} (value? : Json → Option α) : Json → Option (Option α)
  | .null => some none
  | v => (value? v).map some

/-- A value that may be missing. -/
def optional? {α : Type} (value? : Json → Option α) : Option Json → Option (Option α)
  | none => some none
  | some v => (value? v).map some

theorem text?_string (s : String) : text? (.string s) = some s := rfl

theorem integer?_int (n : Int) : integer? (.int n) = some n := by
  rw [int, integer?, Int.toString_eq_repr, Int.toInt?_repr]

theorem list?_map {α β : Type} (item? : Json → Option β) {document : α → Json} {view : α → β}
    (h : ∀ a, item? (document a) = some (view a)) (items : List α) :
    list? item? (.array (items.map document)) = some (items.map view) := by
  rw [list?]
  induction items with
  | nil => rfl
  | cons a items ih => simp [h, ih]

end Json

theorem RunsTo.mode_eq {mode : Mode} {scanned : Scan} {res : Result} (h : RunsTo mode scanned res) :
    res.mode = mode := by
  cases h <;> rfl

namespace Http

/-! ## Accounts of a run -/

/-- All that a response tells about a token. -/
structure TokenEntry where
  kind : String
  lexeme : String
  literal : Option String
  line : Int
  deriving DecidableEq, Repr

namespace TokenEntry

/-- The entry that a document gives, if it has these four members and no other ones. -/
def ofJson? (v : Json) : Option TokenEntry := do
  let field ← v.fields? ["kind", "lexeme", "literal", "line"]
  let kind ← (field "kind").bind Json.text?
  let lexeme ← (field "lexeme").bind Json.text?
  let literal ← (field "literal").bind (Json.nullable? Json.text?)
  let line ← (field "line").bind Json.integer?
  return ⟨kind, lexeme, literal, line⟩

/-- The entry that a token should have. -/
def ofToken (t : Token) : TokenEntry :=
  ⟨t.kind.name, t.lexeme, t.literal.map Value.display, t.line⟩

/-- Kind, lexeme and literal, or `null` for no literal, with single spaces between them. -/
def text (e : TokenEntry) : String :=
  String.intercalate " " [e.kind, e.lexeme, e.literal.getD "null"]

theorem text_ofToken (t : Token) : (ofToken t).text = t.text := by
  cases h : t.literal <;>
    simp [text, ofToken, Token.text, Token.literalText, h, String.intercalate_cons_cons, String.append_assoc]

theorem ofJson?_tokenDocument (t : Token) : ofJson? (tokenDocument t) = some (ofToken t) := by
  have hliteral : Json.nullable? Json.text? ((t.literal.map fun v => Json.string v.display).getD .null) =
      some (t.literal.map Value.display) := by
    cases t.literal <;> rfl
  have hfields : (tokenDocument t).fields? ["kind", "lexeme", "literal", "line"] = some fun name =>
      [("kind", .string t.kind.name), ("lexeme", .string t.lexeme),
        ("literal", (t.literal.map fun v => Json.string v.display).getD .null),
        ("line", .int t.line)].lookup name := by
    rw [tokenDocument, Json.fields?, if_pos (by simp)]
  simp [ofJson?, hfields, List.lookup_cons, Json.text?_string, hliteral, Json.integer?_int, ofToken]

end TokenEntry

/-- All that a response tells about a run. What may be missing from it is optional. -/
structure Account where
  mode : String
  output : List String
  errors : List String
  exitCode : Int
  tokens : Option (List TokenEntry)
  type : Option String
  deriving DecidableEq, Repr

namespace Account

/-- The account that a document gives, if it has no other members than these six. -/
def ofJson? (v : Json) : Option Account := do
  let field ← v.fields? ["mode", "output", "errors", "exitCode", "tokens", "type"]
  let mode ← (field "mode").bind Json.text?
  let output ← (field "output").bind (Json.list? Json.text?)
  let errors ← (field "errors").bind (Json.list? Json.text?)
  let exitCode ← (field "exitCode").bind Json.integer?
  let tokens ← Json.optional? (Json.list? TokenEntry.ofJson?) (field "tokens")
  let type ← Json.optional? Json.text? (field "type")
  return ⟨mode, output, errors, exitCode, tokens, type⟩

/-- The account that a result should have. -/
def ofResult (res : Result) : Account where
  mode := res.mode.name
  output := res.output
  errors := res.errors.map (·.text)
  exitCode := res.exitCode
  tokens := if res.mode = .tokenize then some (res.tokens.map .ofToken) else none
  type := res.value.map (·.type.name)

theorem fields?_resultDocument (res : Result) :
    ∃ field, (resultDocument res).fields? ["mode", "output", "errors", "exitCode", "tokens", "type"] = some field ∧
      field "mode" = some (.string res.mode.name) ∧
      field "output" = some (.array (res.output.map .string)) ∧
      field "errors" = some (.array (res.errors.map fun e => .string e.text)) ∧
      field "exitCode" = some (.int res.exitCode) ∧
      field "tokens" = (if res.mode = .tokenize then some (.array (res.tokens.map tokenDocument)) else none) ∧
      field "type" = res.value.map fun v => .string v.type.name := by
  unfold resultDocument Json.fields?
  -- two members may be missing, and the names that are there are distinct in each of the four cases
  split_ifs <;> cases res.value <;> exact ⟨_, if_pos (by simp), rfl, rfl, rfl, rfl, rfl, rfl⟩

theorem ofJson?_resultDocument (res : Result) : ofJson? (resultDocument res) = some (ofResult res) := by
  obtain ⟨field, hfield, hmode, houtput, herrors, hcode, htokens, htype⟩ := fields?_resultDocument res
  have houtputLines : (field "output").bind (Json.list? Json.text?) = some res.output := by
    rw [houtput, Option.bind_some, Json.list?_map Json.text? Json.text?_string, List.map_id']
  have herrorTexts : (field "errors").bind (Json.list? Json.text?) = some (res.errors.map (·.text)) := by
    rw [herrors, Option.bind_some]
    apply Json.list?_map
    intro e
    exact Json.text?_string e.text
  have hentries : Json.optional? (Json.list? TokenEntry.ofJson?) (field "tokens") =
      some (ofResult res).tokens := by
    rw [htokens, ofResult]
    split
    · rw [Json.optional?, Json.list?_map TokenEntry.ofJson? TokenEntry.ofJson?_tokenDocument]
      rfl
    · rfl
  have htypeName : Json.optional? Json.text? (field "type") = some (ofResult res).type := by
    rw [htype, ofResult]
    cases res.value <;> rfl
  simp only [ofJson?, hfield, hmode, houtputLines, herrorTexts, hcode, hentries, htypeName, Option.bind_eq_bind,
    Option.bind_some, Json.text?_string, Json.integer?_int, Option.pure_def]
  rfl

variable {mode : Mode} {scanned : Scan} {res : Result}

theorem type_isSome_iff (h : RunsTo mode scanned res) (hmode : mode ∈ Mode.named) :
    (ofResult res).type.isSome = true ↔ mode = .evaluate ∧ res.exitCode = 0 := by
  rw [ofResult, Option.isSome_map, h.value_isSome_iff, ← and_assoc]
  simp only [Mode.named, List.mem_cons, List.not_mem_nil, or_false] at hmode
  rcases hmode with rfl | rfl | rfl <;> simp

theorem tokens_isSome_iff (h : RunsTo mode scanned res) :
    (ofResult res).tokens.isSome = true ↔ mode = .tokenize := by
  rw [ofResult, h.mode_eq]
  split <;> simp_all

/-- The tokens are told twice, and each line of output is the text of the entry in its place. -/
theorem entries_eq (h : RunsTo mode scanned res) {entries : List TokenEntry}
    (hentries : (ofResult res).tokens = some entries) :
    entries = res.tokens.map TokenEntry.ofToken ∧
      ∀ i : Nat, (ofResult res).output[i]? = (entries[i]?).map TokenEntry.text := by
  have hmode : mode = .tokenize := (tokens_isSome_iff h).1 (by rw [hentries]; rfl)
  subst hmode
  have hmap : entries = res.tokens.map TokenEntry.ofToken := by
    simpa [ofResult, h.mode_eq] using hentries.symm
  have houtput : (ofResult res).output = res.tokens.map (·.text) := by
    rw [h.tokens_eq]
    exact h.output_tokenize
  refine ⟨hmap, fun i => ?_⟩
  rw [houtput, hmap, List.getElem?_map, List.getElem?_map, Option.map_map]
  congr 1
  funext t
  exact (TokenEntry.text_ofToken t).symm

end Account

/-! ## Responses -/

variable {server : Server} {decode : Decoder} {r : Request} {mode : Mode}

theorem runSource_error {fault : String} (h : decode r = .error fault) (elapsed : Log.AttrValue)
    (requestId : String) : (server.runSource decode elapsed mode requestId r).response.status = 400 := by
  simp only [Server.runSource, h]
  rfl

theorem runSource_large {source : Source} (h : decode r = .ok source) (hsize : server.maxSourceSize < source.size)
    (elapsed : Log.AttrValue) (requestId : String) :
    (server.runSource decode elapsed mode requestId r).response.status = 413 := by
  simp only [Server.runSource, h, if_pos hsize]
  rfl

/-- The answer to any request that posts to the path of a mode and that the transport does not refuse, whatever
way there is to find the source of a request. Its status is 400 if and only if no source is found, otherwise
413 if and only if the source is larger than the server allows, and otherwise 200 or 422, by whether the run of
the source exits with 0. In these two cases the document in the answer, read back from its text, gives the name
of the mode, the output lines and the error texts, both as lists even if they are empty, and the exit status;
the type of the value, which is there for an evaluation without errors only; and in tokenize mode only, but
there with errors too, an entry for each token. Each line of output is then the text of the entry in its
place. -/
theorem pipeline_response (server : Server) (decode : Decoder) {r : Request} {mode : Mode}
    (hmode : mode ∈ Mode.named) (hmethod : r.method = "POST") (hpath : r.path = "/v1/" ++ mode.name)
    (haccepted : server.refusal? r = none) (elapsed : Log.AttrValue) (freshId : String) :
    let response := (server.serveWith decode elapsed freshId r).response
    (response.status = 400 ↔ ∃ fault, decode r = .error fault) ∧
    ∀ source, decode r = .ok source →
      (response.status = 413 ↔ server.maxSourceSize < source.size) ∧
      (source.size ≤ server.maxSourceSize →
        let res := run mode source.text
        (response.status = 200 ↔ res.exitCode = 0) ∧ (response.status = 422 ↔ res.exitCode ≠ 0) ∧
        ∃ account, (Json.read? response.body).bind Account.ofJson? = some account ∧
          account.mode = mode.name ∧ account.output = res.output ∧ account.errors = res.errors.map (·.text) ∧
          account.exitCode = res.exitCode ∧
          (account.type.isSome = true ↔ mode = .evaluate ∧ res.exitCode = 0) ∧
          account.type = res.value.map (·.type.name) ∧
          (account.tokens.isSome = true ↔ mode = .tokenize) ∧
          ∀ entries, account.tokens = some entries →
            entries = res.tokens.map TokenEntry.ofToken ∧
            ∀ i : Nat, account.output[i]? = (entries[i]?).map TokenEntry.text) := by
  simp only [serveWith_post hmode haccepted hmethod hpath elapsed freshId]
  cases hsource : decode r with
  | error fault =>
    rw [runSource_error hsource]
    exact ⟨⟨fun _ => ⟨fault, rfl⟩, fun _ => rfl⟩, fun source h => by cases h⟩
  | ok source =>
    have hran := run_runsTo mode source.text
    by_cases hsize : server.maxSourceSize < source.size
    · rw [runSource_large hsource hsize]
      refine ⟨⟨fun h => absurd h (by decide), fun ⟨_, h⟩ => by cases h⟩, ?_⟩
      rintro _ ⟨⟩
      exact ⟨⟨fun _ => hsize, fun _ => rfl⟩, fun h => absurd hsize (Int.not_lt.2 h)⟩
    · rw [runSource_run hsource (Int.not_lt.1 hsize)]
      have hstatus : (resultStatus (run mode source.text) = 200 ↔ (run mode source.text).exitCode = 0) ∧
          (resultStatus (run mode source.text) = 422 ↔ (run mode source.text).exitCode ≠ 0) ∧
          resultStatus (run mode source.text) ≠ 400 ∧ resultStatus (run mode source.text) ≠ 413 := by
        unfold resultStatus Exit.success
        split <;> simp_all
      obtain ⟨h200, h422, h400, h413⟩ := hstatus
      refine ⟨⟨fun h => absurd h h400, fun ⟨_, h⟩ => by cases h⟩, ?_⟩
      rintro _ ⟨⟩
      refine ⟨⟨fun h => absurd h h413, fun h => absurd h hsize⟩, fun _ => ⟨h200, h422, ?_⟩⟩
      refine ⟨.ofResult (run mode source.text), ?_, ?_, rfl, rfl, rfl, ?_, rfl, ?_, ?_⟩
      · rw [Response.json, Json.read?_render .document (wellFormed_resultDocument _)]
        exact Account.ofJson?_resultDocument _
      · exact congrArg Mode.name hran.mode_eq
      · exact Account.type_isSome_iff hran hmode
      · exact Account.tokens_isSome_iff hran
      · intro entries hentries
        exact Account.entries_eq hran hentries

/-- A string over two lines, with a character that documents escape, and a stray character. -/
def brokenSource : String :=
  "\"a\n<\" @"

/-- That source in a document, to be split into tokens. -/
def brokenRequest : Request :=
  ⟨"POST", "/v1/tokenize?pretty", [("Content-Type", "application/json")],
    (Json.object [("source", .string brokenSource)]).render .document⟩

theorem pipeline_response_at :
    (Server.serve ⟨64⟩ (.int 0) "" brokenRequest).response.status = 422 ∧
    ∃ account, (Json.read? (Server.serve ⟨64⟩ (.int 0) "" brokenRequest).response.body).bind Account.ofJson? =
        some account ∧
      account.tokens = some [⟨"STRING", "\"a\n<\"", some "a\n<", 1⟩, ⟨"EOF", "", none, 2⟩] ∧
      account.output = ["STRING \"a\n<\" a\n<", "EOF  null"] ∧
      account.errors = ["[line 2] Error: Unexpected character: @"] ∧ account.type = none := by
  have hasks : Asks ⟨64⟩ brokenRequest .tokenize brokenSource := by
    refine ⟨rfl, by decide +kernel, by decide +kernel, ?_, by decide +kernel, by decide +kernel⟩
    exact Json.read?_render .document (.object (by simpa using .string brokenSource))
  obtain ⟨-, hanswer⟩ :=
    pipeline_response ⟨64⟩ .plain (by decide) hasks.method hasks.path hasks.accepted (.int 0) ""
  obtain ⟨-, hrun⟩ := hanswer (.ofText brokenSource) (plain_of_asks hasks)
  obtain ⟨-, h422, account, hbody, -, houtput, herrors, -, -, htype, htokens, hentries⟩ :=
    hrun (by decide +kernel)
  obtain ⟨entries, he⟩ := Option.isSome_iff_exists.1 (htokens.2 rfl)
  refine ⟨h422.2 (by decide), account, hbody, ?_, ?_, ?_, ?_⟩
  · rw [he, (hentries entries he).1]
    decide
  · rw [houtput]
    decide
  · rw [herrors]
    decide
  · rw [htype]
    rfl

end Http

end Reckoner
