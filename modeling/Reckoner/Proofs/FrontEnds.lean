/-
The front ends agree. A source in a file that a command line names, a source in a document that is sent
to the server, and a source behind the name of its mode in a line of a session come to the same output
lines, error texts and exit status, though each front end takes them from another place: the command line
has its status from a reporter, the server has it from the result, and a session first has to find the
mode and the source in a trimmed line.
-/
import Reckoner.Http.Server
import Reckoner.Proofs.JsonText
import Reckoner.Proofs.Quiet
import Reckoner.Proofs.RunShape

namespace Reckoner

theorem Result.print_of_unlimited (res : Result) (reporter : Reporter) {c : Channel} (h : c.capacity = none) :
    res.print reporter c = ⟨res.errors.map (·.text), res.errors.foldl Reporter.note reporter,
      c.having (res.output.map endLine), true⟩ := by
  simp only [Result.print, Channel.writeAll_of_unlimited h]

theorem Channel.text_having_lines (c : Channel) (lines : List String) :
    (c.having (lines.map endLine)).text = c.text ++ endLines lines :=
  c.text_having _

/-! ## Files -/

namespace Command

variable {l : Logging}

/-- A file is run as its text, and the reporter has seen what the exit status says. -/
theorem runFile_of_quiet (hl : l.Quiet) {s : State} (hs : s.output.capacity = none) (mode : Mode)
    {path source : String} (hread : s.disk.read path = .ok source) :
    runFile l s mode path =
      ({ s.report (endLines ((run mode source).errors.map (·.text))) with
          output := s.output.having ((run mode source).output.map endLine) },
        ⟨(run mode source).exitCode, none⟩) := by
  have hcode := (run_runsTo mode source).exitCode_note
  have hrunning : s.log l (runningEntry mode path source) = s := State.log_of_quiet hl s rfl
  have hfinished (s' : State) (res : Result) (code : Nat) : s'.log l (finishedEntry res code) = s' :=
    State.log_of_quiet hl s' rfl
  simp only [runFile, hread, hrunning, Result.print_of_unlimited _ _ hs, if_true, hfinished, hcode]

variable {w : World} {settings : Settings}

/-- A file on the command line: its text is run, and all that is written is what the run comes to. -/
theorem Undisturbed.execute_file (h : Undisturbed w settings) (stamp : String) {mode : Mode}
    (hmode : mode ∈ Mode.named) {path source : String}
    (hpath : ∀ letter letters, path.toList ≠ '-' :: letter :: letters)
    (hread : w.disk.read path = .ok source) :
    (Command.execute w stamp [mode.name, path]).code = (run mode source).exitCode ∧
    (Command.execute w stamp [mode.name, path]).state.output.text = endLines (run mode source).output ∧
    (Command.execute w stamp [mode.name, path]).state.errors =
      endLines ((run mode source).errors.map (·.text)) := by
  obtain ⟨c, hc, hnames⟩ := names_file hmode hpath
  obtain ⟨l, disk, hquiet, hkeeps, hexecute⟩ := h.execute stamp hnames
  have hperform : perform w l settings ⟨disk, .unlimited, "", none⟩ c (.ofOperands [path]) =
      runFile l ⟨disk, .unlimited, "", none⟩ mode path := by
    simp only [perform, hc, Parsed.ofOperands]
  have hrun := runFile_of_quiet (s := ⟨disk, .unlimited, "", none⟩) hquiet rfl mode (hkeeps.read hread)
  rw [hperform, hrun] at hexecute
  rw [hexecute]
  refine ⟨rfl, ?_, ?_⟩
  · change (Channel.unlimited.having ((run mode source).output.map endLine)).text = _
    rw [Channel.text_having_lines, Channel.text_unlimited, String.empty_append]
  · simp [State.report, ExitStatus.report]

end Command

/-! ## Sessions -/

/-- The problems that acts report. -/
def reportsOf (acts : List Act) : List String :=
  acts.filterMap fun
    | .report text => some text
    | _ => none

theorem reportsOf_append (acts more : List Act) :
    reportsOf (acts ++ more) = reportsOf acts ++ reportsOf more :=
  List.filterMap_append

namespace Session

/-- The line that asks for a source to be run in a mode. -/
def lineFor (mode : Mode) (source : String) : String :=
  ":" ++ mode.name ++ " " ++ source

/-- The name of a mode is a word, by which the mode can be asked for. -/
theorem name_word {mode : Mode} (hmode : mode ∈ Mode.named) :
    mode.name.toList ≠ [] ∧ (∀ c ∈ mode.name.toList, Text.isBlank c = false) ∧
      Mode.ofName? mode.name = some mode := by
  have hblankless {cs : List Char} (h : cs.all (!Text.isBlank ·) = true) :
      ∀ c ∈ cs, Text.isBlank c = false := fun c hc => by simpa using List.all_eq_true.1 h c hc
  simp only [Mode.named, List.mem_cons, List.not_mem_nil, or_false] at hmode
  rcases hmode with rfl | rfl | rfl <;> exact ⟨by decide, hblankless (by decide), rfl⟩

/-- Trimming takes away no more than blanks at the end where a text begins with another character. -/
theorem trimChars_of_ends {first last : Char} {middle blanks : List Char}
    (hfirst : Text.isBlank first = false) (hlast : Text.isBlank last = false)
    (hblanks : ∀ c ∈ blanks, Text.isBlank c) :
    Text.trimChars (first :: (middle ++ last :: blanks)) = first :: (middle ++ [last]) := by
  have hback : (first :: (middle ++ last :: blanks)).reverse.dropWhile Text.isBlank =
      last :: (first :: middle).reverse := by
    have hreverse : (first :: (middle ++ last :: blanks)).reverse =
        blanks.reverse ++ last :: (first :: middle).reverse := by simp
    rw [hreverse, List.dropWhile_append_of_pos (by simpa using hblanks), List.dropWhile_cons, hlast]
    rfl
  rw [Text.trimChars, List.dropWhile_cons, hfirst]
  simp only [Bool.false_eq_true, if_false, hback]
  simp

/-- A colon and the name of a mode, with nothing or a space behind it, ask for the mode. -/
theorem request_named {mode : Mode} (hmode : mode ∈ Mode.named) {tail : List Char}
    (htail : ∀ c ∈ tail.head?, c = ' ') :
    request (String.ofList (':' :: (mode.name.toList ++ tail))) = (mode, String.ofList (tail.drop 1)) := by
  obtain ⟨-, hblank, hname⟩ := name_word hmode
  have hspace : ∀ c ∈ mode.name.toList, (c != ' ') = true := by
    intro c hc
    rw [bne_iff_ne]
    rintro rfl
    exact absurd (hblank ' ' hc) (by decide)
  have htake : (mode.name.toList ++ tail).takeWhile (· != ' ') = mode.name.toList := by
    rw [List.takeWhile_append_of_pos hspace]
    cases tail with
    | nil => simp
    | cons c tail => simp [htail c rfl]
  have hdrop : (mode.name.toList ++ tail).dropWhile (· != ' ') = tail := by
    rw [List.dropWhile_append_of_pos hspace]
    cases tail with
    | nil => rfl
    | cons c tail => simp [htail c rfl]
  simp only [request, String.toList_ofList, htake, String.ofList_toList, hname, hdrop]

/-- The line that asks for a source is neither empty nor the one that ends a session, and it asks for just
this source, unless blanks at the end of the source are lost. -/
theorem request_lineFor {mode : Mode} (hmode : mode ∈ Mode.named) {source : String}
    (hsource : ∀ c ∈ source.toList.getLast?, Text.isBlank c = false) :
    Text.trim (lineFor mode source) ≠ "" ∧ Text.trim (lineFor mode source) ≠ "exit" ∧
      request (Text.trim (lineFor mode source)) = (mode, source) := by
  have hline : (lineFor mode source).toList = ':' :: (mode.name.toList ++ ' ' :: source.toList) := by
    simp [lineFor]
  -- the space behind the name is only trimmed away where there is no source
  have htrim : ∃ tail, Text.trim (lineFor mode source) = String.ofList (':' :: (mode.name.toList ++ tail)) ∧
      (∀ c ∈ tail.head?, c = ' ') ∧ tail.drop 1 = source.toList := by
    rw [Text.trim, hline]
    rcases List.eq_nil_or_concat source.toList with hs | ⟨front, last, hs⟩
    · obtain ⟨hne, hblank, -⟩ := name_word hmode
      obtain ⟨front, last, hname⟩ : ∃ front last, mode.name.toList = front ++ [last] :=
        ⟨_, _, (List.dropLast_concat_getLast hne).symm⟩
      have hlast : Text.isBlank last = false := hblank last (by simp [hname])
      refine ⟨[], ?_, by simp, by rw [hs]; rfl⟩
      rw [hs, hname, List.append_assoc, List.singleton_append,
        trimChars_of_ends rfl hlast (List.forall_mem_singleton.2 rfl)]
      simp
    · rw [List.concat_eq_append] at hs
      have hlast : Text.isBlank last = false := hsource last (by simp [hs])
      refine ⟨' ' :: source.toList, ?_, by simp, rfl⟩
      have hsplit : mode.name.toList ++ ' ' :: source.toList =
          (mode.name.toList ++ ' ' :: front) ++ [last] := by
        simp [hs]
      rw [hsplit, trimChars_of_ends rfl hlast (by simp)]
  obtain ⟨tail, htext, htail, hdrop⟩ := htrim
  have hcolon {text : String} (h : text.toList.head? ≠ some ':') :
      Text.trim (lineFor mode source) ≠ text := by
    rintro rfl
    simp [htext] at h
  refine ⟨hcolon (by decide), hcolon (by decide), ?_⟩
  rw [htext, request_named hmode htail, hdrop, String.ofList_toList]

/-- The acts of a line that is run: it was asked for, the problems are reported, the lines are output, and the
run is noted. -/
def lineActs (reporter : Reporter) (text : String) (mode : Mode) (res : Result) : List Act :=
  Act.read reporter (some (.line text)) ::
      (res.errors.map (fun e => Act.report e.text) ++ res.output.map Act.output) ++
    [Act.ran mode (res.errors.foldl Reporter.note reporter).exitCode]

theorem reportsOf_lineActs (reporter : Reporter) (text : String) (mode : Mode) (res : Result) :
    reportsOf (lineActs reporter text mode res) = res.errors.map (·.text) := by
  have hreports (errors : List Diagnostic) :
      reportsOf (errors.map fun e => Act.report e.text) = errors.map (·.text) := by
    induction errors with
    | nil => rfl
    | cons e errors ih => exact congrArg (e.text :: ·) ih
  have houtput (lines : List String) : reportsOf (lines.map Act.output) = [] := by
    induction lines with
    | nil => rfl
    | cons line lines ih => exact ih
  calc reportsOf (lineActs reporter text mode res)
      = reportsOf (res.errors.map (fun e => Act.report e.text) ++ res.output.map Act.output) ++ [] := by
        rw [lineActs, reportsOf_append]
        rfl
    _ = res.errors.map (·.text) := by
        rw [List.append_nil, reportsOf_append, hreports, houtput, List.append_nil]

/-- After a line that is run the session goes on with a fresh reporter. -/
theorem proceed_line {text : String} {mode : Mode} {source : String} {c : Channel} (hc : c.capacity = none)
    (hempty : Text.trim text ≠ "") (hexit : Text.trim text ≠ "exit")
    (hrequest : request (Text.trim text) = (mode, source)) (reporter : Reporter) (events : List Event) :
    proceed reporter c (.line text :: events) =
      (proceed .fresh (c.having ((run mode source).output.map endLine)) events).after
        (lineActs reporter text mode (run mode source)) := by
  simp only [proceed, hempty, hexit, if_false, hrequest, Result.print_of_unlimited _ _ hc, if_true, printing,
    Channel.taken, hc, lineActs]

/-- Two sessions do and end alike, and their channels take the same pieces. -/
def Alike (c c' : Channel) (s s' : Session) : Prop :=
  s.acts = s'.acts ∧ s.ending = s'.ending ∧
    ∃ pieces, s.channel = c.having pieces ∧ s'.channel = c'.having pieces

theorem Alike.finish (c c' : Channel) (ending : Ending) (reporter : Reporter) (acts : List Act) :
    Alike c c' ((Session.finish ending reporter c).after acts)
      ((Session.finish ending reporter c').after acts) := by
  refine ⟨rfl, rfl, [], ?_, ?_⟩
  · simp [Session.finish, after, Channel.having]
  · simp [Session.finish, after, Channel.having]

theorem Alike.after {c c' : Channel} {s s' : Session} (taken : List String) (acts : List Act)
    (h : Alike (c.having taken) (c'.having taken) s s') : Alike c c' (s.after acts) (s'.after acts) := by
  obtain ⟨hacts, hending, pieces, hc, hc'⟩ := h
  refine ⟨congrArg (acts ++ ·) hacts, hending, taken ++ pieces, ?_, ?_⟩
  · simp [Session.after, hc, Channel.having]
  · simp [Session.after, hc', Channel.having]

/-- What a session does, and what its channel takes, does not depend on what a channel without a limit has
taken before. -/
theorem proceed_alike {c c' : Channel} (hc : c.capacity = none) (hc' : c'.capacity = none)
    (events : List Event) (reporter : Reporter) :
    Alike c c' (proceed reporter c events) (proceed reporter c' events) := by
  have hnone (d : Channel) : d = d.having [] := by simp [Channel.having]
  induction events generalizing c c' reporter with
  | nil => exact .finish c c' _ _ _
  | cons event events ih =>
    -- an event that is passed over leaves both channels as they are
    have hpassed (acts : List Act) :
        Alike c c' ((proceed reporter c events).after acts) ((proceed reporter c' events).after acts) := by
      refine .after [] acts ?_
      rw [← hnone, ← hnone]
      exact ih hc hc' reporter
    cases event with
    | interrupt => exact hpassed _
    | endOfInput => exact .finish c c' _ _ _
    | cancel => exact .finish c c' _ _ _
    | failure text => exact .finish c c' _ _ _
    | line text =>
      by_cases hempty : Text.trim text = ""
      · simp only [proceed, hempty, if_true]
        exact hpassed _
      by_cases hexit : Text.trim text = "exit"
      · simp only [proceed, hexit]
        exact .finish c c' _ _ _
      rcases hrequest : request (Text.trim text) with ⟨mode, source⟩
      rw [proceed_line hc hempty hexit hrequest, proceed_line hc' hempty hexit hrequest]
      -- both channels have taken the lines of one run, so that the rest is alike from there on
      refine .after ((run mode source).output.map endLine) _ (ih ?_ ?_ .fresh)
      · exact hc
      · exact hc'

end Session

namespace Command

variable {l : Logging}

/-- A quiet logger leaves of the acts of a session what they report. -/
theorem foldl_follow (hl : l.Quiet) (acts : List Act) (s : State) :
    acts.foldl (follow l) s = s.report (endLines (reportsOf acts)) := by
  induction acts generalizing s with
  | nil => simp [reportsOf, endLines, State.report]
  | cons act acts ih =>
    rw [List.foldl_cons, ih]
    cases act with
    | report text => simp [follow, reportsOf, State.report, endLines, String.append_assoc]
    | ran mode code =>
      have hran : follow l s (.ran mode code) = s := State.log_of_quiet hl s rfl
      rw [hran]
      rfl
    | read | output | close => rfl

/-- What is said about the end of a session: nothing unless it failed. -/
def endingReport : Ending → String
  | .failed text => endLine text
  | _ => ""

variable {w : World} {settings : Settings}

/-- The command line that runs a session over some events. -/
def session (w : World) (stamp : String) (events : List Event) : Outcome :=
  Command.execute { w with input := .ok events } stamp ["repl"]

/-- A session on the command line: its lines are output, and its problems are reported before its end is. -/
theorem Undisturbed.session (h : Undisturbed w settings) (stamp : String) (events : List Event) :
    (Command.session w stamp events).state.output = (Session.proceed .fresh .unlimited events).channel ∧
    (Command.session w stamp events).state.errors =
      endLines (reportsOf (Session.proceed .fresh .unlimited events).acts) ++
        endingReport (Session.proceed .fresh .unlimited events).ending := by
  -- what can disturb a command line does not depend on the events
  have hw : Undisturbed { w with input := .ok events } settings :=
    ⟨h.loaded, h.valid, h.level, h.log, h.output⟩
  obtain ⟨l, disk, hquiet, -, hexecute⟩ := hw.execute stamp names_session
  have hperform :
      perform { w with input := .ok events } l settings ⟨disk, .unlimited, "", none⟩ .repl (.ofOperands []) =
        runSession { w with input := .ok events } l ⟨disk, .unlimited, "", none⟩ settings.repl := rfl
  rw [Command.session, hexecute, hperform]
  simp only [runSession, Session.start, Bool.false_eq_true, if_false, foldl_follow hquiet]
  cases (Session.proceed .fresh .unlimited events).ending with
  | finished | cancelled =>
    exact ⟨rfl, by simp [State.report, ExitStatus.report, ExitStatus.success, endingReport]⟩
  | failed text =>
    exact ⟨rfl, by simp [State.report, ExitStatus.report, ExitStatus.failure, endingReport]⟩

theorem Undisturbed.session_nil (h : Undisturbed w settings) (stamp : String) :
    (Command.session w stamp []).state.output.text = "" ∧ (Command.session w stamp []).state.errors = "" := by
  obtain ⟨houtput, herrors⟩ := h.session stamp []
  rw [houtput, herrors]
  exact ⟨rfl, rfl⟩

/-- A line that asks for a source writes what the source comes to, before what later lines write. -/
theorem Undisturbed.session_line (h : Undisturbed w settings) (stamp : String) {mode : Mode}
    (hmode : mode ∈ Mode.named) {source : String}
    (hsource : ∀ c ∈ source.toList.getLast?, Text.isBlank c = false) (events : List Event) :
    (Command.session w stamp (.line (Session.lineFor mode source) :: events)).state.output.text =
      endLines (run mode source).output ++ (Command.session w stamp events).state.output.text ∧
    (Command.session w stamp (.line (Session.lineFor mode source) :: events)).state.errors =
      endLines ((run mode source).errors.map (·.text)) ++ (Command.session w stamp events).state.errors := by
  obtain ⟨houtput, herrors⟩ := h.session stamp events
  obtain ⟨houtput', herrors'⟩ := h.session stamp (.line (Session.lineFor mode source) :: events)
  obtain ⟨hempty, hexit, hrequest⟩ := Session.request_lineFor hmode hsource
  have hline := Session.proceed_line (c := .unlimited) rfl hempty hexit hrequest .fresh events
  -- the later lines meet a channel that has taken the output of this one, which changes nothing for them
  obtain ⟨hacts, hending, pieces, htaken, htaken'⟩ :=
    Session.proceed_alike (c := Channel.unlimited.having ((run mode source).output.map endLine)) rfl
      (show Channel.unlimited.capacity = none from rfl) events .fresh
  rw [houtput, herrors, houtput', herrors', hline]
  refine ⟨?_, ?_⟩
  · simp only [Session.after]
    rw [htaken, htaken', Channel.text_having, Channel.text_having_lines, Channel.text_having,
      Channel.text_unlimited, String.empty_append, String.empty_append]
  · simp only [Session.after, hacts, hending, reportsOf_append, endLines_append, Session.reportsOf_lineActs,
      String.append_assoc]

end Command

/-! ## Requests -/

namespace Json

/-- A document is an object with exactly one member of a name, and this has the value. -/
def HasMember (document : Json) (name : String) (value : Json) : Prop :=
  ∃ members, document = .object members ∧ members.filter (·.1 == name) = [(name, value)]

end Json

namespace Http

/-- A request that asks for a source to be run in a mode: it is sent to the path of the mode, as a document
with the source in it that keeps to the limit for bodies, and with a head that fits its buffer. -/
structure Asks (server : Server) (r : Request) (mode : Mode) (source : String) : Prop where
  method : r.method = "POST"
  path : r.path = "/v1/" ++ mode.name
  type : BodyKind.ofContentType? r.contentType = some .json
  body : Json.read? r.body = some (.object [("source", .string source)])
  admitted : server.admits r.body = true
  head : r.headSize ≤ readBufferSize

section

variable {server : Server} {decode : Decoder} {r : Request} {mode : Mode}

theorem refusal?_eq_none_iff :
    server.refusal? r = none ↔ r.headSize ≤ readBufferSize ∧ server.admits r.body = true := by
  unfold Server.refusal?
  split_ifs <;> simp_all

theorem Asks.accepted {source : String} (h : Asks server r mode source) : server.refusal? r = none :=
  refusal?_eq_none_iff.2 ⟨h.head, h.admitted⟩

theorem ofPath?_mode (hmode : mode ∈ Mode.named) :
    Route.ofPath? ("/v1/" ++ mode.name) = some (.pipeline mode) := by
  simp only [Mode.named, List.mem_cons, List.not_mem_nil, or_false] at hmode
  rcases hmode with rfl | rfl | rfl <;> decide +kernel

/-- A request that is posted to the path of a mode and not refused has its source run. -/
theorem serveWith_post (hmode : mode ∈ Mode.named) (haccepted : server.refusal? r = none)
    (hmethod : r.method = "POST") (hpath : r.path = "/v1/" ++ mode.name) (elapsed : Log.AttrValue)
    (freshId : String) :
    server.serveWith decode elapsed freshId r =
      server.runSource decode elapsed mode (RequestId.choose r.id freshId) r := by
  have hpost : Method.ofName? r.method = some .post := by rw [hmethod]; rfl
  have hroute : Route.ofPath? r.path = some (.pipeline mode) := by rw [hpath]; exact ofPath?_mode hmode
  simp [Server.serveWith, haccepted, Server.answer, hpost, Server.dispatch, hroute, Route.serves]

theorem runSource_run {source : Source} (h : decode r = .ok source) (hsize : source.size ≤ server.maxSourceSize)
    (elapsed : Log.AttrValue) (requestId : String) :
    (server.runSource decode elapsed mode requestId r).response =
      .json (resultStatus (run mode source.text)) requestId (resultDocument (run mode source.text)) := by
  simp only [Server.runSource, h, if_neg (Int.not_lt.2 hsize)]

theorem plain_of_asks {source : String} (h : Asks server r mode source) :
    Decoder.plain r = .ok (.ofText source) := by
  have hkey : isSourceKey "source".toList = true := by decide
  simp only [Decoder.plain, sourceOf, h.type, sourceOfJson, h.body, List.foldlM_cons, List.foldlM_nil, takeMember,
    hkey, if_true]
  rfl

/-- A source that is not too large is run, and the answer is the document of its result. -/
theorem serve_of_asks {source : String} (hmode : mode ∈ Mode.named) (h : Asks server r mode source)
    (hsize : source.utf8ByteSize ≤ server.maxSourceSize) (elapsed : Log.AttrValue) (freshId : String) :
    (server.serve elapsed freshId r).response = .json (resultStatus (run mode source))
      (RequestId.choose r.id freshId) (resultDocument (run mode source)) := by
  rw [Server.serve, serveWith_post hmode h.accepted h.method h.path]
  exact runSource_run (plain_of_asks h) hsize elapsed _

end

theorem wellFormed_tokenDocument (t : Token) : (tokenDocument t).WellFormed := by
  refine .object fun m hm => ?_
  simp only [List.mem_cons, List.not_mem_nil, or_false] at hm
  rcases hm with rfl | rfl | rfl | rfl
  · exact .string _
  · exact .string _
  · cases t.literal with
    | none => exact .null
    | some v => exact .string _
  · exact .int _

theorem wellFormed_strings (texts : List String) : (Json.array (texts.map .string)).WellFormed := by
  refine .array fun v hv => ?_
  obtain ⟨text, -, rfl⟩ := List.mem_map.1 hv
  exact .string text

theorem wellFormed_resultDocument (res : Result) : (resultDocument res).WellFormed := by
  refine .object fun m hm => ?_
  simp only [List.mem_append, List.mem_cons, List.not_mem_nil, or_false] at hm
  rcases hm with ((rfl | rfl | rfl | rfl) | hm) | hm
  · exact .string _
  · exact wellFormed_strings _
  · have htexts := wellFormed_strings (res.errors.map (·.text))
    rwa [List.map_map] at htexts
  · exact .int _
  · split at hm
    · obtain rfl := List.mem_singleton.1 hm
      refine .array fun v hv => ?_
      obtain ⟨t, -, rfl⟩ := List.mem_map.1 hv
      exact wellFormed_tokenDocument t
    · cases hm
  · obtain ⟨v, -, rfl⟩ : ∃ v, res.value = some v ∧ ("type", Json.string v.type.name) = m := by
      simpa using hm
    exact .string _

/-- The members of the document of a result that say what the run came to. -/
theorem hasMember_resultDocument (res : Result) :
    (resultDocument res).HasMember "output" (.array (res.output.map .string)) ∧
    (resultDocument res).HasMember "errors" (.array (res.errors.map fun e => .string e.text)) ∧
    (resultDocument res).HasMember "exitCode" (.int res.exitCode) := by
  have hmore (name : String) (hname : name ≠ "tokens" ∧ name ≠ "type") :
      ((if res.mode = .tokenize then [("tokens", Json.array (res.tokens.map tokenDocument))] else []) ++
        (res.value.map fun v => ("type", Json.string v.type.name)).toList).filter (·.1 == name) = [] := by
    have hnever {other : String} (h : name ≠ other) : (other == name) = false := by simpa using h.symm
    split <;> cases res.value <;> simp [hnever hname.1, hnever hname.2]
  refine ⟨⟨_, rfl, ?_⟩, ⟨_, rfl, ?_⟩, ⟨_, rfl, ?_⟩⟩
  · rw [List.append_assoc, List.filter_append, hmore _ (by decide)]
    rfl
  · rw [List.append_assoc, List.filter_append, hmore _ (by decide)]
    rfl
  · rw [List.append_assoc, List.filter_append, hmore _ (by decide)]
    rfl

end Http

/-! ## Agreement -/

/-- The front ends agree on every source, in every mode that has a name, where nothing disturbs the command
line and the source neither ends in a blank nor is too large for the server. To name a file that holds the
source, by a path that is no flag, exits with the status of the run and writes its output lines and its
error texts, each with a line feed, and nothing else. To send the source in a document is answered with 200
if that status is 0 and with 422 otherwise, by a document with the same output lines, error texts and status.
The line of a session that asks for the source writes the same texts, before whatever later lines write. -/
theorem front_ends_agree (mode : Mode) (hmode : mode ∈ Mode.named) (s : String)
    (hs : ∀ c ∈ s.toList.getLast?, Text.isBlank c = false)
    {w : Command.World} {settings : Settings} (hw : Command.Undisturbed w settings)
    (hsize : s.utf8ByteSize ≤ settings.server.maxSourceSize) (stamp : String) :
    (∀ path, (∀ letter letters, path.toList ≠ '-' :: letter :: letters) → w.disk.read path = .ok s →
      (Command.execute w stamp [mode.name, path]).code = (run mode s).exitCode ∧
      (Command.execute w stamp [mode.name, path]).state.output.text = endLines (run mode s).output ∧
      (Command.execute w stamp [mode.name, path]).state.errors =
        endLines ((run mode s).errors.map (·.text))) ∧
    (∀ r elapsed freshId, Http.Asks ⟨settings.server.maxSourceSize⟩ r mode s →
      let response := (Http.Server.serve ⟨settings.server.maxSourceSize⟩ elapsed freshId r).response
      response.status = (if (run mode s).exitCode = 0 then 200 else 422) ∧
      ∃ document, Json.read? response.body = some document ∧
        document.HasMember "output" (.array ((run mode s).output.map .string)) ∧
        document.HasMember "errors" (.array ((run mode s).errors.map fun e => .string e.text)) ∧
        document.HasMember "exitCode" (.int (run mode s).exitCode)) ∧
    ((Command.session w stamp []).state.output.text = "" ∧ (Command.session w stamp []).state.errors = "" ∧
      ∀ events,
        (Command.session w stamp (.line (":" ++ mode.name ++ " " ++ s) :: events)).state.output.text =
          endLines (run mode s).output ++ (Command.session w stamp events).state.output.text ∧
        (Command.session w stamp (.line (":" ++ mode.name ++ " " ++ s) :: events)).state.errors =
          endLines ((run mode s).errors.map (·.text)) ++ (Command.session w stamp events).state.errors) := by
  refine ⟨fun path hpath hread => hw.execute_file stamp hmode hpath hread, ?_, ?_⟩
  · intro r elapsed freshId hr
    have hserved := Http.serve_of_asks hmode hr hsize elapsed freshId
    simp only [hserved]
    refine ⟨rfl, Http.resultDocument (run mode s), ?_, Http.hasMember_resultDocument (run mode s)⟩
    exact Json.read?_render .document (Http.wellFormed_resultDocument (run mode s))
  · obtain ⟨houtput, herrors⟩ := hw.session_nil stamp
    exact ⟨houtput, herrors, hw.session_line stamp hmode hs⟩

/-- A source with blanks in front, a colon, two lines and two lexical errors. -/
def awkwardSource : String :=
  " : true\n\"a"

/-- A disk with the source in a file, and nothing else. -/
def awkwardWorld : Command.World :=
  ⟨Disk.empty.put ["a"] (.file awkwardSource), fun _ => "", .unlimited, .ok []⟩

/-- A request with the source. -/
def awkwardRequest : Http.Request :=
  ⟨"POST", "/v1/tokenize", [("Content-Type", "application/json")],
    (Json.object [("source", .string awkwardSource)]).render .document⟩

/-- The tokens of the source are output all the same, and they are in every front end. -/
theorem front_ends_agree_at :
    (run .tokenize awkwardSource).output.length = 2 ∧ (run .tokenize awkwardSource).errors.length = 2 ∧
    (Command.execute awkwardWorld "" ["tokenize", "a"]).code = 65 ∧
    (Http.Server.serve ⟨1048576⟩ (.int 0) "" awkwardRequest).response.status = 422 ∧
    (Command.session awkwardWorld "" [.line (":tokenize " ++ awkwardSource)]).state.output.text =
      (Command.execute awkwardWorld "" ["tokenize", "a"]).state.output.text ∧
    (Command.session awkwardWorld "" [.line (":tokenize " ++ awkwardSource)]).state.errors =
      (Command.execute awkwardWorld "" ["tokenize", "a"]).state.errors := by
  have hw : Command.Undisturbed awkwardWorld .default := ⟨by rfl, rfl, by decide, ⟨_, rfl⟩, rfl⟩
  have hr : Http.Asks ⟨1048576⟩ awkwardRequest .tokenize awkwardSource := by
    refine ⟨rfl, by decide +kernel, by decide +kernel, ?_, by decide +kernel, by decide +kernel⟩
    exact Json.read?_render .document (.object (by simpa using .string awkwardSource))
  have hs : ∀ c ∈ awkwardSource.toList.getLast?, Text.isBlank c = false := by
    have hlast : awkwardSource.toList.getLast? = some 'a' := rfl
    rw [hlast]
    rintro c ⟨⟩
    rfl
  obtain ⟨hfile, hrequest, houtput, herrors, hline⟩ :=
    front_ends_agree .tokenize (by decide) awkwardSource hs hw (by decide +kernel) ""
  obtain ⟨hcode, hfileOutput, hfileErrors⟩ := hfile "a" (by simp) (by rfl)
  obtain ⟨hlineOutput, hlineErrors⟩ := hline []
  rw [houtput, String.append_empty] at hlineOutput
  rw [herrors, String.append_empty] at hlineErrors
  exact ⟨rfl, rfl, hcode, (hrequest awkwardRequest (.int 0) "" hr).1, hlineOutput.trans hfileOutput.symm,
    hlineErrors.trans hfileErrors.symm⟩

end Reckoner
