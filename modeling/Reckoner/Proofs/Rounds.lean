/-
Whole sessions, round by round. A session asks for events up to and including the first one that stops
it, and ends as that event says. Every event before it has a round of its own, in which an interrupt and
a blank line do nothing, and any other line does what a run of its source does alone, with a reporter
that has seen nothing.

One step is either a stop or a round after which the reporter is fresh again; the whole session follows
by induction on the events, with what the channel has taken generalised.
-/
import Reckoner.Proofs.FrontEnds
import Mathlib.Data.List.SplitBy

namespace Reckoner

namespace Session

/-! ## Requests -/

/-- What a line selects: a colon and the name of a mode, alone or with a space and a source behind it, select
that mode, and any other line is a source to be evaluated. -/
inductive Selects (line : String) : Mode → String → Prop
  | bare {mode : Mode} : mode ∈ Mode.named → line = ":" ++ mode.name → Selects line mode ""
  | command {mode : Mode} {rest : String} :
      mode ∈ Mode.named → line = ":" ++ mode.name ++ " " ++ rest → Selects line mode rest
  | whole : (∀ mode ∈ Mode.named, line ≠ ":" ++ mode.name) →
      (∀ mode ∈ Mode.named, ∀ rest, line ≠ ":" ++ mode.name ++ " " ++ rest) → Selects line .evaluate line

theorem Selects.request_eq {line : String} {mode : Mode} {source : String} (h : Selects line mode source) :
    request line = (mode, source) := by
  cases h with
  | bare hmode hline =>
    have htext : line = String.ofList (':' :: (mode.name.toList ++ [])) :=
      String.toList_injective (by simp [hline])
    rw [htext, request_named hmode (by simp)]
    rfl
  | command hmode hline =>
    have htext : line = String.ofList (':' :: (mode.name.toList ++ ' ' :: source.toList)) :=
      String.toList_injective (by simp [hline])
    rw [htext, request_named hmode (by simp), List.drop_one, List.tail_cons, String.ofList_toList]
  | whole hbare hcommand =>
    unfold request
    split
    · rename_i rest hline
      split
      · rename_i mode hfound
        exfalso
        have hmode : mode ∈ Mode.named := List.mem_of_find?_eq_some hfound
        have hname : mode.name = String.ofList (rest.takeWhile (· != ' ')) := by
          simpa using List.find?_some hfound
        -- what follows the name is nothing, or it begins with the space that ended the name
        have hrest : rest = mode.name.toList ++ rest.dropWhile (· != ' ') := by
          rw [hname, String.toList_ofList, List.takeWhile_append_dropWhile]
        cases htail : rest.dropWhile (· != ' ') with
        | nil =>
          rw [htail, List.append_nil] at hrest
          exact hbare mode hmode (String.toList_injective (by simp [hline, hrest]))
        | cons c tail =>
          have hc : c = ' ' := by
            have hhead := List.head?_dropWhile_not (· != ' ') rest
            simpa [htail] using hhead
          rw [htail, hc] at hrest
          exact hcommand mode hmode (String.ofList tail) (String.toList_injective (by simp [hline, hrest]))
      · rfl
    · rfl

theorem exists_selects (line : String) : ∃ mode source, Selects line mode source := by
  by_cases hbare : ∃ mode ∈ Mode.named, line = ":" ++ mode.name
  · obtain ⟨mode, hmode, hline⟩ := hbare
    exact ⟨mode, "", .bare hmode hline⟩
  by_cases hcommand : ∃ mode ∈ Mode.named, ∃ rest, line = ":" ++ mode.name ++ " " ++ rest
  · obtain ⟨mode, hmode, rest, hline⟩ := hcommand
    exact ⟨mode, rest, .command hmode hline⟩
  push Not at hbare hcommand
  exact ⟨.evaluate, line, .whole hbare hcommand⟩

/-- Every line selects one mode and one source, and these are what it asks for. -/
theorem request_eq_iff {line : String} {mode : Mode} {source : String} :
    request line = (mode, source) ↔ Selects line mode source := by
  constructor
  · intro h
    obtain ⟨mode', source', hselects⟩ := exists_selects line
    rw [hselects.request_eq, Prod.mk.injEq] at h
    obtain ⟨rfl, rfl⟩ := h
    exact hselects
  · exact Selects.request_eq

end Session

/-! ## Events -/

namespace Event

/-- How a session ends at an event, if the event stops it. -/
def stop? : Event → Option Ending
  | .line text => if Text.trim text = "exit" then some .finished else none
  | .interrupt => none
  | .endOfInput => some .finished
  | .cancel => some .cancelled
  | .failure text => some (.failed text)

/-- The events before the first one that stops a session. -/
def passed (events : List Event) : List Event :=
  events.takeWhile (·.stop?.isNone)

/-- The first event that stops a session. -/
def firstStop? (events : List Event) : Option Event :=
  events.find? (·.stop?.isSome)

/-- Whether nothing is run at an event: a line of blanks, or an interrupt. -/
def isIdle : Event → Bool
  | .line text => Text.trim text == ""
  | .interrupt => true
  | _ => false

end Event

/-- What is written by acts: to the standard output, to the standard error, and to the log. -/
structure Writes where
  stdout : String
  stderr : String
  log : List Log.Entry

namespace Writes

/-- Nothing written. -/
def nothing : Writes :=
  ⟨"", "", []⟩

/-- What a run of a source writes on its own, with a fresh reporter. -/
def ofRun (mode : Mode) (source : String) : Writes :=
  let printed := (run mode source).print .fresh .unlimited
  ⟨printed.channel.text, endLines printed.reports, [⟨Log.debug, "evaluated line",
    [⟨"mode", .text mode.name⟩, ⟨"exit_code", .int printed.reporter.exitCode⟩], none⟩]⟩

/-- What is written at an event: what the run of its line writes, if it has one. -/
def ofEvent : Event → Writes
  | .line text =>
    if Text.trim text = "" then nothing
    else ofRun (Session.request (Text.trim text)).1 (Session.request (Text.trim text)).2
  | _ => nothing

end Writes

/-- The lines that acts write to the standard output. -/
def outputsOf (acts : List Act) : List String :=
  acts.filterMap fun
    | .output line => some line
    | _ => none

/-- What came of asking for a line, each time that acts do so. -/
def readsOf (acts : List Act) : List (Option Event) :=
  acts.filterMap fun
    | .read _ event => some event
    | _ => none

/-- What acts write altogether. -/
def writesOf (acts : List Act) : Writes :=
  ⟨endLines (outputsOf acts), endLines (reportsOf acts), acts.filterMap Act.logEntry⟩

namespace Session

/-! ## One step -/

/-- The round of an event that does not stop a session. -/
def round (event : Event) : List Act :=
  match event with
  | .line text =>
    if Text.trim text = "" then [.read .fresh (some event)]
    else
      let (mode, source) := request (Text.trim text)
      lineActs .fresh text mode (run mode source)
  | _ => [.read .fresh (some event)]

theorem outputsOf_lineActs (text : String) (mode : Mode) (res : Result) :
    outputsOf (lineActs .fresh text mode res) = res.output := by
  simp [outputsOf, lineActs, List.filterMap_append, List.filterMap_map]

theorem writesOf_lineActs (text : String) (mode : Mode) (source : String) :
    writesOf (lineActs .fresh text mode (run mode source)) = .ofRun mode source := by
  have hentries : (lineActs .fresh text mode (run mode source)).filterMap Act.logEntry =
      (Writes.ofRun mode source).log := by
    simp [lineActs, Act.logEntry, List.filterMap_cons, List.filterMap_append, List.filterMap_map,
      Function.comp_def, Writes.ofRun, Result.print]
  simp [writesOf, outputsOf_lineActs, reportsOf_lineActs, hentries, Writes.ofRun,
    Result.print_of_unlimited _ _ (show Channel.unlimited.capacity = none from rfl), Channel.text_having_lines,
    Channel.text_unlimited]

theorem writesOf_round (event : Event) : writesOf (round event) = .ofEvent event := by
  cases event with
  | line text =>
    by_cases hempty : Text.trim text = ""
    · simp only [round, Writes.ofEvent, hempty, if_true]
      rfl
    · rcases hrequest : request (Text.trim text) with ⟨mode, source⟩
      simp only [round, Writes.ofEvent, hempty, if_false, hrequest]
      exact writesOf_lineActs text mode source
  | interrupt | endOfInput | cancel | failure => rfl

theorem proceed_stop {event : Event} {ending : Ending} (h : event.stop? = some ending) (reporter : Reporter)
    (c : Channel) (events : List Event) :
    proceed reporter c (event :: events) = (finish ending reporter c).after [.read reporter (some event)] := by
  cases event with
  | line text =>
    simp only [Event.stop?] at h
    split at h
    · rename_i hexit
      cases h
      simp [proceed, hexit]
    · cases h
  | interrupt => cases h
  | endOfInput | cancel | failure =>
    cases h
    rfl

theorem proceed_idle {event : Event} (h : event.isIdle = true) (reporter : Reporter) (c : Channel)
    (events : List Event) :
    proceed reporter c (event :: events) = (proceed reporter c events).after [.read reporter (some event)] := by
  cases event with
  | line text =>
    have hempty : Text.trim text = "" := by simpa [Event.isIdle] using h
    simp only [proceed, hempty, if_true]
  | interrupt => simp only [proceed]
  | endOfInput | cancel | failure => cases h

/-- An event that does not stop a session is idle, or a line that asks for a run. -/
theorem passed_cases {event : Event} (h : event.stop? = none) : event.isIdle = true ∨
    ∃ text mode source, event = .line text ∧ Text.trim text ≠ "" ∧ Text.trim text ≠ "exit" ∧
      request (Text.trim text) = (mode, source) := by
  cases event with
  | line text =>
    by_cases hempty : Text.trim text = ""
    · left
      simp [Event.isIdle, hempty]
    · right
      refine ⟨text, _, _, rfl, hempty, ?_, rfl⟩
      intro hexit
      simp [Event.stop?, hexit] at h
  | interrupt => exact .inl rfl
  | endOfInput | cancel | failure => cases h

theorem round_idle {event : Event} (h : event.isIdle = true) : round event = [.read .fresh (some event)] := by
  cases event with
  | line text =>
    have hempty : Text.trim text = "" := by simpa [Event.isIdle] using h
    simp only [round, hempty, if_true]
  | interrupt | endOfInput | cancel | failure => rfl

theorem round_line {text : String} {mode : Mode} {source : String} (hempty : Text.trim text ≠ "")
    (hrequest : request (Text.trim text) = (mode, source)) :
    round (.line text) = lineActs .fresh text mode (run mode source) := by
  simp only [round, hempty, if_false, hrequest]

/-- The step of an event that does not stop a session: its round, after which the reporter is fresh again and
the channel has taken the lines that the round outputs. -/
theorem proceed_round {event : Event} (h : event.stop? = none) {c : Channel} (hc : c.capacity = none)
    (events : List Event) :
    proceed .fresh c (event :: events) =
      (proceed .fresh (c.having ((outputsOf (round event)).map endLine)) events).after (round event) := by
  rcases passed_cases h with hidle | ⟨text, mode, source, rfl, hempty, hexit, hrequest⟩
  · rw [proceed_idle hidle, round_idle hidle]
    simp [outputsOf, Channel.having]
  · rw [proceed_line hc hempty hexit hrequest, round_line hempty hrequest, outputsOf_lineActs]

/-! ## Whole sessions -/

theorem having_having (c : Channel) (pieces more : List String) :
    (c.having pieces).having more = c.having (pieces ++ more) := by
  simp [Channel.having]

theorem outputsOf_append (acts more : List Act) :
    outputsOf (acts ++ more) = outputsOf acts ++ outputsOf more :=
  List.filterMap_append

/-- A session on a channel without a limit: the rounds of the events that pass, and a last read, at the first
stop or because there are no more events. -/
theorem proceed_eq {c : Channel} (hc : c.capacity = none) (events : List Event) :
    proceed .fresh c events =
      ⟨(Event.passed events).flatMap round ++ [.read .fresh (Event.firstStop? events), .close],
        ((Event.firstStop? events).bind Event.stop?).getD .finished, .fresh,
        c.having ((outputsOf ((Event.passed events).flatMap round)).map endLine)⟩ := by
  induction events generalizing c with
  | nil => simp [proceed, finish, after, Event.passed, Event.firstStop?, outputsOf, Channel.having]
  | cons event events ih =>
    cases h : event.stop? with
    | some ending =>
      have hpassed : Event.passed (event :: events) = [] := by simp [Event.passed, h]
      have hstop : Event.firstStop? (event :: events) = some event := by simp [Event.firstStop?, h]
      rw [proceed_stop h, hpassed, hstop]
      simp [finish, after, h, outputsOf, Channel.having]
    | none =>
      have hpassed : Event.passed (event :: events) = event :: Event.passed events := by
        simp [Event.passed, h]
      have hstop : Event.firstStop? (event :: events) = Event.firstStop? events := by
        simp [Event.firstStop?, h]
      rw [proceed_round h hc, ih (c := c.having _) hc, hpassed, hstop, after, having_having, List.flatMap_cons,
        outputsOf_append, List.map_append, List.append_assoc]

/-- Acts that begin with a read and go on without one. -/
def OneRead (acts : List Act) : Prop :=
  ∃ first rest, acts = first :: rest ∧ isRead first = true ∧ ∀ act ∈ rest, isRead act = false

theorem oneRead_round (event : Event) : OneRead (round event) := by
  unfold round
  split
  · split
    · exact ⟨_, [], rfl, rfl, by simp⟩
    · refine ⟨_, _, rfl, rfl, ?_⟩
      intro act hact
      simp only [List.append_eq, List.mem_append, List.mem_map, List.mem_singleton] at hact
      rcases hact with (⟨e, -, rfl⟩ | ⟨line, -, rfl⟩) | rfl <;> rfl
  · exact ⟨_, [], rfl, rfl, by simp⟩

theorem splitBy_flatten_oneRead {parts : List (List Act)} (h : ∀ part ∈ parts, OneRead part) :
    parts.flatten.splitBy (fun _ next => !isRead next) = parts := by
  apply List.splitBy_flatten
  · intro hnil
    obtain ⟨first, rest, hcons, -⟩ := h [] hnil
    cases hcons
  · intro part hpart
    obtain ⟨first, rest, rfl, -, hrest⟩ := h part hpart
    apply List.Pairwise.isChain
    rw [List.pairwise_cons]
    constructor
    · intro act hact
      simp [hrest act hact]
    · exact List.pairwise_of_forall_mem_list fun _ _ act hact => by simp [hrest act hact]
  · apply List.Pairwise.isChain
    apply List.pairwise_of_forall_mem_list
    intro part hpart next hnext
    obtain ⟨first, rest, rfl, -⟩ := h part hpart
    obtain ⟨first', rest', rfl, hfirst, -⟩ := h next hnext
    exact ⟨by simp, by simp, by simp [hfirst]⟩

theorem rounds_start {c : Channel} (hc : c.capacity = none) (events : List Event) :
    (start false events c).rounds =
      (Event.passed events).map round ++ [[.read .fresh (Event.firstStop? events), .close]] := by
  have hparts : ∀ part ∈ (Event.passed events).map round ++ [[.read .fresh (Event.firstStop? events), .close]],
      OneRead part := by
    intro part hpart
    rw [List.mem_append, List.mem_map, List.mem_singleton] at hpart
    rcases hpart with ⟨event, -, rfl⟩ | rfl
    · exact oneRead_round event
    · exact ⟨_, _, rfl, rfl, by simp [isRead]⟩
  rw [rounds, start, if_neg Bool.false_ne_true, proceed_eq hc, ← splitBy_flatten_oneRead hparts]
  simp [List.flatMap_def]

theorem readsOf_round (event : Event) : readsOf (round event) = [some event] := by
  unfold round
  split
  · split
    · rfl
    · simp [readsOf, lineActs, List.filterMap_append, List.filterMap_map]
  · rfl

theorem readsOf_flatMap_round (events : List Event) : readsOf (events.flatMap round) = events.map some := by
  induction events with
  | nil => rfl
  | cons event events ih =>
    rw [List.flatMap_cons, readsOf, List.filterMap_append, ← readsOf, ← readsOf, readsOf_round, ih]
    rfl

theorem endLines_outputsOf_flatMap_round (events : List Event) :
    endLines (outputsOf (events.flatMap round)) = String.join (events.map fun e => (Writes.ofEvent e).stdout) := by
  induction events with
  | nil => rfl
  | cons event events ih =>
    have hround : endLines (outputsOf (round event)) = (Writes.ofEvent event).stdout :=
      congrArg Writes.stdout (writesOf_round event)
    rw [List.flatMap_cons, outputsOf_append, endLines_append, hround, ih, List.map_cons, String.join_cons]

/-! ## Idle events -/

/-- Two sessions do the same, but for asking for lines, and end the same way. -/
structure SameEffects (s s' : Session) : Prop where
  acts : s.acts.filter (!isRead ·) = s'.acts.filter (!isRead ·)
  ending : s.ending = s'.ending
  reporter : s.reporter = s'.reporter
  channel : s.channel = s'.channel

theorem SameEffects.after {s s' : Session} (h : SameEffects s s') (acts : List Act) :
    SameEffects (s.after acts) (s'.after acts) :=
  ⟨by simp [Session.after, h.acts], h.ending, h.reporter, h.channel⟩

theorem SameEffects.after_read {s s' : Session} (h : SameEffects s s') (reporter : Reporter)
    (event : Option Event) : SameEffects s (s'.after [.read reporter event]) :=
  ⟨h.acts, h.ending, h.reporter, h.channel⟩

theorem SameEffects.refl (s : Session) : SameEffects s s :=
  ⟨rfl, rfl, rfl, rfl⟩

/-- Interrupts and blank lines can be left out, whatever the channel takes. -/
theorem proceed_without_idle (events : List Event) (reporter : Reporter) (c : Channel) :
    SameEffects (proceed reporter c (events.filter (!·.isIdle))) (proceed reporter c events) := by
  induction events generalizing reporter c with
  | nil => exact .refl _
  | cons event events ih =>
    by_cases hidle : event.isIdle = true
    · rw [List.filter_cons_of_neg (by simp [hidle]), proceed_idle hidle]
      exact (ih reporter c).after_read reporter _
    · rw [List.filter_cons_of_pos (by simpa using hidle)]
      cases event with
      | interrupt => exact absurd rfl hidle
      | endOfInput | cancel | failure =>
        simp only [proceed]
        exact .refl _
      | line text =>
        have hempty : Text.trim text ≠ "" := by simpa [Event.isIdle] using hidle
        simp only [proceed, hempty, if_false]
        -- the line stops both sessions, or both go on behind the same acts
        split
        · exact .refl _
        · split
          · exact (ih .fresh _).after _
          · exact .refl _

end Session

/-- A whole session over any events, on a channel without a limit. It asks for the events up to and including
the first stop, and only where there is none it meets the end of the input; the stop says how it ends. What
each round writes, and the status in its log entry, depends on its event alone: nothing for an interrupt or
a blank line, and for any other line what a run of the source that it selects writes with a fresh reporter.
The channel takes what the rounds output. Interrupts and blank lines can be left out without any other
effect. -/
theorem session_line_by_line (events : List Event) {c : Channel} (hc : c.capacity = none) :
    let s := Session.start false events c
    readsOf s.acts = (Event.passed events).map some ++ [Event.firstStop? events] ∧
    s.ending = ((Event.firstStop? events).bind Event.stop?).getD .finished ∧
    s.rounds.map writesOf = (Event.passed events).map Writes.ofEvent ++ [.nothing] ∧
    s.channel.text = c.text ++ String.join ((Event.passed events).map fun e => (Writes.ofEvent e).stdout) ∧
    (∀ line mode source, Session.request line = (mode, source) ↔ Session.Selects line mode source) ∧
    Session.SameEffects (Session.start false (events.filter (!·.isIdle)) c) s := by
  intro s
  have hs : s = Session.proceed .fresh c events := rfl
  rw [Session.proceed_eq hc] at hs
  refine ⟨?_, ?_, ?_, ?_, fun _ _ _ => Session.request_eq_iff, Session.proceed_without_idle events .fresh c⟩
  · rw [hs, readsOf, List.filterMap_append, ← readsOf, Session.readsOf_flatMap_round]
    rfl
  · rw [hs]
  · rw [Session.rounds_start hc, List.map_append, List.map_map]
    congr 1
    exact List.map_congr_left fun e _ => Session.writesOf_round e
  · rw [hs, Channel.text_having_lines, Session.endLines_outputsOf_flatMap_round]

/-- Lines with each of the three commands, a lexical error between them, and lines that come too late. -/
def mixedScript : List Event :=
  [.line "@", .interrupt, .line " :parse (nil)\t", .line " ", .line ":tokenize", .line ":bogus", .line "-nil",
    .failure "gone", .line "true"]

theorem session_line_by_line_at :
    (Session.start false mixedScript .unlimited).ending = .failed "gone" ∧
    (readsOf (Session.start false mixedScript .unlimited).acts).length = 8 ∧
    (Session.start false mixedScript .unlimited).channel.text = "(group nil)\nEOF  null\n" ∧
    ((Session.start false mixedScript .unlimited).rounds.map writesOf).map (·.stderr) =
      ["[line 1] Error: Unexpected character: @\n", "", "", "", "",
        "[line 1] Error: Unexpected character: :\n", "Operand must be a number.\n[line 1]\n", ""] := by
  obtain ⟨hreads, hending, hwrites, htext, -⟩ :=
    session_line_by_line mixedScript (show Channel.unlimited.capacity = none from rfl)
  refine ⟨?_, ?_, ?_, ?_⟩
  · rw [hending]
    decide
  · rw [hreads]
    decide
  · rw [htext]
    decide
  · rw [hwrites]
    decide

end Reckoner
