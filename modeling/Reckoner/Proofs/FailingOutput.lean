/-
Sessions whose output fails. On a channel that takes `n` lines and refuses all later ones a session does
what it does on a channel without a limit, up to the first line that is refused; there it ends with the
refusal and asks for no further event. Whatever happens, the input is closed once, and every event is asked
for with a reporter that has seen nothing.

One step is a stop, a round that fits into what the channel still takes, or a round that is cut short; the
whole session follows by induction on the events, with what is left of the channel generalised.
-/
import Reckoner.Proofs.Rounds

namespace Reckoner

/-! ## Limited channels -/

namespace Channel

theorem writeAll_of_limited (n : Nat) (refusal : String) (old pieces : List String) :
    (⟨some n, refusal, old⟩ : Channel).writeAll pieces =
      (decide (pieces.length ≤ n), ⟨some (n - pieces.length), refusal, old ++ pieces.take n⟩) := by
  induction pieces generalizing n old with
  | nil => simp [writeAll]
  | cons piece pieces ih =>
    cases n with
    | zero => simp [writeAll, write?]
    | succ n => simp [writeAll, write?, ih]

end Channel

theorem Result.print_of_limited (res : Result) (reporter : Reporter) (n : Nat) (refusal : String)
    (old : List String) :
    res.print reporter ⟨some n, refusal, old⟩ =
      ⟨res.errors.map (·.text), res.errors.foldl Reporter.note reporter,
        ⟨some (n - res.output.length), refusal, old ++ (res.output.take n).map endLine⟩,
        decide (res.output.length ≤ n)⟩ := by
  simp only [Result.print, Channel.writeAll_of_limited, List.length_map, List.map_take]

namespace Session

/-! ## One step -/

/-- A round whose output fits into what the channel takes: the session goes on as without a limit. -/
theorem proceed_round_of_fits {event : Event} (h : event.stop? = none) {n : Nat}
    (hn : (outputsOf (round event)).length ≤ n) (refusal : String) (old : List String) (events : List Event) :
    proceed .fresh ⟨some n, refusal, old⟩ (event :: events) =
      (proceed .fresh ⟨some (n - (outputsOf (round event)).length), refusal,
        old ++ (outputsOf (round event)).map endLine⟩ events).after (round event) := by
  rcases passed_cases h with hidle | ⟨text, mode, source, rfl, hempty, hexit, hrequest⟩
  · rw [proceed_idle hidle, round_idle hidle]
    simp [outputsOf]
  · rw [round_line hempty hrequest, outputsOf_lineActs] at hn ⊢
    simp only [proceed, hempty, hexit, if_false, hrequest, Result.print_of_limited, hn, decide_true, if_true,
      printing, Channel.taken, List.take_of_length_le hn, lineActs]

/-- The acts of a line of whose output only the first `k` lines are taken. -/
def refusedActs (text : String) (res : Result) (k : Nat) : List Act :=
  .read .fresh (some (.line text)) :: (res.errors.map (.report ·.text) ++ (res.output.take k).map .output)

/-- A round whose output does not fit: the lines that do are output, and the session ends with the refusal. -/
theorem proceed_round_of_refused {event : Event} (h : event.stop? = none) {n : Nat}
    (hn : n < (outputsOf (round event)).length) (refusal : String) (old : List String) (events : List Event) :
    ∃ text mode source, request (Text.trim text) = (mode, source) ∧
      round event = lineActs .fresh text mode (run mode source) ∧
      proceed .fresh ⟨some n, refusal, old⟩ (event :: events) =
        ⟨refusedActs text (run mode source) n ++ [.close], .failed refusal,
          (run mode source).errors.foldl Reporter.note .fresh,
          ⟨some 0, refusal, old ++ ((outputsOf (round event)).take n).map endLine⟩⟩ := by
  rcases passed_cases h with hidle | ⟨text, mode, source, rfl, hempty, hexit, hrequest⟩
  · rw [round_idle hidle] at hn
    simp [outputsOf] at hn
  · refine ⟨text, mode, source, hrequest, round_line hempty hrequest, ?_⟩
    rw [round_line hempty hrequest, outputsOf_lineActs] at hn ⊢
    have hle : ¬ (run mode source).output.length ≤ n := by omega
    have hleft : n - (run mode source).output.length = 0 := by omega
    simp [proceed, hempty, hexit, hrequest, Result.print_of_limited, hle, hleft, printing, Channel.taken,
      refusedActs, finish, after]

/-! ## Whole sessions -/

/-- The session `s` does what `whole` does, up to the middle of the output of one line: of it `k` lines are
output, which make up the `n` lines that are output at all. It ends with the refusal, and its reporter has
seen the errors of that line. -/
inductive CutShort (n : Nat) (refusal : String) (whole s : Session) : Prop
  | intro (earlier later : List Act) {text : String} {mode : Mode} {source : String} {k : Nat} :
      request (Text.trim text) = (mode, source) →
      whole.acts = earlier ++ lineActs .fresh text mode (run mode source) ++ later →
      s.acts = earlier ++ refusedActs text (run mode source) k ++ [.close] →
      (outputsOf earlier).length + k = n → k < (run mode source).output.length →
      s.ending = .failed refusal → s.reporter.exitCode = (run mode source).exitCode →
      CutShort n refusal whole s

theorem CutShort.after {n : Nat} {refusal : String} {whole s : Session} (h : CutShort n refusal whole s)
    (acts : List Act) : CutShort ((outputsOf acts).length + n) refusal (whole.after acts) (s.after acts) := by
  cases h with
  | @intro earlier later text mode source k hrequest hwhole hs hn hk hending hcode =>
    refine .intro (acts ++ earlier) later hrequest ?_ ?_ ?_ hk hending hcode
    · simp only [Session.after, hwhole, List.append_assoc]
    · simp only [Session.after, hs, List.append_assoc]
    · rw [outputsOf_append, List.length_append]
      omega

/-- The session `s` is what becomes of the session `whole` on a channel that takes `n` lines. -/
structure Limited (n : Nat) (refusal : String) (old : List String) (whole s : Session) : Prop where
  pieces : s.channel.pieces = old ++ ((outputsOf whole.acts).take n).map endLine
  fits : (outputsOf whole.acts).length ≤ n →
    s.acts = whole.acts ∧ s.ending = whole.ending ∧ s.reporter = .fresh
  refused : n < (outputsOf whole.acts).length → CutShort n refusal whole s

theorem Limited.finish (n : Nat) (refusal : String) (old : List String) (ending : Ending) (c : Channel) :
    Limited n refusal old (finish ending .fresh c) (Session.finish ending .fresh ⟨some n, refusal, old⟩) where
  pieces := by simp [Session.finish, outputsOf]
  fits _ := ⟨rfl, rfl, rfl⟩
  refused h := by simp [Session.finish, outputsOf] at h

theorem Limited.after {n : Nat} {refusal : String} {old : List String} {whole s : Session} (acts : List Act)
    (hn : (outputsOf acts).length ≤ n)
    (h : Limited (n - (outputsOf acts).length) refusal (old ++ (outputsOf acts).map endLine) whole s) :
    Limited n refusal old (whole.after acts) (s.after acts) where
  pieces := by
    simp only [Session.after, h.pieces, outputsOf_append, List.take_append, List.take_of_length_le hn,
      List.map_append, List.append_assoc]
  fits hle := by
    simp only [Session.after, outputsOf_append, List.length_append] at hle
    obtain ⟨hacts, hending, hreporter⟩ := h.fits (by omega)
    exact ⟨congrArg (acts ++ ·) hacts, hending, hreporter⟩
  refused hlt := by
    simp only [Session.after, outputsOf_append, List.length_append] at hlt
    have hcut := (h.refused (by omega)).after acts
    rwa [Nat.add_sub_cancel' hn] at hcut

theorem Limited.after_read {n : Nat} {refusal : String} {old : List String} {whole s : Session}
    (h : Limited n refusal old whole s) (event : Option Event) :
    Limited n refusal old (whole.after [.read .fresh event]) (s.after [.read .fresh event]) :=
  .after _ (Nat.zero_le n) (by simpa [outputsOf] using h)

/-- A channel with a limit against one without: what the session does is the same up to the limit. -/
theorem proceed_limited {c : Channel} (hc : c.capacity = none) (events : List Event) (n : Nat) (refusal : String)
    (old : List String) :
    Limited n refusal old (proceed .fresh c events) (proceed .fresh ⟨some n, refusal, old⟩ events) := by
  induction events generalizing c n old with
  | nil => exact (Limited.finish n refusal old .finished c).after_read none
  | cons event events ih =>
    cases h : event.stop? with
    | some ending =>
      rw [proceed_stop h, proceed_stop h]
      exact (Limited.finish n refusal old ending c).after_read (some event)
    | none =>
      rw [proceed_round h hc]
      by_cases hn : (outputsOf (round event)).length ≤ n
      · rw [proceed_round_of_fits h hn]
        exact .after (round event) hn (ih (c := c.having _) hc _ _)
      · obtain ⟨text, mode, source, hrequest, hround, hproceed⟩ :=
          proceed_round_of_refused h (Nat.lt_of_not_le hn) refusal old events
        generalize proceed .fresh (c.having _) events = rest
        have hlt : n < (outputsOf (rest.after (round event)).acts).length := by
          rw [Session.after, outputsOf_append, List.length_append]
          omega
        rw [hproceed]
        refine ⟨?_, fun hle => absurd hlt (Nat.not_lt.2 hle), fun _ => ?_⟩
        · rw [Session.after, outputsOf_append, List.take_append_of_le_length (by omega)]
        · -- no line was output before the one that is cut short
          rw [hround, outputsOf_lineActs] at hn
          refine .intro [] rest.acts hrequest ?_ rfl (Nat.zero_add n) (by omega) rfl
            (run_runsTo mode source).exitCode_note
          rw [Session.after, hround, List.nil_append]

/-! ## Clean-up -/

/-- Acts that do not close the input and ask for events only with a reporter that has seen nothing. -/
def Tidy (acts : List Act) : Prop :=
  .close ∉ acts ∧ ∀ seen event, .read seen event ∈ acts → seen = .fresh

/-- The session closes its input as the last act and not before. -/
def Clean (s : Session) : Prop :=
  ∃ acts, s.acts = acts ++ [.close] ∧ Tidy acts

theorem Tidy.append {acts more : List Act} (h : Tidy acts) (h' : Tidy more) : Tidy (acts ++ more) := by
  refine ⟨by simp [h.1, h'.1], ?_⟩
  intro seen event hmem
  rcases List.mem_append.1 hmem with hmem | hmem
  · exact h.2 seen event hmem
  · exact h'.2 seen event hmem

theorem tidy_read (event : Option Event) : Tidy [.read .fresh event] := by
  simp [Tidy]

theorem tidy_printing (event : Option Event) (res : Result) (c : Channel) :
    Tidy (.read .fresh event :: printing res c) := by
  simp [Tidy, printing]

theorem Clean.finish (ending : Ending) (reporter : Reporter) (c : Channel) :
    Clean (Session.finish ending reporter c) :=
  ⟨[], rfl, by simp [Tidy]⟩

theorem Clean.after {s : Session} (h : Clean s) {acts : List Act} (hacts : Tidy acts) : Clean (s.after acts) := by
  obtain ⟨rest, hs, hrest⟩ := h
  exact ⟨acts ++ rest, by rw [Session.after, hs, List.append_assoc], hacts.append hrest⟩

theorem Clean.closings {s : Session} (h : Clean s) : s.closings = 1 := by
  obtain ⟨acts, hs, hclose, -⟩ := h
  rw [Session.closings, hs, List.countP_append]
  refine (congrArg (· + 1) (List.countP_eq_zero.2 ?_)).trans (Nat.zero_add 1)
  intro act hact hclosing
  cases act with
  | close => exact hclose hact
  | read | report | output | ran => cases hclosing

theorem Clean.read_fresh {s : Session} (h : Clean s) {seen : Reporter} {event : Option Event}
    (hread : .read seen event ∈ s.acts) : seen = .fresh := by
  obtain ⟨acts, hs, -, hfresh⟩ := h
  rw [hs, List.mem_append, List.mem_singleton] at hread
  rcases hread with hread | hread
  · exact hfresh seen event hread
  · cases hread

/-- Every session is clean, whatever its channel takes. -/
theorem proceed_clean (c : Channel) (events : List Event) : Clean (proceed .fresh c events) := by
  induction events generalizing c with
  | nil => exact (Clean.finish _ _ _).after (tidy_read _)
  | cons event events ih =>
    cases event with
    | interrupt => exact (ih c).after (tidy_read _)
    | endOfInput | cancel | failure => exact (Clean.finish _ _ _).after (tidy_read _)
    | line text =>
      simp only [proceed]
      split
      · exact (ih c).after (tidy_read _)
      · split
        · exact (Clean.finish _ _ _).after (tidy_read _)
        · split
          · exact (ih _).after ((tidy_printing _ _ _).append (by simp [Tidy]))
          · exact (Clean.finish _ _ _).after (tidy_printing _ _ _)

theorem start_clean (isCancelled : Bool) (events : List Event) (c : Channel) :
    Clean (start isCancelled events c) := by
  cases isCancelled with
  | false => exact proceed_clean c events
  | true => exact .finish _ _ _

theorem start_limited (isCancelled : Bool) (events : List Event) (n : Nat) (refusal : String) :
    Limited n refusal [] (start isCancelled events .unlimited) (start isCancelled events (.limited n refusal)) := by
  cases isCancelled with
  | false => exact proceed_limited rfl events n refusal []
  | true => exact .finish n refusal [] .cancelled .unlimited

theorem text_start_unlimited (isCancelled : Bool) (events : List Event) :
    (start isCancelled events .unlimited).channel.text =
      endLines (outputsOf (start isCancelled events .unlimited).acts) := by
  cases isCancelled with
  | false =>
    rw [start, if_neg Bool.false_ne_true, proceed_eq rfl, Channel.text_having_lines, Channel.text_unlimited,
      String.empty_append, outputsOf_append]
    exact congrArg endLines (List.append_nil _).symm
  | true => rfl

theorem readsOf_refusedActs (text : String) (res : Result) (k : Nat) :
    readsOf (refusedActs text res k) = [some (.line text)] := by
  unfold refusedActs
  generalize res.output.take k = lines
  simp [readsOf, List.filterMap_append, List.filterMap_map]

/-- The line that is cut short is the last event that is asked for. -/
theorem CutShort.last_read {n : Nat} {refusal : String} {whole s : Session} (h : CutShort n refusal whole s) :
    ∃ text mode source, (readsOf s.acts).getLast? = some (some (.line text)) ∧
      request (Text.trim text) = (mode, source) ∧ s.reporter.exitCode = (run mode source).exitCode := by
  cases h with
  | @intro earlier later text mode source k hrequest hwhole hs hn hk hending hcode =>
    refine ⟨text, mode, source, ?_, hrequest, hcode⟩
    have hreads : readsOf s.acts = readsOf earlier ++ [some (.line text)] := by
      rw [hs, readsOf, List.filterMap_append, List.filterMap_append, ← readsOf, ← readsOf, readsOf_refusedActs]
      exact List.append_nil _
    rw [hreads, List.getLast?_concat]

end Session

/-- Sessions on a channel that takes `n` lines and refuses all later ones, against the same session on a
channel without a limit. The input is closed once, as the last act, and every event is asked for with a
reporter that has seen nothing. The first `n` lines of the whole session are written. If there are no more
of them, then the sessions do and end alike, and the reporter is fresh; otherwise the session is cut short
at the first line that is refused. So the status of the reporter tells of errors only where a line that has
some was cut short in its output. -/
theorem session_on_failing_output (isCancelled : Bool) (events : List Event) (n : Nat) (refusal : String) :
    let whole := Session.start isCancelled events .unlimited
    let s := Session.start isCancelled events (.limited n refusal)
    let lines := outputsOf whole.acts
    s.closings = 1 ∧ s.acts.getLast? = some .close ∧
    (∀ seen event, .read seen event ∈ s.acts → seen = .fresh) ∧
    s.channel.text = endLines (lines.take n) ∧ whole.channel.text = endLines lines ∧
    (lines.length ≤ n → s.acts = whole.acts ∧ s.ending = whole.ending ∧ s.reporter = .fresh) ∧
    (n < lines.length → Session.CutShort n refusal whole s) ∧
    (s.reporter.exitCode ≠ Exit.success ↔ n < lines.length ∧ ∃ text mode source,
      (readsOf s.acts).getLast? = some (some (.line text)) ∧
      Session.request (Text.trim text) = (mode, source) ∧ (run mode source).errors ≠ []) := by
  intro whole s lines
  have hclean : s.Clean := Session.start_clean isCancelled events _
  obtain ⟨hpieces, hfits, hrefused⟩ := Session.start_limited isCancelled events n refusal
  refine ⟨hclean.closings, ?_, fun seen event => hclean.read_fresh, ?_, ?_, hfits, hrefused, ?_⟩
  · obtain ⟨acts, hacts, -⟩ := hclean
    rw [hacts, List.getLast?_concat]
  · rw [Channel.text, hpieces, List.nil_append, endLines]
  · exact Session.text_start_unlimited isCancelled events
  · by_cases hlines : n < lines.length
    · obtain ⟨text, mode, source, hread, hrequest, hcode⟩ := (hrefused hlines).last_read
      have herrors := (run_runsTo mode source).exitCode_zero_iff
      rw [hcode]
      constructor
      · intro hne
        exact ⟨hlines, text, mode, source, hread, hrequest, fun hnone => hne (herrors.2 hnone)⟩
      · rintro ⟨-, text', mode', source', hread', hrequest', hsome⟩ hzero
        -- the last event that was asked for is the line that was cut short
        rw [hread, Option.some.injEq, Option.some.injEq, Event.line.injEq] at hread'
        rw [← hread', hrequest, Prod.mk.injEq] at hrequest'
        obtain ⟨rfl, rfl⟩ := hrequest'
        exact hsome (herrors.1 hzero)
    · obtain ⟨-, -, hreporter⟩ := hfits (Nat.le_of_not_lt hlines)
      rw [hreporter]
      exact ⟨fun hne => absurd rfl hne, fun h => absurd h.1 hlines⟩

/-- The tokens of a line with a stray character, between two other lines. -/
def strayScript : List Event :=
  [.line "nil", .line ":tokenize @ nil", .line "true"]

/-- The output fails between the two tokens, after the stray character has been reported. -/
theorem session_on_failing_output_at :
    2 < (outputsOf (Session.start false strayScript .unlimited).acts).length ∧
    Session.CutShort 2 "broken pipe" (Session.start false strayScript .unlimited)
      (Session.start false strayScript (.limited 2 "broken pipe")) ∧
    (Session.start false strayScript (.limited 2 "broken pipe")).channel.text = "nil\nNIL nil null\n" ∧
    (Session.start false strayScript (.limited 2 "broken pipe")).closings = 1 ∧
    (Session.start false strayScript (.limited 2 "broken pipe")).reporter.exitCode ≠ Exit.success := by
  have hlines : outputsOf (Session.start false strayScript .unlimited).acts =
      ["nil", "NIL nil null", "EOF  null", "true"] := by decide +kernel
  obtain ⟨hclosings, -, -, htext, -, -, hcut, hcode⟩ :=
    session_on_failing_output false strayScript 2 "broken pipe"
  have hlimit : 2 < (outputsOf (Session.start false strayScript .unlimited).acts).length := by
    rw [hlines]
    decide
  refine ⟨hlimit, hcut hlimit, ?_, hclosings, hcode.2 ⟨hlimit, ":tokenize @ nil", .tokenize, "@ nil", ?_⟩⟩
  · rw [htext, hlines]
    decide
  · decide +kernel

end Reckoner
