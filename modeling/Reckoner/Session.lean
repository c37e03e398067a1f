/-
Sessions: lines are read one by one and each is run on its own, until one of them says `exit`, the
input ends or fails, the session is cancelled, or the output is refused. Everything that a session
does is listed in order.
-/
import Reckoner.Log.Logger
import Reckoner.Run

namespace Reckoner

/-- What comes of asking for a line. -/
inductive Event where
  | line (text : String)
  | interrupt
  | endOfInput
  | cancel
  | failure (text : String)
  deriving DecidableEq, Repr

/-- What a session does: it asks for a line, with the state of its reporter at that moment and
what came of it unless the events were used up; it reports a problem; it outputs a line; it notes
that a line was run; and it closes its input. -/
inductive Act where
  | read (seen : Reporter) (event : Option Event)
  | report (text : String)
  | output (line : String)
  | ran (mode : Mode) (exitCode : Nat)
  | close
  deriving DecidableEq, Repr

namespace Act

/-- The log entry of an act. -/
def logEntry : Act → Option Log.Entry
  | .ran mode exitCode => some ⟨Log.debug, "evaluated line",
      [⟨"mode", .text mode.name⟩, ⟨"exit_code", .int exitCode⟩], none⟩
  | _ => none

end Act

/-- The ways a session ends: on its own, because it was cancelled, or by a failure. -/
inductive Ending where
  | finished
  | cancelled
  | failed (text : String)
  deriving DecidableEq, Repr

namespace Ending

/-- The text of what kept a session from going on. -/
def message? : Ending → Option String
  | .finished => none
  | .cancelled => some "context canceled"
  | .failed text => some text

end Ending

/-- A session as a whole: what it did, how it ended, and the state of its reporter and of its
output at the end. -/
structure Session where
  acts : List Act
  ending : Ending
  reporter : Reporter
  channel : Channel

namespace Session

/-- What a line asks for: a colon and the name of a mode, up to the first space, ask for the rest
to be run in that mode, and any other line is evaluated as a whole. -/
def request (line : String) : Mode × String :=
  match line.toList with
  | ':' :: rest =>
    match Mode.ofName? (String.ofList (rest.takeWhile (· != ' '))) with
    | some mode => (mode, String.ofList ((rest.dropWhile (· != ' ')).drop 1))
    | none => (.evaluate, line)
  | _ => (.evaluate, line)

/-- A session that ends here. -/
def finish (ending : Ending) (reporter : Reporter) (channel : Channel) : Session :=
  ⟨[.close], ending, reporter, channel⟩

/-- A session that did something else before. -/
def after (acts : List Act) (s : Session) : Session :=
  { s with acts := acts ++ s.acts }

/-- The acts of printing a result to a channel. -/
def printing (res : Result) (channel : Channel) : List Act :=
  res.errors.map (.report ·.text) ++ (channel.taken res.output).map .output

/-- The session from the next read on. -/
def proceed (reporter : Reporter) (channel : Channel) : List Event → Session
  | [] => (finish .finished reporter channel).after [.read reporter none]
  | event :: rest =>
    let asked : Act := .read reporter (some event)
    match event with
    | .interrupt => (proceed reporter channel rest).after [asked]
    | .endOfInput => (finish .finished reporter channel).after [asked]
    | .cancel => (finish .cancelled reporter channel).after [asked]
    | .failure text => (finish (.failed text) reporter channel).after [asked]
    | .line text =>
      let line := Text.trim text
      if line = "" then (proceed reporter channel rest).after [asked]
      else if line = "exit" then (finish .finished reporter channel).after [asked]
      else
        let (mode, source) := request line
        let res := run mode source
        let printed := res.print reporter channel
        let acts := asked :: printing res channel
        if printed.complete then
          (proceed .fresh printed.channel rest).after
            (acts ++ [.ran mode printed.reporter.exitCode])
        else (finish (.failed printed.channel.refusal) printed.reporter printed.channel).after acts

/-- A whole session over the given events, with a fresh reporter. One that is cancelled from the
start does not even ask for a line. -/
def start (isCancelled : Bool) (events : List Event) (channel : Channel) : Session :=
  if isCancelled then finish .cancelled .fresh channel
  else proceed .fresh channel events

/-- How many of the events were used. -/
def eventsRead (s : Session) : Nat :=
  s.acts.countP fun
    | .read _ (some _) => true
    | _ => false

/-- How often the input was closed. -/
def closings (s : Session) : Nat :=
  s.acts.countP fun
    | .close => true
    | _ => false

/-- Tells an act that asks for a line from all others. -/
def isRead : Act → Bool
  | .read _ _ => true
  | _ => false

/-- The acts from one read up to the next; all in one round if there was no read. -/
def rounds (s : Session) : List (List Act) :=
  s.acts.splitBy fun _ next => !isRead next

end Session

end Reckoner
