/-
Whole command lines: the command is found, its flags are read, the settings are loaded and checked,
the logger is made, and then the command runs.
-/
import Reckoner.Command.Help
import Reckoner.Http.Address
import Reckoner.Session
import Reckoner.Settings

namespace Reckoner

/-! ## Ends of commands -/

/-- An exit status with what is said about it. -/
structure ExitStatus where
  code : Int
  text : Option String
  deriving DecidableEq, Repr

namespace ExitStatus

/-- The text of an exit status. -/
def message (e : ExitStatus) : String :=
  e.text.getD ("exit status " ++ toString e.code)

/-- What is written about an exit status: nothing if nothing is said. -/
def report (e : ExitStatus) : String :=
  (e.text.map endLine).getD ""

/-- Success. -/
def success : ExitStatus := ⟨Exit.success, none⟩

/-- A failure with a text. -/
def failure (code : Nat) (text : String) : ExitStatus := ⟨code, some text⟩

end ExitStatus

/-- An open log, and the failure to close it that lies ahead, if there is one. -/
structure OpenLog where
  failure : Option String
  deriving DecidableEq, Repr

namespace OpenLog

/-- What is written when a log is closed: nothing unless that fails. -/
def closingReport (log : OpenLog) : String :=
  (log.failure.map fun text => "close log file: " ++ text ++ "\n").getD ""

end OpenLog

/-- What closing leads to: what is written about it, the logs that were closed, and the one that is
still open. -/
structure Closing where
  report : String
  closed : List OpenLog
  left : Option OpenLog

/-- Closes a log if one is open. -/
def closeLog : Option OpenLog → Closing
  | none => ⟨"", [], none⟩
  | some log => ⟨log.closingReport, [log], none⟩

namespace Command

/-- What a command line meets: the disk, the environment, the standard output, and what comes of
asking for lines, unless lines cannot be asked for at all. -/
structure World where
  disk : Disk
  env : String → String
  output : Channel
  input : Except String (List Event)

/-- What a command line leaves behind: the disk, the standard output, what was written to the
standard error, and the settings with which lines were asked for, if they were. -/
structure State where
  disk : Disk
  output : Channel
  errors : String
  prompt : Option PromptSettings

/-- A logger at work: where it writes, how times are stamped, and the journal it belongs to. -/
structure Logging where
  file : String
  stamp : String
  journal : Log.Journal

namespace State

/-- The state in which a command line begins. -/
def initial (w : World) : State :=
  ⟨w.disk, w.output, "", none⟩

/-- Writes to the standard error. -/
def report (s : State) (text : String) : State :=
  { s with errors := s.errors ++ text }

/-- Writes to the standard output, as far as it is taken. -/
def print (s : State) (pieces : List String) : State :=
  { s with output := (s.output.writeAll pieces).2 }

/-- Records an entry on the standard error and in the log file. -/
def log (s : State) (l : Logging) (e : Log.Entry) : State :=
  let written := l.journal.log 0 l.stamp e
  let disk := if written.file = "" then s.disk
    else ((s.disk.append l.file written.file).toOption).getD s.disk
  { s with errors := s.errors ++ written.main, disk := disk }

end State

/-! ## Setting up -/

/-- What the flags say about the settings. -/
def flagOverrides (p : Parsed) : Overrides :=
  { Overrides.nothing with level := nonEmpty p.logLevel, format := nonEmpty p.logFormat }

/-- Why a command cannot be set up. -/
inductive SetUpError where
  | load (error : LoadError)
  | fault (fault : Settings.Fault)
  | log (error : Log.OpenError)
  deriving DecidableEq, Repr

namespace SetUpError

/-- The text of a failure. -/
def message : SetUpError → String
  | .load e => e.message
  | .fault f => f.message
  | .log e => e.message

end SetUpError

/-- The settings of a command line, if they are in order. Only the final values are judged. -/
def settings (w : World) (p : Parsed) : Except SetUpError Settings :=
  match Settings.load w.disk w.env p.config with
  | .error e => .error (.load e)
  | .ok loaded =>
    let s := loaded.under (flagOverrides p)
    match s.fault? with
    | some fault => .error (.fault fault)
    | none => .ok s

/-- The settings of a command line, its logger, and the disk after the log file was opened. -/
def setUp (w : World) (p : Parsed) (stamp : String) :
    Except SetUpError (Settings × Logging × Disk) :=
  match settings w p with
  | .error e => .error e
  | .ok s =>
    match Log.Journal.start s.log w.disk with
    | .error e => .error (.log e)
    | .ok (journal, disk) => .ok (s, ⟨s.log.file, stamp, journal⟩, disk)

/-! ## Running -/

/-- The entry before a file is run. -/
def runningEntry (mode : Mode) (path source : String) : Log.Entry :=
  ⟨Log.debug, "running file", [⟨"mode", .text mode.name⟩, ⟨"path", .text path⟩,
    ⟨"size", .int source.utf8ByteSize⟩], none⟩

/-- The entry after a file was run. -/
def finishedEntry (res : Result) (exitCode : Nat) : Log.Entry :=
  ⟨Log.debug, "finished", [⟨"tokens", .int res.tokens.length⟩, ⟨"errors", .int res.errors.length⟩,
    ⟨"exit_code", .int exitCode⟩], none⟩

/-- Runs a file in a mode. -/
def runFile (l : Logging) (s : State) (mode : Mode) (path : String) : State × ExitStatus :=
  match s.disk.read path with
  | .error e => (s, .failure Exit.noInput e.message)
  | .ok source =>
    let s := s.log l (runningEntry mode path source)
    let res := run mode source
    let printed := res.print .fresh s.output
    let s := { s.report (endLines printed.reports) with output := printed.channel }
    if printed.complete then
      let code := printed.reporter.exitCode
      (s.log l (finishedEntry res code), ⟨code, none⟩)
    else (s, .failure Exit.software printed.channel.refusal)

/-- What an act of a session does to the standard error and the log file. -/
def follow (l : Logging) (s : State) (act : Act) : State :=
  match act with
  | .report text => s.report (endLine text)
  | _ => (act.logEntry.map (s.log l)).getD s

/-- Runs a session. Being cancelled is no failure of it. -/
def runSession (w : World) (l : Logging) (s : State) (settings : PromptSettings) :
    State × ExitStatus :=
  let s := { s with prompt := some settings }
  match w.input with
  | .error text => (s, .failure Exit.software text)
  | .ok events =>
    let session := Session.start false events s.output
    let s := { session.acts.foldl (follow l) s with output := session.channel }
    match session.ending with
    | .failed text => (s, .failure Exit.software text)
    | _ => (s, .success)

/-- The entry before the server listens. -/
def listeningEntry (addr : String) : Log.Entry :=
  ⟨Log.info, "listening", [⟨"addr", .text addr⟩], none⟩

/-- The address to listen on: that of the flag, if it names one. -/
def listenAddress (settings : ServerSettings) (p : Parsed) : String :=
  (nonEmpty p.addr).getD settings.addr

/-- Runs the server. This ends at once if nobody can listen on its address. -/
def runServer (l : Logging) (s : State) (addr : String) : State × ExitStatus :=
  let s := s.log l (listeningEntry addr)
  match Http.addressFault? addr with
  | some fault => (s, .failure Exit.software (Http.listenFailure addr fault))
  | none => (s, .success)

/-- What can be wrong with the operands of a command. -/
inductive OperandFault where
  | unexpected (word : String)
  | notOne (count : Nat)
  deriving DecidableEq, Repr

/-- The text of a fault, with the use of the command. -/
def OperandFault.message (c : Command) (fault : OperandFault) : String :=
  let text := match fault with
    | .unexpected word => "unknown command " ++ Text.quote word ++ " for " ++ Text.quote c.path
    | .notOne count => "accepts 1 arg(s), received " ++ toString count
  text ++ "\nUsage: " ++ c.useLine

/-- What is wrong with the operands of a command: one that runs a file takes exactly one, and the
session and the server take none. -/
def operandFault? (c : Command) (operands : List String) : Option OperandFault :=
  match c, operands with
  | .repl, word :: _ => some (.unexpected word)
  | .serve, word :: _ => some (.unexpected word)
  | _, _ =>
    if c.mode?.isSome && operands.length ≠ 1 then some (.notOne operands.length) else none

/-- Runs a command that is set up. -/
def perform (w : World) (l : Logging) (settings : Settings) (s : State) (c : Command) (p : Parsed) :
    State × ExitStatus :=
  match c.mode?, p.operands with
  | some mode, path :: _ => runFile l s mode path
  | _, operands =>
    match c with
    | .repl => runSession w l s settings.repl
    | .serve => runServer l s (listenAddress settings.server p)
    | _ => (s.print (topicText operands), .success)

/-- Prints the version. -/
def printVersion (s : State) : State × ExitStatus :=
  match s.output.write? versionText with
  | some output => ({ s with output := output }, .success)
  | none => (s, .failure Exit.usage s.output.refusal)

/-- Runs a command with what its arguments say. -/
def runCommand (w : World) (stamp : String) (c : Command) (p : Parsed) :
    State × ExitStatus × Option OpenLog :=
  let s := State.initial w
  if p.help then (s.print c.helpText, .success, none)
  else if p.version then
    let (s, status) := printVersion s
    (s, status, none)
  else if !c.isRunnable then (s.print c.helpText, .success, none)
  else match operandFault? c p.operands with
    | some fault => (s, .failure Exit.usage (fault.message c), none)
    | none =>
      match setUp w p stamp with
      | .error e => (s, .failure Exit.usage e.message, none)
      | .ok (settings, l, disk) =>
        let (s, status) := perform w l settings { s with disk := disk } c p
        (s, status, some ⟨none⟩)

/-- Runs a command line up to the point where its log is closed. -/
def runArguments (w : World) (stamp : String) (args : List String) :
    State × ExitStatus × Option OpenLog :=
  match find args with
  | .error e => (.initial w, .failure Exit.usage e.message, none)
  | .ok (c, rest) =>
    match read c rest with
    | .error e => (.initial w, .failure Exit.usage e.message, none)
    | .ok p => runCommand w stamp c p

/-- What a command line comes to: its state at the end, the exit status, the logs that were opened
and those that were closed, and the one that is still open. -/
structure Outcome where
  state : State
  code : Int
  opened : List OpenLog
  closed : List OpenLog
  openLog : Option OpenLog

/-- Runs a command line: the log is closed before anything is said about the exit status. -/
def execute (w : World) (stamp : String) (args : List String) : Outcome :=
  let (s, status, opened) := runArguments w stamp args
  let closing := closeLog opened
  ⟨(s.report closing.report).report status.report, status.code, opened.toList, closing.closed,
    closing.left⟩

end Command

end Reckoner
