/-
How the commands that run a file end. A command line that names one of them with one file first loads the
settings, then judges them, then opens the log file, then reads the source, and then prints what the run
comes to; the first of these stages that fails says how it ends. The exit status 64 stands for the first
three of them and 66 for the fourth, and neither has another cause. Whatever happens, a log that was
opened is closed once.
-/
import Reckoner.Proofs.FailingOutput

namespace Reckoner.Command

/-! ## Arguments -/

/-- What a command line says that runs a file: the mode, the values of the flags, where the empty text
stands for a flag that is not there, and the path of the file. -/
structure FileCommand where
  mode : Mode
  config : String
  level : String
  format : String
  path : String

namespace FileCommand

variable (f : FileCommand)

/-- What is read from the arguments behind the name of the command. -/
def parsed : Parsed :=
  { Parsed.nothing with config := f.config, logLevel := f.level, logFormat := f.format, operands := [f.path] }

/-- The arguments say what the command line says, wherever they do so. -/
def SaidBy (args : List String) : Prop :=
  ∃ c rest, find args = .ok (c, rest) ∧ c.mode? = some f.mode ∧ read c rest = .ok f.parsed

/-- The arguments that give each flag its value, even an empty one, and the path behind two dashes. -/
def spelledOut : List String :=
  [f.mode.name, "--config", f.config, "--log-level", f.level, "--log-format", f.format, "--", f.path]

end FileCommand

/-- Every mode with a name, and all values of the flags and of the path, can be asked for. -/
theorem FileCommand.saidBy_spelledOut (f : FileCommand) (h : f.mode ∈ Mode.named) : f.SaidBy f.spelledOut := by
  obtain ⟨c, hc, hfind⟩ := find_mode h _
  refine ⟨c, _, hfind, hc, ?_⟩
  cases c with
  | evaluate | parse | tokenize => rfl
  | root | completion | help | repl | serve => cases hc

/-! ## Setting up -/

/-- The settings that are judged: what the flags say goes over what was loaded. -/
def FileCommand.judged (f : FileCommand) (loaded : Settings) : Settings :=
  loaded.under { Overrides.nothing with level := nonEmpty f.level, format := nonEmpty f.format }

/-- A command line cannot be set up, and this is said about it. -/
inductive CannotSetUp (disk : Disk) (env : String → String) (f : FileCommand) : String → Prop
  | load {e} : Settings.load disk env f.config = .error e → CannotSetUp disk env f e.message
  | fault {loaded fault} : Settings.load disk env f.config = .ok loaded →
      (f.judged loaded).fault? = some fault → CannotSetUp disk env f fault.message
  | log {loaded e} : Settings.load disk env f.config = .ok loaded → (f.judged loaded).fault? = none →
      (f.judged loaded).log.file ≠ "" → disk.append (f.judged loaded).log.file "" = .error e →
      CannotSetUp disk env f ("open log file: " ++ e.message)

/-- A disk on which the log file is open, if there is one. -/
def Opened (disk : Disk) (file : String) (disk' : Disk) : Prop :=
  if file = "" then disk' = disk else disk.append file "" = .ok disk'

/-- A command line is set up with a logger, and leaves this disk behind. -/
inductive SetsUp (disk : Disk) (env : String → String) (stamp : String) (f : FileCommand) :
    Logging → Disk → Prop
  | intro {loaded threshold disk'} : Settings.load disk env f.config = .ok loaded →
      (f.judged loaded).fault? = none → Log.levelOf (f.judged loaded).log.level = .ok threshold →
      Opened disk (f.judged loaded).log.file disk' →
      SetsUp disk env stamp f ⟨(f.judged loaded).log.file, stamp, ⟨threshold,
        [⟨.ofName (f.judged loaded).log.format, (f.judged loaded).log.file != "", []⟩]⟩⟩ disk'

theorem levelOf_of_valid {s : Settings} (h : s.fault? = none) : ∃ threshold, Log.levelOf s.log.level = .ok threshold := by
  have hlevel : s.log.level ∈ Settings.levels := by
    unfold Settings.fault? at h
    split_ifs at h with hlevel
    exact hlevel
  simp only [Settings.levels, List.mem_cons, List.not_mem_nil, or_false] at hlevel
  rcases hlevel with hlevel | hlevel | hlevel | hlevel <;> rw [hlevel] <;> exact ⟨_, rfl⟩

/-- Setting up succeeds or fails as the stages say, in their order. -/
theorem setUp_cases (w : World) (stamp : String) (f : FileCommand) :
    (∃ e, setUp w f.parsed stamp = .error e ∧ CannotSetUp w.disk w.env f e.message) ∨
      ∃ s l disk, setUp w f.parsed stamp = .ok (s, l, disk) ∧ SetsUp w.disk w.env stamp f l disk := by
  have hconfig : f.parsed.config = f.config := rfl
  cases hload : Settings.load w.disk w.env f.config with
  | error e =>
    refine .inl ⟨.load e, ?_, .load hload⟩
    simp only [setUp, settings, hconfig, hload]
  | ok loaded =>
    have hjudged : loaded.under (flagOverrides f.parsed) = f.judged loaded := rfl
    cases hfault : (f.judged loaded).fault? with
    | some fault =>
      refine .inl ⟨.fault fault, ?_, .fault hload hfault⟩
      simp only [setUp, settings, hconfig, hload, hjudged, hfault]
    | none =>
      have hsettings : settings w f.parsed = .ok (f.judged loaded) := by
        simp only [settings, hconfig, hload, hjudged, hfault]
      obtain ⟨threshold, hlevel⟩ := levelOf_of_valid hfault
      by_cases hfile : (f.judged loaded).log.file = ""
      · refine .inr ⟨f.judged loaded, _, w.disk, ?_, .intro hload hfault hlevel (by simp [Opened, hfile])⟩
        simp only [setUp, hsettings, Log.Journal.start, hlevel, hfile, if_true]
      · cases happend : w.disk.append (f.judged loaded).log.file "" with
        | error e =>
          refine .inl ⟨.log (.file e), ?_, .log hload hfault hfile happend⟩
          simp only [setUp, hsettings, Log.Journal.start, hlevel, hfile, if_false, happend]
        | ok disk =>
          refine .inr ⟨f.judged loaded, _, disk, ?_,
            .intro hload hfault hlevel (by simp [Opened, hfile, happend])⟩
          simp only [setUp, hsettings, Log.Journal.start, hlevel, hfile, if_false, happend]

variable {disk : Disk} {env : String → String} {stamp : String} {f : FileCommand}

theorem SetsUp.not_cannotSetUp {l : Logging} {disk' : Disk} (h : SetsUp disk env stamp f l disk') (text : String) :
    ¬ CannotSetUp disk env f text := by
  cases h with
  | intro hload hfault hlevel hopened =>
    rintro (h | ⟨h, hsome⟩ | ⟨h, -, hfile, hfailed⟩)
    · rw [hload] at h
      cases h
    · rw [hload] at h
      cases h
      rw [hfault] at hsome
      cases hsome
    · rw [hload] at h
      cases h
      rw [Opened, if_neg hfile, hfailed] at hopened
      cases hopened

theorem SetsUp.unique {l l' : Logging} {disk₁ disk₂ : Disk} (h : SetsUp disk env stamp f l disk₁)
    (h' : SetsUp disk env stamp f l' disk₂) : disk₁ = disk₂ := by
  cases h with
  | intro hload hfault hlevel hopened =>
    cases h' with
    | intro hload' hfault' hlevel' hopened' =>
      rw [hload] at hload'
      cases hload'
      unfold Opened at hopened hopened'
      split_ifs at hopened hopened'
      · rw [hopened, hopened']
      · rw [hopened] at hopened'
        cases hopened'
        rfl

/-! ## Running a file -/

/-- What a logger adds to the standard error for an entry. -/
def Logging.shown (l : Logging) (e : Log.Entry) : String :=
  (l.journal.log 0 l.stamp e).main

@[simp] theorem State.log_output (s : State) (l : Logging) (e : Log.Entry) : (s.log l e).output = s.output :=
  rfl

@[simp] theorem State.log_errors (s : State) (l : Logging) (e : Log.Entry) :
    (s.log l e).errors = s.errors ++ l.shown e :=
  rfl

variable (l : Logging) (refusal : String) {n : Nat} {mode : Mode} {path source : String}

theorem runFile_of_unreadable {e : FileError} (hread : disk.read path = .error e) (output : Channel) :
    runFile l ⟨disk, output, "", none⟩ mode path =
      (⟨disk, output, "", none⟩, .failure Exit.noInput e.message) := by
  simp only [runFile, hread]

theorem runFile_of_refused (hread : disk.read path = .ok source) (hn : n < (run mode source).output.length) :
    let done := runFile l ⟨disk, .limited n refusal, "", none⟩ mode path
    done.2 = .failure Exit.software refusal ∧
    done.1.output.pieces = ((run mode source).output.take n).map endLine ∧
    done.1.errors = l.shown (runningEntry mode path source) ++
      endLines ((run mode source).errors.map (·.text)) := by
  have hle : ¬ (run mode source).output.length ≤ n := by omega
  simp [runFile, hread, Channel.limited, Result.print_of_limited, hle, State.report]

theorem runFile_of_fits (hread : disk.read path = .ok source) (hn : (run mode source).output.length ≤ n) :
    let done := runFile l ⟨disk, .limited n refusal, "", none⟩ mode path
    done.2 = ⟨(run mode source).exitCode, none⟩ ∧
    done.1.output.pieces = (run mode source).output.map endLine ∧
    done.1.errors = l.shown (runningEntry mode path source) ++
      endLines ((run mode source).errors.map (·.text)) ++
      l.shown (finishedEntry (run mode source) (run mode source).exitCode) := by
  have hcode := (run_runsTo mode source).exitCode_note
  simp only [runFile, hread, Channel.limited, State.log_output, Result.print_of_limited, hn, decide_true, if_true,
    State.log_errors, State.report, hcode, List.take_of_length_le hn, List.nil_append, String.empty_append,
    String.append_assoc, and_self]

/-! ## Whole command lines -/

variable {refusal} {w : World} {args : List String}

theorem runnable_of_mode {c : Command} (hc : c.mode? = some mode) :
    c.isRunnable = true ∧ ∀ path, operandFault? c [path] = none := by
  cases c with
  | evaluate | parse | tokenize => exact ⟨rfl, fun _ => rfl⟩
  | root | completion | help | repl | serve => cases hc

/-- A command line that runs a file gets as far as being set up. -/
theorem runCommand_file {c : Command} (hc : c.mode? = some f.mode) : runCommand w stamp c f.parsed =
    match setUp w f.parsed stamp with
    | .error e => (.initial w, .failure Exit.usage e.message, none)
    | .ok (_, l, disk) =>
      let done := runFile l ⟨disk, w.output, "", none⟩ f.mode f.path
      (done.1, done.2, some ⟨none⟩) := by
  obtain ⟨hrunnable, hfault⟩ := runnable_of_mode hc
  have hhelp : f.parsed.help = false := rfl
  have hversion : f.parsed.version = false := rfl
  have hoperands : f.parsed.operands = [f.path] := rfl
  simp only [runCommand, hhelp, hversion, hrunnable, hoperands, hfault, perform, hc, Bool.false_eq_true,
    Bool.not_true, if_false]
  cases setUp w f.parsed stamp <;> rfl

/-- The log is closed in silence, whether setting up succeeds or not. -/
theorem FileCommand.SaidBy.execute (h : f.SaidBy args) : execute w stamp args =
    match setUp w f.parsed stamp with
    | .error e => ⟨(State.initial w).report (endLine e.message), Exit.usage, [], [], none⟩
    | .ok (_, l, disk) =>
      let done := runFile l ⟨disk, w.output, "", none⟩ f.mode f.path
      ⟨done.1.report done.2.report, done.2.code, [⟨none⟩], [⟨none⟩], none⟩ := by
  obtain ⟨c, rest, hfind, hc, hread⟩ := h
  have hrun : runArguments w stamp args = runCommand w stamp c f.parsed := by
    simp only [runArguments, hfind, hread]
  rw [Command.execute, hrun, runCommand_file hc]
  cases setUp w f.parsed stamp with
  | error e => simp [closeLog, State.report, ExitStatus.report, ExitStatus.failure]
  | ok up => simp [closeLog, OpenLog.closingReport, State.report]

/-- How a command line that runs a file ends on an output that takes `n` lines. The first stage that fails
says how: setting up, reading the source, or printing, before which all errors are reported. -/
inductive Ends (disk : Disk) (env : String → String) (stamp : String) (f : FileCommand) (n : Nat)
    (refusal : String) (o : Outcome) : Prop
  | notSetUp {text} : CannotSetUp disk env f text → o.code = 64 → o.state.output.pieces = [] →
      o.state.errors = endLine text → o.opened = [] → Ends disk env stamp f n refusal o
  | unreadable {l disk' e} : SetsUp disk env stamp f l disk' → disk'.read f.path = .error e → o.code = 66 →
      o.state.output.pieces = [] → o.state.errors = endLine e.message → o.opened.length = 1 →
      Ends disk env stamp f n refusal o
  | refused {l disk' source} : SetsUp disk env stamp f l disk' → disk'.read f.path = .ok source →
      n < (run f.mode source).output.length → o.code = 70 →
      o.state.output.pieces = ((run f.mode source).output.take n).map endLine →
      o.state.errors = l.shown (runningEntry f.mode f.path source) ++
        endLines ((run f.mode source).errors.map (·.text)) ++ endLine refusal → o.opened.length = 1 →
      Ends disk env stamp f n refusal o
  | finished {l disk' source} : SetsUp disk env stamp f l disk' → disk'.read f.path = .ok source →
      (run f.mode source).output.length ≤ n → o.code = (run f.mode source).exitCode →
      o.state.output.pieces = (run f.mode source).output.map endLine →
      o.state.errors = l.shown (runningEntry f.mode f.path source) ++
        endLines ((run f.mode source).errors.map (·.text)) ++
        l.shown (finishedEntry (run f.mode source) (run f.mode source).exitCode) → o.opened.length = 1 →
      Ends disk env stamp f n refusal o

variable {input : Except String (List Event)}

theorem FileCommand.SaidBy.ends (h : f.SaidBy args) : Ends disk env stamp f n refusal
    (Command.execute ⟨disk, env, .limited n refusal, input⟩ stamp args) := by
  rw [h.execute]
  rcases setUp_cases ⟨disk, env, .limited n refusal, input⟩ stamp f with
    ⟨e, hsetup, hcannot⟩ | ⟨s, l, disk', hsetup, hsets⟩
  · rw [hsetup]
    exact .notSetUp hcannot rfl rfl String.empty_append rfl
  · rw [hsetup]
    dsimp only
    cases hread : disk'.read f.path with
    | error e =>
      rw [runFile_of_unreadable l hread]
      exact .unreadable hsets hread rfl rfl String.empty_append rfl
    | ok source =>
      by_cases hn : (run f.mode source).output.length ≤ n
      · obtain ⟨hstatus, hpieces, herrors⟩ := runFile_of_fits l refusal hread hn
        refine .finished hsets hread hn ?_ hpieces ?_ rfl
        · rw [hstatus]
        · rw [State.report, hstatus, herrors]
          exact String.append_empty
      · obtain ⟨hstatus, hpieces, herrors⟩ := runFile_of_refused l refusal hread (Nat.lt_of_not_le hn)
        refine .refused hsets hread (Nat.lt_of_not_le hn) ?_ hpieces ?_ rfl
        · rw [hstatus]
          rfl
        · rw [State.report, hstatus, herrors]
          rfl

/-- A run does not come to one of the statuses that say that it did not take place. -/
theorem exitCode_ne {scanned : Scan} {res : Result} (h : RunsTo mode scanned res) :
    res.exitCode ≠ 64 ∧ res.exitCode ≠ 66 := by
  have hstatuses : ∀ code ∈ [Exit.success, Exit.dataError, Exit.software], code ≠ 64 ∧ code ≠ 66 := by decide
  apply hstatuses
  cases h with
  | misread | tokenized | unparsed | parsed | failed | evaluated => simp

variable {o : Outcome}

theorem Ends.code_usage_iff (h : Ends disk env stamp f n refusal o) :
    o.code = 64 ↔ ∃ text, CannotSetUp disk env f text := by
  cases h with
  | notSetUp hcannot hcode => exact ⟨fun _ => ⟨_, hcannot⟩, fun _ => hcode⟩
  | unreadable hsets _ hcode | refused hsets _ _ hcode =>
    refine ⟨fun h => ?_, fun ⟨text, h⟩ => absurd h (hsets.not_cannotSetUp text)⟩
    rw [hcode] at h
    cases h
  | @finished l disk' source hsets _ _ hcode =>
    refine ⟨fun h => ?_, fun ⟨text, h⟩ => absurd h (hsets.not_cannotSetUp text)⟩
    have := (exitCode_ne (run_runsTo f.mode source)).1
    omega

theorem Ends.code_noInput_iff (h : Ends disk env stamp f n refusal o) : o.code = 66 ↔
    ∃ l disk' e, SetsUp disk env stamp f l disk' ∧ disk'.read f.path = .error e := by
  -- a source that was read is no source that cannot be read
  have hread {l : Logging} {disk' : Disk} {source : String} (hsets : SetsUp disk env stamp f l disk')
      (hsource : disk'.read f.path = .ok source) :
      ¬ ∃ l disk' e, SetsUp disk env stamp f l disk' ∧ disk'.read f.path = .error e := by
    rintro ⟨l', disk'', e, hsets', he⟩
    rw [hsets.unique hsets', he] at hsource
    cases hsource
  cases h with
  | notSetUp hcannot hcode =>
    refine ⟨fun h => ?_, fun ⟨_, _, _, hsets, _⟩ => absurd hcannot (hsets.not_cannotSetUp _)⟩
    rw [hcode] at h
    cases h
  | unreadable hsets he hcode => exact ⟨fun _ => ⟨_, _, _, hsets, he⟩, fun _ => hcode⟩
  | refused hsets hsource _ hcode =>
    refine ⟨fun h => ?_, fun h => absurd h (hread hsets hsource)⟩
    rw [hcode] at h
    cases h
  | @finished l disk' source hsets hsource _ hcode =>
    refine ⟨fun h => ?_, fun h => absurd h (hread hsets hsource)⟩
    have := (exitCode_ne (run_runsTo f.mode source)).2
    omega

theorem FileCommand.SaidBy.closes (h : f.SaidBy args) : (Command.execute w stamp args).openLog = none ∧
    (Command.execute w stamp args).closed = (Command.execute w stamp args).opened := by
  rw [h.execute]
  cases setUp w f.parsed stamp with
  | error | ok => exact ⟨rfl, rfl⟩

/-- How the commands that run a file end, for every mode, disk, environment and values of the flags, and
for every number of lines that the output takes. All of them can be asked for, and all arguments that do so
come to the same: the first stage that fails says how the command line ends. It ends with 64 only where it
cannot be set up, and with 66 only where it can but the source cannot be read. A log that was opened is
closed, and none is left open. -/
theorem file_command_ends (disk : Disk) (env : String → String) (input : Except String (List Event))
    (stamp : String) (f : FileCommand) (n : Nat) (refusal : String) :
    (f.mode ∈ Mode.named → f.SaidBy f.spelledOut) ∧
    ∀ args, f.SaidBy args →
      let o := execute ⟨disk, env, .limited n refusal, input⟩ stamp args
      Ends disk env stamp f n refusal o ∧
      (o.code = 64 ↔ ∃ text, CannotSetUp disk env f text) ∧
      (o.code = 66 ↔ ∃ l disk' e, SetsUp disk env stamp f l disk' ∧ disk'.read f.path = .error e) ∧
      o.openLog = none ∧ o.closed = o.opened := by
  refine ⟨f.saidBy_spelledOut, fun args h => ?_⟩
  have hends : Ends disk env stamp f n refusal (execute ⟨disk, env, .limited n refusal, input⟩ stamp args) :=
    h.ends
  exact ⟨hends, hends.code_usage_iff, hends.code_noInput_iff, h.closes⟩

/-- The tokens of a file with a stray character, with every flag set. -/
def strayFile : FileCommand :=
  ⟨.tokenize, "conf.yaml", "debug", "json", "stray.lox"⟩

/-- A disk with the file and with settings that name a log file. -/
def strayDisk : Disk :=
  ⟨[(["stray.lox"], .file "@ nil"), (["conf.yaml"], .file "log:\n  file: run.log\n")]⟩

/-- What the file comes to on an output that takes one line. -/
def strayOutcome (disk : Disk) : Outcome :=
  execute ⟨disk, fun _ => "", .limited 1 "broken pipe", .ok []⟩ "" strayFile.spelledOut

/-- The output fails behind the first of two lines. On a disk without the settings nothing is set up. -/
theorem file_command_ends_at :
    strayFile.mode ∈ Mode.named ∧ strayFile.SaidBy strayFile.spelledOut ∧
    (strayOutcome strayDisk).code = 70 ∧ (strayOutcome strayDisk).state.output.pieces = ["NIL nil null\n"] ∧
    Ends strayDisk (fun _ => "") "" strayFile 1 "broken pipe" (strayOutcome strayDisk) ∧
    (¬ ∃ text, CannotSetUp strayDisk (fun _ => "") strayFile text) ∧
    (strayOutcome strayDisk).closed = (strayOutcome strayDisk).opened ∧
    ∃ text, CannotSetUp .empty (fun _ => "") strayFile text := by
  have hmode : strayFile.mode ∈ Mode.named := by decide
  obtain ⟨hsaid, hends⟩ :=
    file_command_ends strayDisk (fun _ => "") (.ok []) "" strayFile 1 "broken pipe"
  obtain ⟨hend, husage, -, -, hclosed⟩ := hends _ (hsaid hmode)
  obtain ⟨-, hwithout⟩ :=
    file_command_ends .empty (fun _ => "") (.ok []) "" strayFile 1 "broken pipe"
  obtain ⟨-, husage', -⟩ := hwithout _ (hsaid hmode)
  have hcode : (strayOutcome strayDisk).code = 70 := by decide +kernel
  have hcode' : (strayOutcome .empty).code = 64 := by decide +kernel
  have hpieces : (strayOutcome strayDisk).state.output.pieces = ["NIL nil null\n"] := by decide +kernel
  refine ⟨hmode, hsaid hmode, hcode, hpieces, hend, fun hcannot => ?_, hclosed, husage'.1 hcode'⟩
  have hfailed : (strayOutcome strayDisk).code = 64 := husage.2 hcannot
  rw [hcode] at hfailed
  cases hfailed

end Reckoner.Command
