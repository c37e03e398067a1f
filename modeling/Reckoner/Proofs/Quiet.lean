/-
Command lines that nothing disturbs. The settings load and are in order, the log file opens, the log
drops what is of use only to those who look for a fault, and the standard output takes every piece.
Then setting up keeps whatever stands on the disk, and all that a command writes is what it means to
write.
-/
import Reckoner.Command.Execute
import Mathlib.Tactic.SplitIfs

namespace Reckoner

/-! ## Channels without a limit -/

namespace Channel

/-- A channel after it has taken further pieces. -/
def having (c : Channel) (pieces : List String) : Channel :=
  { c with pieces := c.pieces ++ pieces }

theorem writeAll_of_unlimited {c : Channel} (h : c.capacity = none) (pieces : List String) :
    c.writeAll pieces = (true, c.having pieces) := by
  induction pieces generalizing c with
  | nil => simp [writeAll, having]
  | cons piece pieces ih =>
    have hone : c.write? piece = some (c.having [piece]) := by simp [write?, h, having]
    simp only [writeAll, hone]
    rw [ih (by simpa [having] using h)]
    simp [having]

theorem text_unlimited : unlimited.text = "" := rfl

theorem text_having (c : Channel) (pieces : List String) :
    (c.having pieces).text = c.text ++ String.join pieces := by
  simp [having, text, String.join_append]

end Channel

theorem endLines_append (lines more : List String) :
    endLines (lines ++ more) = endLines lines ++ endLines more := by
  simp [endLines, String.join_append]

/-! ## Disks -/

namespace Disk

/-- Whatever stands on a disk stands in the same place of another one. -/
def Keeps (d d' : Disk) : Prop :=
  ∀ place node, d.node? place = some node → d'.node? place = some node

theorem lookup_filter_ne {place other : List String} (h : other ≠ place)
    (nodes : List (List String × DiskNode)) :
    (nodes.filter (·.1 != place)).lookup other = nodes.lookup other := by
  induction nodes with
  | nil => rfl
  | cons entry nodes ih =>
    obtain ⟨p, node⟩ := entry
    by_cases hp : p = place
    · subst hp
      have hne : (other == p) = false := by simpa using h
      simp [ih, List.lookup_cons, hne]
    · simp only [List.filter_cons, bne_iff_ne, ne_eq, hp, not_false_eq_true, if_true, List.lookup_cons, ih]

theorem node?_put_of_ne (d : Disk) {place other : List String} (h : other ≠ place) (node : DiskNode) :
    (d.put place node).node? other = d.node? other := by
  have hne : (other == place) = false := by simpa using h
  simp only [node?, put, List.lookup_cons, hne, lookup_filter_ne h]

theorem systemNode?_ne_file (place : List String) (text : String) :
    systemNode? place ≠ some (.file text) := by
  unfold systemNode?
  split
  · simp
  · split <;> simp
  · simp
  · simp

theorem node?_put_self {d : Disk} {place : List String}
    (h : d.node? place = none ∨ ∃ old, d.node? place = some (.file old)) (node : DiskNode) :
    (d.put place node).node? place = some node := by
  have hup : place.all (· == "..") = false := by
    rw [Bool.eq_false_iff]
    intro hup
    simp [node?, hup] at h
  have hsystem : systemNode? place = none := by
    cases hs : systemNode? place with
    | none => rfl
    | some found =>
      simp only [node?, hup, hs, Bool.false_eq_true, if_false] at h
      rcases h with h | ⟨old, h⟩
      · cases h
      · exact absurd (hs.trans h) (systemNode?_ne_file place old)
  simp [node?, put, hup, hsystem]

theorem writable_not_directory {d : Disk} {path : String} {place : List String}
    (h : d.writable path = .ok place) :
    d.node? place ≠ some .directory := by
  unfold writable at h
  split at h
  · cases h
  · split at h
    · cases h
    · rename_i hn
      cases h
      exact hn

/-- What adding text to a file can come to: a sink keeps nothing, and a file ends in the text. -/
theorem append_cases {d d' : Disk} {path text : String} (h : d.append path text = .ok d') :
    d' = d ∨ ∃ place old, d' = d.put place (.file (old ++ text)) ∧
      (d.node? place = some (.file old) ∨ d.node? place = none ∧ old = "") := by
  unfold append at h
  cases hw : d.writable path with
  | error e => simp [hw, Except.map] at h
  | ok place =>
    simp only [hw, Except.map, Except.ok.injEq] at h
    subst h
    cases hn : d.node? place with
    | none => exact .inr ⟨place, "", by simp, .inr ⟨hn, rfl⟩⟩
    | some node =>
      cases node with
      | file old => exact .inr ⟨place, old, rfl, .inl hn⟩
      | directory => exact absurd hn (writable_not_directory hw)
      | sink => exact .inl rfl

/-- Opening a file for more text loses nothing. -/
theorem keeps_append_nothing {d d' : Disk} {path : String} (h : d.append path "" = .ok d') : d.Keeps d' := by
  intro place node hnode
  obtain rfl | ⟨p, old, rfl, hp⟩ := append_cases h
  · exact hnode
  -- the file that was opened is the only place that may change, and nothing is added to it
  by_cases hplace : place = p
  · subst hplace
    rcases hp with hp | ⟨hp, -⟩
    · rw [node?_put_self (.inr ⟨old, hp⟩), String.append_empty, ← hp, hnode]
    · rw [hp] at hnode
      cases hnode
  · rw [node?_put_of_ne d hplace, hnode]

variable {d d' : Disk}

theorem Keeps.follow (h : d.Keeps d') {steps : List String} {place found : List String}
    (hd : d.follow place steps = .ok found) : d'.follow place steps = .ok found := by
  induction steps generalizing place with
  | nil => exact hd
  | cons step rest ih =>
    unfold Disk.follow at hd ⊢
    cases hn : d.node? place with
    | none => simp [hn] at hd
    | some node =>
      -- only a directory can be left, and it is one on both disks
      cases node with
      | file | sink => simp [hn] at hd
      | directory =>
        simp only [hn] at hd
        simp only [h place _ hn]
        split_ifs at hd ⊢
        · exact ih hd
        · exact ih hd
        · exact ih hd

/-- A file is read as before. -/
theorem Keeps.read (h : d.Keeps d') {path text : String} (hd : d.read path = .ok text) :
    d'.read path = .ok text := by
  have hplace {found : List String} (hf : d.place path = .ok found) : d'.place path = .ok found := by
    unfold place at hf ⊢
    split_ifs at hf ⊢
    exact h.follow hf
  unfold Disk.read at hd ⊢
  cases hf : d.place path with
  | error fault => simp [hf] at hd
  | ok found =>
    simp only [hf] at hd
    simp only [hplace hf]
    cases hn : d.node? found with
    | none => simp [hn] at hd
    | some node =>
      rw [hn] at hd
      rw [h found node hn]
      exact hd

end Disk

/-! ## Logs -/

namespace Log

/-- Every level that settings may name, but one, lies above that of what helps to find a fault. -/
theorem debug_lt_of_level {level : String} {threshold : Int} (hlevel : level ∈ Settings.levels)
    (hne : level ≠ "debug") (h : levelOf level = .ok threshold) : debug < threshold := by
  simp only [Settings.levels, List.mem_cons, List.not_mem_nil, or_false] at hlevel
  rcases hlevel with rfl | rfl | rfl | rfl
  · exact absurd rfl hne
  all_goals
    cases h
    decide

theorem Journal.start_ok {options : Options} {disk disk' : Disk} {journal : Journal}
    (h : Journal.start options disk = .ok (journal, disk')) :
    levelOf options.level = .ok journal.threshold ∧ disk.Keeps disk' := by
  unfold Journal.start at h
  split at h
  · cases h
  rename_i threshold hlevel
  simp only at h
  split_ifs at h with hfile
  · cases h
    exact ⟨hlevel, fun _ _ hn => hn⟩
  · cases hd : disk.append options.file "" with
    | error e => simp [hd] at h
    | ok opened =>
      simp only [hd, Except.ok.injEq, Prod.mk.injEq] at h
      obtain ⟨rfl, rfl⟩ := h
      exact ⟨hlevel, Disk.keeps_append_nothing hd⟩

end Log

namespace Command

/-- A logger that drops what is of use only to those who look for a fault. -/
def Logging.Quiet (l : Logging) : Prop :=
  Log.debug < l.journal.threshold

theorem State.log_of_quiet {l : Logging} (hl : l.Quiet) (s : State) {e : Log.Entry}
    (he : e.level = Log.debug) : s.log l e = s := by
  have hdropped : l.journal.log 0 l.stamp e = ⟨"", ""⟩ := by
    unfold Log.Journal.log
    split
    · have hbelow : e.level < l.journal.threshold := by rw [he]; exact hl
      simp [Log.Logger.log, Log.Logger.record?, hbelow, Log.Logger.write]
    · rfl
  simp [State.log, hdropped]

/-! ## Command lines -/

/-- What a command line meets when nothing disturbs it: the settings without flags load and are in order,
their level lies above that of what helps to find a fault, the log file opens, and the standard output
takes every piece. -/
structure Undisturbed (w : World) (settings : Settings) : Prop where
  loaded : Settings.load w.disk w.env "" = .ok settings
  valid : settings.fault? = none
  level : settings.log.level ≠ "debug"
  log : ∃ opened, Log.Journal.start settings.log w.disk = .ok opened
  output : w.output = .unlimited

variable {w : World} {settings : Settings}

/-- What arguments say that are operands alone. -/
def Parsed.ofOperands (operands : List String) : Parsed :=
  { Parsed.nothing with operands := operands }

/-- Operands do not keep a command line from being set up, and the disk keeps what stands on it. -/
theorem Undisturbed.setUp (h : Undisturbed w settings) (stamp : String) (operands : List String) :
    ∃ l disk, setUp w (.ofOperands operands) stamp = .ok (settings, l, disk) ∧
      l.Quiet ∧ w.disk.Keeps disk := by
  obtain ⟨⟨journal, disk⟩, hlog⟩ := h.log
  obtain ⟨hthreshold, hkeeps⟩ := Log.Journal.start_ok hlog
  have hlevel : settings.log.level ∈ Settings.levels := by
    have hvalid := h.valid
    unfold Settings.fault? at hvalid
    split_ifs at hvalid with hlevel
    exact hlevel
  refine ⟨⟨settings.log.file, stamp, journal⟩, disk, ?_,
    Log.debug_lt_of_level hlevel h.level hthreshold, hkeeps⟩
  have hsettings : Command.settings w (.ofOperands operands) = .ok settings := by
    have hunder : settings.under (flagOverrides (.ofOperands operands)) = settings := rfl
    have hconfig : (Parsed.ofOperands operands).config = "" := rfl
    simp only [Command.settings, hconfig, h.loaded, hunder, h.valid]
  simp only [Command.setUp, hsettings, hlog]

/-- The arguments are those of a command with operands alone. -/
structure Names (args : List String) (c : Command) (operands : List String) : Prop where
  reads : ∃ rest, find args = .ok (c, rest) ∧ read c rest = .ok (.ofOperands operands)
  runnable : c.isRunnable = true
  faultless : operandFault? c operands = none

/-- A command that is named with its operands alone is performed, and its log is closed in silence. -/
theorem Undisturbed.execute (h : Undisturbed w settings) (stamp : String) {args operands : List String}
    {c : Command} (hargs : Names args c operands) :
    ∃ l disk, l.Quiet ∧ w.disk.Keeps disk ∧
      let done := perform w l settings ⟨disk, .unlimited, "", none⟩ c (.ofOperands operands)
      execute w stamp args = ⟨done.1.report done.2.report, done.2.code, [⟨none⟩], [⟨none⟩], none⟩ := by
  obtain ⟨l, disk, hsetup, hquiet, hkeeps⟩ := h.setUp stamp operands
  obtain ⟨rest, hfind, hread⟩ := hargs.reads
  refine ⟨l, disk, hquiet, hkeeps, ?_⟩
  have hfault : operandFault? c (Parsed.ofOperands operands).operands = none := hargs.faultless
  have hinitial : { State.initial w with disk := disk } = ⟨disk, .unlimited, "", none⟩ := by
    rw [State.initial, h.output]
  have hrun : runArguments w stamp args =
      ((perform w l settings ⟨disk, .unlimited, "", none⟩ c (.ofOperands operands)).1,
        (perform w l settings ⟨disk, .unlimited, "", none⟩ c (.ofOperands operands)).2, some ⟨none⟩) := by
    rw [← hinitial]
    have hhelp : (Parsed.ofOperands operands).help = false := rfl
    have hversion : (Parsed.ofOperands operands).version = false := rfl
    simp [runArguments, hfind, hread, runCommand, hhelp, hversion, hargs.runnable, hfault, hsetup]
  simp [Command.execute, hrun, closeLog, OpenLog.closingReport, State.report]

/-- A word that cannot be taken for a flag names a command wherever it comes first. -/
theorem find_word {word : String} (hflag : word.startsWith "-" = false) (hempty : word ≠ "") {c : Command}
    (hc : subcommands.find? (·.name == word) = some c) (rest : List String) :
    find (word :: rest) = .ok (c, rest) := by
  have hdashes : word.startsWith "--" = false := by
    rw [String.startsWith_string_eq_false_iff] at hflag ⊢
    exact fun h => hflag (List.IsPrefix.trans (show ['-'] <+: ['-', '-'] from ⟨['-'], rfl⟩) h)
  have hdash : word ≠ "--" := by
    rintro rfl
    simp at hflag
  have hnext : mayTakeNext word = false := by simp [mayTakeNext, hflag, hdashes]
  have hoperands : operands (word :: rest) = word :: operands rest := by
    rw [operands.eq_def]
    simp [hdash, hnext, hempty, hflag]
  have hwithout : without word (word :: rest) = rest := by
    rw [without.eq_def]
    simp [hdash, hnext]
  simp only [find, hoperands, hc, hwithout]

/-- The name of a mode is that of the command that runs files in it. -/
theorem find_mode {mode : Mode} (hmode : mode ∈ Mode.named) (rest : List String) :
    ∃ c, c.mode? = some mode ∧ find (mode.name :: rest) = .ok (c, rest) := by
  simp only [Mode.named, List.mem_cons, List.not_mem_nil, or_false] at hmode
  rcases hmode with rfl | rfl | rfl
  · exact ⟨.tokenize, rfl, find_word (by simp [Mode.name]) (by decide) rfl rest⟩
  · exact ⟨.parse, rfl, find_word (by simp [Mode.name]) (by decide) rfl rest⟩
  · exact ⟨.evaluate, rfl, find_word (by simp [Mode.name]) (by decide) rfl rest⟩

theorem read_operand (c : Command) {path : String}
    (hpath : ∀ letter letters, path.toList ≠ '-' :: letter :: letters) :
    read c [path] = .ok (.ofOperands [path]) := by
  unfold read readArgs
  split
  · rename_i h
    exact absurd h (hpath _ _)
  · rename_i h
    exact absurd h (hpath _ _)
  · rename_i h
    exact absurd h (hpath _ _)
  · rfl

theorem names_file {mode : Mode} (hmode : mode ∈ Mode.named) {path : String}
    (hpath : ∀ letter letters, path.toList ≠ '-' :: letter :: letters) :
    ∃ c, c.mode? = some mode ∧ Names [mode.name, path] c [path] := by
  obtain ⟨c, hc, hfind⟩ := find_mode hmode [path]
  refine ⟨c, hc, ⟨[path], hfind, read_operand c hpath⟩, ?_, ?_⟩
  · cases c <;> simp [mode?] at hc <;> rfl
  · cases c <;> simp [mode?] at hc <;> rfl

theorem names_session : Names ["repl"] .repl [] :=
  ⟨⟨[], find_word (by simp) (by decide) rfl [], rfl⟩, rfl, rfl⟩

end Command

end Reckoner
