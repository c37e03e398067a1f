/-
The program: it looks at the files and variables that a command line may need, runs the command line
on what it found, and writes what came of it. There is no transport in it, so that a server that
could listen ends at once.
-/
import Reckoner.Command.Execute
import Reckoner.Text.Utf8
import Std.Time.Format

namespace Reckoner.Program

/-- The variables that settings come from. -/
def settingNames : List String :=
  ["GLOX_CONFIG", "GLOX_LOG_LEVEL", "GLOX_LOG_FORMAT", "GLOX_LOG_FILE", "GLOX_ADDR", "GLOX_PROMPT",
    "GLOX_HISTORY_FILE"]

/-- The paths that a command line may name: its arguments and what stands behind equals signs. -/
def namedPaths (args : List String) : List String :=
  args.flatMap fun arg => [arg, String.ofList ((arg.toList.dropWhile (· != '=')).drop 1)]

/-- The log file of a command line; empty if there is none. -/
def logFile (w : Command.World) (args : List String) : String :=
  match Command.find args with
  | .error _ => ""
  | .ok (c, rest) =>
    match Command.read c rest with
    | .error _ => ""
    | .ok p => ((Command.settings w p).toOption.map (·.log.file)).getD ""

/-- A command line that asks for lines. -/
def asksForLines (args : List String) : Bool :=
  match Command.find args with
  | .ok (.repl, _) => true
  | _ => false

/-- The beginnings of a path that lead to its directories. -/
def directoriesOf (path : String) : List String :=
  let steps := Disk.steps path
  (List.range steps.length).map fun n => String.intercalate "/" (steps.take n)

/-- What a path leads to. What is there, but cannot be read, counts as a directory. -/
def lookAt (path : String) : IO (Option DiskNode) := do
  try
    let bytes ← IO.FS.readBinFile path
    return some (.file (String.ofList (Text.Utf8.decode bytes.toList)))
  catch
    | .noFileOrDirectory _ _ _ => return none
    | _ => return some .directory

/-- Adds what a path leads to, and the directories on the way, to a disk. -/
def look (disk : Disk) (path : String) : IO Disk := do
  let mut disk := disk
  for place in directoriesOf path ++ [path] do
    if place ≠ "" then
      match ← lookAt place with
      | some .directory => disk := disk.makeDirectory place
      | some (.file text) => disk := (disk.write place text).toOption.getD disk
      | _ => pure ()
  return disk

/-- The lines of the standard input as events. -/
partial def readEvents (input : IO.FS.Stream) : IO (List Event) := do
  let line ← input.getLine
  if line.isEmpty then return []
  return .line line :: (← readEvents input)

/-- The present time as it stands in log lines. -/
def presentTime : IO String := do
  let now ← Std.Time.DateTime.now
  return now.format "uuuu-MM-dd'T'HH:mm:ss.SSSXXX"

end Reckoner.Program

open Reckoner in
/-- Runs the command line of the process. -/
def main (args : List String) : IO UInt32 := do
  let vars ← Program.settingNames.mapM fun name => do
    return (name, (← IO.getEnv name).getD "")
  let env (name : String) : String := (vars.lookup name).getD ""
  let paths := Program.namedPaths args ++ [Settings.defaultPath, env "GLOX_CONFIG"]
  let disk ← (paths.filter (· ≠ "")).foldlM Program.look .empty
  let events ← if Program.asksForLines args then Program.readEvents (← IO.getStdin) else pure []
  let world : Command.World := ⟨disk, env, .unlimited, .ok events⟩
  let log := Program.logFile world args
  let disk ← if log = "" then pure disk else Program.look disk log
  let outcome := Command.execute { world with disk := disk } (← Program.presentTime) args
  IO.print outcome.state.output.text
  IO.eprint outcome.state.errors
  if log ≠ "" then
    match outcome.state.disk.read log with
    | .ok text => IO.FS.writeFile log text
    | .error _ => pure ()
  return outcome.code.toNat.toUInt32
