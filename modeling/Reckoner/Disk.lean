/-
Disks: files and directories below a working directory, the paths that lead to them, and what
can go wrong on the way.
-/
import Reckoner.Text.Blank

namespace Reckoner

/-- What a path leads to. A sink has nothing in it and keeps nothing. -/
inductive DiskNode where
  | file (text : String)
  | directory
  | sink
  deriving DecidableEq, Repr

/-- Why a path leads to nothing of use. -/
inductive PathFault where
  | missing
  | notDirectory
  | isDirectory
  | malformed
  | tooLong
  deriving DecidableEq, Repr

namespace PathFault

/-- The wording of a fault. -/
def message : PathFault → String
  | .missing => "no such file or directory"
  | .notDirectory => "not a directory"
  | .isDirectory => "is a directory"
  | .malformed => "invalid argument"
  | .tooLong => "file name too long"

end PathFault

/-- What was being done with a file. -/
inductive FileAct where
  | opening
  | reading
  deriving DecidableEq, Repr

/-- A failure to use a file. -/
structure FileError where
  act : FileAct
  path : String
  fault : PathFault
  deriving DecidableEq, Repr

namespace FileError

/-- The text of a failure. -/
def message (e : FileError) : String :=
  let verb := match e.act with
    | .opening => "open"
    | .reading => "read"
  verb ++ " " ++ e.path ++ ": " ++ e.fault.message

end FileError

/-- A disk: what stands where, by the names on the way from the working directory. -/
structure Disk where
  nodes : List (List String × DiskNode)

namespace Disk

/-- A disk with nothing on it. -/
def empty : Disk := ⟨[]⟩

/-- The steps of a path, as it is written. -/
def steps (path : String) : List String :=
  (Text.splitAt '/' path.toList).map String.ofList

/-- The place where a path begins: the topmost directory or the working directory. -/
def origin (path : String) : List String :=
  if path.toList.head? = some '/' then ["/"] else []

/-- The directories that stand in the topmost one on every system. -/
def systemDirectories : List String :=
  ["bin", "boot", "dev", "etc", "home", "lib", "lib64", "media", "mnt", "opt", "proc", "root",
    "run", "sbin", "srv", "sys", "tmp", "usr", "var"]

/-- What stands at a place that every system has. -/
def systemNode? : List String → Option DiskNode
  | ["/"] => some .directory
  | ["/", name] => if systemDirectories.contains name then some .directory else none
  | ["/", "dev", "null"] => some .sink
  | _ => none

/-- What stands at a place. The working directory, the directories above it and those of the system
are always there; of what else they hold nothing is known. -/
def node? (d : Disk) (place : List String) : Option DiskNode :=
  if place.all (· == "..") then some .directory
  else match systemNode? place with
    | some node => some node
    | none => d.nodes.lookup place

/-- The place one step up. -/
def above (place : List String) : List String :=
  if place = ["/"] then place
  else if place.all (· == "..") then place ++ [".."]
  else place.dropLast

/-- The greatest number of bytes of a step. -/
def stepLimit : Nat := 255

/-- The greatest number of bytes of a path. -/
def pathLimit : Nat := 4095

/-- Follows steps from a place. Only directories can be left. -/
def follow (d : Disk) (place : List String) : List String → Except PathFault (List String)
  | [] => .ok place
  | step :: rest =>
    match d.node? place with
    | none => .error .missing
    | some (.file _) => .error .notDirectory
    | some .sink => .error .notDirectory
    | some .directory =>
      if stepLimit < step.utf8ByteSize then .error .tooLong
      else if step = "" || step = "." then d.follow place rest
      else if step = ".." then d.follow (above place) rest
      else d.follow (place ++ [step]) rest

/-- The place that a path leads to; something may or may not stand there. -/
def place (d : Disk) (path : String) : Except PathFault (List String) :=
  if path = "" then .error .missing
  else if path.toList.any (·.toNat == 0) then .error .malformed
  else if pathLimit < path.utf8ByteSize then .error .tooLong
  else d.follow (origin path) (steps path)

/-- The text of the file at a path. A directory can be opened, but not read. -/
def read (d : Disk) (path : String) : Except FileError String :=
  match d.place path with
  | .error fault => .error ⟨.opening, path, fault⟩
  | .ok p =>
    match d.node? p with
    | none => .error ⟨.opening, path, .missing⟩
    | some .directory => .error ⟨.reading, path, .isDirectory⟩
    | some .sink => .ok ""
    | some (.file text) => .ok text

/-- Puts a node at a place, in front of what stood there. -/
def put (d : Disk) (place : List String) (node : DiskNode) : Disk :=
  ⟨(place, node) :: d.nodes.filter (·.1 != place)⟩

/-- The place of the file at a path, which is there or can be made. -/
def writable (d : Disk) (path : String) : Except FileError (List String) :=
  match d.place path with
  | .error fault => .error ⟨.opening, path, fault⟩
  | .ok p =>
    match d.node? p with
    | some .directory => .error ⟨.opening, path, .isDirectory⟩
    | _ => .ok p

/-- Writes a whole file. -/
def write (d : Disk) (path text : String) : Except FileError Disk :=
  (d.writable path).map fun p =>
    if d.node? p = some .sink then d else d.put p (.file text)

/-- Adds text at the end of a file, which is made if it is not there. -/
def append (d : Disk) (path text : String) : Except FileError Disk :=
  (d.writable path).map fun p =>
    match d.node? p with
    | some .sink => d
    | some (.file old) => d.put p (.file (old ++ text))
    | _ => d.put p (.file text)

/-- Makes a directory and all directories on the way to it. -/
def makeDirectory (d : Disk) (path : String) : Disk :=
  let names := (steps path).filter fun s => s != "" && s != "."
  (List.range (names.length + 1)).foldl (fun d n =>
    let place := origin path ++ names.take n
    match d.node? place with
    | some _ => d
    | none => d.put place .directory) d

/-- The disk with the given directories and files. -/
def ofContents (directories : List String) (files : List (String × String)) : Disk :=
  let made := directories.foldl makeDirectory empty
  files.foldl (fun d (path, text) =>
    let ready := d.makeDirectory (String.intercalate "/" (steps path).dropLast)
    (ready.write path text).toOption.getD d) made

/-- The files that stand directly in a directory, by name. -/
def filesIn (d : Disk) (place : List String) : List (String × String) :=
  d.nodes.filterMap fun (p, node) =>
    match p.getLast?, node with
    | some name, .file text => if p.dropLast = place then some (name, text) else none
    | _, _ => none

end Disk

end Reckoner
