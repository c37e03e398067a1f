/-
Paths as text: their last step, and the shortest path to the same place.
-/
import Reckoner.Text.Blank

namespace Reckoner.Path

/-- The steps of a path that lead anywhere. -/
def namedSteps (path : String) : List String :=
  ((Text.splitAt '/' path.toList).map String.ofList).filter (· != "")

/-- A path that begins at the topmost directory. -/
def isRooted (path : String) : Bool :=
  path.toList.head? == some '/'

/-- The last step of a path; without one, the place where the path begins. -/
def last (path : String) : String :=
  ((namedSteps path).getLast?).getD (if isRooted path then "/" else ".")

/-- One more step, from the last one backwards. A step up takes back the step before it, if that
led down; above the topmost directory there is nothing. -/
def push (rooted : Bool) (back : List String) (step : String) : List String :=
  if step = "." then back
  else if step = ".." then
    match back with
    | [] => if rooted then [] else [".."]
    | before :: rest => if before = ".." then ".." :: back else rest
  else step :: back

/-- The shortest path to the same place. -/
def clean (path : String) : String :=
  let rooted := isRooted path
  let steps := ((namedSteps path).foldl (push rooted) []).reverse
  let joined := String.intercalate "/" steps
  if rooted then "/" ++ joined else if steps = [] then "." else joined

/-- The path of a file in a directory. -/
def join (directory file : String) : String :=
  if directory = "" then clean file else clean (directory ++ "/" ++ file)

end Reckoner.Path
