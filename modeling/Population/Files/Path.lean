import Population.Text.Basic

namespace Population.Path

def slash : UInt8 := 0x2f

def isAbsolute (path : Text) : Bool :=
  path.head? = some slash

def names (path : Text) : List Text :=
  Text.splitByte slash path

/-- The names kept so far, last first, after one more name. -/
def step (rooted : Bool) (kept : List Text) (name : Text) : List Text :=
  if name.isEmpty || name = "." then kept
  else if name = ".." then
    match kept with
    | [] => if rooted then [] else [name]
    | last :: rest => if last = ".." then name :: kept else rest
  else name :: kept

/-- The shortest path of the same meaning. -/
def clean (path : Text) : Text :=
  let rooted := isAbsolute path
  let kept := ((names path).foldl (step rooted) []).reverse
  if rooted then slash :: Text.join [slash] kept
  else if kept.isEmpty then "."
  else Text.join [slash] kept

def join (dir path : Text) : Text :=
  if dir.isEmpty then (if path.isEmpty then [] else clean path)
  else if path.isEmpty then clean dir
  else clean (dir ++ [slash] ++ path)

def directory (path : Text) : Text :=
  clean (path.reverse.dropWhile (· != slash)).reverse

end Population.Path
