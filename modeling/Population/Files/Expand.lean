import Population.Files.Glob.Search
import Population.Text.Quoted

namespace Population

structure FileView where
  stat : Text → Option NodeKind
  glob : Text → Except Glob.BadPattern (List Text)

def Tree.view (t : Tree) : FileView where
  stat := t.stat
  glob := Glob.files t

inductive ExpandError
  | search (dir : Text) (e : Glob.BadPattern)
  | noScripts (dir : Text)
  | invalidPattern (pattern : Text)
  | glob (pattern : Text) (e : Glob.BadPattern)
  | noMatch (pattern : Text)
  deriving DecidableEq, Repr

namespace Expand

def extension : Text := ".mi"

def scriptsBelow (dir : Text) : Text :=
  Path.join dir ("**/*" ++ extension)

end Expand

def ExpandError.message : ExpandError → Text
  | .search dir e => "failed to search " ++ dir ++ ": " ++ e.message
  | .noScripts dir => "no " ++ Expand.extension ++ " files found in " ++ dir
  | .invalidPattern pattern => "invalid pattern " ++ pattern.quoted
  | .glob pattern e => "failed to expand " ++ pattern.quoted ++ ": " ++ e.message
  | .noMatch pattern => "no files match " ++ pattern.quoted

namespace Expand

def argument (v : FileView) (arg : Text) : Except ExpandError (List Text) :=
  match v.stat arg with
  | some .file => .ok [arg]
  | some .directory => match v.glob (scriptsBelow arg) with
    | .error e => .error (.search arg e)
    | .ok [] => .error (.noScripts arg)
    | .ok found => .ok found
  | none =>
    if !Glob.looksLike arg then .ok [arg]
    else if !Glob.isValid arg then .error (.invalidPattern arg)
    else match v.glob arg with
      | .error e => .error (.glob arg e)
      | .ok [] => .error (.noMatch arg)
      | .ok found => .ok found

def add (listed : List Text) (path : Text) : List Text :=
  let path := Path.clean path
  if path ∈ listed then listed else listed ++ [path]

def paths (v : FileView) (args : List Text) : Except ExpandError (List Text) :=
  args.foldlM (fun listed arg => do
    let found ← argument v arg
    return found.foldl add listed) []

end Expand

end Population
