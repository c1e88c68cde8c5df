import Population.Files.Path

namespace Population

inductive NodeKind
  | file
  | directory
  deriving DecidableEq, Repr

inductive TreeNode
  | file (bytes : Text)
  | directory
  deriving DecidableEq, Repr

def TreeNode.kind : TreeNode → NodeKind
  | .file _ => .file
  | .directory => .directory

structure Tree where
  /-- Nodes by the names on the way to them. -/
  entries : List (List Text × TreeNode)
  deriving DecidableEq, Repr

namespace Tree

inductive LookupError
  | missing
  | notDirectory
  | isDirectory
  deriving DecidableEq, Repr

def LookupError.message : LookupError → Text
  | .missing => "no such file or directory"
  | .notDirectory => "not a directory"
  | .isDirectory => "is a directory"

/-- The node at a place; the start and what leads to an entry are directories. -/
def node? (t : Tree) (place : List Text) : Option TreeNode :=
  match t.entries.lookup place with
  | some node => some node
  | none =>
    if place.isEmpty || t.entries.any fun (other, _) => place.isPrefixOf other then some .directory
    else none

/-- The place of a path in a tree in which nothing is in its way. -/
def place (path : Text) : List Text :=
  let names := (Path.names (Path.clean path)).filter fun (name : Text) => !name.isEmpty && name ≠ "."
  if Path.isAbsolute path then [Path.slash] :: names else names

def put (t : Tree) (path bytes : Text) : Tree :=
  ⟨(place path, .file bytes) :: t.entries⟩

def enter (t : Tree) (place : List Text) (name : Text) : Except LookupError (List Text) :=
  match t.node? place with
  | none => .error .missing
  | some (.file _) => .error .notDirectory
  | some .directory =>
    if name.isEmpty || name = "." then .ok place
    else if name = ".." then
      match place.reverse with
      | [] => .ok [name]
      | last :: rest => .ok (if last = ".." then place ++ [name] else rest.reverse)
    else .ok (place ++ [name])

def resolve (t : Tree) (path : Text) : Except LookupError (List Text) :=
  if path.isEmpty then .error .missing
  else if Path.isAbsolute path then (Path.names path).foldlM t.enter [[Path.slash]]
  else (Path.names path).foldlM t.enter []

def find (t : Tree) (path : Text) : Except LookupError TreeNode := do
  match t.node? (← t.resolve path) with
  | some node => return node
  | none => throw .missing

def stat (t : Tree) (path : Text) : Option NodeKind :=
  match t.find path with
  | .ok node => some node.kind
  | .error _ => none

def read (t : Tree) (path : Text) : Except Text Text :=
  match t.find path with
  | .ok (.file bytes) => .ok bytes
  | .ok .directory => .error ("read " ++ path ++ ": " ++ LookupError.isDirectory.message)
  | .error e => .error ("open " ++ path ++ ": " ++ e.message)

/-- The names in a directory in bytewise order; none if it is no directory. -/
def list (t : Tree) (dir : Text) : List Text :=
  match t.resolve dir with
  | .error _ => []
  | .ok place =>
    let below := t.entries.filterMap fun (other, _) =>
      if place.isPrefixOf other then (other.drop place.length).head? else none
    Text.sort below.eraseDups

def isDirectory (t : Tree) (path : Text) : Bool :=
  t.stat path = some .directory

def canWrite (t : Tree) (path : Text) : Bool :=
  t.isDirectory (Path.directory path) && !t.isDirectory path

def depth (t : Tree) : Nat :=
  t.entries.foldl (fun n (place, _) => max n place.length) 0

end Tree

end Population
