import Population.Files.Glob.Name
import Population.Files.Tree

/-!
A pattern of paths is taken apart from its end: the part behind the last slash is looked for in every directory that
the part before it matches, and a group of alternatives stands for one pattern for each of them.
-/
namespace Population.Glob

/-- The last slash or closing brace without a backslash before it, what is before it and what is behind it. -/
def lastBreakFrom (before : Text) : (behindReversed : Text) → Option (Text × UInt8 × Text)
  | [] => none
  | b :: rest =>
    if (b == 0x2f || b == 0x7d) && rest.head? ≠ some 0x5c then some (rest.reverse, b, before)
    else lastBreakFrom (b :: before) rest

def lastBreak (t : Text) : Option (Text × UInt8 × Text) :=
  lastBreakFrom [] t.reverse

def lastSlash (t : Text) : Option (Text × Text) :=
  match t.reverse.dropWhile (· != Path.slash) with
  | [] => none
  | _ :: before => some (before.reverse, (t.reverse.takeWhile (· != Path.slash)).reverse)

/-- The text before the brace that opens the last group, and the text inside it. -/
def openingFrom (inside : Text) : (closed : Nat) → (reversed : Text) → Option (Text × Text)
  | _, [] => none
  | closed, b :: rest =>
    let escaped := rest.head? = some 0x5c
    if b == 0x7d && !escaped then openingFrom (b :: inside) (closed + 1) rest
    else if b == 0x7b && !escaped then
      match closed with
      | 0 => some (rest.reverse, inside)
      | closed + 1 => openingFrom (b :: inside) closed rest
    else openingFrom (b :: inside) closed rest

/-- The alternatives of a group; nothing behind its last comma is none. -/
def alternatives : (steps : Nat) → (inside : Text) → List Text
  | 0, _ => []
  | steps + 1, inside =>
    if inside.isEmpty then []
    else match nextAlternative 0x5c 0x7b 0x7d 0x2c [] 0 inside with
      | (part, none) => [part]
      | (part, some rest) => part :: alternatives steps rest

/-- Two stars with at least two more bytes behind them. -/
def hasInnerStars : Text → Bool
  | 0x5c :: _ :: rest => hasInnerStars rest
  | 0x2a :: 0x2a :: _ :: _ :: _ => true
  | _ :: rest => hasInnerStars rest
  | [] => false

structure Scope where
  tree : Tree
  base : Text
  /-- Whether directories of any depth may be on the way: matches of alternatives are then one list. -/
  deep : Bool

namespace Scope

def isProper (path : Text) : Bool :=
  path = "." || (Path.names path).all fun (name : Text) => !name.isEmpty && name ≠ "." && name ≠ ".."

def at? (s : Scope) (path : Text) : Option Text :=
  if !isProper path then none
  else if s.base.getLast? = some Path.slash then some (s.base ++ path)
  else some (s.base ++ [Path.slash] ++ path)

def stat (s : Scope) (path : Text) : Option NodeKind :=
  (s.at? path).bind s.tree.stat

def isDirectory (s : Scope) (path : Text) : Bool :=
  s.stat path = some .directory

def list (s : Scope) (dir : Text) : List Text :=
  ((s.at? dir).map s.tree.list).getD []

/-- Everything below a directory: its files in the order of names, or itself and its directories. -/
def descend (s : Scope) (files : Bool) : (depth : Nat) → (dir : Text) → List Text
  | 0, _ => []
  | depth + 1, dir =>
    let inner := (s.list dir).flatMap fun name : Text =>
      let path := Path.join dir name
      if s.isDirectory path then s.descend files depth path
      else if files then [path]
      else []
    if files then inner else dir :: inner

/-- The paths in a directory that a pattern without slashes matches: files, or directories on the way. -/
def inDirectory (s : Scope) (files : Bool) (pattern dir : Text) : Except BadPattern (List Text) :=
  if pattern.isEmpty then .ok (if !files && s.isDirectory dir then [dir] else [])
  else if pattern = "**" then
    .ok (if s.isDirectory dir then s.descend files (s.tree.depth + 2) dir else [])
  else do
    let matching ← (s.list dir).filterM (matchesName pattern)
    return (matching.map (Path.join dir)).filter fun path => s.isDirectory path != files

/-- The path that a pattern without meaning names, if it is there. -/
def named (s : Scope) (files : Bool) (pattern : Text) : List Text :=
  let path := unescape pattern
  let asked := if path.length > 1 && path.getLast? = some Path.slash then path.dropLast else path
  match s.stat asked with
  | none => []
  | some kind => if files && kind = .directory then [] else [path]

end Scope

def insertSorted (path : Text) : List Text → List Text
  | [] => [path]
  | p :: rest =>
    if p = path then p :: rest
    else if Text.le p path then p :: insertSorted path rest
    else path :: p :: rest

/-- Puts the matches of one more alternative among those before it. A path that gives way goes to its place
among the new ones, so that two sorted lists give a sorted one without a path that is in both. -/
def merge : (found more : List Text) → List Text
  | [], more => more
  | found, [] => found
  | a :: found, b :: more =>
    if a = b then a :: merge found more
    else if Text.le a b then a :: merge found (b :: more)
    else b :: merge found (more.takeWhile (fun p : Text => p ≠ a && Text.le p a) ++
      a :: more.dropWhile (fun p : Text => p ≠ a && Text.le p a))

def withAlternative (dir lead behind alternative : Text) : Text :=
  let start : Text := if dir.isEmpty || dir = "." then [] else escape dir ++ [Path.slash]
  start ++ lead ++ alternative ++ behind

/-- The matches of a pattern behind those of the alternatives before it, which are also looked into when
they are directories on the way. -/
def search (s : Scope) : (steps : Nat) → (files : Bool) → (before : List Text) → (pattern : Text) →
    Except BadPattern (List Text)
  | 0, _, before, _ => .ok before
  | steps + 1, files, before, pattern =>
    let fixed := fixedPart pattern
    /- The matches of a name in the directories of a pattern. -/
    let below (dir name : Text) := do
      if dir.length ≤ fixed.length then
        return before ++ (← s.inDirectory files name (unescape dir))
      else
        let dirs ← search s steps false (if s.deep then [] else before) dir
        dirs.foldlM (fun found dir => return found ++ (← s.inDirectory files name dir)) before
    let here := return before ++ (← s.inDirectory files pattern ".")
    if !hasMeta pattern then .ok (before ++ s.named files pattern)
    else match lastBreak pattern with
      | none => here
      | some (front, 0x7d, behind) => match openingFrom [] 0 front.reverse with
        | none => match lastSlash front with
          | none => here
          | some (dir, name) => below dir (name ++ 0x7d :: behind)
        | some (front, inside) => do
          let parts := alternatives (inside.length + 1) inside
          let (dirs, lead) ← match lastBreak front with
            | some (dir, 0x2f, lead) =>
              pure (← search s steps false (if s.deep then [] else before) dir, lead)
            | _ => pure ([[]], front)
          dirs.foldlM (fun found dir =>
            if s.deep then
              parts.foldlM (fun found part =>
                return (← search s steps files [] (withAlternative dir lead behind part)).foldl
                  (fun found path => insertSorted path found) found) found
            else do
              let those ← parts.foldlM (fun those part => do
                let all ← search s steps files (found ++ those) (withAlternative dir lead behind part)
                return merge those (all.drop (found.length + those.length))) []
              return found ++ those) before
      | some (dir, _, name) => below dir name

/-- The number of bytes up to the last slash with its meaning, if there is one. -/
def slashAt? : Text → Option Nat
  | [] => none
  | 0x5c :: _ :: rest => (slashAt? rest).map (· + 2)
  | b :: rest => match slashAt? rest with
    | some n => some (n + 1)
    | none => if b == Path.slash then some 0 else none

/-- The directory that is named before the first special character, and the rest of a path pattern. -/
def splitBase (pattern : Text) : Text × Text :=
  match slashAt? (fixedPart pattern) with
  | none => (".", pattern)
  | some 0 => ("/", pattern.drop 1)
  | some n => (unescape (pattern.take n), pattern.drop (n + 1))

def files (t : Tree) (pattern : Text) : Except BadPattern (List Text) :=
  let pattern := Path.clean pattern
  let (base, rest) := splitBase pattern
  if rest.isEmpty || rest = "." || rest = ".." then
    if !isValid pattern then .error ⟨⟩
    else .ok (if (t.stat (unescape pattern)).isSome then [unescape pattern] else [])
  else if !isValid rest then .error ⟨⟩
  else
    let s : Scope := ⟨t, base, hasInnerStars rest⟩
    (search s (2 * rest.length + 2) true [] rest).map fun found => found.map (Path.join base)

end Population.Glob
