import Population.Files.Glob.Basic
import Population.Text.Symbol

/-!
A pattern of a name is read into pieces that match a character each, and stars; a piece that cannot be read makes the
whole pattern bad, but only for a name that gets there. Behind a star the first place that lets the rest go on to the
next star is as good as any, so that no earlier star is tried again.
-/
namespace Population.Glob

inductive Piece
  | star
  | any
  | one (c : Char)
  /-- A closing brace that no brace opens: it matches itself. -/
  | closing
  | oneOf (ranges : List (Char × Char))
  | noneOf (ranges : List (Char × Char))
  | bad
  deriving DecidableEq, Repr

/-- The ranges of a class and the text behind its bracket. A range may start at `last`. -/
def rangesFrom (last : Option Char) : List Char → Option (List (Char × Char) × List Char)
  | [] => none
  | ']' :: rest => some ([], rest)
  | '-' :: '\\' :: high :: rest => match last with
    | some low => (rangesFrom none rest).map fun (ranges, rest) => ((low, high) :: ranges, rest)
    | none => (rangesFrom (some high) rest).map fun (ranges, rest) =>
      (('-', '-') :: (high, high) :: ranges, rest)
  | '-' :: ']' :: rest => some ([('-', '-')], rest)
  | '-' :: high :: rest => match last with
    | some low => (rangesFrom none rest).map fun (ranges, rest) => ((low, high) :: ranges, rest)
    | none => (rangesFrom (some '-') (high :: rest)).map fun (ranges, rest) => (('-', '-') :: ranges, rest)
  | '\\' :: c :: rest => (rangesFrom (some c) rest).map fun (ranges, rest) => ((c, c) :: ranges, rest)
  | c :: rest => (rangesFrom (some c) rest).map fun (ranges, rest) => ((c, c) :: ranges, rest)

def readClass : List Char → Option (Piece × List Char)
  | [] => none
  | c :: rest =>
    let negated := c == '!' || c == '^'
    let body := if negated then rest else c :: rest
    match rangesFrom none body with
    | none => none
    | some ([], _) => none
    | some (ranges, rest) => some (if negated then .noneOf ranges else .oneOf ranges, rest)

def readGroup (inside : List Char) : (depth : Nat) → List Char → Option (List Char × List Char)
  | _, [] => none
  | depth, '\\' :: c :: rest => readGroup (c :: '\\' :: inside) depth rest
  | depth, c :: rest =>
    if c == '{' then readGroup (c :: inside) (depth + 1) rest
    else if c == '}' then match depth with
      | 0 => some (inside.reverse, rest)
      | depth + 1 => readGroup (c :: inside) depth rest
    else readGroup (c :: inside) depth rest

/-- What is before the first comma outside of inner groups, and what is behind it. -/
def nextAlternative {α : Type} [BEq α] (backslash opening closing comma : α) (part : List α) :
    (depth : Int) → List α → List α × Option (List α)
  | _, [] => (part.reverse, none)
  | depth, [c] =>
    if c == comma && depth == 0 then (part.reverse, some []) else ((c :: part).reverse, none)
  | depth, a :: c :: rest =>
    if a == backslash then nextAlternative backslash opening closing comma (c :: a :: part) depth rest
    else if a == opening then nextAlternative backslash opening closing comma (a :: part) (depth + 1) (c :: rest)
    else if a == closing then nextAlternative backslash opening closing comma (a :: part) (depth - 1) (c :: rest)
    else if a == comma && depth == 0 then (part.reverse, some (c :: rest))
    else nextAlternative backslash opening closing comma (a :: part) depth (c :: rest)

/-- The alternatives of a group, with an empty one behind a last comma. -/
def branches : (steps : Nat) → List Char → List (List Char)
  | 0, _ => []
  | steps + 1, inside => match nextAlternative '\\' '{' '}' ',' [] 0 inside with
    | (part, none) => [part]
    | (part, some rest) => part :: branches steps rest

/-- The pieces of a pattern, once for each choice from its groups. -/
def readingsFrom : (steps : Nat) → List Char → List (List Piece)
  | 0, _ => [[.bad]]
  | _ + 1, [] => [[]]
  | steps + 1, c :: rest => match c with
    | '*' => (readingsFrom steps rest).map (.star :: ·)
    | '?' => (readingsFrom steps rest).map (.any :: ·)
    | '}' => (readingsFrom steps rest).map (.closing :: ·)
    | '[' => match readClass rest with
      | none => [[.bad]]
      | some (piece, rest) => (readingsFrom steps rest).map (piece :: ·)
    | '\\' => match rest with
      | [] => [[.bad]]
      | c :: rest => (readingsFrom steps rest).map (.one c :: ·)
    | '{' => match readGroup [] 0 rest with
      | none => [[.bad]]
      | some (inside, behind) => (branches (inside.length + 1) inside).flatMap fun part =>
        readingsFrom steps (part ++ behind)
    | _ => (readingsFrom steps rest).map (.one c :: ·)

def readings (pattern : List Char) : List (List Piece) :=
  readingsFrom (pattern.length + 1) pattern

inductive Verdict
  | yes
  /-- Not from here, but a longer star before might help. -/
  | no
  /-- No longer star before can help. -/
  | never
  | bad
  deriving DecidableEq, Repr

def inRanges (c : Char) (ranges : List (Char × Char)) : Bool :=
  ranges.any fun (low, high) => low ≤ c && c ≤ high

def seek (rest : List Char → Verdict) : List Char → Verdict
  | [] => match rest [] with
    | .no => .never
    | verdict => verdict
  | c :: name => match rest (c :: name) with
    | .no => seek rest name
    | verdict => verdict

/-- The verdict on pieces that are left when a name is at its end: one or two stars are no more than
nothing. -/
def atEnd (pieces : List Piece) : Verdict :=
  if pieces.all (· == .star) && pieces.length ≤ 2 then .yes
  else if pieces.any fun piece => piece == .bad || piece == .closing then .bad
  else .never

def verdict : List Piece → (name : List Char) → Verdict
  | pieces, [] => atEnd pieces
  | [], _ => .no
  | .star :: pieces, name => seek (verdict pieces) name
  | .any :: pieces, _ :: name => verdict pieces name
  | .one p :: pieces, c :: name => if p == c then verdict pieces name else .no
  | .closing :: pieces, c :: name => if c == '}' then verdict pieces name else .no
  | .oneOf ranges :: pieces, c :: name => if inRanges c ranges then verdict pieces name else .no
  | .noneOf ranges :: pieces, c :: name => if inRanges c ranges then .no else verdict pieces name
  | .bad :: _, _ => .bad

/-- Whether one of the readings matches; the first that matches or is bad decides. -/
def anyMatches (name : List Char) : List (List Piece) → Except BadPattern Bool
  | [] => .ok false
  | pieces :: more => match verdict pieces name with
    | .yes => .ok true
    | .bad => .error ⟨⟩
    | _ => anyMatches name more

def matchesName (pattern name : Text) : Except BadPattern Bool :=
  anyMatches name.chars (readings pattern.chars)

end Population.Glob
