import Population.Text.Basic

/-!
Patterns of lines with named groups. A pattern matches a whole text or none of it. Where it can match in
several ways the earlier alternative wins, and a repetition takes as much as it can, or as little as it
can if it is reluctant.

All ways to match are followed side by side, the preferred one first. Of two that have the same left to
match the later one is dropped, so the work is at most proportional to the text and to the pattern.
-/
namespace Population

inductive ByteClass
  | word
  | space
  | digit
  | oneOf (bytes : Text)
  | either (first second : ByteClass)
  deriving DecidableEq, Repr

def ByteClass.holds : ByteClass → UInt8 → Bool
  | .word, b => Text.isWord b
  | .space, b => Text.isSpace b
  | .digit, b => Text.isDigit b
  | .oneOf bytes, b => bytes.any (· == b)
  | .either c d, b => c.holds b || d.holds b

inductive Pattern
  | empty
  | byte (c : ByteClass)
  | run (c : ByteClass) (reluctant : Bool)
  | seq (first second : Pattern)
  | alt (first second : Pattern)
  /-- Once rather than not at all. -/
  | optional (inner : Pattern)
  /-- At least once, as often as possible; every time takes at least one byte. -/
  | many (inner : Pattern)
  | group (name : Text) (inner : Pattern)
  deriving DecidableEq, Repr

/-- What a group matched: the bytes from `start` up to but not including `stop`. -/
structure Span where
  name : Text
  start : Nat
  stop : Nat
  deriving DecidableEq, Repr

def Span.of (s : Span) (t : Text) : Text :=
  (t.drop s.start).take (s.stop - s.start)

namespace Pattern

def literal (t : Text) : Pattern :=
  t.foldr (fun b rest => .seq (.byte (.oneOf [b])) rest) .empty

def all (parts : List Pattern) : Pattern :=
  parts.foldr .seq .empty

/-- The names of the groups in the order in which they open. -/
def groups : Pattern → List Text
  | .empty | .byte _ | .run _ _ => []
  | .seq a b | .alt a b => groups a ++ groups b
  | .optional p | .many p => groups p
  | .group name p => name :: groups p

inductive Pending
  | pattern (p : Pattern)
  /-- A pattern any number of times more. -/
  | again (p : Pattern)
  /-- The end of the group that was opened last. -/
  | close
  deriving DecidableEq, Repr

/-- The groups seen so far, last one first. -/
structure Marks where
  opened : List (Text × Nat)
  closed : List Span
  deriving DecidableEq, Repr

def Marks.none : Marks where
  opened := []
  closed := []

def Marks.openAt (m : Marks) (name : Text) (pos : Nat) : Marks :=
  { m with opened := (name, pos) :: m.opened }

def Marks.closeAt (m : Marks) (pos : Nat) : Marks :=
  match m.opened with
  | [] => m
  | (name, start) :: rest => ⟨rest, ⟨name, start, pos⟩ :: m.closed⟩

/-- One way to match what has been read so far. -/
inductive Branch
  /-- It goes on with a byte of a class, and what is left behind that. -/
  | waiting (c : ByteClass) (pending : List Pending) (marks : Marks)
  | complete (marks : Marks)
  deriving DecidableEq, Repr

/-- The ways to go into a pattern at a position, preferred ones first. What is left behind it is `pending`,
and `after` are the ways to go on where the pattern matches nothing. -/
def enter (pos : Nat) : Pattern → (pending : List Pending) → (after : Marks → List Branch) → Marks → List Branch
  | .empty, _, after, m => after m
  | .byte c, pending, _, m => [.waiting c pending m]
  | .run c true, pending, after, m => after m ++ [.waiting c (.pattern (.run c true) :: pending) m]
  | .run c false, pending, after, m => .waiting c (.pattern (.run c false) :: pending) m :: after m
  | .seq a b, pending, after, m => enter pos a (.pattern b :: pending) (enter pos b pending after) m
  | .alt a b, pending, after, m => enter pos a pending after m ++ enter pos b pending after m
  | .optional p, pending, after, m => enter pos p pending after m ++ after m
  | .many p, pending, _, m => enter pos p (.again p :: pending) (fun _ => []) m
  | .group name p, pending, after, m =>
    enter pos p (.close :: pending) (fun m => after (m.closeAt pos)) (m.openAt name pos)

def resume (pos : Nat) : List Pending → Marks → List Branch
  | [], m => [.complete m]
  | .pattern p :: rest, m => enter pos p rest (resume pos rest) m
  | .again p :: rest, m => enter pos p (.again p :: rest) (fun _ => []) m ++ resume pos rest m
  | .close :: rest, m => resume pos rest (m.closeAt pos)

def Branch.agrees : Branch → Branch → Bool
  | .waiting c pending _, .waiting d pending' _ => c = d && pending = pending'
  | .complete _, .complete _ => true
  | _, _ => false

def prune (branches : List Branch) : List Branch :=
  (branches.foldl (fun kept b => if kept.any (·.agrees b) then kept else b :: kept) []).reverse

/-- The ways to go on after a byte at the position before `pos`. -/
def Branch.step (pos : Nat) (b : UInt8) : Branch → List Branch
  | .waiting c pending m => if c.holds b then resume pos pending m else []
  | .complete _ => []

def Branch.spans? : Branch → Option (List Span)
  | .waiting _ _ _ => none
  | .complete m => some m.closed.reverse

def follow (pos : Nat) (branches : List Branch) : Text → Option (List Span)
  | [] => branches.findSome? Branch.spans?
  | b :: rest =>
    if branches.isEmpty then none
    else follow (pos + 1) (prune (branches.flatMap (Branch.step (pos + 1) b))) rest

/-- The groups of a match of the whole text, in the order in which they closed. -/
def match? (p : Pattern) (t : Text) : Option (List Span) :=
  follow 0 (prune (enter 0 p [] (fun m => [.complete m]) .none)) t

end Pattern

end Population
