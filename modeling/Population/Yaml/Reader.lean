import Population.Yaml.Node
import Population.Yaml.Token.Stream

/-!
What a document says need not be what was meant when it was written: a block whose lines are indented less than its
heading tells ends early.
-/
namespace Population.Yaml.Node

/-- A scalar that begins with a token. What is no scalar stands for nothing. -/
def readScalar (t : Token) (s : TokenStream) : Except Problem (Scalar × TokenStream) :=
  match t.lexeme with
  | .scalar style cs => .ok (.ofRead none style cs, s)
  | .tag tag => do
    let (t, s) ← s.next
    match t.lexeme with
    | .scalar style cs => return (.ofRead (some tag) style cs, s)
    | _ => return (.ofRead (some tag) .bare [], s)
  | _ => .ok (.ofRead none .bare [], s)

/-- The items of a list that began in line `start`, with those so far, last one first. -/
def readItems (start : Nat) : (fuel : Nat) → (seen : List Node) → TokenStream → Except Problem (List Node)
  | 0, seen, _ => .ok seen.reverse
  | fuel + 1, seen, s => do
    let (t, s) ← s.next
    match t.lexeme with
    | .entry =>
      let (t, s) ← s.next
      let (item, s) ← readScalar t s
      readItems start fuel (.scalar item :: seen) s
    | .blockEnd => return seen.reverse
    | _ => throw ⟨.entryExpected, start, t.line⟩

def read (t : Text) : Except Problem Node := do
  let cs := t.chars
  let (_, s) ← (TokenStream.start cs).next
  let (t, s) ← s.next
  match t.lexeme with
  | .sequence => return .sequence (← readItems t.line cs.length [] s)
  | _ => return .scalar (← readScalar t s).1

/-- A scalar as it is read from a document of its own. Only a literal block may say something else there. -/
def reread (step : Nat) (s : Scalar) : Except Problem Node :=
  if s.isBlock then read ((Node.scalar s).document step) else .ok (.scalar s.asRead)

def rereadAll (step : Nat) (ss : List Scalar) : Except Problem Node :=
  if ss.any (·.isBlock) then read ((Node.sequence (ss.map .scalar)).document step)
  else .ok (.sequence (ss.map fun s => .scalar s.asRead))

end Population.Yaml.Node
