import Population.Settings.Expression.Evaluate
import Population.Settings.Expression.Reader

namespace Population.Settings

structure Attr where
  name : Text
  value : Expr

mutual

inductive Body
  | mk (attrs : List Attr) (blocks : List Block)

inductive Block
  | mk (type : Text) (labels : List Text) (body : Body)

end

def Body.attrs : Body → List Attr
  | .mk attrs _ => attrs

def Body.blocks : Body → List Block
  | .mk _ blocks => blocks

def Block.type : Block → Text
  | .mk type _ _ => type

def Block.labels : Block → List Text
  | .mk _ labels _ => labels

def Block.body : Block → Body
  | .mk _ _ body => body

namespace Body

open Reader

def readValue : Reader Expr := do
  expect true (.sign .assign)
  Expr.read true (Expr.enough (← get))

def readLabel : (steps : Nat) → Reader Text
  | 0 => failure
  | steps + 1 => do
    if ← takes true .closeQuote then return []
    match ← look true with
    | some (.literal t) =>
      advance
      return t ++ (← readLabel steps)
    | _ => failure

def readLabels : (steps : Nat) → Reader (List Text)
  | 0 => failure
  | steps + 1 => do
    match ← look true with
    | some (.sign .openBrace) =>
      advance
      return []
    | some .openQuote =>
      advance
      let label ← readLabel steps
      return label :: (← readLabels steps)
    | some (.name label) =>
      advance
      return label :: (← readLabels steps)
    | _ => failure

def readLineEnd : Reader Unit := do
  match ← look true with
  | none => return ()
  | some _ => expect true .newline

/-- The attribute of a block on one line, up to its closing brace. -/
def readSingle : Reader Body := do
  let name ← Reader.name true
  let value ← readValue
  expect true (.sign .closeBrace)
  return .mk [⟨name, value⟩] []

mutual

/-- The items of a body, each on lines of its own, up to a closing brace or the end of the file. Attributes
and blocks are gathered last first, and a name is given to one attribute only. -/
def readItems (nested : Bool) : (steps : Nat) → (attrs : List Attr) → (blocks : List Block) → Reader Body
  | 0, _, _ => failure
  | steps + 1, attrs, blocks => do
    match ← look false with
    | none => if nested then failure else return .mk attrs.reverse blocks.reverse
    | some (.sign .closeBrace) =>
      if nested then
        advance
        return .mk attrs.reverse blocks.reverse
      else failure
    | some (.name name) =>
      advance
      if (← look true) == some (.sign .assign) then
        let value ← readValue
        if attrs.any (·.name = name) then failure
        readLineEnd
        readItems nested steps (⟨name, value⟩ :: attrs) blocks
      else
        let labels ← readLabels steps
        let body ← readBlock steps
        readLineEnd
        readItems nested steps attrs (.mk name labels body :: blocks)
    | _ => failure

def readBlock : (steps : Nat) → Reader Body
  | 0 => failure
  | steps + 1 => do
    match ← look true with
    | some .newline => readItems true steps [] []
    | some (.sign .closeBrace) => readItems true steps [] []
    | _ => readSingle

end

/-- The body of a file; none if it breaks a rule of the syntax. -/
def parse? (bytes : Text) : Option Body := do
  let tokens ← Token.scan? bytes
  let (body, _) ← readItems false (2 * tokens.length + 2) [] [] tokens
  return body

end Body

end Population.Settings
