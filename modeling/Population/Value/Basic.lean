import Population.Text.Quoted
import Population.Number.Reader
import Population.Number.Writer

/-!
A list knows the type of its items, so an empty list and a null have a type too.
-/
namespace Population

inductive ValueType
  | text
  | number
  | bool
  | list (element : ValueType)
  deriving DecidableEq, Repr

def ValueType.name : ValueType → Text
  | .text => "string"
  | .number => "number"
  | .bool => "bool"
  | .list element => "list of " ++ element.name

inductive Value
  | text (t : Text)
  | number (n : Number)
  | bool (b : Bool)
  | list (element : ValueType) (items : List Value)
  | null (type : ValueType)
  deriving Repr

namespace Value

def type : Value → ValueType
  | .text _ => .text
  | .number _ => .number
  | .bool _ => .bool
  | .list element _ => .list element
  | .null type => type

def ofInt (i : Int) : Value :=
  .number (.ofInt i)

def texts (ts : List Text) : Value :=
  .list .text (ts.map .text)

def textOrEmpty : Value → Text
  | .text t => t
  | _ => []

def boolText (b : Bool) : Text :=
  if b then "true" else "false"

mutual

/-- The canonical text of a value. The items of a list are joined with commas and a null is empty. -/
def format : Value → Text
  | .text t => t
  | .number n => n.toText
  | .bool b => boolText b
  | .list _ items => Text.join ", " (formatAll items)
  | .null _ => []

def formatAll : List Value → List Text
  | [] => []
  | v :: vs => v.format :: formatAll vs

end

mutual

/-- A value as it stands in a written command: texts are quoted and lists are bracketed. -/
def literal : Value → Text
  | .text t => t.quoted
  | .number n => n.toText
  | .bool b => boolText b
  | .list _ items => "[" ++ Text.join ", " (literalAll items) ++ "]"
  | .null _ => "null"

def literalAll : List Value → List Text
  | [] => []
  | v :: vs => v.literal :: literalAll vs

end

end Value

end Population
