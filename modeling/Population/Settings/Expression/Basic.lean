import Population.Settings.Datum

namespace Population.Settings

inductive Operator
  | or
  | and
  | equal
  | notEqual
  | less
  | lessEqual
  | greater
  | greaterEqual
  | add
  | subtract
  | multiply
  | divide
  | modulo
  deriving DecidableEq, Repr

inductive Expr
  | literal (d : Datum)
  | variable (name : Text)
  /-- The item that the part of a splat behind its star is about. -/
  | item
  /-- Something that cannot be evaluated here, such as a call. -/
  | unusable
  | member (of : Expr) (name : Text)
  | element (of key : Expr)
  | negate (e : Expr)
  | not (e : Expr)
  | binary (op : Operator) (left right : Expr)
  | conditional (condition yes no : Expr)
  | tuple (items : List Expr)
  | object (members : List (Expr × Expr))
  | eachItem (key : Option Text) (entry : Text) (collection content condition : Expr)
  /-- An object with a member for each entry; grouped, all values of one name make up a tuple. -/
  | eachMember (key : Option Text) (entry : Text) (collection name content condition : Expr) (grouped : Bool)
  /-- What `each` says of every item of a source. -/
  | splat (source each : Expr)
  | template (parts : List Expr)
  | joined (items : Expr)

namespace Expr

/-- A name and steps from it that do not depend on anything. -/
def isPath : Expr → Bool
  | .variable _ => true
  | .member e _ => e.isPath
  | .element e (.literal _) => e.isPath
  | _ => false

/-- The key of a member that starts with a name: a name alone is taken as it is, and a longer path might be
meant as either. -/
def asKey : Expr → Expr
  | .variable name => .literal (.text name)
  | .literal (.null _) => .literal (.text "null")
  | e => if e.isPath then .unusable else e

end Expr

end Population.Settings
