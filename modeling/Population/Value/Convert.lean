import Population.Text.Blank
import Population.Text.Lower
import Population.Value.Basic

namespace Population

inductive UiType
  | string
  | integer
  | float
  | bool
  deriving DecidableEq, Repr

namespace UiType

def all : List UiType :=
  [.string, .integer, .float, .bool]

def name : UiType → Text
  | .string => "string"
  | .integer => "integer"
  | .float => "float"
  | .bool => "bool"

def ofName? (t : Text) : Option UiType :=
  all.find? fun u => u.name = t

def valueType : UiType → ValueType
  | .string => .text
  | .integer => .number
  | .float => .number
  | .bool => .bool

end UiType

structure AppType where
  name : Text
  ui : UiType
  deriving DecidableEq, Repr

inductive Mismatch
  | numberRequired
  | wholeNumberRequired
  | outOfRange
  | boolRequired
  /-- The text is a truth value but for the case of its letters. -/
  | lowerCaseRequired (b : Bool)
  deriving DecidableEq, Repr

def Mismatch.message : Mismatch → Text
  | .numberRequired => "a number is required"
  | .wholeNumberRequired => "a whole number is required"
  | .outOfRange => "out of range"
  | .boolRequired => "a bool is required"
  | .lowerCaseRequired b =>
    "a bool is required; to convert from string, use lowercase " ++ (Value.boolText b).quoted

structure ConvertError where
  raw : Text
  type : AppType
  mismatch : Mismatch
  deriving DecidableEq, Repr

def ConvertError.message (e : ConvertError) : Text :=
  "cannot convert " ++ e.raw.quoted ++ " to " ++ e.type.name ++ " (" ++ e.type.ui.name ++ "): " ++
    e.mismatch.message

namespace UiType

def number (t : Text) : Except Mismatch Number :=
  match Number.parse? t with
  | some n => .ok n
  | none => .error .numberRequired

def truth (t : Text) : Except Mismatch Bool :=
  if t = "true" || t = "1" then .ok true
  else if t = "false" || t = "0" then .ok false
  else if t.lower = "true" then .error (.lowerCaseRequired true)
  else if t.lower = "false" then .error (.lowerCaseRequired false)
  else .error .boolRequired

/-- The value of a text without blanks around it. -/
def read (u : UiType) (t : Text) : Except Mismatch Value :=
  match u with
  | .string => .ok (.text t)
  | .float => (number t).map .number
  | .bool => (truth t).map .bool
  | .integer => do
    let n ← number t
    if !n.isWhole then throw .wholeNumberRequired
    if n.toInt64?.isNone then throw .outOfRange
    return .number n

end UiType

namespace AppType

/-- The value of a captured text. Blanks around it do not count. -/
def convert (type : AppType) (raw : Text) : Except ConvertError Value :=
  (type.ui.read raw.trim).mapError (⟨raw.trim, type, ·⟩)

def convertList (type : AppType) (raws : List Text) : Except ConvertError Value :=
  (raws.mapM type.convert).map (.list type.ui.valueType)

end AppType

end Population
