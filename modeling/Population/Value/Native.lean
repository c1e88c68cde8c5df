import Population.Number.Double
import Population.Value.Basic

namespace Population

inductive Native
  | none
  | text (t : Text)
  | int (i : Int)
  | float (d : Double)
  | bool (b : Bool)
  | texts (ts : List Text)
  | ints (is : List Int)
  | floats (ds : List Double)
  | bools (bs : List Bool)
  deriving DecidableEq, Repr

inductive NativeError
  | wholeOutOfRange
  | floatOutOfRange
  | nullItem
  | unsupported (type : ValueType)
  deriving DecidableEq, Repr

namespace NativeError

def largestDouble : Nat := Nat.pow 2 1024 - Nat.pow 2 971

def message : NativeError → Text
  | .wholeOutOfRange =>
    "value must be a whole number, between " ++ Text.ofInt Number.minInt64 ++ " and " ++
      Text.ofInt Number.maxInt64
  | .floatOutOfRange =>
    "value must be between -" ++ Text.ofNat largestDouble ++ ".000000 and " ++
      Text.ofNat largestDouble ++ ".000000 inclusive"
  | .nullItem => "null value is not allowed"
  | .unsupported type => "unsupported value type " ++ type.name

end NativeError

namespace Value

/-- The nearest double; a finite number must not become infinite. -/
def doubleOf (n : Number) : Except NativeError Double :=
  let d := Double.ofNumber n
  if d.isInfinite && (match n with | .infinite _ => false | _ => true) then .error .floatOutOfRange
  else .ok d

def textItem : Value → Except NativeError Text
  | .text t => .ok t
  | .null _ => .error .nullItem
  | v => .error (.unsupported v.type)

def boolItem : Value → Except NativeError Bool
  | .bool b => .ok b
  | .null _ => .error .nullItem
  | v => .error (.unsupported v.type)

def numberItem : Value → Except NativeError Double
  | .number n => doubleOf n
  | .null _ => .error .nullItem
  | v => .error (.unsupported v.type)

def nativeNumber (n : Number) : Except NativeError Native :=
  if n.isWhole then
    match n.toInt64? with
    | some i => .ok (.int i)
    | none => .error .wholeOutOfRange
  else (doubleOf n).map .float

/-- Numbers of a list all become doubles first, and integers only if every one of them is one. -/
def nativeNumbers (items : List Value) : Except NativeError Native := do
  let doubles ← items.mapM numberItem
  match doubles.mapM fun d => d.value.toInt64? with
  | some ints => return .ints ints
  | none => return .floats doubles

def native : Value → Except NativeError Native
  | .null _ => .ok .none
  | .text t => .ok (.text t)
  | .bool b => .ok (.bool b)
  | .number n => nativeNumber n
  | .list .text items => (items.mapM textItem).map .texts
  | .list .bool items => (items.mapM boolItem).map .bools
  | .list .number items => nativeNumbers items
  | .list (.list element) _ => .error (.unsupported (.list (.list element)))

end Value

end Population
