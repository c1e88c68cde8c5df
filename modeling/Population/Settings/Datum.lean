import Population.Number.Arithmetic
import Population.Number.Reader
import Population.Number.Writer
import Population.Settings.Kind

/-!
A datum may be unknown and still have a kind: such is the datum of an expression that cannot be evaluated.
-/
namespace Population.Settings

inductive Datum
  | text (t : Text)
  | number (n : Number)
  | bool (b : Bool)
  | tuple (items : List Datum)
  /-- Members in the order of their names, which are all different. -/
  | object (members : List (Text × Datum))
  | list (element : Kind) (items : List Datum)
  | map (element : Kind) (members : List (Text × Datum))
  | null (kind : Kind)
  | unknown (kind : Kind)

namespace Datum

mutual

def kind : Datum → Kind
  | .text _ => .text
  | .number _ => .number
  | .bool _ => .bool
  | .tuple items => .tuple (kinds items)
  | .object members => .object (memberKinds members)
  | .list element _ => .list element
  | .map element _ => .map element
  | .null kind => kind
  | .unknown kind => kind

def kinds : List Datum → List Kind
  | [] => []
  | d :: ds => d.kind :: kinds ds

def memberKinds : List (Text × Datum) → List (Text × Kind)
  | [] => []
  | (name, d) :: ds => (name, d.kind) :: memberKinds ds

end

def isNull : Datum → Bool
  | .null _ => true
  | _ => false

def isUnknown : Datum → Bool
  | .unknown _ => true
  | _ => false

/-- Puts a member in its place; one of the same name gives way. -/
def putMember (name : Text) (d : Datum) : List (Text × Datum) → List (Text × Datum)
  | [] => [(name, d)]
  | (n, e) :: members =>
    if n = name then (name, d) :: members
    else if Text.le n name then (n, e) :: putMember name d members
    else (name, d) :: (n, e) :: members

def ofText? (target : Kind) (t : Text) : Option Datum :=
  match target with
  | .number => (Number.parse? t).map .number
  | .bool =>
    if t = "true" || t = "1" then some (.bool true)
    else if t = "false" || t = "0" then some (.bool false)
    else none
  | _ => some (.text t)

def text? : Datum → Option Text
  | .text t => some t
  | .number n => some n.toText
  | .bool b => some (if b then "true" else "false")
  | _ => none

mutual

/-- A datum of another kind, where the kinds allow it and its parts do. -/
def convert? (target : Kind) : Datum → Option Datum
  | .null k => if k.convertsTo target then some (.null target) else none
  | .unknown k => if k.convertsTo target then some (.unknown target) else none
  | .text t => match target with
    | .any => some (.text t)
    | .text => some (.text t)
    | .number => ofText? .number t
    | .bool => ofText? .bool t
    | _ => none
  | .number n => match target with
    | .any => some (.number n)
    | .number => some (.number n)
    | .text => some (.text n.toText)
    | _ => none
  | .bool b => match target with
    | .any => some (.bool b)
    | .bool => some (.bool b)
    | .text => some (.text (if b then "true" else "false"))
    | _ => none
  | .tuple items => match target with
    | .any => some (.tuple items)
    | .tuple targets => (convertEach targets items).map .tuple
    | .list element => (convertAll element items).map (.list element)
    | _ => none
  | .object members => match target with
    | .any => some (.object members)
    | .object targets => (convertMembers targets members).map .object
    | .map element => (convertValues element members).map (.map element)
    | _ => none
  | .list element items => match target with
    | .any => some (.list element items)
    | .list element => (convertAll element items).map (.list element)
    | _ => none
  | .map element members => match target with
    | .any => some (.map element members)
    | .map element => (convertValues element members).map (.map element)
    | .object targets => (convertMembers targets members).map .object
    | _ => none

def convertAll (target : Kind) : List Datum → Option (List Datum)
  | [] => some []
  | d :: ds => match d.convert? target, convertAll target ds with
    | some d, some ds => some (d :: ds)
    | _, _ => none

def convertEach : List Kind → List Datum → Option (List Datum)
  | [], [] => some []
  | k :: ks, d :: ds => match d.convert? k, convertEach ks ds with
    | some d, some ds => some (d :: ds)
    | _, _ => none
  | _, _ => none

def convertValues (target : Kind) : List (Text × Datum) → Option (List (Text × Datum))
  | [] => some []
  | (name, d) :: ds => match d.convert? target, convertValues target ds with
    | some d, some ds => some ((name, d) :: ds)
    | _, _ => none

/-- The members that the target has; others are dropped. -/
def convertMembers (targets : List (Text × Kind)) : List (Text × Datum) → Option (List (Text × Datum))
  | [] => if targets.isEmpty then some [] else none
  | (name, d) :: ds => match targets.lookup name with
    | none => convertMembers targets ds
    | some k => match d.convert? k, convertMembers (targets.filter (·.1 != name)) ds with
      | some d, some ds => some ((name, d) :: ds)
      | _, _ => none

end

/-- A yes or no, or neither when something is unknown. -/
abbrev Answer := Option Bool

/-- Both must hold; the first answer that is not yes decides. -/
def Answer.both (a b : Answer) : Answer :=
  match a with
  | some true => b
  | a => a

mutual

/-- Whether two data are equal. Nulls are, whatever their kinds; data of different kinds are not. -/
def equals : Datum → Datum → Answer
  | .null _, .null _ => some true
  | .null _, .unknown _ => none
  | .unknown _, .null _ => none
  | .null _, _ => some false
  | _, .null _ => some false
  | .unknown k, d => if k.isDefinite && d.kind.isDefinite && !(k == d.kind) then some false else none
  | d, .unknown k => if k.isDefinite && d.kind.isDefinite && !(k == d.kind) then some false else none
  | .text s, .text t => some (s == t)
  | .number m, .number n => some (m.compare n == .eq)
  | .bool a, .bool b => some (a == b)
  | .tuple ds, .tuple es => if kinds ds == kinds es then equalsAll ds es else some false
  | .object ds, .object es =>
    if Kind.sameMembers (memberKinds ds) (memberKinds es) then equalsMembers ds es else some false
  | .list k ds, .list l es => if k == l then equalsAll ds es else some false
  | .map k ds, .map l es => if k == l then equalsMembers ds es else some false
  | _, _ => some false

def equalsAll : List Datum → List Datum → Answer
  | [], [] => some true
  | d :: ds, e :: es => Answer.both (d.equals e) (equalsAll ds es)
  | _, _ => some false

def equalsMembers : List (Text × Datum) → List (Text × Datum) → Answer
  | [], [] => some true
  | (m, d) :: ds, (n, e) :: es => if m = n then Answer.both (d.equals e) (equalsMembers ds es) else some false
  | _, _ => some false

end

def position? (n : Number) (length : Nat) : Option Nat :=
  match n.toInt? with
  | some (.ofNat i) => if i < length then some i else none
  | _ => none

/-- The keys and the items of a datum that has some: places of a list, names of an object. -/
def entries? : Datum → Option (List (Datum × Datum))
  | .tuple items => some (items.zipIdx.map fun (d, i) => (.number (.ofInt i), d))
  | .list _ items => some (items.zipIdx.map fun (d, i) => (.number (.ofInt i), d))
  | .object members => some (members.map fun (name, d) => (.text name, d))
  | .map _ members => some (members.map fun (name, d) => (.text name, d))
  | _ => none

end Datum

end Population.Settings
