import Population.Text.Basic

namespace Population.Settings

inductive Kind
  | any
  | text
  | number
  | bool
  | tuple (items : List Kind)
  /-- Members in the order of their names. -/
  | object (members : List (Text × Kind))
  | list (element : Kind)
  | map (element : Kind)

namespace Kind

mutual

def size : Kind → Nat
  | .any => 1
  | .text => 1
  | .number => 1
  | .bool => 1
  | .tuple items => 1 + sizeAll items
  | .object members => 1 + sizeMembers members
  | .list element => 1 + element.size
  | .map element => 1 + element.size

def sizeAll : List Kind → Nat
  | [] => 0
  | k :: ks => k.size + sizeAll ks

def sizeMembers : List (Text × Kind) → Nat
  | [] => 0
  | (_, k) :: ks => k.size + sizeMembers ks

end

mutual

def same : Kind → Kind → Bool
  | .any, .any => true
  | .text, .text => true
  | .number, .number => true
  | .bool, .bool => true
  | .tuple ks, .tuple ls => sameAll ks ls
  | .object ks, .object ls => sameMembers ks ls
  | .list k, .list l => k.same l
  | .map k, .map l => k.same l
  | _, _ => false

def sameAll : List Kind → List Kind → Bool
  | [], [] => true
  | k :: ks, l :: ls => k.same l && sameAll ks ls
  | _, _ => false

def sameMembers : List (Text × Kind) → List (Text × Kind) → Bool
  | [], [] => true
  | (m, k) :: ks, (n, l) :: ls => m == n && k.same l && sameMembers ks ls
  | _, _ => false

end

instance : BEq Kind := ⟨same⟩

mutual

def isDefinite : Kind → Bool
  | .any => false
  | .text => true
  | .number => true
  | .bool => true
  | .tuple ks => areDefinite ks
  | .object ks => membersDefinite ks
  | .list k => k.isDefinite
  | .map k => k.isDefinite

def areDefinite : List Kind → Bool
  | [] => true
  | k :: ks => k.isDefinite && areDefinite ks

def membersDefinite : List (Text × Kind) → Bool
  | [] => true
  | (_, k) :: ks => k.isDefinite && membersDefinite ks

end

/-- Whether data of one kind can be made into another, as far as the kinds tell. Any text may be a number
or a truth value, but these two are never made into each other. -/
def converts : (steps : Nat) → (source target : Kind) → Bool
  | 0, _, _ => false
  | steps + 1, source, target =>
    let into (k l : Kind) := k == l || converts steps k l
    source == target || match source, target with
    | _, .any => true
    | .any, _ => true
    | .number, .text => true
    | .bool, .text => true
    | .text, .number => true
    | .text, .bool => true
    | .tuple ks, .tuple ls => ks.length == ls.length && (ks.zip ls).all fun (k, l) => into k l
    | .object ks, .object ls => ls.all fun (name, l) => (ks.lookup name).any fun k => into k l
    | .list k, .list l => into k l
    | .map k, .map l => into k l
    | .tuple ks, .list l => ks.all fun k => into k l
    | .object ks, .map l => ks.all fun (_, k) => into k l
    | .map k, .object ls => ls.all fun (_, l) => into k l
    | _, _ => false

def convertsTo (source target : Kind) : Bool :=
  converts (source.size + target.size) source target

def isTuple : Kind → Bool
  | .tuple _ => true
  | _ => false

def isObject : Kind → Bool
  | .object _ => true
  | _ => false

def isList : Kind → Bool
  | .list _ => true
  | _ => false

def isMap : Kind → Bool
  | .map _ => true
  | _ => false

def allItems (ks : List Kind) : List Kind :=
  ks.flatMap fun
    | .tuple items => items
    | .object members => members.map (·.2)
    | .list element => [element]
    | .map element => [element]
    | _ => []

/-- The first kind that all others can be made into: one that is not known, a text, or any of them. -/
def preferred? (ks : List Kind) : Option Kind :=
  (ks.filter (· == .any) ++ ks.filter (· == .text) ++ ks).find? fun k => ks.all (·.convertsTo k)

/-- The kinds at the same place of all lists, in turn; none if the lists differ in length. -/
def columns? : List (List Kind) → Option (List (List Kind))
  | [] => some []
  | [row] => some (row.map ([·]))
  | row :: rows => match columns? rows with
    | some columns => if row.length == columns.length then some (row.zipWith (· :: ·) columns) else none
    | none => none

def membersOf : Kind → List (Text × Kind)
  | .object members => members
  | _ => []

def itemsOf : Kind → List Kind
  | .tuple items => items
  | _ => []

/-- The kind that all kinds can be made into. Tuples and objects keep their shape if they have it in common
and are lists and maps else. -/
def unifyFrom : (steps : Nat) → List Kind → Option Kind
  | 0, _ => none
  | steps + 1, ks =>
    let unknown := ks.any (· == .any)
    let known := ks.filter fun k => !(k == .any)
    let common := unifyFrom steps (allItems ks)
    let listed := common.map .list
    let mapped := common.map .map
    if known.isEmpty then preferred? ks
    else if known.all isMap then if unknown then some .any else mapped
    else if known.all isList then if unknown then some .any else listed
    else if known.all isObject then
      if unknown then some .any
      else
        let names := (ks.map fun k => k.membersOf.map (·.1))
        let columns := columns? (ks.map fun k => k.membersOf.map (·.2))
        if names.all (· == names.headD []) then
          match columns.bind fun columns => columns.mapM (unifyFrom steps) with
          | some kinds => some (.object ((names.headD []).zip kinds))
          | none => mapped
        else mapped
    else if known.all isTuple then
      if unknown then some .any
      else match (columns? (ks.map itemsOf)).bind fun columns => columns.mapM (unifyFrom steps) with
        | some kinds => some (.tuple kinds)
        | none => listed
    else if known.all fun k => k.isMap || k.isObject then mapped.or (preferred? ks)
    else if known.all fun k => k.isList || k.isTuple then listed.or (preferred? ks)
    else if known.any isObject && known.any isTuple then none
    else preferred? ks

def unify? (ks : List Kind) : Option Kind :=
  unifyFrom (sizeAll ks + 1) ks

end Kind

end Population.Settings
