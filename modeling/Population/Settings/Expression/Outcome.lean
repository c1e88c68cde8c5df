import Population.Settings.Expression.Basic

/-!
Where an expression fails its datum is unknown, but its kind often is not, and a conditional needs the kinds of both
its branches even though only one of them has to go well.
-/
namespace Population.Settings

structure Outcome where
  datum : Datum
  sound : Bool

namespace Outcome

def ok (d : Datum) : Outcome :=
  ⟨d, true⟩

def failed (k : Kind) : Outcome :=
  ⟨.unknown k, false⟩

def ofOption (k : Kind) : Option Datum → Outcome
  | some d => ok d
  | none => failed k

def andThen (o : Outcome) (f : Datum → Outcome) : Outcome :=
  let next := f o.datum
  ⟨next.datum, o.sound && next.sound⟩

/-- The datum as one of another kind; unknown if it cannot be that. -/
def convert (o : Outcome) (k : Kind) : Outcome :=
  o.andThen fun d => ofOption k (d.convert? k)

end Outcome

namespace Datum

def member (name : Text) : Datum → Outcome
  | .object members => .ofOption .any (members.lookup name)
  | .map _ members => .ofOption .any (members.lookup name)
  | .unknown .any => .ok (.unknown .any)
  | .unknown (.object kinds) => .ofOption .any ((kinds.lookup name).map .unknown)
  | .unknown (.map element) => .ok (.unknown element)
  | _ => .failed .any

def itemAt (key : Datum) (items : List Datum) : Outcome :=
  match key.convert? .number with
  | some (.number n) => .ofOption .any ((position? n items.length).bind (items[·]?))
  | some (.unknown _) => .ok (.unknown .any)
  | _ => .failed .any

def memberAt (key d : Datum) : Outcome :=
  match key.convert? .text with
  | some (.text name) => d.member name
  | some (.unknown _) => .ok (.unknown .any)
  | _ => .failed .any

/-- The item or member of a key. A null is no key and has none. -/
def element (key d : Datum) : Outcome :=
  match key, d with
  | _, .null _ => .failed .any
  | .null _, _ => .failed .any
  | .unknown .any, _ => .ok (.unknown .any)
  | _, .unknown .any => .ok (.unknown .any)
  | key, .tuple items => itemAt key items
  | key, .list _ items => itemAt key items
  | key, .unknown (.tuple kinds) => itemAt key (kinds.map .unknown)
  | key, .unknown (.list element) => .ofOption .any ((key.convert? .number).map fun _ => .unknown element)
  | key, d => memberAt key d

end Datum

namespace Outcome

def element (key o : Outcome) : Outcome :=
  key.andThen fun k => o.andThen (Datum.element k)

/-- The outcome of an operation on a datum of a kind, which must be known and not null. -/
def apply (operand result : Kind) (f : Datum → Option Datum) (o : Outcome) : Outcome :=
  let o := o.convert operand
  if !o.sound then failed result
  else match o.datum with
    | .null _ => failed result
    | .unknown _ => ok (.unknown result)
    | d => ofOption result (f d)

def negate (o : Outcome) : Outcome :=
  o.apply .number .number fun
    | .number n => some (.number n.neg)
    | _ => none

def not (o : Outcome) : Outcome :=
  o.apply .bool .bool fun
    | .bool b => some (.bool (!b))
    | _ => none

def apply₂ (operand result : Kind) (f : Datum → Datum → Option Datum) (l r : Outcome) : Outcome :=
  let l := l.convert operand
  let r := r.convert operand
  if !(l.sound && r.sound) then failed result
  else if l.datum.isNull || r.datum.isNull then failed result
  else if l.datum.isUnknown || r.datum.isUnknown then ok (.unknown result)
  else ofOption result (f l.datum r.datum)

def arithmetic (f : Number → Number → Option Number) : Outcome → Outcome → Outcome :=
  apply₂ .number .number fun
    | .number m, .number n => (f m n).map .number
    | _, _ => none

def comparison (f : Ordering → Bool) : Outcome → Outcome → Outcome :=
  apply₂ .number .bool fun
    | .number m, .number n => some (.bool (f (m.compare n)))
    | _, _ => none

def equality (f : Bool → Bool) (l r : Outcome) : Outcome :=
  if !(l.sound && r.sound) then failed .bool
  else match l.datum.equals r.datum with
    | some b => ok (.bool (f b))
    | none => ok (.unknown .bool)

/-- A known truth value; a null is taken for false. -/
def truth? (o : Outcome) : Option Bool :=
  match o.datum with
  | .bool b => some b
  | .null _ => some false
  | _ => none

/-- A logical operation. An operand that decides the result by itself does so whatever the other is, and
beside one that leaves it open, an unknown operand does. -/
def logical (deciding : Bool) (l r : Outcome) : Outcome :=
  let l := l.convert .bool
  let r := r.convert .bool
  match l.truth?, r.truth? with
  | none, none => if l.sound && r.sound then ok (.unknown .bool) else failed .bool
  | some a, some b =>
    if a == deciding then ⟨.bool deciding, l.sound⟩
    else if b == deciding then ⟨.bool deciding, r.sound⟩
    else if !(l.sound && r.sound) || l.datum.isNull || r.datum.isNull then failed .bool
    else ok (.bool (!deciding))
  | some a, none => if a == deciding then ⟨.bool deciding, l.sound⟩ else ⟨.unknown .bool, r.sound⟩
  | none, some b => if b == deciding then ⟨.bool deciding, r.sound⟩ else ⟨.unknown .bool, l.sound⟩

def binary : Operator → Outcome → Outcome → Outcome
  | .or => logical true
  | .and => logical false
  | .equal => equality id
  | .notEqual => equality (!·)
  | .less => comparison (· == .lt)
  | .lessEqual => comparison (· != .gt)
  | .greater => comparison (· == .gt)
  | .greaterEqual => comparison (· != .lt)
  | .add => arithmetic Number.add?
  | .subtract => arithmetic Number.sub?
  | .multiply => arithmetic Number.mul?
  | .divide => arithmetic Number.div?
  | .modulo => arithmetic Number.mod?

/-- A null that is written as such has the kind of what it stands beside. -/
def isPlainNull : Datum → Bool
  | .null .any => true
  | _ => false

def branchKind? (yes no : Datum) : Option Kind :=
  if isPlainNull yes then some no.kind
  else if isPlainNull no then some yes.kind
  else if yes.kind == .any || no.kind == .any then some .any
  else Kind.unify? [yes.kind, no.kind]

def conditional (condition yes no : Outcome) : Outcome :=
  match branchKind? yes.datum no.datum with
  | none => failed .any
  | some k => match condition.datum with
    | .null _ => failed k
    | .unknown _ => ⟨.unknown k, condition.sound⟩
    | d => match d.convert? .bool with
      | some (.bool b) =>
        let selected := (if b then yes else no).convert k
        ⟨selected.datum, condition.sound && selected.sound⟩
      | _ => failed k

def tuple (items : List Outcome) : Outcome :=
  ⟨.tuple (items.map datum), items.all sound⟩

def name? (o : Outcome) : Option Text :=
  match o.datum with
  | .null _ => none
  | d => match d.convert? .text with
    | some (.text t) => some t
    | _ => none

/-- Whether an outcome that is no name is a failure, and not only unknown. -/
def failsAsName (o : Outcome) : Bool :=
  o.datum.isNull || !o.datum.isUnknown || !o.sound

/-- An object of names and data. Without all its names nothing is known about it; of two members of one
name the last one counts. -/
def object (members : List (Outcome × Outcome)) : Outcome :=
  let named := members.map fun (key, d) => (if key.sound then key.name? else none, d)
  let sound := members.all fun (key, d) => key.sound && d.sound && !(key.name?.isNone && key.failsAsName)
  if named.all (·.1.isSome) then
    ⟨.object (named.foldl (fun all (name, d) => Datum.putMember (name.getD []) d.datum all) []), sound⟩
  else ⟨.unknown .any, sound⟩

def joinParts : List Outcome → (known : Bool) → (sound : Bool) → (seen : Text) → Outcome
  | [], known, sound, seen => if known && sound then ok (.text seen) else ⟨.unknown .text, sound⟩
  | part :: parts, known, sound, seen =>
    let sound := sound && part.sound
    match part.datum with
    | .null _ => joinParts parts known false seen
    | .unknown _ => joinParts parts false sound seen
    | d => match d.text? with
      | some t => joinParts parts known sound (seen ++ t)
      | none => joinParts parts known false seen

def template (parts : List Outcome) : Outcome :=
  joinParts parts true true []

def joined (o : Outcome) : Outcome :=
  match o.datum with
  | .tuple items => let t := template (items.map ok); ⟨t.datum, o.sound && t.sound⟩
  | _ => ⟨.unknown .text, o.sound⟩

/-- The entries of a collection, or what becomes of all that is said of them. A condition is tried on
unknown entries first. -/
def entries (collection trial : Outcome) : Except Outcome (List (Datum × Datum)) :=
  match collection.datum with
  | .null _ => .error (failed .any)
  | .unknown k => match k with
    | .text => .error (failed .any)
    | .number => .error (failed .any)
    | .bool => .error (failed .any)
    | _ => .error ⟨.unknown .any, collection.sound⟩
  | d => match d.entries? with
    | none => .error (failed .any)
    | some entries =>
      if trial.sound && !trial.datum.isNull && (trial.datum.convert? .bool).isSome then .ok entries
      else .error (failed .any)

def choice (o : Outcome) : Option Bool × Bool :=
  match o.datum with
  | .null _ => (none, false)
  | d => match d.convert? .bool with
    | some (.bool b) => (some b, o.sound)
    | some _ => (none, o.sound)
    | none => (none, false)

def eachItem (sound : Bool) (entries : List (Outcome × Outcome)) : Outcome :=
  let choices := entries.map fun (condition, content) => (condition.choice, content)
  let taken := (choices.filter fun ((choice, _), _) => choice == some true).map (·.2)
  let sound := sound && (choices.all fun ((_, sound), _) => sound) && taken.all (·.sound)
  if choices.all fun ((choice, _), _) => choice.isSome then ⟨.tuple (taken.map datum), sound⟩
  else ⟨.unknown .any, sound⟩

def putGrouped (name : Text) (d : Datum) (members : List (Text × Datum)) : List (Text × Datum) :=
  match members.lookup name with
  | some (.tuple items) => Datum.putMember name (.tuple (items ++ [d])) members
  | _ => Datum.putMember name (.tuple [d]) members

def putEntry (grouped : Bool) : List (Text × Datum) × Bool × Bool → Outcome × Outcome × Outcome →
    List (Text × Datum) × Bool × Bool
  | (members, known, sound), (condition, name, content) =>
    match condition.choice with
    | (none, went) => (members, false, sound && went)
    | (some false, went) => (members, known, sound && went)
    | (some true, went) =>
      let sound := sound && went && name.sound
      match name.name? with
      | none => (members, false, sound && !name.failsAsName)
      | some t =>
        let sound := sound && content.sound
        if grouped then (putGrouped t content.datum members, known, sound)
        else if (members.lookup t).isSome then (members, known, false)
        else (Datum.putMember t content.datum members, known, sound)

def eachMember (sound grouped : Bool) (entries : List (Outcome × Outcome × Outcome)) : Outcome :=
  let (members, known, sound) := entries.foldl (putEntry grouped) ([], true, sound)
  ⟨if known then .object members else .unknown .any, sound⟩

/-- The items that a splat is about: those of a list, or a datum that is none as the only one. -/
def splatItems : Datum → Except Outcome (List Datum)
  | .null (.tuple _) => .error (failed .any)
  | .null (.list _) => .error (failed .any)
  | .null _ => .error (ok (.tuple []))
  | .unknown _ => .error (ok (.unknown .any))
  | .tuple items => .ok items
  | .list _ items => .ok items
  | d => .ok [d]

/-- The outcomes for the items of a list are a list again, if they are all of one kind. -/
def splat (source : Datum) (empty : Outcome) (each : List Outcome) : Outcome :=
  let sound := each.all sound
  match source with
  | .list _ _ =>
    let kind := ((each.head?.getD empty).datum).kind
    if !sound then failed (.list empty.datum.kind)
    else if each.all (·.datum.kind == kind) then ok (.list kind (each.map datum))
    else failed .any
  | _ => if sound then ok (.tuple (each.map datum)) else failed (.tuple (each.map (·.datum.kind)))

end Outcome

end Population.Settings
