import Population.Fault
import Population.Value.Basic

namespace Population

inductive Level
  | domain
  | subsystem
  | innerClass
  deriving DecidableEq, Repr

namespace Level

def all : List Level :=
  [.domain, .subsystem, .innerClass]

def name : Level → Text
  | .domain => "domain"
  | .subsystem => "subsystem"
  | .innerClass => "class"

def names : List Text :=
  all.map name

def ofName? (t : Text) : Option Level :=
  all.find? (·.name = t)

end Level

structure Scope where
  domain : Option Value
  subsystem : Option Value
  innerClass : Option Value

structure UnknownScope where
  name : Text
  deriving DecidableEq, Repr

namespace UnknownScope

def message (e : UnknownScope) : Text :=
  "unknown scope " ++ e.name.quoted

def fault (e : UnknownScope) : Fault :=
  .plain .semantic e.message

end UnknownScope

structure Field where
  name : Text
  value : Value

namespace Scope

def empty : Scope :=
  ⟨none, none, none⟩

/-- Sets an entry and forgets those inside it. -/
def put (s : Scope) (level : Level) (v : Value) : Scope :=
  match level with
  | .domain => ⟨some v, none, none⟩
  | .subsystem => ⟨s.domain, some v, none⟩
  | .innerClass => ⟨s.domain, s.subsystem, some v⟩

def set (s : Scope) (name : Text) (v : Value) : Except UnknownScope Scope :=
  match Level.ofName? name with
  | some level => .ok (s.put level v)
  | none => .error ⟨name⟩

def entry (s : Scope) : Level → Option Value
  | .domain => s.domain
  | .subsystem => s.subsystem
  | .innerClass => s.innerClass

def get? (s : Scope) (name : Text) : Option Value :=
  (Level.ofName? name).bind s.entry

def text (s : Scope) (level : Level) : Text :=
  match s.entry level with
  | some v => v.textOrEmpty
  | none => []

/-- The entries that are set, outermost first. -/
def fields (s : Scope) : List Field :=
  Level.all.filterMap fun level => (s.entry level).map (⟨level.name, ·⟩)

end Scope

end Population
