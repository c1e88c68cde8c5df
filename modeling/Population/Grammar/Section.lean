import Population.Fault

namespace Population

inductive Section
  | model
  | domain
  | types
  | subsystem
  | classes
  | relationships
  | lifecycles
  | cloops
  | lineages
  | bridges
  deriving DecidableEq, Repr

namespace Section

def all : List Section :=
  [.model, .domain, .types, .subsystem, .classes, .relationships, .lifecycles, .cloops, .lineages,
    .bridges]

def name : Section → Text
  | .model => "model"
  | .domain => "domain"
  | .types => "types"
  | .subsystem => "subsystem"
  | .classes => "classes"
  | .relationships => "relationships"
  | .lifecycles => "lifecycles"
  | .cloops => "cloops"
  | .lineages => "lineages"
  | .bridges => "bridges"

def ofName? (t : Text) : Option Section :=
  all.find? (·.name = t)

/-- What the statements of a section declare. -/
def metaclass : Section → Text
  | .model => "model"
  | .domain => "domain"
  | .types => "type"
  | .subsystem => "subsystem"
  | .classes => "class"
  | .relationships => "relationship"
  | .lifecycles => "lifecycle"
  | .cloops => "loop"
  | .lineages => "lineage"
  | .bridges => "bridge"

def singular : Section → Bool
  | .model | .domain | .subsystem => true
  | _ => false

def closing : List Section :=
  [.subsystem, .domain, .bridges]

/-- The sections that may follow; before the first one, those that may begin a script. -/
def following : Option Section → List Section
  | none => [.model, .domain]
  | some .model => [.domain]
  | some .domain => [.types, .subsystem]
  | some .types => [.subsystem]
  | some .subsystem => [.classes, .domain, .bridges]
  | some .classes => [.relationships, .lifecycles, .cloops, .lineages] ++ closing
  | some .relationships => [.lifecycles, .cloops, .lineages] ++ closing
  | some .lifecycles => [.cloops, .lineages] ++ closing
  | some .cloops => [.lineages] ++ closing
  | some .lineages => closing
  | some .bridges => [.domain]

/-- The word of a section header: a single word with white space around it. -/
def header? (t : Text) : Option Text :=
  let (word, rest) := (t.dropWhile Text.isSpace).span Text.isWord
  if !word.isEmpty && rest.all Text.isSpace then some word else none

end Section

inductive TransitionError
  | unrecognized (name : Text)
  | cannotBegin (next : Section)
  | cannotFollow (next current : Section)
  deriving DecidableEq, Repr

namespace TransitionError

def message : TransitionError → Text
  | .unrecognized name => "unrecognized section " ++ name.quoted
  | .cannotBegin next => "section " ++ next.name.quoted ++ " cannot begin a script"
  | .cannotFollow next current =>
    "section " ++ next.name.quoted ++ " cannot follow " ++ current.name.quoted

def fault (e : TransitionError) : Fault :=
  .plain .syntactic e.message

end TransitionError

namespace Section

def step (current : Option Section) (word : Text) : Except TransitionError Section :=
  match ofName? word with
  | none => .error (.unrecognized word)
  | some next =>
    if next ∈ following current then .ok next
    else match current with
      | none => .error (.cannotBegin next)
      | some current => .error (.cannotFollow next current)

/-- `step` from a section given by name, where the empty name is the start of a script. -/
def stepByName (current word : Text) : Except TransitionError Section :=
  if (ofName? word).isSome && !current.isEmpty && (ofName? current).isNone then
    .error (.unrecognized current)
  else step (ofName? current) word

/-- Follows section names from a section on, counting them from `index`. -/
def followFrom (index : Nat) (current : Option Section) : List Text → Except (Nat × TransitionError) Unit
  | [] => .ok ()
  | word :: rest => match step current word with
    | .ok next => followFrom (index + 1) (some next) rest
    | .error e => .error (index, e)

/-- Checks a sequence of section names; on failure tells which one is rejected. -/
def checkSequence (words : List Text) : Except (Nat × TransitionError) Unit :=
  followFrom 0 none words

end Section

end Population
