import Population.Grammar.Capture
import Population.Grammar.Pattern
import Population.Grammar.Section
import Population.Schema.Basic

namespace Population

inductive StatementKind
  | none
  | domain
  | typeDef
  | subsystem
  | classDef
  | ownAttribute
  | reference
  | activePerspective
  | passivePerspective
  | superclass
  | subclasses
  | bridge
  deriving DecidableEq, Repr

namespace StatementKind

def all : List StatementKind :=
  [.none, .domain, .typeDef, .subsystem, .classDef, .ownAttribute, .reference, .activePerspective,
    .passivePerspective, .superclass, .subclasses, .bridge]

def name : StatementKind → Text
  | .none => "none"
  | .domain => "domain"
  | .typeDef => "type"
  | .subsystem => "subsystem"
  | .classDef => "class"
  | .ownAttribute => "attribute"
  | .reference => "reference"
  | .activePerspective => "active_perspective"
  | .passivePerspective => "passive_perspective"
  | .superclass => "superclass"
  | .subclasses => "subclasses"
  | .bridge => "bridge"

end StatementKind

structure Form where
  name : Text
  kind : StatementKind
  home : Section
  /-- Tried from first to last. -/
  patterns : List Pattern
  /-- The call that a statement begins. -/
  call : Option Text
  /-- The call whose open command a statement continues. -/
  continues : Option Text
  transform : Transform
  fieldTypes : List (Text × Text)
  /-- What separates the items of a capture that is a list. -/
  separators : List (Text × Text)

namespace Form

/-- The call that types the captures. -/
def target (f : Form) : Option Text :=
  f.call.or f.continues

def defaultSeparator : Text := "/"

def split (f : Form) (field text : Text) : List Text :=
  Capture.split ((f.separators.lookup field).getD defaultSeparator) text

def captures? (f : Form) (text : Text) : Option (List Capture) :=
  f.patterns.findSome? fun p => (p.match? text).map fun spans =>
    spans.map fun s => ⟨s.name, (s.of text).trim⟩

end Form

namespace Statement

def nameByte : ByteClass :=
  .either .word .space

def targetByte : ByteClass :=
  .either nameByte (.oneOf ":.,")

def spaces : Pattern :=
  .run .space false

def nameText : Pattern :=
  .seq (.byte .word) (.run nameByte false)

def reluctantName : Pattern :=
  .seq (.byte .word) (.run nameByte true)

def targetsText : Pattern :=
  .seq (.byte .word) (.run targetByte true)

def digits : Pattern :=
  .seq (.byte .digit) (.run .digit false)

def around (sign : Pattern) : Pattern :=
  .all [spaces, sign, spaces]

def slash : Pattern :=
  around (.literal "/")

def colon : Pattern :=
  around (.literal ":")

def arrow : Pattern :=
  around (.literal "->")

def commaOrSlash : Pattern :=
  around (.byte (.oneOf ",/"))

def named (name : Text) : Pattern :=
  .group name nameText

def idTags : Pattern :=
  .group "id" (.seq (.literal "I") (.run .digit false))

def relationshipNumber : Pattern :=
  .seq (.literal "R") (.group "rnum" digits)

def multiplicity (name : Text) : Pattern :=
  .group name (.all [.literal ">", .optional (.literal ">"), .optional (.literal "0")])

def constrained : Pattern :=
  .optional (.group "constrained" (.literal "c"))

def attributeName : Pattern :=
  .all [.optional (.group "derived" (.literal "\\")), spaces, named "name"]

def referenceTo : Pattern :=
  .all [attributeName, arrow, .group "to_attrs" targetsText]

def relationship : Pattern :=
  .seq relationshipNumber colon

def perspective (subject phrase mult object : Text) : Pattern :=
  .all [named subject, slash, named phrase, multiplicity mult, spaces, named object]

def calling (home : Section) (kind : StatementKind) (name : Text) (patterns : List Pattern) : Form where
  name
  kind
  home
  patterns
  call := some name
  continues := none
  transform := .none
  fieldTypes := []
  separators := []

def domainForm : Form :=
  calling .domain .domain "new_domain" [.all [named "name", slash, named "alias",
    .optional (.seq slash (.group "type" (.alt (.literal "modeled") (.literal "realized"))))]]

def typeForm : Form :=
  calling .types .typeDef "new_type" [.all [named "name", colon, named "base"]]

def subsystemForm : Form :=
  calling .subsystem .subsystem "new_subsystem" [.all [named "name", slash, .group "alias" reluctantName,
    spaces, .optional (.seq (.literal "/") spaces), .group "floor" digits, around (.literal "-"),
    .group "ceiling" digits]]

/-- An attribute that refers to others; it begins no command. -/
def referenceForm : Form where
  name := "new_ref_attr"
  kind := .reference
  home := .classes
  patterns := [.all [referenceTo, commaOrSlash, idTags, commaOrSlash, relationshipNumber, constrained],
    .all [referenceTo, commaOrSlash, relationshipNumber, constrained, commaOrSlash, idTags],
    .all [referenceTo, commaOrSlash, relationshipNumber, constrained]]
  call := none
  continues := none
  transform := .flags
  fieldTypes := [("name", "name"), ("derived", "flag"), ("to_attrs", "ref_targets"), ("id", "id_tags"),
    ("rnum", "rnum"), ("constrained", "flag")]
  separators := []

def attributeForm : Form :=
  { calling .classes .ownAttribute "new_ind_attr" [.all [attributeName, colon, named "type", slash, idTags],
      .all [attributeName, colon, named "type"],
      .all [attributeName, slash, idTags]] with
    transform := .flags
    fieldTypes := [("id", "id_tags")] }

def classForm : Form :=
  calling .classes .classDef "new_class" [.all [named "name", slash, named "alias",
    .optional (.seq slash (.group "cnum" digits))]]

def activeForm : Form where
  name := "active_perspective"
  kind := .activePerspective
  home := .relationships
  patterns := [.seq relationship (perspective "a_class" "a_phrase" "a_mult" "p_class")]
  call := some "new_bin_rel"
  continues := none
  transform := .multiplicity
  fieldTypes := []
  separators := []

def passiveForm : Form where
  name := "passive_perspective"
  kind := .passivePerspective
  home := .relationships
  patterns := [perspective "p_view" "p_phrase" "p_mult" "a_view"]
  call := none
  continues := some "new_bin_rel"
  transform := .multiplicity
  fieldTypes := [("p_view", "name"), ("a_view", "name")]
  separators := []

def superclassForm : Form where
  name := "superclass"
  kind := .superclass
  home := .relationships
  patterns := [.all [relationship, named "superclass", spaces, .literal "<"]]
  call := some "new_gen"
  continues := none
  transform := .none
  fieldTypes := []
  separators := []

def subclassesForm : Form where
  name := "subclasses"
  kind := .subclasses
  home := .relationships
  patterns := [.group "subclasses" (.seq nameText (.many (.all [.literal "|", spaces, nameText])))]
  call := none
  continues := some "new_gen"
  transform := .none
  fieldTypes := []
  separators := [("subclasses", "|")]

def bridgeForm : Form :=
  calling .bridges .bridge "new_bridge" [.all [named "client", arrow, named "service"]]

/-- All forms; those of a section are tried in this order. -/
def forms : List Form :=
  [domainForm, typeForm, subsystemForm, referenceForm, attributeForm, classForm, activeForm,
    passiveForm, superclassForm, subclassesForm, bridgeForm]

def formsOf (home : Text) : List Form :=
  forms.filter (·.home.name = home)

end Statement

structure Matched where
  form : Form
  captures : List Capture

inductive MatchError
  | takesNone (home : Text)
  | notRecognized (home : Text)
  deriving DecidableEq, Repr

namespace MatchError

def message : MatchError → Text
  | .takesNone home => "section " ++ home.quoted ++ " takes no statements"
  | .notRecognized home => "statement not recognized in section " ++ home.quoted

def fault (e : MatchError) : Fault :=
  .plain .syntactic e.message

end MatchError

namespace Statement

/-- The first form of a section that accepts a line. -/
def match? (home text : Text) : Option Matched :=
  (formsOf home).findSome? fun f => (f.captures? text).map (⟨f, ·⟩)

def matchLine (home text : Text) : Except MatchError Matched :=
  match match? home text with
  | some m => .ok m
  | none => .error (if (formsOf home).isEmpty then .takesNone home else .notRecognized home)

/-- What keeps a form from being used with a schema: a call or types that are unknown, and captures
without a type. -/
def formFaults (s : Schema) (f : Form) : List Text :=
  let lead := "expression " ++ f.name ++ ": "
  let call := f.target.bind s.call?
  match f.target, call with
  | some target, none => [lead ++ "unknown call " ++ target.quoted]
  | _, _ =>
    let types := f.fieldTypes.filterMap fun (field, type) =>
      if (s.type? type).isSome then none
      else some (lead ++ "field " ++ field.quoted ++ " has unknown type " ++ type.quoted)
    let untyped := (f.patterns.flatMap Pattern.groups).filter fun field =>
      (f.fieldTypes.lookup field).isNone && !(call.any (·.hasParam field))
    types ++ untyped.map fun field => lead ++ "capture " ++ field.quoted ++ " is untyped"

def faults (s : Schema) : List Text :=
  Section.all.flatMap fun home => (formsOf home.name).flatMap (formFaults s)

def checkFit (s : Schema) : Except Fault Unit :=
  match faults s with
  | [] => .ok ()
  | faults =>
    .error (.plain .schema
      ("grammar does not fit the constructor schema:\n- " ++ Text.join "\n- " faults))

end Statement

end Population
