import Population.Yaml.Character

namespace Population.Yaml

inductive Style
  | bare
  | single
  | double
  | literal
  deriving DecidableEq, Repr

def neighbours (cs : List Char) : List (Char × Char) :=
  cs.zip cs.tail

def leadIndicators : List Char :=
  ['#', ',', '[', ']', '\x7b', '\x7d', '&', '*', '!', '|', '>', '\'', '"', '%', '@', '\x60']

/-- A bare scalar that starts with an indicator, or with one that needs a blank behind it. -/
def leadsWithIndicator : List Char → Bool
  | [] => false
  | c :: rest =>
    leadIndicators.contains c ||
      ((c == '?' || c == ':' || c == '-') && rest.head?.all isBlank)

/-- A colon before a blank or the end, or a hash behind one. -/
def hasIndicator (cs : List Char) : Bool :=
  cs.getLast? = some ':' ||
    (neighbours cs).any fun (a, b) =>
      (a == ':' && isBlank b) || ((isGap a || a == '\x00') && b == '#')

def marksDocument (cs : List Char) : Bool :=
  ['-', '-', '-'].isPrefixOf cs || ['.', '.', '.'].isPrefixOf cs

def spaceBeforeBreak (cs : List Char) : Bool :=
  (neighbours cs).any fun (a, b) => a == ' ' && isBreak b

def spaceAfterBreak (cs : List Char) : Bool :=
  (neighbours cs).any fun (a, b) => isBreak a && b == ' '

def hasSpecial (cs : List Char) : Bool :=
  cs.any fun c => c != '\t' && !isShown c

def singleAllowed (cs : List Char) : Bool :=
  !(spaceBeforeBreak cs || spaceAfterBreak cs || hasSpecial cs || cs.contains '\t')

def bareAllowed (cs : List Char) : Bool :=
  let edge := fun c => c == ' ' || isBreak c
  singleAllowed cs && !cs.head?.any edge && !cs.getLast?.any edge && !cs.any isBreak &&
    !marksDocument cs && !leadsWithIndicator cs && !hasIndicator cs

def literalAllowed (cs : List Char) : Bool :=
  !cs.isEmpty && !(cs.getLast? = some ' ' || spaceBeforeBreak cs || hasSpecial cs)

/-- The style that a text gets if another is wanted: the nearest that it allows. A key on one line is
neither empty nor a block. -/
def Style.fit (isKey : Bool) (cs : List Char) (wanted : Style) : Style :=
  let quoted : Style := if singleAllowed cs then .single else .double
  match wanted with
  | .bare => if bareAllowed cs && !(isKey && cs.isEmpty) then .bare else quoted
  | .single => quoted
  | .double => .double
  | .literal => if literalAllowed cs && !isKey then .literal else .double

end Population.Yaml
