import Population.Text.Basic

/-!
Patterns of paths. A star stands for any part of a name, two stars alone for any number of directories, a
question mark for one character, brackets for one of a class of characters and braces for one of several
texts. A backslash takes the meaning from the character behind it.
-/
namespace Population.Glob

def isMeta (b : UInt8) : Bool :=
  b == 0x2a || b == 0x3f || b == 0x5b || b == 0x7b

def looksLike (t : Text) : Bool :=
  t.any isMeta

/-- What is before the first special character that has its meaning. -/
def fixedPart : Text → Text
  | [] => []
  | 0x5c :: b :: rest => 0x5c :: b :: fixedPart rest
  | b :: rest => if isMeta b then [] else b :: fixedPart rest

def hasMeta (t : Text) : Bool :=
  (fixedPart t).length < t.length

/-- The characters that are written behind a backslash where a pattern means them. -/
def isEscapable (b : UInt8) : Bool :=
  isMeta b || b == 0x5d || b == 0x7d

/-- The path that a pattern without meaning names. -/
def unescape : Text → Text
  | [] => []
  | [b] => [b]
  | a :: b :: rest =>
    if a == 0x5c && isEscapable b then b :: unescape rest else a :: unescape (b :: rest)

def escape (path : Text) : Text :=
  path.flatMap fun b => if isEscapable b then [0x5c, b] else [b]

structure BadPattern where
  deriving DecidableEq, Repr

def BadPattern.message (_ : BadPattern) : Text :=
  "syntax error in pattern"

/-- What follows a bracket class behind its first character; none if it does not end. -/
def afterClass : Text → Option Text
  | [] => none
  | 0x5c :: _ :: rest => afterClass rest
  | 0x5d :: rest => some rest
  | _ :: rest => afterClass rest

/-- What follows a bracket class; none if it is empty or does not end. -/
def skipClass (t : Text) : Option Text :=
  let body := match t with
    | 0x5e :: rest => rest
    | 0x21 :: rest => rest
    | _ => t
  match body with
  | [] => none
  | 0x5d :: _ => none
  | _ => afterClass body

/-- Classes end and are not empty, braces are balanced and no backslash stands at the end. -/
def isValidFrom : (steps opened : Nat) → Text → Bool
  | 0, opened, _ => opened = 0
  | _ + 1, opened, [] => opened = 0
  | steps + 1, opened, b :: rest =>
    if b == 0x5c then match rest with
      | [] => false
      | _ :: rest => isValidFrom steps opened rest
    else if b == 0x5b then match skipClass rest with
      | none => false
      | some rest => isValidFrom steps opened rest
    else if b == 0x7b then isValidFrom steps (opened + 1) rest
    else if b == 0x7d then opened ≠ 0 && isValidFrom steps (opened - 1) rest
    else isValidFrom steps opened rest

def isValid (pattern : Text) : Bool :=
  isValidFrom (pattern.length + 1) 0 pattern

end Population.Glob
