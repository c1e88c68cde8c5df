import Population.Text.Quoted

namespace Population

inductive Flag
  | config
  | schema
  | store
  | dsn
  | natsUrl
  | logLevel
  | logFormat
  | metricsFile
  | help
  | watch
  | format
  | noDescriptions
  deriving DecidableEq, Repr

namespace Flag

def name : Flag → Text
  | .config => "config"
  | .schema => "schema"
  | .store => "backend"
  | .dsn => "dsn"
  | .natsUrl => "nats-url"
  | .logLevel => "log-level"
  | .logFormat => "log-format"
  | .metricsFile => "metrics-file"
  | .help => "help"
  | .watch => "watch"
  | .format => "format"
  | .noDescriptions => "no-descriptions"

def letter? : Flag → Option UInt8
  | .config => some 0x63
  | .help => some 0x68
  | .watch => some 0x77
  | .format => some 0x66
  | _ => none

/-- A switch is on when it stands without a value. -/
def isSwitch : Flag → Bool
  | .help | .watch | .noDescriptions => true
  | _ => false

def common : List Flag :=
  [.config, .schema, .store, .dsn, .natsUrl, .logLevel, .logFormat, .metricsFile, .help]

def display (f : Flag) : Text :=
  match f.letter? with
  | some c => [0x2d, c] ++ ", --" ++ f.name
  | none => "--" ++ f.name

end Flag

inductive FlagError
  | malformed (word : Text)
  | unknown (name : Text)
  | unknownLetter (letter : UInt8) (group : Text)
  | needsValue (word : Text)
  | needsValueLetter (letter : UInt8)
  | notBoolean (flag : Flag) (value : Text)
  deriving DecidableEq, Repr

def FlagError.quoteLetter (b : UInt8) : Text :=
  let inner : Text :=
    if b == 0x27 then "\\'" else if b == 0x22 then "\"" else Text.escapeChar (Char.ofNat b.toNat)
  "'" ++ inner ++ "'"

def FlagError.message : FlagError → Text
  | .malformed word => "bad flag syntax: " ++ word
  | .unknown name => "unknown flag: --" ++ name
  | .unknownLetter letter group => "unknown shorthand flag: " ++ quoteLetter letter ++ " in -" ++ group
  | .needsValue word => "flag needs an argument: " ++ word
  | .needsValueLetter letter => "flag needs an argument: " ++ quoteLetter letter ++ " in -" ++ [letter]
  | .notBoolean flag value =>
    "invalid argument " ++ value.quoted ++ " for " ++ flag.display.quoted ++
      " flag: strconv.ParseBool: parsing " ++ value.quoted ++ ": invalid syntax"

structure Arguments where
  /-- The last value given comes first. -/
  values : List (Flag × Text)
  words : List Text

namespace Arguments

def value? (a : Arguments) (f : Flag) : Option Text :=
  a.values.lookup f

def value (a : Arguments) (f : Flag) : Text :=
  (a.value? f).getD []

def trueTexts : List Text :=
  ["1", "t", "T", "TRUE", "true", "True"]

def falseTexts : List Text :=
  ["0", "f", "F", "FALSE", "false", "False"]

def isOn (a : Arguments) (f : Flag) : Bool :=
  (a.value? f).any (trueTexts.contains ·)

/-- A flag that waits for its value, and the error if none comes. -/
structure Pending where
  flag : Flag
  error : FlagError

structure Reading where
  values : List (Flag × Text)
  /-- Last word first. -/
  words : List Text
  pending : Option Pending
  ended : Bool

namespace Reading

def start : Reading :=
  ⟨[], [], none, false⟩

def assign (r : Reading) (f : Flag) (value : Text) : Except FlagError Reading :=
  if f.isSwitch && !(trueTexts ++ falseTexts).contains value then .error (.notBoolean f value)
  else .ok { r with values := (f, value) :: r.values, pending := none }

def word (r : Reading) (t : Text) : Reading :=
  { r with words := t :: r.words }

/-- Reads a flag by its name, with its value after an equals sign or in the next word. -/
def long (flags : List Flag) (r : Reading) (t : Text) : Except FlagError Reading :=
  let body := t.drop 2
  if body.head? = some 0x2d || body.head? = some 0x3d then .error (.malformed t)
  else
    let name := body.takeWhile (· != 0x3d)
    match flags.find? (·.name = name) with
    | none => .error (.unknown name)
    | some f =>
      if name.length < body.length then r.assign f (body.drop (name.length + 1))
      else if f.isSwitch then r.assign f "true"
      else .ok { r with pending := some ⟨f, .needsValue t⟩ }

/-- Reads flags by their letters. What follows the letter of a flag that is no switch is its value. -/
def letters (flags : List Flag) (r : Reading) : Text → Except FlagError Reading
  | [] => .ok r
  | c :: rest =>
    if Text.startsWith (c :: rest) "test." then .ok r
    else match flags.find? (·.letter? = some c) with
      | none => .error (.unknownLetter c (c :: rest))
      | some f =>
        if rest.head? = some 0x3d && 1 < rest.length then r.assign f (rest.drop 1)
        else if f.isSwitch then do
          let r ← r.assign f "true"
          letters flags r rest
        else if rest.isEmpty then .ok { r with pending := some ⟨f, .needsValueLetter c⟩ }
        else r.assign f rest

def step (flags : List Flag) (r : Reading) (t : Text) : Except FlagError Reading :=
  match r.pending with
  | some p => r.assign p.flag t
  | none =>
    if r.ended || t.head? ≠ some 0x2d || t = "-" then .ok (r.word t)
    else if t = "--" then .ok { r with ended := true }
    else if t.startsWith "--" then r.long flags t
    else r.letters flags (t.drop 1)

def finish (r : Reading) : Except FlagError Arguments :=
  match r.pending with
  | some p => .error p.error
  | none => .ok ⟨r.values, r.words.reverse⟩

end Reading

def parse (flags : List Flag) (words : List Text) : Except FlagError Arguments := do
  let r ← words.foldlM (Reading.step flags) .start
  r.finish

end Arguments

end Population
