import Population.Json.Basic
import Population.Text.Blank
import Population.Text.Quoted

namespace Population

inductive LogLevel
  | debug
  | info
  | warn
  | error
  deriving DecidableEq, Repr

namespace LogLevel

def rank : LogLevel → Nat
  | .debug => 0
  | .info => 1
  | .warn => 2
  | .error => 3

def label : LogLevel → Text
  | .debug => "DEBUG"
  | .info => "INFO"
  | .warn => "WARN"
  | .error => "ERROR"

def all : List LogLevel :=
  [.debug, .info, .warn, .error]

def name : LogLevel → Text
  | .debug => "debug"
  | .info => "info"
  | .warn => "warn"
  | .error => "error"

def ofName? (t : Text) : Option LogLevel :=
  all.find? (·.name = t)

end LogLevel

inductive LogValue
  | text (t : Text)
  | int (i : Int)
  | texts (ts : List Text)
  deriving DecidableEq, Repr

structure LogRecord where
  level : LogLevel
  message : Text
  attrs : List (Text × LogValue)
  deriving DecidableEq, Repr

namespace LogRecord

def under (context : List (Text × LogValue)) (r : LogRecord) : LogRecord :=
  { r with attrs := context ++ r.attrs }

def needsQuotes : Symbol → Bool
  | .stray _ => true
  | .char c =>
    if c.toNat < 0x80 then c.toNat ≤ 0x20 || c == '"' || c == '='
    else c == Text.replacement || Text.blankChars.contains c || !Text.isPrintable c

/-- A text as the value of an attribute, in quotes if it is empty or could be misread. -/
def valueText (t : Text) : Text :=
  if t.isEmpty || t.symbols.any needsQuotes then t.quoted else t

def attrText : Text × LogValue → Text
  | (name, .text t) => name ++ "=" ++ valueText t
  | (name, .int i) => name ++ "=" ++ Text.ofInt i
  | (name, .texts ts) => name ++ "=" ++ valueText ("[" ++ Text.join " " ts ++ "]")

/-- All attributes of a record: its time if one is given, its level, its message and its own. -/
def allAttrs (time : Option Text) (r : LogRecord) : List (Text × LogValue) :=
  let stamp : List (Text × LogValue) := match time with
    | some time => [("time", .text time)]
    | none => []
  let head : List (Text × LogValue) := [("level", .text r.level.label), ("msg", .text r.message)]
  stamp ++ head ++ r.attrs

def toLine (time : Option Text) (r : LogRecord) : Text :=
  Text.join " " ((r.allAttrs time).map attrText) ++ "\n"

def valueJson : LogValue → Text
  | .text t => Json.quoted Json.logLine t
  | .int i => Text.ofInt i
  | .texts ts => Json.toText Json.logList (.array (ts.map .text))

def toJsonLine (time : Option Text) (r : LogRecord) : Text :=
  let members := (r.allAttrs time).map fun (name, value) => Json.quoted Json.logLine name ++ ":" ++ valueJson value
  "\x7b" ++ Text.join "," members ++ "\x7d\n"

def atLeast (level : LogLevel) (rs : List LogRecord) : List LogRecord :=
  rs.filter fun r => level.rank ≤ r.level.rank

end LogRecord

end Population
