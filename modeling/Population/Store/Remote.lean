import Population.Json.Reader
import Population.Store.Basic

namespace Population

structure Reply where
  ok : Bool
  error : Text
  /-- The position of the command that failed, or a number that is none. -/
  index : Int
  deriving DecidableEq, Repr

namespace Reply

def empty : Reply :=
  ⟨false, [], 0⟩

def lowerAscii (b : UInt8) : UInt8 :=
  if 0x41 ≤ b && b ≤ 0x5a then b + 0x20 else b

/-- A name in small letters. The Kelvin sign is a capital k. -/
def folded : Text → Text
  | [] => []
  | 0xe2 :: 0x84 :: 0xaa :: rest => 0x6b :: folded rest
  | b :: rest => lowerAscii b :: folded rest

def isNamed (name : Text) (t : Text) : Bool :=
  folded t == name

/-- A whole number of 64 bits without a point or an exponent. -/
def int? (digits : Text) : Option Int :=
  Number.exponent? digits

/-- Takes in a member. A null leaves its field alone and a member of another type is refused. -/
def add (r : Reply) : Text × Json → Option Reply
  | (name, value) =>
    if isNamed "ok" name then match value with
      | .bool ok => some { r with ok }
      | .null => some r
      | _ => none
    else if isNamed "error" name then match value with
      | .text error => some { r with error }
      | .null => some r
      | _ => none
    else if isNamed "index" name then match value with
      | .number digits => (int? digits).map fun index => { r with index }
      | .null => some r
      | _ => none
    else some r

def ofJson? : Json → Option Reply
  | .object members => members.foldlM add empty
  | .null => some empty
  | _ => none

def parse? (payload : Text) : Option Reply :=
  (Json.parse? payload).bind ofJson?

end Reply

namespace Json

/-- Doubles are written out from six places behind the point up to 21 digits before it. -/
def plainExponent (e : Int) : Text :=
  let sign : Text := if e < 0 then "-" else "+"
  sign ++ Text.ofNat e.natAbs

def scientific (d : Decimal) : Text :=
  let rest := d.digits.drop 1
  let fraction : Text := if rest.isEmpty then [] else "." ++ rest
  d.digits.take 1 ++ fraction ++ "e" ++ plainExponent d.exponent

def doubleLayout : Double.Layout where
  least := -6
  bound := 21
  infinity negative := if negative then "-Inf" else "+Inf"
  scientific := scientific

def ofDouble (d : Double) : Except StoreError Json :=
  let digits := Double.write doubleLayout d
  if d.isInfinite then .error (.unsupportedNumber digits) else .ok (.number digits)

def ofNative : Native → Except StoreError Json
  | .none => .ok .null
  | .text t => .ok (.text t)
  | .int i => .ok (.number (Text.ofInt i))
  | .float d => ofDouble d
  | .bool b => .ok (.bool b)
  | .texts ts => .ok (.array (ts.map .text))
  | .ints is => .ok (.array (is.map fun i => .number (Text.ofInt i)))
  | .floats ds => (ds.mapM ofDouble).map .array
  | .bools bs => .ok (.array (bs.map .bool))

end Json

structure RemoteOptions where
  subject : Text
  runId : Text
  deriving DecidableEq, Repr

structure RemoteRequest where
  subject : Text
  payload : Text
  deriving DecidableEq, Repr

structure RemoteStore where
  options : RemoteOptions
  answer : RemoteRequest → Except Text Text
  /-- Last request first. -/
  sent : List RemoteRequest

namespace RemoteStore

def defaultSubject : Text := "miuml.populate"

def withDefaults (o : RemoteOptions) : RemoteOptions :=
  if o.subject.isEmpty then { o with subject := defaultSubject } else o

structure Tx where
  /-- Last command first. -/
  gathered : List Command
  done : Bool

/-- The names of parameters; where there are none there is no list of them either. -/
def payloadNames (names : List Text) : Json :=
  if names.isEmpty then .null else .array (names.map .text)

def payloadCommand (c : Command) (arguments : List Argument) : Except StoreError Json := do
  let values ← arguments.mapM fun a => Json.ofNative a.value
  return .object
    [("call", .text c.call.name), ("params", payloadNames (arguments.map (·.name))), ("values", .array values)]

def payload (runId : Text) (commands : List Command) : Except StoreError Text := do
  let arguments ← commands.mapM fun c => c.natives.mapError StoreError.param
  let items ← (commands.zip arguments).mapM fun (c, arguments) => payloadCommand c arguments
  return Json.toText Json.webSafe (.object [("run_id", .text runId), ("commands", .array items)])

def exec (s : RemoteStore) (t : Tx) (c : Command) : Step RemoteStore Tx :=
  if t.done then ⟨s, t, [], some .finished⟩
  else if !c.completed then ⟨s, t, [], some (.incomplete c.call.name c.missing)⟩
  else ⟨s, { t with gathered := c :: t.gathered }, [], none⟩

def rollback (s : RemoteStore) (t : Tx) : Step RemoteStore Tx :=
  if t.done then ⟨s, t, [], some .finished⟩ else ⟨s, ⟨[], true⟩, [], none⟩

def outcome (commands : List Command) (r : Reply) : Option StoreError :=
  if r.ok then none
  else if r.index < 0 then some (.executor r.error)
  else match commands[r.index.toNat]? with
    | some c => some (.command ⟨r.index.toNat, c.call.name, r.error⟩)
    | none => some (.executor r.error)

def answered (s : RemoteStore) (commands : List Command) (request : RemoteRequest) : Option StoreError :=
  match s.answer request with
  | .error cause => some (.requesting request.subject cause)
  | .ok reply => match Reply.parse? reply with
    | none => some .undecodable
    | some reply => outcome commands reply

def commit (s : RemoteStore) (t : Tx) : Step RemoteStore Tx :=
  if t.done then ⟨s, t, [], some .finished⟩
  else
    let commands := t.gathered.reverse
    let t := { t with done := true }
    match payload s.options.runId commands with
    | .error e => ⟨s, t, [], some e⟩
    | .ok payload =>
      let request : RemoteRequest := ⟨s.options.subject, payload⟩
      let note : LogRecord :=
        ⟨.debug, "Sending population script.",
          [("subject", .text request.subject), ("commands", .int commands.length)]⟩
      ⟨{ s with sent := request :: s.sent }, t, [note], s.answered commands request⟩

def store : Store RemoteStore Tx where
  begin s := (s, .ok ⟨[], false⟩)
  exec
  commit
  rollback

end RemoteStore

end Population
