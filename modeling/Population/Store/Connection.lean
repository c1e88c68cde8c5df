import Population.Store.Address

namespace Population

inductive WholeError
  | syntactic (signed : Bool) (text : Text)
  | range (signed : Bool) (text : Text)
  deriving DecidableEq, Repr

def WholeError.message : WholeError → Text
  | .syntactic signed text => lead signed text ++ ": invalid syntax"
  | .range signed text => lead signed text ++ ": value out of range"
where
  lead (signed : Bool) (text : Text) : Text :=
    "strconv." ++ (if signed then "ParseInt" else "ParseUint" : Text) ++ ": parsing " ++ text.quoted

inductive ConnectionError
  | invalid
  | backslash
  | unterminated
  | whole (e : WholeError)
  | portNumber (e : WholeError)
  | portRange
  | sslMode
  | sslPair
  | unreadableRoot (path cause : Text)
  | unreadablePair (cause : Text)
  | targetSession
  deriving DecidableEq, Repr

def ConnectionError.message : ConnectionError → Text
  | .invalid => "invalid dsn"
  | .backslash => "invalid backslash"
  | .unterminated => "unterminated quoted string in connection info string"
  | .whole e => e.message
  | .portNumber e => "invalid port: " ++ e.message
  | .portRange => "invalid port: outside range"
  | .sslMode => "sslmode is invalid"
  | .sslPair => "both \"sslcert\" and \"sslkey\" are required"
  | .unreadableRoot path cause => "unable to read CA file " ++ path.quoted ++ ": " ++ cause
  | .unreadablePair cause => "unable to read cert: " ++ cause
  | .targetSession => "invalid value for target_session_attrs, expected \"any\" or \"read-write\""

namespace Connection

/-- The number that digits write, if it is below a limit. The first digit that goes too far ends the reading,
before what follows it is looked at. -/
def wholeFrom (limit : Nat) (n : Nat) : Text → Except (Bool → Text → WholeError) Nat
  | [] => .ok n
  | b :: rest =>
    if !Text.isDigit b then .error .syntactic
    else
      let n := 10 * n + (b.toNat - 0x30)
      if limit ≤ n then .error .range else wholeFrom limit n rest

def unsigned16 (t : Text) : Except WholeError Nat :=
  if t.isEmpty then .error (.syntactic false t)
  else (wholeFrom (Nat.pow 2 16) 0 t).mapError fun e => e false t

def signed64 (t : Text) : Except WholeError Unit :=
  let (limit, digits) : Nat × Text := match t with
    | 0x2b :: rest => (Nat.pow 2 63, rest)
    | 0x2d :: rest => (Nat.pow 2 63 + 1, rest)
    | _ => (Nat.pow 2 63, t)
  if digits.isEmpty then .error (.syntactic true t)
  else match wholeFrom (Nat.pow 2 64) 0 digits with
    | .ok n => if limit ≤ n then .error (.range true t) else .ok ()
    | .error e => .error (e true t)

def isBlank (b : UInt8) : Bool :=
  Text.isSpace b || b == 0x0b

def takePlain (seen : Text) : Text → Except ConnectionError (Text × Text)
  | [] => .ok (seen.reverse, [])
  | 0x5c :: [] => .error .backslash
  | 0x5c :: b :: rest => takePlain (b :: 0x5c :: seen) rest
  | b :: rest => if isBlank b then .ok (seen.reverse, rest) else takePlain (b :: seen) rest

def takeQuoted (seen : Text) : Text → Except ConnectionError (Text × Text)
  | [] => .error .unterminated
  | 0x5c :: [] => .error .unterminated
  | 0x5c :: b :: rest => takeQuoted (b :: 0x5c :: seen) rest
  | b :: rest => if b == 0x27 then .ok (seen.reverse, rest) else takeQuoted (b :: seen) rest

/-- Two backslashes stand for one, and then a backslash before a quote is dropped. -/
def unescape (t : Text) : Text :=
  Text.join "'" (Text.splitAround "\\'" (Text.join "\\" (Text.splitAround "\\\\" t)))

def takeWords (seen : List (Text × Text)) : (words : Nat) → Text → Except ConnectionError (List (Text × Text))
  | 0, _ => .ok seen
  | _, [] => .ok seen
  | words + 1, t => match Text.cut "=" t with
    | none => .error .invalid
    | some (key, rest) => do
      let (value, rest) ← match rest.dropWhile isBlank with
        | 0x27 :: quoted => takeQuoted [] quoted
        | plain => takePlain [] plain
      takeWords ((Text.trimRight isBlank (Text.trimLeft isBlank key), unescape value) :: seen) words rest

def sslModes : List Text :=
  ["", "disable", "allow", "prefer", "require", "verify-ca", "verify-full"]

/-- Checks what is said about encryption. The files it names must be readable. -/
def checkSsl (read : Text → Except Text Text) (value : Text → Text) : Except ConnectionError Unit := do
  if !sslModes.contains (value "sslmode") then throw .sslMode
  if value "sslmode" = "disable" then return ()
  let root := value "sslrootcert"
  if !root.isEmpty then
    discard ((read root).mapError (.unreadableRoot root))
  let cert := value "sslcert"
  let key := value "sslkey"
  if cert.isEmpty != key.isEmpty then throw .sslPair
  if !cert.isEmpty then
    discard ((read cert).mapError .unreadablePair)
    discard ((read key).mapError .unreadablePair)

def checkTimeout (value : Text) : Except ConnectionError Unit :=
  if value.isEmpty then .ok () else (signed64 value).mapError .whole

def checkTarget (value : Text) : Except ConnectionError Unit :=
  if (["", "any", "read-write"] : List Text).contains value then .ok () else .error .targetSession

def checkAddress (read : Text → Except Text Text) (a : Address) : Except ConnectionError Unit := do
  match Text.cut ":" a.host with
  | some (_, digits) => discard ((unsigned16 digits).mapError .whole)
  | none => pure ()
  checkTimeout (a.queryValue "connect_timeout")
  checkSsl read a.queryValue
  checkTarget (a.queryValue "target_session_attrs")

/-- Checks words; of two with one key the later one counts. -/
def checkWords (read : Text → Except Text Text) (words : List (Text × Text)) : Except ConnectionError Unit := do
  let value := fun key : Text => (words.lookup key).getD []
  match words.lookup ("port" : Text) with
  | some digits =>
    if (← (unsigned16 digits).mapError .portNumber) = 0 then throw .portRange
  | none => pure ()
  checkTimeout (value "connect_timeout")
  checkSsl read value
  checkTarget (value "target_session_attrs")

/-- Checks a description that is an address or a list of words; `read` gives the bytes of files. -/
def check (read : Text → Except Text Text) (t : Text) : Except ConnectionError Unit :=
  match Address.parse t with
  | .ok a =>
    if a.scheme.isEmpty then do checkWords read (← takeWords [] t.length t) else checkAddress read a
  | .error _ => do checkWords read (← takeWords [] t.length t)

end Connection

end Population
