import Population.Store.IpAddress
import Population.Text.Lower

namespace Population

inductive AddressError
  | control
  | noScheme
  | colonInSegment
  | hostEnd (text : Text)
  | noBracket
  | brackets
  | number (e : IpError)
  | escape (text : Text)
  | hostByte (b : UInt8)
  | userinfo
  deriving DecidableEq, Repr

def AddressError.message : AddressError → Text
  | .control => "net/url: invalid control character in URL"
  | .noScheme => "missing protocol scheme"
  | .colonInSegment => "first path segment in URL cannot contain colon"
  | .hostEnd text => "invalid port " ++ text.quoted ++ " after host"
  | .noBracket => "missing ']' in host"
  | .brackets => "invalid IP-literal"
  | .number e => "invalid host: " ++ e.message
  | .escape text => "invalid URL escape " ++ text.quoted
  | .hostByte b => "invalid character " ++ Text.quoted [b] ++ " in host name"
  | .userinfo => "net/url: invalid userinfo"

/-- An address. Its host has no escapes, and its query is as it was written. -/
structure Address where
  scheme : Text
  host : Text
  query : Text
  deriving DecidableEq, Repr

inductive AddressPart
  | host
  /-- What follows a percent sign in an address by number. -/
  | zone
  | query
  | other
  deriving DecidableEq, Repr

namespace Address

def percent : UInt8 := 0x25

def colon : UInt8 := 0x3a

def isLetter (b : UInt8) : Bool :=
  (0x41 ≤ b && b ≤ 0x5a) || (0x61 ≤ b && b ≤ 0x7a)

/-- The scheme and what follows its colon; empty without a scheme. -/
def takeScheme (t : Text) : Except AddressError (Text × Text) :=
  let name := t.takeWhile fun b => isLetter b || Text.isDigit b || b == 0x2b || b == 0x2d || b == 0x2e
  match t.drop name.length with
  | 0x3a :: rest =>
    if name.isEmpty then .error .noScheme
    else if name.head?.any isLetter then .ok (Text.lower name, rest)
    else .ok ([], t)
  | _ => .ok ([], t)

/-- The bytes that stand for themselves in a host, besides letters and digits. -/
def hostBytes : List UInt8 :=
  Text.ofString "!$&'()*+,;=:[]<>\"-_.~"

def isHostByte (b : UInt8) : Bool :=
  isLetter b || Text.isDigit b || hostBytes.any (· == b)

def hexValue (b : UInt8) : UInt8 :=
  if Text.isDigit b then b - 0x30 else if 0x61 ≤ b then b - 0x57 else b - 0x37

def mayEscape : AddressPart → UInt8 → Bool
  | .host, b => 0x80 ≤ b || b == percent
  | .zone, b => b == percent || b == 0x20 || isHostByte b
  | _, _ => true

def mayStand : AddressPart → UInt8 → Bool
  | .host, b | .zone, b => 0x80 ≤ b || isHostByte b
  | _, _ => true

def unescape (part : AddressPart) : Text → Except AddressError Text
  | [] => .ok []
  | 0x25 :: a :: b :: rest =>
    let value := 16 * hexValue a + hexValue b
    if !IpKind.isHex a || !IpKind.isHex b || !mayEscape part value then .error (.escape [percent, a, b])
    else (unescape part rest).map (value :: ·)
  | b :: rest =>
    if b == percent then .error (.escape (b :: rest))
    else if !mayStand part b then .error (.hostByte b)
    else (unescape part rest).map ((if b == 0x2b && part = .query then 0x20 else b) :: ·)

def cutLast (sep : UInt8) (t : Text) : Option (Text × Text) :=
  let after := (t.reverse.takeWhile (· != sep)).reverse
  if after.length = t.length then none else some (t.take (t.length - after.length - 1), after)

/-- Behind a host stand a colon and digits, or nothing. -/
def isHostEnd : Text → Bool
  | [] => true
  | b :: digits => b == colon && digits.all Text.isDigit

def checkHostEnd (t : Text) : Except AddressError Unit :=
  if isHostEnd t then .ok () else .error (.hostEnd t)

/-- The name between brackets, where a percent sign is escaped before a zone. -/
def unescapeNumber (t : Text) : Except AddressError Text :=
  match Text.cut "%25" t with
  | none => unescape .host t
  | some (address, zone) => do
    return (← unescape .host address) ++ (← unescape .zone ("%25" ++ zone))

def bracketed (t : Text) : Except AddressError Text :=
  match cutLast 0x5d t with
  | none => .error .noBracket
  | some (name, ending) => do
    checkHostEnd ending
    let ending ← unescape .host ending
    let name ← unescapeNumber name
    match ← (IpKind.ofText name).mapError .number with
    | .decimal => throw .brackets
    | .hexadecimal => return "[" ++ name ++ "]" ++ ending

def parseHost (t : Text) : Except AddressError Text :=
  match cutLast 0x5b t with
  | some ([], rest) => bracketed rest
  | some _ => .error .brackets
  | none => do
    match cutLast colon t with
    | some (_, digits) => checkHostEnd (colon :: digits)
    | none => pure ()
    unescape .host t

def isUserByte (b : UInt8) : Bool :=
  isLetter b || Text.isDigit b || (Text.ofString "-._:~!$&'()*+,;=%@").any (· == b)

/-- Checks a user name, perhaps with a password behind a colon. -/
def checkUser (t : Text) : Except AddressError Unit := do
  if !t.all isUserByte then throw .userinfo
  match Text.cut ":" t with
  | none => discard (unescape .other t)
  | some (name, password) =>
    discard (unescape .other name)
    discard (unescape .other password)

def parseAuthority (t : Text) : Except AddressError Text :=
  match cutLast 0x40 t with
  | none => parseHost t
  | some (user, host) => do
    let host ← parseHost host
    checkUser user
    return host

def parseWhole (t : Text) : Except AddressError Address := do
  if t.any fun b => b < 0x20 || b == 0x7f then throw .control
  let (scheme, rest) ← takeScheme t
  let (rest, query) := (Text.cut "?" rest).getD (rest, [])
  if rest.head? ≠ some 0x2f && !scheme.isEmpty then return ⟨scheme, [], query⟩
  if rest.head? ≠ some 0x2f && (rest.takeWhile (· != 0x2f)).any (· == colon) then throw .colonInSegment
  let (host, path) ← match rest with
    | 0x2f :: 0x2f :: more =>
      if scheme.isEmpty && more.head? = some 0x2f then pure ([], rest)
      else
        let authority := more.takeWhile (· != 0x2f)
        pure (← parseAuthority authority, more.drop authority.length)
    | _ => pure ([], rest)
  discard (unescape .other path)
  return ⟨scheme, host, query⟩

/-- Reads an address. An error is given with the text it is about, which has the fragment only if that is
what is wrong. -/
def parse (t : Text) : Except (Text × AddressError) Address := do
  let (whole, fragment) := (Text.cut "#" t).getD (t, [])
  let address ← (parseWhole whole).mapError (whole, ·)
  discard ((unescape .other fragment).mapError (t, ·))
  return address

/-- The names and values of a query, without those that cannot be read. -/
def queryPairs (a : Address) : List (Text × Text) :=
  (Text.splitByte 0x26 a.query).filterMap fun pair =>
    if pair.isEmpty || pair.any (· == 0x3b) then none
    else
      let (name, value) := (Text.cut "=" pair).getD (pair, [])
      match unescape .query name, unescape .query value with
      | .ok name, .ok value => some (name, value)
      | _, _ => none

def queryValue (a : Address) (name : Text) : Text :=
  (a.queryPairs.lookup name).getD []

end Address

end Population
