/-
Addresses of servers: scheme, credentials, host and port as the living
standard for addresses reads them. What follows the authority is kept as it
stands, since no request ever uses it. How the name of a host is put into
ASCII is left to whoever reads an address (`NameForm`); programs take names
that are ASCII already and refuse the others.
-/
import FarmClient.Decimal.Digits

namespace FarmClient.Terminal

/-- Why an address cannot be used. -/
inductive UrlError where
  | relativeWithoutBase
  | emptyHost
  | invalidPort
  | invalidIpv4
  | invalidIpv6
  | invalidDomain
  | invalidHostCharacter
  /-- A path beside an address that has none. -/
  | pathlessBase
  | unsupportedScheme (scheme : String)
  | cannotSwitchScheme
deriving DecidableEq

def UrlError.text : UrlError → String
  | .relativeWithoutBase => "relative URL without a base"
  | .emptyHost => "empty host"
  | .invalidPort => "invalid port number"
  | .invalidIpv4 => "invalid IPv4 address"
  | .invalidIpv6 => "invalid IPv6 address"
  | .invalidDomain => "invalid international domain name"
  | .invalidHostCharacter => "invalid domain character"
  | .pathlessBase => "relative URL with a cannot-be-a-base base"
  | .unsupportedScheme scheme => "unsupported scheme " ++ scheme
  | .cannotSwitchScheme => "cannot switch to a websocket scheme"

inductive Host where
  | name (text : String)
  | ipv4 (address : Nat)
  | ipv6 (pieces : List Nat)
deriving DecidableEq

/-- Credentials, host and port. The credentials are as they are written; a
port that is the scheme's own is left out. -/
structure Authority where
  username : String
  password : String
  host : Host
  port : Option Nat
deriving DecidableEq

structure Url where
  scheme : String
  authority : Option Authority
  /-- What follows the authority. -/
  tail : String
deriving DecidableEq

/-- How a scheme treats what follows it. -/
inductive SchemeKind where
  | web
  | file
  | other
deriving DecidableEq

def schemeKind (scheme : String) : SchemeKind :=
  if scheme ∈ ["http", "https", "ws", "wss", "ftp"] then .web
  else if scheme = "file" then .file
  else .other

/-- The port a scheme has of its own. -/
def defaultPort (scheme : String) : Option Nat :=
  if scheme = "http" ∨ scheme = "ws" then some 80
  else if scheme = "https" ∨ scheme = "wss" then some 443
  else if scheme = "ftp" then some 21
  else none

/-- A port as it is kept with a scheme. -/
def portFor (scheme : String) (port : Option Nat) : Option Nat :=
  if port = defaultPort scheme then none else port

/-! ### Hosts -/

/-- A hexadecimal digit in upper case. -/
def upperHex (n : Nat) : Char := (Nat.digitChar n).toUpper

/-- A character as percent signs with its bytes. -/
def percentBytes (c : Char) : List Char :=
  (String.singleton c).toUTF8.toList.flatMap fun b => ['%', upperHex (b.toNat / 16), upperHex (b.toNat % 16)]

/-- What credentials have to write with percent signs. -/
def isReserved (c : Char) : Bool :=
  c.toNat < 33 || 126 < c.toNat || c ∈ "\"#<>?`\x7b\x7d/:;=@[\\]^|".toList

def encodeCredential (cs : List Char) : String :=
  String.ofList (cs.flatMap fun c => if isReserved c then percentBytes c else [c])

def hexDigit? (c : Char) : Option Nat :=
  if '0' ≤ c ∧ c ≤ '9' then some (c.toNat - 48)
  else if 'a' ≤ c ∧ c ≤ 'f' then some (c.toNat - 87)
  else if 'A' ≤ c ∧ c ≤ 'F' then some (c.toNat - 55)
  else none

/-- A text with its percent signs resolved, byte by byte. -/
def percentDecode : List Char → List Char
  | '%' :: a :: b :: cs =>
    match hexDigit? a, hexDigit? b with
    | some x, some y => Char.ofNat (16 * x + y) :: percentDecode cs
    | _, _ => '%' :: percentDecode (a :: b :: cs)
  | c :: cs => c :: percentDecode cs
  | [] => []

/-- What no host name may hold. -/
def isForbidden (c : Char) : Bool :=
  c.toNat < 33 || 126 < c.toNat || c ∈ "#/:<>?@[\\]^|%".toList

/-- A part of a dotted number: decimal, octal after a zero, hexadecimal after
`0x`; nothing if it is no number, and no value if it is beyond 32 bits. -/
def dottedPart? (part : List Char) : Option (Option Nat) :=
  match part with
  | [] => none
  | '0' :: 'x' :: ds => based 16 ds
  | '0' :: 'X' :: ds => based 16 ds
  | '0' :: d :: ds => based 8 (d :: ds)
  | ds => based 10 ds
where
  based (base : Nat) (ds : List Char) : Option (Option Nat) := do
    let values ← ds.mapM hexDigit?
    if values.all (· < base) then
      let n := values.foldl (fun n d => base * n + d) 0
      return if n < UInt32.size then some n else none
    else none

/-- The parts of a text between dots. -/
def dotParts (cs : List Char) : List (List Char) :=
  cs.foldr (fun c parts =>
    if c = '.' then [] :: parts
    else match parts with
      | [] => [[c]]
      | p :: ps => (c :: p) :: ps) [[]]

/-- The same without an empty part at the end. -/
def addressParts (cs : List Char) : List (List Char) :=
  let parts := dotParts cs
  if parts.getLast? = some [] then parts.dropLast else parts

/-- Whether the last part of a name is a number. -/
def endsInNumber (cs : List Char) : Bool :=
  match (addressParts cs).getLast? with
  | none => false
  | some part => (!part.isEmpty && part.all Char.isDigit) || (dottedPart? part).isSome

/-- An address of four bytes, the last part filling up what is missing. -/
def ipv4? (cs : List Char) : Option Nat := do
  let parts := addressParts cs
  if 4 < parts.length then none
  else
    let numbers ← parts.mapM fun p => (dottedPart? p).bind id
    let last ← numbers.getLast?
    let front := numbers.dropLast
    if front.any (255 < ·) ∨ Nat.pow 256 (4 - front.length) ≤ last then none
    else
      return front.zipIdx.foldl (fun sum (n, i) => sum + n * Nat.pow 256 (3 - i)) last

/-- The four decimal bytes at the end of a long address, as two pieces. -/
def embeddedIpv4? (cs : List Char) : Option (List Nat) := do
  let parts := dotParts cs
  let bytes ← parts.mapM fun p =>
    if p.isEmpty ∨ !p.all Char.isDigit ∨ (1 < p.length ∧ p.head? = some '0') ∨ 3 < p.length then none
    else
      let n := Decimal.ofDigits p
      if n ≤ 255 then some n else none
  match bytes with
  | [a, b, c, d] => return [256 * a + b, 256 * c + d]
  | _ => none

/-- The pieces of a long address from here on, and the gap among them: how
many pieces have been read before, and at which of them the gap stands. -/
def ipv6Pieces : Nat → Nat → Option Nat → List Char → Option (List Nat × Option Nat)
  | 0, _, _, _ => none
  | _ + 1, _, gap, [] => some ([], gap)
  | fuel + 1, count, gap, ':' :: cs =>
    if 8 ≤ count ∨ gap.isSome then none
    else ipv6Pieces fuel (count + 1) (some (count + 1)) cs
  | fuel + 1, count, gap, cs =>
    if 8 ≤ count then none
    else
      let ds := (cs.take 4).takeWhile fun c => (hexDigit? c).isSome
      let value := ds.foldl (fun n c => 16 * n + (hexDigit? c).getD 0) 0
      match cs.drop ds.length with
      | [] => some ([value], gap)
      | '.' :: _ =>
        if ds.isEmpty ∨ 6 < count then none
        else (embeddedIpv4? cs).map fun pieces => (pieces, gap)
      | ':' :: [] => none
      | ':' :: rest => do
        let (pieces, gap) ← ipv6Pieces fuel (count + 1) gap rest
        return (value :: pieces, gap)
      | _ => none

/-- Puts the zeros of a gap among the pieces. The gap itself counts as a piece read. -/
def fillGap (pieces : List Nat) : Option Nat → Option (List Nat)
  | none => if pieces.length = 8 then some pieces else none
  | some gap =>
    if 7 < pieces.length then none
    else
      some (pieces.take (gap - 1) ++ List.replicate (8 - pieces.length) 0 ++ pieces.drop (gap - 1))

/-- An address of eight pieces. -/
def ipv6? (cs : List Char) : Option (List Nat) := do
  match cs with
  | [] | [_] => none
  | ':' :: ':' :: rest => do
    let (pieces, gap) ← ipv6Pieces (cs.length + 1) 1 (some 1) rest
    fillGap pieces gap
  | ':' :: _ => none
  | cs => do
    let (pieces, gap) ← ipv6Pieces (cs.length + 1) 0 none cs
    fillGap pieces gap

/-- The content of brackets. -/
def bracketed? (cs : List Char) : Except UrlError Host :=
  if cs.getLast? = some ']' then
    match ipv6? cs.dropLast with
    | some pieces => .ok (.ipv6 pieces)
    | none => .error .invalidIpv6
  else .error .invalidIpv6

/-- What the name of a host is in ASCII, if the text is one at all. -/
abbrev NameForm := List Char → Option (List Char)

/-- Names that are ASCII, in lower case. -/
def asciiForm : NameForm := fun cs =>
  let name := percentDecode cs
  if name.any isForbidden then none else some (name.map Char.toLower)

/-- The host of a web or file address. -/
def webHost? (form : NameForm) (cs : List Char) : Except UrlError Host :=
  match cs with
  | '[' :: rest => bracketed? rest
  | cs =>
    match form cs with
    | none => .error .invalidDomain
    | some name =>
      if name.isEmpty then .error .emptyHost
      else if endsInNumber name then
        match ipv4? name with
        | some address => .ok (.ipv4 address)
        | none => .error .invalidIpv4
      else .ok (.name (String.ofList name))

/-- The host of an address of any other scheme. -/
def otherHost? (cs : List Char) : Except UrlError Host :=
  match cs with
  | '[' :: rest => bracketed? rest
  | cs =>
    if cs.any fun c => c = '\x00' || c ∈ "\t\n\r #/:<>?@[\\]^|".toList then .error .invalidHostCharacter
    else .ok (.name (String.ofList cs))

/-- The host of an address. -/
def hostOf (form : NameForm) (kind : SchemeKind) (cs : List Char) : Except UrlError Host :=
  if kind = .web then webHost? form cs else otherHost? cs

/-! ### Authorities -/

/-- Whether the authority ends here. -/
def endsAuthority (kind : SchemeKind) (c : Char) : Bool :=
  c = '/' || c = '?' || c = '#' || (c = '\\' && kind ≠ .other)

/-- The credentials of an authority and the rest; the last at sign divides them. -/
def splitCredentials (kind : SchemeKind) (cs : List Char) : Option (List Char) × List Char :=
  let authority := cs.takeWhile fun c => !endsAuthority kind c
  if '@' ∈ authority then
    let host := (authority.reverse.takeWhile (· ≠ '@')).reverse
    let before := authority.take (authority.length - host.length - 1)
    (some before, host ++ cs.drop authority.length)
  else (none, cs)

/-- The host text of an authority and the rest; a colon within brackets belongs to it. -/
def splitHost (kind : SchemeKind) : Bool → List Char → List Char × List Char
  | _, [] => ([], [])
  | brackets, c :: cs =>
    if (c = ':' && !brackets) || endsAuthority kind c then ([], c :: cs)
    else
      let brackets := if c = '[' then true else if c = ']' then false else brackets
      let (host, rest) := splitHost kind brackets cs
      (c :: host, rest)

/-- The digits of a port and the rest. -/
def splitPort (cs : List Char) : Except UrlError (Option Nat × List Char) :=
  let ds := cs.takeWhile Char.isDigit
  let rest := cs.dropWhile Char.isDigit
  let n := Decimal.ofDigits ds
  let ended := match rest with
    | [] => true
    | c :: _ => c = '/' || c = '\\' || c = '?' || c = '#'
  if 65535 < n ∨ !ended then .error .invalidPort
  else .ok (if ds.isEmpty then none else some n, rest)

/-- The port after a host, if there is a colon, and the rest. -/
def readPort (cs : List Char) : Except UrlError (Option Nat × List Char) :=
  match cs with
  | ':' :: rest => splitPort rest
  | rest => .ok (none, rest)

/-- A user's name and password. -/
def credentials (cs : List Char) : String × String :=
  (encodeCredential (cs.takeWhile (· ≠ ':')), encodeCredential ((cs.dropWhile (· ≠ ':')).drop 1))

/-- The part of an address after its two slashes. -/
def readAuthority (form : NameForm) (scheme : String) (cs : List Char) : Except UrlError Url := do
  let kind := schemeKind scheme
  let (before, cs) := splitCredentials kind cs
  if before = some [] ∧ cs.head?.any (endsAuthority kind) then throw .emptyHost
  let (username, password) := credentials (before.getD [])
  let (hostText, rest) := splitHost kind false cs
  if hostText.isEmpty ∧ (kind = .web ∨ rest.head? = some ':') then throw .emptyHost
  let host ← hostOf form kind hostText
  let (port, rest) ← readPort rest
  if hostText.isEmpty ∧ (username ≠ "" ∨ password ≠ "") then throw .emptyHost
  return ⟨scheme, some ⟨username, password, host, portFor scheme port⟩, String.ofList rest⟩

/-! ### Addresses -/

def isSlash (c : Char) : Bool := c = '/' || c = '\\'

/-- A drive letter in the place of a host. -/
def isDrive : List Char → Bool
  | [c, d] => c.isAlpha && (d = ':' || d = '|')
  | _ => false

/-- The rest of an address of a file. -/
def readFile (form : NameForm) (cs : List Char) : Except UrlError Url :=
  match cs with
  | a :: b :: rest =>
    if isSlash a && isSlash b then
      let host := rest.takeWhile fun c => !endsAuthority .file c
      if host.isEmpty || isDrive host then .ok ⟨"file", none, String.ofList rest⟩
      else do
        let host' ← webHost? form host
        return ⟨"file", some ⟨"", "", host', none⟩, String.ofList (rest.drop host.length)⟩
    else .ok ⟨"file", none, String.ofList cs⟩
  | cs => .ok ⟨"file", none, String.ofList cs⟩

/-- What may stand in a scheme after its first letter. -/
def isSchemeChar (c : Char) : Bool := c.isAlphanum || c = '+' || c = '-' || c = '.'

/-- The scheme before a colon, in lower case. -/
def splitScheme? (cs : List Char) : Option (String × List Char) :=
  match cs with
  | [] => none
  | c :: _ =>
    if c.isAlpha then
      let scheme := cs.takeWhile isSchemeChar
      match cs.drop scheme.length with
      | ':' :: rest => some (String.ofList (scheme.map Char.toLower), rest)
      | _ => none
    else none

/-- Drops control characters and spaces at both ends, and tabs and line ends anywhere. -/
def cleanAddress (cs : List Char) : List Char :=
  let low (c : Char) : Bool := c.toNat ≤ 32
  ((cs.dropWhile low).reverse.dropWhile low).reverse.filter fun c => c ≠ '\t' && c ≠ '\n' && c ≠ '\r'

/-- Reads an absolute address. -/
def Url.parseWith (form : NameForm) (text : String) : Except UrlError Url :=
  match splitScheme? (cleanAddress text.toList) with
  | none => .error .relativeWithoutBase
  | some (scheme, rest) =>
    match schemeKind scheme with
    | .web => readAuthority form scheme (rest.dropWhile isSlash)
    | .file => readFile form rest
    | .other =>
      match rest with
      | '/' :: '/' :: rest => readAuthority form scheme rest
      | rest => .ok ⟨scheme, none, String.ofList rest⟩

def Url.parse (text : String) : Except UrlError Url := Url.parseWith asciiForm text

/-- Whether there is a place for a path. -/
def Url.hasPath (u : Url) : Bool :=
  schemeKind u.scheme ≠ .other || u.authority.isSome || u.tail.toList.head? = some '/'

/-- What a path means beside an address: the same server, and nothing else of what stood there. -/
def Url.join (u : Url) (path : String) : Except UrlError Url :=
  if u.hasPath then .ok { u with tail := path } else .error .pathlessBase

/-- The same address under another scheme. Schemes of the web and of files stay
among themselves. An address that gets one needs a host, which that of a file
must not have. -/
def Url.withScheme? (u : Url) (scheme : String) : Option Url :=
  if (schemeKind scheme = .other) ≠ (schemeKind u.scheme = .other) then none
  else
    match u.authority with
    | some a =>
      if schemeKind scheme = .file then none
      else some { u with scheme, authority := some { a with port := portFor scheme a.port } }
    | none => if schemeKind scheme = .other then some { u with scheme } else none

/-! ### Texts -/

def ipv4Text (address : Nat) : String :=
  ".".intercalate ([16777216, 65536, 256, 1].map fun unit => Decimal.natText (address / unit % 256))

/-- How many pieces from here on are zero. -/
def zeroRun (pieces : List Nat) : Nat := (pieces.takeWhile (· = 0)).length

/-- The first of the longest runs of at least two zeros: where it starts and how long it is. -/
def longestZeros (pieces : List Nat) : Option (Nat × Nat) :=
  let runs := (List.range pieces.length).map fun i => (i, zeroRun (pieces.drop i))
  runs.foldl (fun best run =>
    if 2 ≤ run.2 ∧ (best.map (·.2)).getD 0 < run.2 then some run else best) none

def pieceText (n : Nat) : String := String.ofList (Nat.toDigits 16 n)

def ipv6Text (pieces : List Nat) : String :=
  let join (ps : List Nat) : String := ":".intercalate (ps.map pieceText)
  match longestZeros pieces with
  | none => join pieces
  | some (start, length) => join (pieces.take start) ++ "::" ++ join (pieces.drop (start + length))

def Host.text : Host → String
  | .name text => text
  | .ipv4 address => ipv4Text address
  | .ipv6 pieces => "[" ++ ipv6Text pieces ++ "]"

def Authority.text (a : Authority) : String :=
  let credentials := a.username ++ (if a.password = "" then "" else ":" ++ a.password)
  (if credentials = "" then "" else credentials ++ "@") ++ a.host.text ++
    ((a.port.map fun p => ":" ++ Decimal.natText p).getD "")

def Url.text (u : Url) : String :=
  u.scheme ++ ":" ++ ((u.authority.map fun a => "//" ++ a.text).getD "") ++ u.tail

end FarmClient.Terminal
