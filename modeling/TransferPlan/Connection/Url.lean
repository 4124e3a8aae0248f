import TransferPlan.Connection.Address
import TransferPlan.Text.LetterCase
import TransferPlan.Text.Numeral
import TransferPlan.Text.Percent
import TransferPlan.Text.Printable

/-!
# URLs

A URL is cut into scheme, authority, path and query, and the authority into user, password, host
and port.  Only the query is decoded; the host is lower-cased, and a zone of an address keeps its
letters.
-/

namespace TransferPlan

/-- Why a URL cannot be read. -/
inductive UrlError where
  /-- The brackets do not enclose the host, or do not come in a pair. -/
  | misplacedBrackets
  | futureAddress
  | notAnAddress (host : String)
  | bracketedV4
  /-- The authority holds a character whose compatibility form is a delimiter. -/
  | disguisedDelimiter (authority : String)
  | portNotNumeric (port : String)
  | portTooLong (digits : Nat)
  | portOutOfRange
deriving DecidableEq, Repr

def UrlError.message : UrlError → String
  | .misplacedBrackets => "Invalid IPv6 URL"
  | .futureAddress => "IPvFuture address is invalid"
  | .notAnAddress host =>
    Text.Shown.text host ++ " does not appear to be an IPv4 or IPv6 address"
  | .bracketedV4 => "An IPv4 address cannot be in brackets"
  | .disguisedDelimiter authority =>
    "netloc '" ++ authority ++ "' contains invalid characters under NFKC normalization"
  | .portNotNumeric port =>
    "Port could not be cast to integer value as " ++ Text.Shown.text port
  | .portTooLong digits =>
    "Exceeds the limit (" ++ toString Text.maxDigits ++
      " digits) for integer string conversion: value has " ++ toString digits ++
      " digits; use sys.set_int_max_str_digits() to increase the limit"
  | .portOutOfRange => "Port out of range 0-65535"

/-- The parts of a URL; the scheme is in lower case, and a missing part is empty. -/
structure Url where
  scheme : String
  authority : List Char
  path : String
  query : String
deriving Repr

namespace Url

/-! ## Cutting -/

/-- Whether a character may stand in a scheme. -/
def isSchemeCharacter (c : Char) : Bool :=
  c.isAlpha || c.isDigit || c == '+' || c == '-' || c == '.'

/-- The scheme in front of the first colon, in lower case, and the rest. -/
def cutScheme (cs : List Char) : String × List Char :=
  match Text.splitFirst ':' cs with
  | (c :: scheme, some rest) =>
    if c.isAlpha && scheme.all isSchemeCharacter then
      (String.ofList ((c :: scheme).map Char.toLower), rest)
    else ("", cs)
  | _ => ("", cs)

/-- The authority after two slashes, and the rest. -/
def cutAuthority : List Char → List Char × List Char
  | '/' :: '/' :: rest =>
    let isInside (c : Char) : Bool := c != '/' && c != '?' && c != '#'
    (rest.takeWhile isInside, rest.dropWhile isInside)
  | cs => ([], cs)

/-- The characters whose compatibility form holds a delimiter. -/
def disguises : List Nat :=
  [0x2047, 0x2048, 0x2049, 0x2100, 0x2101, 0x2105, 0x2106, 0x2A74, 0xFE13, 0xFE16, 0xFE55, 0xFE56,
    0xFE5F, 0xFE6B, 0xFF03, 0xFF0F, 0xFF1A, 0xFF1F, 0xFF20]

/-- The host in the part of an authority after the user.  Nothing stands in front of an opening
bracket, and nothing but a port after the closing one. -/
def cutHost (info : List Char) : Except UrlError (List Char) :=
  match Text.splitFirst '[' info with
  | (_, none) => .ok (Text.splitFirst ':' info).1
  | (_ :: _, some _) => .error .misplacedBrackets
  | ([], some bracketed) =>
    match Text.splitFirst ']' bracketed with
    | (host, none) | (host, some []) | (host, some (':' :: _)) => .ok host
    | _ => .error .misplacedBrackets

/-- Checks the host of an authority with brackets, which must be an address. -/
def checkHost (host : List Char) : Except UrlError Unit :=
  if host.head? = some 'v' then
    if Address.isFuture host then .ok () else .error .futureAddress
  else if Address.isV4 host then .error .bracketedV4
  else if Address.isV6 host then .ok ()
  else .error (.notAnAddress (String.ofList host))

/-- Checks the brackets and the characters of an authority.  Brackets anywhere in it, also in the
user, demand that the host is an address. -/
def checkAuthority (authority : List Char) : Except UrlError Unit := do
  if authority.contains '[' != authority.contains ']' then throw .misplacedBrackets
  if authority.contains '[' then
    checkHost (← cutHost (Text.splitLast '@' authority).2)
  if authority.any fun c => disguises.contains c.toNat then
    throw (.disguisedDelimiter (String.ofList authority))

/-- Cuts a text without control characters in front of it; tabs and line ends inside are left
out. -/
def parse (s : String) : Except UrlError Url := do
  let cs := (s.toList.dropWhile fun c => c.toNat ≤ 0x20).filter fun c =>
    c != '\t' && c != '\r' && c != '\n'
  let (scheme, rest) := cutScheme cs
  let (authority, rest) := cutAuthority rest
  checkAuthority authority
  let withoutFragment := (Text.splitFirst '#' rest).1
  let (path, query) := Text.splitFirst '?' withoutFragment
  return ⟨scheme, authority, String.ofList path, String.ofList (query.getD [])⟩

/-! ## The authority -/

/-- The user and the password in front of the last at sign. -/
def user (u : Url) : Option String × Option String :=
  match (Text.splitLast '@' u.authority).1 with
  | none => (none, none)
  | some info =>
    let (user, password) := Text.splitFirst ':' info
    (some (String.ofList user), password.map String.ofList)

/-- The host and the text of the port. -/
def hostAndPort (u : Url) : List Char × List Char :=
  let info := (Text.splitLast '@' u.authority).2
  match Text.splitFirst '[' info with
  | (_, some bracketed) =>
    let (host, rest) := Text.splitFirst ']' bracketed
    (host, ((Text.splitFirst ':' (rest.getD [])).2).getD [])
  | _ =>
    let (host, port) := Text.splitFirst ':' info
    (host, port.getD [])

/-- The host in lower case, its zone aside; an empty host is none. -/
def host? (u : Url) : Option String :=
  let host := u.hostAndPort.1
  if host.isEmpty then none
  else
    let (name, zone) := Text.splitFirst '%' host
    some (Text.lower (String.ofList name) ++
      String.ofList ((zone.map ('%' :: ·)).getD []))

/-- The number that the digits of the port write. -/
def portNumber (u : Url) : Nat :=
  u.hostAndPort.2.foldl (fun n c => n * 10 + (Text.asciiDigit? c).getD 0) 0

/-- The port; an empty one is none.  Zeros in front count as digits. -/
def port? (u : Url) : Except UrlError (Option Nat) :=
  let port := u.hostAndPort.2
  if port.isEmpty then .ok none
  else if port.all Char.isDigit then
    if Text.maxDigits < port.length then .error (.portTooLong port.length)
    else if 65535 < u.portNumber then .error .portOutOfRange
    else .ok (some u.portNumber)
  else .error (.portNotNumeric (String.ofList port))

/-! ## The query -/

/-- The parameters of the query in order, decoded. -/
def parameters (u : Url) : List (String × String) :=
  (Text.splitAt "&" u.query).filterMap fun part =>
    if part = "" then none
    else
      let (name, value) := Text.splitFirst '=' part.toList
      some (Text.Percent.decodeQuery (String.ofList name),
        Text.Percent.decodeQuery (String.ofList (value.getD [])))

end Url

end TransferPlan
