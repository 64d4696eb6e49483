import HexRift.Library.Checks
import HexRift.Model.Resolve

/-! # URLs of a masquerade target

Texts are split as `urllib.parse.urlsplit` splits them. What the Unicode tables of the interpreter
decide stays a parameter. -/

namespace HexRift

open Checks

namespace Python

def isAscii (c : Char) : Bool := c.toNat < 0x80

/-- The Unicode tables: `str.lower`, and whether compatibility normalisation leaves a network
location free of delimiters. -/
structure Unicode where
  lower : List Char → List Char
  safeNetloc : List Char → Bool
  lower_ascii : ∀ s, s.all isAscii = true → lower s = s.map Char.toLower

/-! ## `urlsplit` -/

structure SplitResult where
  scheme : List Char
  netloc : List Char
  path : List Char
  query : List Char
  fragment : List Char

/-- C0 control characters and the blank. -/
def isC0OrSpace (c : Char) : Bool := c.toNat ≤ 0x20

def isSchemeChar (c : Char) : Bool := c.isAlphanum || c = '+' || c = '-' || c = '.'

def isNetlocDelimiter (c : Char) : Bool := c = '/' || c = '?' || c = '#'

/-- The scheme, if the text has one, and what follows it. -/
def splitScheme (url : List Char) : List Char × List Char :=
  match partition ':' url with
  | some (c :: cs, rest) =>
      if c.isAlpha && (c :: cs).all isSchemeChar then ((c :: cs).map Char.toLower, rest)
      else ([], url)
  | _ => ([], url)

/-- `\Av[a-fA-F0-9]+\..+\Z` -/
def isIPvFuture (hostname : List Char) : Bool :=
  match hostname with
  | 'v' :: rest =>
      rest.takeWhile isHexDigit ≠ [] &&
        match rest.dropWhile isHexDigit with
        | '.' :: address => address ≠ [] && address.all fun c => c ≠ '\n'
        | _ => false
  | _ => false

/-- `_check_bracketed_host` -/
def checkBracketedHost (hostname : List Char) : Except Error Unit :=
  if hostname.head? = some 'v' then
    ensure (isIPvFuture hostname = true) (.valueError "IPvFuture address is invalid")
  else do
    ensure (isIpAddress hostname = true) (.valueError
      s!"{repr (String.ofList hostname)} does not appear to be an IPv4 or IPv6 address")
    ensure (isIPv4Address hostname = false)
      (.valueError "An IPv4 address cannot be in brackets")

/-- `netloc.rpartition('@')[2]` -/
def withoutUserinfo (netloc : List Char) : List Char := (rpartition '@' netloc).elim netloc (·.2)

/-- `_check_bracketed_netloc` -/
def checkBracketedNetloc (netloc : List Char) : Except Error Unit :=
  match partition '[' (withoutUserinfo netloc) with
  | some (before, bracketed) => do
      ensure (before = []) (.valueError "Invalid IPv6 URL")
      let (hostname, port) := (partition ']' bracketed).getD (bracketed, [])
      ensure (port = [] ∨ port.head? = some ':') (.valueError "Invalid IPv6 URL")
      checkBracketedHost hostname
  | none =>
      let hostname := (partition ':' (withoutUserinfo netloc)).elim (withoutUserinfo netloc) (·.1)
      checkBracketedHost hostname

def checkNetloc (unicode : Unicode) (netloc : List Char) : Except Error Unit := do
  ensure ('[' ∈ netloc ↔ ']' ∈ netloc) (.valueError "Invalid IPv6 URL")
  if '[' ∈ netloc then checkBracketedNetloc netloc
  ensure (netloc.all isAscii = true ∨ unicode.safeNetloc netloc = true) (.valueError
    s!"netloc '{String.ofList netloc}' contains invalid characters under NFKC normalization")

def urlsplit (unicode : Unicode) (url : List Char) : Except Error SplitResult := do
  let url := url.dropWhile isC0OrSpace
  let url := url.filter fun c => c ≠ '\t' && c ≠ '\r' && c ≠ '\n'
  let (scheme, url) := splitScheme url
  let (netloc, url) := match url with
    | '/' :: '/' :: rest =>
        (rest.takeWhile fun c => !isNetlocDelimiter c, rest.dropWhile fun c => !isNetlocDelimiter c)
    | _ => ([], url)
  checkNetloc unicode netloc
  let (url, fragment) := (partition '#' url).getD (url, [])
  let (path, query) := (partition '?' url).getD (url, [])
  pure { scheme := scheme, netloc := netloc, path := path, query := query, fragment := fragment }

namespace SplitResult

/-- Host and port as they are written. -/
def hostinfo (parts : SplitResult) : List Char × Option (List Char) :=
  let hostinfo := withoutUserinfo parts.netloc
  let (hostname, port) := match partition '[' hostinfo with
    | some (_, bracketed) =>
        let (hostname, rest) := (partition ']' bracketed).getD (bracketed, [])
        (hostname, (partition ':' rest).elim [] (·.2))
    | none => (partition ':' hostinfo).getD (hostinfo, [])
  (hostname, if port = [] then none else some port)

/-- The host in lower case, except for the zone of a scoped address. -/
def hostname (unicode : Unicode) (parts : SplitResult) : Option (List Char) :=
  let name := parts.hostinfo.1
  if name = [] then none
  else
    match partition '%' name with
    | none => some (unicode.lower name)
    | some (address, zone) => some (unicode.lower address ++ '%' :: zone)

def port (parts : SplitResult) : Except Error (Option ℤ) :=
  match parts.hostinfo.2 with
  | none => .ok none
  | some text =>
      let shown := repr (String.ofList text)
      if text.all Char.isDigit then
        match int text with
        | none => .error (.valueError s!"Port could not be cast to integer value as {shown}")
        | some port =>
            if 0 ≤ port ∧ port ≤ 65535 then .ok (some port)
            else .error (.valueError "Port out of range 0-65535")
      else .error (.valueError s!"Port could not be cast to integer value as {shown}")

end SplitResult

end Python

/-! ## The field type -/

/-- White space of Unicode, as the pattern of a field sees it. -/
def isWhiteSpace (c : Char) : Bool := Python.isSpace c && !(0x1c ≤ c.toNat && c.toNat ≤ 0x1f)

/-- `^https?://\S+$` -/
def masqueradeUrlPattern (value : String) : Bool :=
  ["http://", "https://"].any fun start =>
    Python.startswith value start &&
      value.toList.drop start.length ≠ [] &&
        (value.toList.drop start.length).all fun c => !isWhiteSpace c

def validateMasqueradeUrl (unicode : Python.Unicode) (value : String) : Except Error String := do
  let parts ← Python.urlsplit unicode value.toList
  ensure ((parts.hostname unicode).getD [] ≠ [])
    (.valueError s!"masquerade url {Python.repr value} has no host")
  let port ← match parts.port with
    | .ok port => pure port
    | .error e =>
        throw (.valueError s!"masquerade url {Python.repr value} has an invalid port: {e.str}")
  ensure (port ≠ some 0)
    (.valueError s!"masquerade url {Python.repr value} port must be in 1..65535")
  pure value

/-- Whether the field type of a masquerade URL accepts the text. -/
def isMasqueradeUrl (unicode : Python.Unicode) (value : String) : Bool :=
  masqueradeUrlPattern value && (validateMasqueradeUrl unicode value).isOk

/-- `https://host` for a Reality dest, the port kept unless it is 443. -/
def masqueradeUrl (dest : String) : Except Error String := do
  let (host, port) ← parseHostPort dest
  let host := if ':' ∈ host.toList then "[" ++ host ++ "]" else host
  pure (if port = 443 then "https://" ++ host else "https://" ++ host ++ ":" ++ toString port)

end HexRift
