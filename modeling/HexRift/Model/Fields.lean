import HexRift.Model.Python

/-! # Field types of the schema

Each constrained field type is a structure carrying its pattern, so that a value the
field validator rejects cannot be built. -/

namespace HexRift

/-- The exceptions the modelled code raises, with the text each carries. -/
inductive Error where
  | valueError (message : String)
  | typeError (message : String)
  | deriveError (message : String)
  | nodeError (message : String)
  | renderError (message : String)
  | topologyError (message : String)
  | indexError
  | keyError (key : String)
  | keysError (message : String)
  deriving DecidableEq, Repr

/-- `str(e)`: errors of the program itself are wrapped in terminal markup. -/
def Error.str : Error → String
  | .valueError m => m
  | .typeError m => m
  | .deriveError m => "[red]" ++ m ++ "[/red]"
  | .nodeError m => "[red]" ++ m ++ "[/red]"
  | .renderError m => "[red]" ++ m ++ "[/red]"
  | .topologyError m => "[red]" ++ m ++ "[/red]"
  | .keysError m => "[red]" ++ m ++ "[/red]"
  | .indexError => "list index out of range"
  | .keyError key => "'" ++ key ++ "'"

/-! ## Identifiers and DNS names -/

/-- `[A-Za-z0-9_-]` -/
def isIdentifierChar (c : Char) : Bool :=
  c.isAlphanum || c = '_' || c = '-'

/-- `[A-Za-z0-9_.-]` -/
def isDnsNameChar (c : Char) : Bool :=
  isIdentifierChar c || c = '.'

/-- Safe identifier (ids, usernames, portal ids). -/
structure Identifier where
  val : String
  ne_empty : val ≠ "" := by decide
  charset : val.toList.all isIdentifierChar = true := by decide
  deriving DecidableEq

/-- DNS name (namespace, hostnames, domains). -/
structure DnsName where
  val : String
  ne_empty : val ≠ "" := by decide
  charset : val.toList.all isDnsNameChar = true := by decide
  deriving DecidableEq

/-- TCP/UDP port number. -/
structure Port where
  val : ℕ
  pos : 1 ≤ val := by decide
  le : val ≤ 65535 := by decide
  deriving DecidableEq

/-- `^\d+(ms|s|m|h)$` -/
def isDuration (value : String) : Bool :=
  let isDigit := fun c => (Python.decimal? c).isSome
  value.toList.takeWhile isDigit ≠ [] &&
    value.toList.dropWhile isDigit ∈ [['m', 's'], ['s'], ['m'], ['h']]

/-- A `vless_route`, the 16-bit number a client's third UUID segment is compared with. -/
structure VlessRoute where
  val : ℕ
  le : val ≤ 65535 := by decide
  deriving DecidableEq

/-! ## `host:port` -/

/-- Split `host:port` or `[ipv6]:port`, validating host shape and port range. -/
def parseHostPort (value : String) : Except Error (String × ℕ) := do
  let text := value.toList
  let bracketed := text.head? = some '['
  let (host, portStr) ←
    if bracketed then
      match Python.partition ']' text.tail with
      | none => throw (.valueError s!"malformed IPv6 address in {Python.repr value} (missing ']')")
      | some (host, rest) =>
          match rest with
          | ':' :: portStr => pure (host, portStr)
          | _ => throw (.valueError s!"{Python.repr value} must be in host:port form")
    else
      match Python.rpartition ':' text with
      | none => throw (.valueError s!"{Python.repr value} must be in host:port form")
      | some (host, portStr) =>
          if ':' ∈ host then
            throw (.valueError
              s!"IPv6 address in {Python.repr value} must be bracketed as [host]:port")
          else pure (host, portStr)
  if host = [] then
    throw (.valueError s!"{Python.repr value} is missing a host")
  if bracketed then
    if !Python.isIpAddress host then
      throw (.valueError s!"{Python.repr value} bracketed host must be an IP literal")
  else if !host.all isDnsNameChar then
    throw (.valueError s!"{Python.repr value} host must be an IP literal or DNS name")
  match Python.int portStr with
  | none =>
      let port := Python.repr (String.ofList portStr)
      throw (.valueError s!"{Python.repr value} has a non-numeric port {port}")
  | some port =>
      if 1 ≤ port ∧ port ≤ 65535 then pure (String.ofList host, port.toNat)
      else throw (.valueError s!"{Python.repr value} port must be in 1..65535")

/-- `^(\[[0-9A-Fa-f:.]+\]|[A-Za-z0-9_.-]+):\d{1,5}$` -/
def hostPortPattern (value : String) : Bool :=
  match Python.rpartition ':' value.toList with
  | none => false
  | some (host, portStr) =>
      (1 ≤ portStr.length && portStr.length ≤ 5) &&
        portStr.all (fun c => (Python.decimal? c).isSome) &&
        match host with
        | '[' :: inner =>
            inner.getLast? = some ']' && inner.dropLast ≠ [] &&
              inner.dropLast.all fun c => Python.isHexDigit c || c = ':' || c = '.'
        | _ => host ≠ [] && host.all isDnsNameChar

/-- `host:port` or `[ipv6]:port` string with valid host and port. -/
structure HostPort where
  val : String
  pattern : hostPortPattern val = true := by decide
  parses : (parseHostPort val).isOk = true := by decide
  deriving DecidableEq

/-- Host and port of a validated `host:port` string. -/
def HostPort.hostPort (value : HostPort) : String × ℕ :=
  match h : parseHostPort value.val with
  | .ok parts => parts
  | .error _ => absurd value.parses (by simp [h, Except.isOk, Except.toBool])

example : (HostPort.hostPort { val := "[fd00::10]:443" }) = ("fd00::10", 443) := by decide

/-- Path that must start with `/`. -/
structure XrayPath where
  val : String
  absolute : val.toList.head? = some '/' := by decide
  deriving DecidableEq

/-- Reality shortId: hex, even length, at most `shortIdLength` characters. -/
structure ShortId where
  val : String
  hex : val.toList.all Python.isHexDigit = true := by decide
  even : val.length % 2 = 0 := by decide
  le : val.length ≤ shortIdLength := by decide
  deriving DecidableEq

/-! ## Networks -/

inductive IPVersion where
  | v4
  | v6
  deriving DecidableEq, Repr

def IPVersion.maxPrefixlen : IPVersion → ℕ
  | .v4 => 32
  | .v6 => 128

def ipv4Str (address : ℕ) : String :=
  ".".intercalate ([24, 16, 8, 0].map fun shift => toString (address / 2 ^ shift % 256))

/-- Hextets from the highest down. -/
def hextets (address : ℕ) : List ℕ :=
  [112, 96, 80, 64, 48, 32, 16, 0].map fun shift => address / 2 ^ shift % 65536

def hexStr (n : ℕ) : String := String.ofList (Nat.toDigits 16 n)

/-- Length of the run of zero hextets at the front. -/
def zeroRun (parts : List ℕ) : ℕ := (parts.takeWhile (· = 0)).length

/-- Start and length of the first longest run of zero hextets. -/
def longestZeroRun (parts : List ℕ) : ℕ × ℕ :=
  (List.range parts.length).foldl
    (fun best i => if best.2 < zeroRun (parts.drop i) then (i, zeroRun (parts.drop i)) else best)
    (0, 0)

/-- Hextets joined by colons, the longest run of two or more zeros written `::`. -/
def ipv6Str (address : ℕ) : String :=
  let parts := hextets address
  let run := longestZeroRun parts
  if 2 ≤ run.2 then
    ":".intercalate ((parts.take run.1).map hexStr) ++ "::" ++
      ":".intercalate ((parts.drop (run.1 + run.2)).map hexStr)
  else ":".intercalate (parts.map hexStr)

def IPVersion.addressStr : IPVersion → ℕ → String
  | .v4, address => ipv4Str address
  | .v6, address => ipv6Str address

/-- A CIDR subnet, normalised to its network base. -/
structure IPNetwork where
  version : IPVersion
  networkAddress : ℕ
  prefixlen : ℕ
  prefixlen_le : prefixlen ≤ version.maxPrefixlen := by decide
  aligned : networkAddress % 2 ^ (version.maxPrefixlen - prefixlen) = 0 := by decide
  bounded : networkAddress < 2 ^ version.maxPrefixlen := by decide
  deriving DecidableEq

def IPNetwork.str (n : IPNetwork) : String :=
  n.version.addressStr n.networkAddress ++ "/" ++ toString n.prefixlen

example : (IPNetwork.mk .v6 (0xfd00 * 2 ^ 112) 64).str = "fd00::/64" := by decide

def IPNetwork.numAddresses (n : IPNetwork) : ℕ :=
  2 ^ (n.version.maxPrefixlen - n.prefixlen)

/-- The addresses `hosts()` yields, given by the first one and their number. A `/31` or
`/127` yields both addresses, a `/32` or `/128` its only one; otherwise the network address
is left out, and for IPv4 the broadcast address. -/
def IPNetwork.hostRange (n : IPNetwork) : ℕ × ℕ :=
  if n.numAddresses ≤ 2 then (n.networkAddress, n.numAddresses)
  else
    match n.version with
    | .v4 => (n.networkAddress + 1, n.numAddresses - 2)
    | .v6 => (n.networkAddress + 1, n.numAddresses - 1)

/-- The `i`-th address `hosts()` yields, `none` once it is exhausted. -/
def IPNetwork.host? (n : IPNetwork) (i : ℕ) : Option ℕ :=
  if i < n.hostRange.2 then some (n.hostRange.1 + i) else none

/-- Whether `hosts()` returns an iterator. For a network of one address it returns a list. -/
def IPNetwork.hostsIterate (n : IPNetwork) : Bool := n.prefixlen ≠ n.version.maxPrefixlen

example : (IPNetwork.mk .v4 0x0a000000 24).host? 0 = some 0x0a000001 := by decide

end HexRift
