import HexRift.Model.Identity

/-! # Keys and the cryptography derived from them -/

namespace HexRift

abbrev Bytes := List UInt8

/-- Key material of a single node. -/
structure NodeKeys where
  realityPrivateKey : String
  realityPublicKey : String
  decryption : String
  encryption : String
  deriving DecidableEq

namespace NodeKeys

/-- Stored in `encryption` when VLESS encryption is disabled. -/
def encryptionDisabled : String := "none"

def encryptionEnabled (keys : NodeKeys) : Bool := keys.encryption ≠ encryptionDisabled

/-- Inbound VLESS flow, or empty when encryption is disabled. -/
def flow (keys : NodeKeys) : String :=
  if keys.encryptionEnabled then vlessFlow else ""

/-- Outbound VLESS flow, or empty when encryption is disabled. -/
def clientFlow (keys : NodeKeys) : String :=
  if keys.encryptionEnabled then vlessClientFlow else ""

end NodeKeys

/-- The digests, keyed hashes and key generation the program calls. -/
structure Crypto where
  uuid5 : Uuid5
  sha256Hex : String → String
  hmacFromRealityKey : String → String → Bytes
  urlsafeB64encode : Bytes → String
  x25519UrlsafeToStd : String → String
  x25519KeypairFromSeed : Bytes → String × String
  /-- Certificate PEM, key PEM and DER digest of the self-signed leaf for a seed and name. A name
  that is too long or not ASCII is refused. -/
  selfSignedCert : HysteriaKeyType → Bytes → String → Except Error (String × String × Bytes)

/-! ## Short ids -/

namespace Namespace

variable (ns : Namespace) (crypto : Crypto)

def genShortId (text : String) : String :=
  String.ofList ((crypto.sha256Hex text).toList.take shortIdLength)

def groupShortId (group : Group) : String :=
  group.shortId.elim (genShortId crypto (group.id.val ++ "." ++ ns.name)) (·.val)

def hubShortId (nodeId : String) : String :=
  genShortId crypto (nodeId ++ ".hub." ++ ns.name)

def exitShortId (nodeId : String) : String :=
  genShortId crypto (nodeId ++ ".exit." ++ ns.name)

def userShortId (username : String) : String :=
  genShortId crypto (username ++ ".user." ++ ns.name)

def portalShortId (portalId : String) : String :=
  genShortId crypto (portalId ++ ".portal." ++ ns.name)

end Namespace

/-! ## Hysteria -/

/-- Self-signed leaf a node presents, and the pin clients verify it by. -/
structure HysteriaCert where
  certPem : String
  keyPem : String
  pin : String

def certSeedLabel : HysteriaKeyType → String
  | .ed25519 => "hysteria-tls"
  | .ecdsaP256 => "hysteria-tls-ecdsa-p256"

def hexByte (b : UInt8) : String :=
  String.ofList [(Python.hexDigit (b.toNat / 16)).toUpper, (Python.hexDigit (b.toNat % 16)).toUpper]

/-- `AA:BB:…` -/
def formatCertPin (digest : Bytes) : String :=
  ":".intercalate (digest.map hexByte)

def deriveHysteriaObfsPassword (crypto : Crypto) (realityPrivateKey nsName : String) : String :=
  crypto.urlsafeB64encode (crypto.hmacFromRealityKey realityPrivateKey ("hysteria-obfs." ++ nsName))

def deriveHysteriaCertificate (crypto : Crypto) (realityPrivateKey sni nsName : String)
    (keyType : HysteriaKeyType) : Except Error HysteriaCert := do
  let seed := crypto.hmacFromRealityKey realityPrivateKey (certSeedLabel keyType ++ "." ++ nsName)
  let (certPem, keyPem, digest) ← crypto.selfSignedCert keyType seed sni
  pure { certPem := certPem, keyPem := keyPem, pin := formatCertPin digest }

def firstName (names : List String) : Except Error String :=
  match names with
  | name :: _ => .ok name
  | [] => .error .indexError

def deriveHysteriaSni (hysteria : HysteriaConfig) (reality : RealityConfig) :
    Except Error String :=
  match hysteria.sni with
  | some sni => .ok sni.val
  | none => do firstName (← deriveServerNames reality)

def deriveHysteriaMasqueradeUrl (hysteria : HysteriaConfig) (sni : String) : String :=
  hysteria.masqueradeUrl.getD ("https://" ++ sni ++ "/")

/-- An entry of `tlsSettings.certificates`: operator files, or an inline PEM pair. -/
inductive CertificateEntry where
  | files (certificate : CertificateFiles)
  | inline (certPem keyPem : String)

/-- What a node's Hysteria listener serves and what peers need to dial it. -/
structure HysteriaEndpoint where
  sni : String
  certificates : List CertificateEntry
  keyType : Option HysteriaKeyType
  obfsPassword : Option String
  pin : Option String

def HysteriaEndpoint.chromeParrot (ep : HysteriaEndpoint) : Bool :=
  ep.keyType.elim true HysteriaKeyType.supportsChromeParrot

def deriveHysteriaEndpoint (crypto : Crypto) (hysteria : HysteriaConfig) (reality : RealityConfig)
    (realityPrivateKey nsName : String) : Except Error HysteriaEndpoint := do
  let sni ← deriveHysteriaSni hysteria reality
  let obfsPassword :=
    if hysteria.obfs then some (deriveHysteriaObfsPassword crypto realityPrivateKey nsName)
    else none
  match hysteria.certificate with
  | some certificate =>
      pure {
        sni := sni
        certificates := [.files certificate.toCertificateFiles]
        keyType := hysteria.keyType
        obfsPassword := obfsPassword
        pin := certificate.pinSha256 }
  | none =>
      let keyType := hysteria.keyType.getD hysteriaDerivedKeyType
      let cert ← deriveHysteriaCertificate crypto realityPrivateKey sni nsName keyType
      pure {
        sni := sni
        certificates := [.inline cert.certPem cert.keyPem]
        keyType := some keyType
        obfsPassword := obfsPassword
        pin := some cert.pin }

/-! ## WireGuard -/

/-- Keypair of one identity, private key first. -/
def deriveUserWireguardKeypair (crypto : Crypto) (realityPrivateKey : String) (identity : UUID)
    (nsName : String) : String × String :=
  crypto.x25519KeypairFromSeed
    (crypto.hmacFromRealityKey realityPrivateKey (identity.str ++ ".wireguard." ++ nsName))

inductive WireguardKind where
  | user
  | server
  | guest (label : String)
  deriving DecidableEq

/-- A single WireGuard peer: its identity, its address (a single host) and its kind. -/
structure WireguardPeer where
  email : String
  identity : UUID
  version : IPVersion
  address : ℕ
  kind : WireguardKind
  deriving DecidableEq

/-- The peer's only allowed address, as a single-host network. -/
def WireguardPeer.allowedIp (peer : WireguardPeer) : String :=
  peer.version.addressStr peer.address ++ "/" ++ toString peer.version.maxPrefixlen

/-- Identities of one user that WireGuard peers are allocated for, in order. -/
def wireguardIdentities (uuid5 : Uuid5) (ns : Namespace) (user : User) :
    List (String × UUID × WireguardKind) :=
  let name := user.username.val
  let base := ns.userUuid uuid5 name user.uuid
  if .wireguard ∈ user.access then
    (ns.userEmail name, base, .user) ::
      ((if .server ∈ user.access then
          [(serverEmail name, ns.serverUuid uuid5 name (some base), .server)]
        else []) ++
      user.guests.map fun label =>
        (guestEmail label.val name, ns.guestUuid uuid5 label.val name (some base),
          .guest label.val))
  else []

def allocateFrom (subnet : IPNetwork) (index : ℕ) :
    List (String × UUID × WireguardKind) → Except Error (List WireguardPeer)
  | [] => .ok []
  | (email, identity, kind) :: rest =>
      match subnet.host? index with
      | none =>
          .error (.deriveError
            s!"wireguard subnet {Python.repr subnet.str} does not have enough addresses for all peers")
      | some address => do
          let peers ← allocateFrom subnet (index + 1) rest
          pure ({ email := email, identity := identity, version := subnet.version,
                  address := address, kind := kind } :: peers)

/-- Allocate hub WireGuard peers in order; the first host is reserved for the server. -/
def iterHubWireguardAllocs (uuid5 : Uuid5) (users : List User) (ns : Namespace)
    (subnet : IPNetwork) : Except Error (List WireguardPeer) :=
  if subnet.hostsIterate then
    allocateFrom subnet 1 (users.flatMap (wireguardIdentities uuid5 ns))
  else .error (.typeError "'list' object is not an iterator")

end HexRift
