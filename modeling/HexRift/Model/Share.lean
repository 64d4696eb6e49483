import HexRift.Model.Portal

/-! # What users are handed out

Share URLs and WireGuard client configs, each built for one identity and the requested hub
nodes. -/

namespace HexRift

open Checks

/-! ## XHTTP parameters -/

/-- Values of the `extra` object of an XHTTP URL. -/
inductive JsonValue where
  | text (value : String)
  | flag (value : Bool)
  | number (value : ℕ)

def JsonValue.dumps : JsonValue → String
  | .text value => Python.jsonString value
  | .flag value => if value then "true" else "false"
  | .number value => toString value

/-- `json.dumps(entries, separators=(",", ":"))` -/
def dumpsObject (entries : List (String × JsonValue)) : String :=
  "\x7b" ++ ",".intercalate (entries.map fun e => Python.jsonString e.1 ++ ":" ++ e.2.dumps) ++
    "\x7d"

def xhttpExtra : List (String × JsonValue) :=
  [("scStreamUpServerSecs", .text "30-60"), ("xPaddingBytes", .text "80-1400"),
    ("noGRPCHeader", .flag true), ("scMaxEachPostBytes", .text "500000-1000000"),
    ("scMinPostsIntervalMs", .text "10-50"), ("scMaxBufferedPosts", .number 45)]

def xhttpExtraCdn : List (String × JsonValue) :=
  [("noSSEHeader", .flag true), ("xPaddingMethod", .text "tokenish"),
    ("xPaddingObfsMode", .flag true), ("xPaddingPlacement", .text "header"),
    ("xPaddingHeader", .text "X-Request-Id")] ++ xhttpExtra

def makeXhttpShareParams (host path : String) (cdn : Bool := false) : List (String × String) :=
  let extra :=
    if cdn then xhttpExtraCdn ++ [("uplinkHTTPMethod", .text UplinkHttpMethod.patch.value)]
    else xhttpExtra
  [("type", "xhttp"), ("host", host), ("path", path), ("mode", "auto"),
    ("extra", dumpsObject extra)]

/-! ## Share URLs -/

inductive ShareScheme where
  | vless
  | hysteria2
  deriving DecidableEq

/-- A share URL before it is written out. -/
structure ShareUrl where
  scheme : ShareScheme
  identity : UUID
  host : String
  port : ℕ
  params : List (String × String)
  fragment : String
  deriving DecidableEq

namespace ShareUrl

def text (url : ShareUrl) : String :=
  let client := url.identity.str ++ "@" ++ url.host ++ ":" ++ toString url.port
  let fragment := "#" ++ Python.quote [] url.fragment
  match url.scheme with
  | .vless => "vless://" ++ client ++ "?" ++ Python.urlencode [] url.params ++ fragment
  -- a pin keeps its colons
  | .hysteria2 => "hysteria2://" ++ client ++ "/?" ++ Python.urlencode [':'] url.params ++ fragment

/-- The value of a query parameter. -/
def param (url : ShareUrl) (name : String) : Option String := url.params.lookup name

end ShareUrl

/-- One identity dialing a hub inbound, as its share URL names it. -/
structure ShareClient where
  uuid : UUID
  shortId : String
  fingerprint : String
  fragment : String

def vlessShareUrl (identity : UUID) (host : String) (params : List (String × String))
    (fragment : String) : ShareUrl :=
  { scheme := .vless, identity := identity, host := host, port := 443, params := params
    fragment := fragment }

/-- Parameters a client secures its connection to the direct inbound with. -/
def directParams (env : InboundEnv) (client : ShareClient) :
    DirectSecurity → Except Error (List (String × String))
  | .tls _ =>
      .ok [("security", "tls"), ("sni", env.node.hostname.val), ("fp", client.fingerprint),
        ("alpn", ",".intercalate xhttpTlsAlpn)]
  | .reality _ _ serverNames _ _ => do
      pure [("security", "reality"), ("sni", ← firstName serverNames), ("fp", client.fingerprint),
        ("pbk", env.nodeKeys.realityPublicKey), ("sid", client.shortId)]

def XhttpContext.shareUrl (ctx : XhttpContext) (env : InboundEnv) (client : ShareClient) :
    Except Error ShareUrl := do
  let keys := env.nodeKeys
  let security ← directParams env client ctx.security
  pure (vlessShareUrl client.uuid env.node.hostname.val
    ([("encryption", keys.encryption), ("flow", keys.clientFlow)] ++ security ++
      makeXhttpShareParams ctx.xhttpHost ctx.xhttpPath) client.fragment)

def CdnContext.shareUrl (ctx : CdnContext) (env : InboundEnv) (client : ShareClient) : ShareUrl :=
  let keys := env.nodeKeys
  vlessShareUrl client.uuid ctx.domain
    ([("encryption", keys.encryption), ("flow", keys.clientFlow), ("security", "tls"),
      ("sni", ctx.domain), ("fp", client.fingerprint), ("sid", client.shortId), ("spx", "/"),
      ("alpn", "h3,h2,http/1.1"), ("insecure", "0"), ("allowInsecure", "0")] ++
      makeXhttpShareParams ctx.xhttpHost ctx.xhttpPath true) client.fragment

/-- A pinned self-signed certificate is self-trusted, so the URL also sets `insecure`. -/
def HysteriaContext.shareUrl (ctx : HysteriaContext) (env : InboundEnv) (client : ShareClient) :
    ShareUrl :=
  { scheme := .hysteria2
    identity := client.uuid
    host := env.node.hostname.val
    port := ctx.config.port.val
    params :=
      [("sni", ctx.sni), ("insecure", if ctx.pin.isNone then "0" else "1")] ++
        ctx.pin.toList.map (fun pin => ("pinSHA256", pin)) ++
        (ctx.obfsPassword.elim [] fun password =>
          [("obfs", "salamander"), ("obfs-password", password)])
    fragment := client.fragment }

/-! ## Requests -/

/-- Whose access is asked for, and on which hub node, all of them when none is named. -/
structure ShareRequest where
  username : String
  hubId : Option String := none
  guest : Option String := none
  server : Bool := false
  allGuests : Bool := false

/-- The request for one guest that a request for all guests is split into. -/
def ShareRequest.forGuest (req : ShareRequest) (label : Identifier) : ShareRequest :=
  { username := req.username, hubId := req.hubId, guest := some label.val }

/-- Identity a request resolves to: a user, one of their guests, or their server. -/
structure ResolvedIdentity where
  uuid : UUID
  email : String
  label : String
  deriving DecidableEq

def resolveUser (cfg : ConglomerateConfig) (username : String) : Except Error User :=
  match cfg.users.find? fun u => u.username.val = username with
  | none => .error (.deriveError s!"User not found: {Python.repr username}")
  | some user => .ok user

def resolveIdentity (uuid5 : Uuid5) (user : User) (ns : Namespace) (guest : Option String)
    (server : Bool) : Except Error ResolvedIdentity :=
  let name := user.username.val
  let base := ns.userUuid uuid5 name user.uuid
  match server, guest with
  | true, some _ =>
      .error (.deriveError "Flags 'server' and 'guest' are mutually exclusive")
  | true, none =>
      if .server ∈ user.access then
        .ok { uuid := ns.serverUuid uuid5 name (some base)
              email := serverEmail name
              label := serverEmail name }
      else .error (.deriveError s!"User {Python.repr name} does not have server access")
  | false, some label =>
      if label ∈ user.guests.map (·.val) then
        .ok { uuid := ns.guestUuid uuid5 label name (some base)
              email := guestEmail label name
              label := label ++ "@" ++ name }
      else
        .error (.deriveError
          s!"Guest {Python.repr label} not found for user {Python.repr name}")
  | false, none => .ok { uuid := base, email := ns.userEmail name, label := name }

/-- The first node with the id, in its region. -/
def getNode (cfg : ConglomerateConfig) (nodeId : String) : Except Error Placed :=
  match cfg.placed.find? fun p => p.node.id.val = nodeId with
  | none => .error (.nodeError s!"Node not found: {Python.repr nodeId}")
  | some p => .ok p

/-- The hub nodes a request is for. -/
def requestedPairs (cfg : ConglomerateConfig) (hubId : Option String) :
    Except Error (List (HubRegion × HubNode)) :=
  match hubId with
  | none => .ok (hubNodePairs cfg)
  | some id => do
      match ← getNode cfg id with
      | .hub region node => pure [(region, node)]
      | .exit .. => throw (.deriveError s!"Node {Python.repr id} is not a hub node")

/-- What is built for each guest of the user, one after the other. -/
def forAllGuests {α : Type} (user : User) (buildOne : Identifier → Except Error (List α)) :
    Except Error (List α) := do
  ensure (user.guests ≠ [])
    (.deriveError s!"User {Python.repr user.username.val} has no guests configured.")
  let results ← mapEach user.guests buildOne
  pure results.flatten

/-- Split a request for all guests, and hand over any other. -/
def perIdentity {α : Type} (cfg : ConglomerateConfig) (req : ShareRequest)
    (buildOne : User → ShareRequest → Except Error (List α)) : Except Error (List α) := do
  let user ← resolveUser cfg req.username
  if req.allGuests then do
    ensure (req.guest = none ∧ req.server = false)
      (.deriveError "Flag 'all_guests' cannot be combined with 'guest' or 'server'")
    forAllGuests user fun label => buildOne user (req.forGuest label)
  else buildOne user req

/-! ## Building share URLs -/

section ShareUrls

variable (crypto : Crypto) (cfg : ConglomerateConfig) (store : KeyStore)

def shareEnv (region : HubRegion) (node : HubNode) : Except Error InboundEnv := do
  let keys ← loadNodeKeys store node.id.val
  pure (hubEnv crypto cfg region node keys)

section Kinds

variable (identity : ResolvedIdentity) (shortId fingerprint : String)

def shareClient (fragment : String) : ShareClient :=
  { uuid := identity.uuid, shortId := shortId, fingerprint := fingerprint, fragment := fragment }

def cdnShareUrl (region : HubRegion) (env : InboundEnv) (ctx : CdnContext) : String × ShareUrl :=
  let client := shareClient identity shortId fingerprint
    (region.id.val ++ "(CDN)-" ++ identity.label)
  (region.id.val ++ "  CDN  " ++ identity.label, ctx.shareUrl env client)

/-- One URL for each region, that of its first node. -/
def cdnShareUrlsFrom (seenRegions : List String) :
    List (HubRegion × HubNode) → Except Error (List (String × ShareUrl))
  | [] => .ok []
  | (region, node) :: rest =>
      if region.id.val ∈ seenRegions then cdnShareUrlsFrom seenRegions rest
      else do
        let env ← shareEnv crypto cfg store region node
        match ← buildCdn env with
        | none => cdnShareUrlsFrom (region.id.val :: seenRegions) rest
        | some ctx =>
            let results ← cdnShareUrlsFrom (region.id.val :: seenRegions) rest
            pure (cdnShareUrl identity shortId fingerprint region env ctx :: results)

def cdnShareUrls (pairs : List (HubRegion × HubNode)) :
    Except Error (List (String × ShareUrl)) := do
  ensure (cfg.global.cdn.isSome = true)
    (.deriveError "CDN is not configured in global settings.")
  cdnShareUrlsFrom crypto cfg store identity shortId fingerprint [] pairs

/-- A hub node that listens for Hysteria. -/
structure HysteriaListener where
  region : HubRegion
  node : HubNode
  env : InboundEnv
  ctx : HysteriaContext

/-- What a client needs to know of an endpoint beside its host. -/
def HysteriaContext.material (ctx : HysteriaContext) :
    ℕ × String × Option String × Option String :=
  (ctx.config.port.val, ctx.sni, ctx.pin, ctx.obfsPassword)

/-- Region and endpoint of a listener. -/
def HysteriaListener.endpoint (l : HysteriaListener) :
    String × ℕ × String × Option String × Option String :=
  (l.region.id.val, l.ctx.material)

def hysteriaListener (region : HubRegion) (node : HubNode) :
    Except Error (Option HysteriaListener) := do
  let env ← shareEnv crypto cfg store region node
  let ctx ← buildHysteria env
  pure (ctx.map fun ctx => { region := region, node := node, env := env, ctx := ctx })

/-- The endpoints of a region. -/
def perRegion (listeners : List HysteriaListener) (regionId : String) :
    List (ℕ × String × Option String × Option String) :=
  ((listeners.filter fun l => l.region.id.val = regionId).map (·.ctx.material)).dedup

/-- Named by the region when all of it is one endpoint. -/
def hysteriaShareUrl (listeners : List HysteriaListener) (l : HysteriaListener) :
    String × ShareUrl :=
  let owner :=
    if (perRegion listeners l.region.id.val).length = 1 then l.region.id.val else l.node.id.val
  let client := shareClient identity shortId fingerprint (owner ++ "-" ++ identity.label)
  (owner ++ "  Hysteria  " ++ identity.label, l.ctx.shareUrl l.env client)

def hysteriaShareUrlsFrom (listeners : List HysteriaListener)
    (emitted : List (String × ℕ × String × Option String × Option String)) :
    List HysteriaListener → List (String × ShareUrl)
  | [] => []
  | l :: rest =>
      if l.endpoint ∈ emitted then hysteriaShareUrlsFrom listeners emitted rest
      else
        hysteriaShareUrl identity shortId fingerprint listeners l ::
          hysteriaShareUrlsFrom listeners (l.endpoint :: emitted) rest

def hysteriaShareUrls (pairs : List (HubRegion × HubNode)) :
    Except Error (List (String × ShareUrl)) := do
  let slots ← mapEach pairs fun p => hysteriaListener crypto cfg store p.1 p.2
  let listeners := slots.filterMap id
  pure (hysteriaShareUrlsFrom identity shortId fingerprint listeners [] listeners)

/-- Whether the user's access covers the direct inbound of a region serving TLS or Reality. -/
def directAccess (user : User) (server : Bool) (tls : Option TlsConfig) : Bool :=
  if tls.isSome then .tls ∈ user.access else server || .xhttp ∈ user.access

/-- Nodes of a region that serve the same Reality inbound with the same keys share one URL,
the first of them named by the region. A certificate names its host, so TLS URLs are per
node. -/
def directShareUrlsFrom (user : User) (server : Bool)
    (emitted : List (String × XhttpContext × NodeKeys)) :
    List (HubRegion × HubNode) → Except Error (List (String × ShareUrl))
  | [] => .ok []
  | (region, node) :: rest => do
      let tls ← resolveRegionTls region cfg.defaults
      if !directAccess user server tls then directShareUrlsFrom user server emitted rest
      else
        let env ← shareEnv crypto cfg store region node
        let ctx ← buildXhttp env
        match ctx.security with
        | .tls _ => do
            let client := shareClient identity shortId fingerprint
              (node.id.val ++ "-" ++ identity.label)
            let url ← ctx.shareUrl env client
            let results ← directShareUrlsFrom user server emitted rest
            pure ((node.id.val ++ "  TLS  " ++ identity.label, url) :: results)
        | .reality .. =>
            let material := (region.id.val, ctx, env.nodeKeys)
            if material ∈ emitted then directShareUrlsFrom user server emitted rest
            else do
              let owner :=
                if emitted.any fun e => e.1 = region.id.val then node.id.val else region.id.val
              let client := shareClient identity shortId fingerprint
                (owner ++ "-" ++ identity.label)
              let url ← ctx.shareUrl env client
              let results ← directShareUrlsFrom user server (material :: emitted) rest
              pure ((owner ++ "  Reality  " ++ identity.label, url) :: results)

end Kinds

/-- The inbound a share URL is for. -/
inductive ShareKind where
  | direct
  | cdn
  | hysteria
  deriving DecidableEq

def ShareKind.name : ShareKind → String
  | .direct => "direct"
  | .cdn => "CDN"
  | .hysteria => "Hysteria"

def shareKind (cdn hysteria : Bool) : Except Error ShareKind :=
  match cdn, hysteria with
  | true, true => .error (.deriveError "Flags 'cdn' and 'hysteria' are mutually exclusive")
  | true, false => .ok .cdn
  | false, true => .ok .hysteria
  | false, false => .ok .direct

def checkShareAccess (user : User) (req : ShareRequest) (kind : ShareKind) : Except Error Unit :=
  let name := Python.repr req.username
  match kind with
  | .cdn => ensure (.cdn ∈ user.access) (.deriveError s!"User {name} does not have CDN access")
  | .hysteria =>
      ensure (.hysteria ∈ user.access)
        (.deriveError s!"User {name} does not have Hysteria access")
  | .direct =>
      ensure (req.server = true ∨ .xhttp ∈ user.access ∨ .tls ∈ user.access)
        (.deriveError s!"User {name} does not have xhttp or tls access")

/-- Short id a client presents: its own for a guest, that of the group for any other. -/
def clientShortId (user : User) (req : ShareRequest) : Except Error String :=
  match cfg.groups.find? fun g => g.id = user.group with
  | none =>
      let group := Python.repr user.group.val
      .error (.deriveError s!"Group not found for user {Python.repr req.username}: {group}")
  | some group =>
      if req.guest.isSome then .ok (cfg.ns.userShortId crypto req.username)
      else .ok (cfg.ns.groupShortId crypto group)

def kindShareUrls (identity : ResolvedIdentity) (shortId fingerprint : String) (user : User)
    (server : Bool) (pairs : List (HubRegion × HubNode)) :
    ShareKind → Except Error (List (String × ShareUrl))
  | .cdn => cdnShareUrls crypto cfg store identity shortId fingerprint pairs
  | .hysteria => hysteriaShareUrls crypto cfg store identity shortId fingerprint pairs
  | .direct =>
      directShareUrlsFrom crypto cfg store identity shortId fingerprint user server [] pairs

/-- Share URLs of the one identity a request is for. -/
def shareUrlsOf (fingerprint : String) (cdn hysteria : Bool) (user : User) (req : ShareRequest) :
    Except Error (List (String × ShareUrl)) := do
  let kind ← shareKind cdn hysteria
  checkShareAccess user req kind
  let identity ← resolveIdentity crypto.uuid5 user cfg.ns req.guest req.server
  let shortId ← clientShortId crypto cfg user req
  let pairs ← requestedPairs cfg req.hubId
  let results ← kindShareUrls crypto cfg store identity shortId fingerprint user req.server pairs
    kind
  ensure (results ≠ [])
    (.deriveError s!"No {kind.name} hub nodes found for user {Python.repr req.username}")
  pure results

/-- Share URLs for a user, guest or server, or for all guests, each with its label. -/
def buildShareUrls (req : ShareRequest) (fingerprint : String) (cdn : Bool := false)
    (hysteria : Bool := false) : Except Error (List (String × ShareUrl)) :=
  perIdentity cfg req (shareUrlsOf crypto cfg store fingerprint cdn hysteria)

end ShareUrls

/-! ## WireGuard client configs -/

/-- A client config before it is written out. -/
structure WireguardClientConf where
  privateKey : String
  address : String
  dns : List String
  mtu : ℕ
  serverPublicKey : String
  endpoint : String
  allowedIps : List String
  keepalive : ℕ
  deriving DecidableEq

def renderWireguardClientConf (conf : WireguardClientConf) : String :=
  "[Interface]\nPrivateKey = " ++ conf.privateKey ++
    "\nAddress = " ++ conf.address ++
    "\nDNS = " ++ ", ".intercalate conf.dns ++
    "\nMTU = " ++ toString conf.mtu ++
    "\n\n[Peer]\nPublicKey = " ++ conf.serverPublicKey ++
    "\nEndpoint = " ++ conf.endpoint ++
    "\nAllowedIPs = " ++ ", ".intercalate conf.allowedIps ++ "\n" ++
    if 0 < conf.keepalive then "PersistentKeepalive = " ++ toString conf.keepalive ++ "\n" else ""

/-- The peer an e-mail stands for, the last one allocated under it. -/
def allocOf (allocs : List WireguardPeer) (email : String) : Option WireguardPeer :=
  allocs.reverse.find? fun a => a.email = email

section WireguardConfigs

variable (crypto : Crypto) (cfg : ConglomerateConfig) (store : KeyStore)

/-- The config for one hub node, none when it has no WireGuard or no peer of that name. -/
def wireguardConfig (identity : ResolvedIdentity) (node : HubNode) :
    Except Error (Option (String × WireguardClientConf)) := do
  match ← resolveNodeWireguard node cfg.defaults with
  | none => pure none
  | some wg =>
      let allocs ← iterHubWireguardAllocs crypto.uuid5 cfg.users cfg.ns wg.subnet
      match allocOf allocs identity.email with
      | none => pure none
      | some alloc =>
          let hubKeys ← loadNodeKeys store node.id.val
          let conf : WireguardClientConf := {
            privateKey := (deriveUserWireguardKeypair crypto hubKeys.realityPrivateKey
              alloc.identity cfg.ns.name).1
            address := alloc.allowedIp
            dns := [wireguardClientDns]
            mtu := wg.mtu
            serverPublicKey := crypto.x25519UrlsafeToStd hubKeys.realityPublicKey
            endpoint := node.hostname.val ++ ":" ++ toString wg.port.val
            allowedIps := ["0.0.0.0/0"]
            keepalive := wg.keepalive }
          pure (some (node.id.val ++ "  WireGuard  " ++ identity.label, conf))

/-- WireGuard client configs of the one identity a request is for. -/
def wireguardConfigsOf (user : User) (req : ShareRequest) :
    Except Error (List (String × WireguardClientConf)) := do
  let name := Python.repr req.username
  ensure (.wireguard ∈ user.access)
    (.deriveError s!"User {name} does not have WireGuard access")
  let identity ← resolveIdentity crypto.uuid5 user cfg.ns req.guest req.server
  let pairs ← requestedPairs cfg req.hubId
  let configs ← mapEach pairs fun p => wireguardConfig crypto cfg store identity p.2
  let results := configs.filterMap id
  ensure (results ≠ []) (.deriveError s!"No WireGuard-enabled hub nodes found for user {name}")
  pure results

/-- WireGuard client configs for a user, guest or server, or for all guests. -/
def buildWireguardConfigs (req : ShareRequest) :
    Except Error (List (String × WireguardClientConf)) :=
  perIdentity cfg req (wireguardConfigsOf crypto cfg store)

end WireguardConfigs

end HexRift
