import HexRift.Model.Keys
import HexRift.Model.Topology

/-! # Inbounds of a node -/

namespace HexRift

/-- Resolution inputs for one node. -/
structure InboundEnv where
  crypto : Crypto
  cfg : ConglomerateConfig
  region : Region
  node : Node
  nodeKeys : NodeKeys

namespace InboundEnv

variable (env : InboundEnv)

def ns : Namespace := env.cfg.ns

def hubNodes : List HubNode := env.cfg.hubRegions.flatMap (·.nodes)

def hubRegion : Except Error HubRegion :=
  match env.region with
  | .hub r => .ok r
  | .exit r => .error (.renderError s!"Region {Python.repr r.id.val} is not a hub region")

def hubNode : Except Error HubNode :=
  match env.node with
  | .hub n => .ok n
  | .exit n => .error (.renderError s!"Node {Python.repr n.id.val} is not a hub node")

def exitNode : Except Error ExitNode :=
  match env.node with
  | .exit n => .ok n
  | .hub n => .error (.renderError s!"Node {Python.repr n.id.val} is not an exit node")

end InboundEnv

/-! ## Clients -/

/-- VLESS inbound client entry; `reverse` is present only for portal clients. -/
structure ClientEntry where
  email : String
  id : UUID
  flow : String
  reverse : Option String := none
  deriving DecidableEq

structure HysteriaUser where
  auth : UUID
  email : String
  deriving DecidableEq

def hysteriaUsers (clients : List ClientEntry) : List HysteriaUser :=
  clients.map fun c => { auth := c.id, email := c.email }

section Clients

variable (uuid5 : Uuid5) (ns : Namespace)

/-- Hub-exit clients for the inbounds of an exit. -/
def getExitClients (hubNodes : List HubNode) (exitNode : ExitNode) (flow : String) :
    List ClientEntry :=
  hubNodes.map fun hub =>
    { email := ns.hubExitEmail hub.id.val exitNode.id.val
      id := ns.hubExitUuid uuid5 hub.id.val exitNode.id.val
      flow := flow }

def userClient (user : User) (flow : String) : ClientEntry :=
  { email := ns.userEmail user.username.val
    id := ns.userUuid uuid5 user.username.val user.uuid
    flow := flow }

def serverClient (user : User) (flow : String) : ClientEntry :=
  { email := serverEmail user.username.val
    id := ns.serverUuid uuid5 user.username.val
      (some (ns.userUuid uuid5 user.username.val user.uuid))
    flow := flow }

def guestClient (user : User) (flow : String) (label : Identifier) : ClientEntry :=
  { email := guestEmail label.val user.username.val
    id := ns.guestUuid uuid5 label.val user.username.val
      (some (ns.userUuid uuid5 user.username.val user.uuid))
    flow := flow }

/-- Clients (user, optional server, guests) for a hub inbound gated by access type. -/
def getHubAccessClients (users : List User) (access : AccessType) (flow : String)
    (includeServer : Bool := false) : List ClientEntry :=
  users.flatMap fun u =>
    if access ∉ u.access then []
    else
      userClient uuid5 ns u flow ::
        ((if includeServer && .server ∈ u.access then [serverClient uuid5 ns u flow] else []) ++
          u.guests.map (guestClient uuid5 ns u flow))

/-- One reverse client per portal. -/
def getPortalClients (portals : List Portal) (flow : String) : List ClientEntry :=
  portals.map fun portal =>
    { email := ns.portalEmail portal.id.val
      id := ns.portalUuid uuid5 portal.id.val portal.uuid
      flow := flow
      reverse := some (portalTag portal.id) }

/-- Clients for the direct inbound of a Reality hub. -/
def getHubVlessClients (users : List User) (portals : List Portal) (flow : String) :
    List ClientEntry :=
  (users.flatMap fun u =>
    (if .xhttp ∈ u.access then [userClient uuid5 ns u flow] else []) ++
      (if .server ∈ u.access then [serverClient uuid5 ns u flow] else []) ++
      (if .xhttp ∈ u.access then u.guests.map (guestClient uuid5 ns u flow) else [])) ++
    getPortalClients uuid5 ns portals flow

end Clients

section ShortIds

variable (crypto : Crypto) (ns : Namespace)

def getHubShortIds (groups : List Group) : List String :=
  groups.map (ns.groupShortId crypto)

/-- One shortId per portal. -/
def getHubPortalShortIds (portals : List Portal) : List String :=
  portals.map fun p => ns.portalShortId crypto p.id.val

/-- One shortId per user with guests. -/
def getHubUserShortIds (users : List User) : List String :=
  (users.filter fun u =>
    u.guests ≠ [] ∧ (AccessType.xhttp ∈ u.access ∨ AccessType.cdn ∈ u.access)).foldl
    (fun result u =>
      let sid := ns.userShortId crypto u.username.val
      if sid ∈ result then result else result ++ [sid]) []

end ShortIds

/-! ## Contexts -/

/-- Security of the direct inbound. -/
inductive DirectSecurity where
  | reality (shortIds : List String) (dest : String) (serverNames : List String)
      (privateKey : String) (fallbackLimits : RealityFallbackLimits)
  | tls (certificate : CertificateFiles)
  deriving DecidableEq

structure XhttpContext where
  clients : List ClientEntry
  xhttpHost : String
  xhttpPath : String
  security : DirectSecurity
  deriving DecidableEq

structure CdnContext where
  xhttpHost : String
  xhttpPath : String
  certAlias : String
  domain : String
  clients : List ClientEntry

structure ProxyAccount where
  user : String
  pass : UUID
  deriving DecidableEq

structure ProxyContext where
  accounts : List ProxyAccount

structure XdnsContext where
  config : XdnsConfig
  clients : List ClientEntry

structure PeerEntry where
  email : String
  publicKey : String
  allowedIps : List String
  keepAlive : ℕ
  deriving DecidableEq

structure WireguardContext where
  config : WireguardConfig
  peers : List PeerEntry
  secretKey : String

structure HysteriaContext where
  users : List HysteriaUser
  config : HysteriaConfig
  sni : String
  masqueradeUrl : String
  certificates : List CertificateEntry
  obfsPassword : Option String
  pin : Option String
  trunk : Bool

/-! ## Building the contexts -/

section Build

variable (env : InboundEnv)

def realityContext (xhttp : XhttpConfig) (clients : List ClientEntry) (shortIds : List String) :
    Except Error XhttpContext := do
  let reality ← resolveNodeReality env.node env.region env.cfg.defaults
  pure {
    clients := clients
    xhttpHost := ← deriveXhttpHost reality xhttp
    xhttpPath := xhttp.path.val
    security := .reality shortIds reality.dest.val (← deriveServerNames reality)
      env.nodeKeys.realityPrivateKey reality.fallbackLimits }

def buildExitXhttp (xhttp : XhttpConfig) : Except Error XhttpContext := do
  let exitNode ← env.exitNode
  let clients := getExitClients env.crypto.uuid5 env.ns env.hubNodes exitNode env.nodeKeys.flow
  realityContext env xhttp clients [env.ns.exitShortId env.crypto env.node.id.val]

def buildHubXhttp (xhttp : XhttpConfig) : Except Error XhttpContext := do
  let flow := env.nodeKeys.flow
  match ← resolveRegionTls (← env.hubRegion) env.cfg.defaults with
  | some tls =>
      pure {
        clients := getHubAccessClients env.crypto.uuid5 env.ns env.cfg.users .tls flow true ++
          getPortalClients env.crypto.uuid5 env.ns env.cfg.portals flow
        xhttpHost := (xhttp.host.getD env.node.hostname).val
        xhttpPath := xhttp.path.val
        security := .tls tls.certificate }
  | none =>
      realityContext env xhttp
        (getHubVlessClients env.crypto.uuid5 env.ns env.cfg.users env.cfg.portals flow)
        (getHubShortIds env.crypto env.ns env.cfg.groups ++
          getHubPortalShortIds env.crypto env.ns env.cfg.portals ++
          getHubUserShortIds env.crypto env.ns env.cfg.users)

/-- Direct VLESS inbound over XHTTP with Reality or TLS. -/
def buildXhttp : Except Error XhttpContext := do
  let xhttp ← resolveNodeXhttp env.node env.region env.cfg.defaults
  match env.region.type with
  | .exit => buildExitXhttp env xhttp
  | .hub => buildHubXhttp env xhttp

/-- Text before the first dot. -/
def firstLabel (domain : String) : String :=
  String.ofList (domain.toList.takeWhile (· ≠ '.'))

/-- CDN-fronted VLESS inbound, TLS terminated by HAProxy. -/
def buildCdn : Except Error (Option CdnContext) :=
  match env.cfg.global.cdn, env.region.cdnXhttpPath with
  | some cdn, some path =>
      match env.region.type with
      | .exit => do
          let exitNode ← env.exitNode
          pure (some {
            xhttpHost := env.node.id.val ++ "." ++ cdn.exitDomain.val
            xhttpPath := path.val
            certAlias := firstLabel cdn.exitDomain.val
            domain := cdn.exitDomain.val
            clients := getExitClients env.crypto.uuid5 env.ns env.hubNodes exitNode
              env.nodeKeys.flow })
      | .hub =>
          .ok (some {
            xhttpHost := cdn.hubDomain.val
            xhttpPath := path.val
            certAlias := firstLabel cdn.hubDomain.val
            domain := cdn.hubDomain.val
            clients := getHubAccessClients env.crypto.uuid5 env.ns env.cfg.users .cdn
              env.nodeKeys.flow true })
  | _, _ => .ok none

def proxyAccounts (uuid5 : Uuid5) (ns : Namespace) (user : User) : List ProxyAccount :=
  let name := user.username.val
  let base := ns.userUuid uuid5 name user.uuid
  if .proxy ∈ user.access then
    { user := name, pass := base } ::
      user.guests.map fun label =>
        { user := guestEmail label.val name
          pass := ns.guestUuid uuid5 label.val name (some base) }
  else []

/-- Mixed-protocol proxy inbound with username and password. -/
def buildProxy : Except Error (Option ProxyContext) := do
  let node ← env.hubNode
  if resolveNodeProxyInbound node env.cfg.defaults then
    pure (some { accounts := env.cfg.users.flatMap (proxyAccounts env.crypto.uuid5 env.ns) })
  else pure none

/-- DNS service inbound over mKCP; flow is empty. -/
def buildXdns : Except Error (Option XdnsContext) := do
  let node ← env.hubNode
  match resolveNodeXdns node env.cfg.defaults with
  | none => pure none
  | some xdns =>
      let clients := getHubAccessClients env.crypto.uuid5 env.ns env.cfg.users .xdns ""
      if clients = [] then pure none
      else pure (some { config := xdns, clients := clients })

def getHubWireguardPeers (crypto : Crypto) (users : List User) (ns : Namespace)
    (subnet : IPNetwork) (realityPrivateKey : String) (keepalive : ℕ) :
    Except Error (List PeerEntry) := do
  let allocs ← iterHubWireguardAllocs crypto.uuid5 users ns subnet
  pure (allocs.map fun alloc =>
    { email := alloc.email
      publicKey :=
        (deriveUserWireguardKeypair crypto realityPrivateKey alloc.identity ns.name).2
      allowedIps := [alloc.allowedIp]
      keepAlive := keepalive })

def buildWireguard : Except Error (Option WireguardContext) := do
  let node ← env.hubNode
  match ← resolveNodeWireguard node env.cfg.defaults with
  | none => pure none
  | some wireguard =>
      let peers ← getHubWireguardPeers env.crypto env.cfg.users env.ns wireguard.subnet
        env.nodeKeys.realityPrivateKey wireguard.keepalive
      if peers = [] then pure none
      else
        pure (some {
          config := wireguard
          peers := peers
          secretKey := env.crypto.x25519UrlsafeToStd env.nodeKeys.realityPrivateKey })

def hysteriaClients : Except Error (List ClientEntry) :=
  match env.region.type with
  | .exit => do
      pure (getExitClients env.crypto.uuid5 env.ns env.hubNodes (← env.exitNode) vlessFlow)
  | .hub => .ok (getHubAccessClients env.crypto.uuid5 env.ns env.cfg.users .hysteria "" true)

def buildHysteria : Except Error (Option HysteriaContext) :=
  match resolveNodeHysteria env.node env.region env.cfg.defaults with
  | none => .ok none
  | some hysteria => do
      let clients ← hysteriaClients env
      if clients = [] then pure none
      else
        let reality ← resolveNodeReality env.node env.region env.cfg.defaults
        let ep ← deriveHysteriaEndpoint env.crypto hysteria reality
          env.nodeKeys.realityPrivateKey env.ns.name
        pure (some {
          users := hysteriaUsers clients
          config := hysteria
          sni := ep.sni
          masqueradeUrl := deriveHysteriaMasqueradeUrl hysteria ep.sni
          certificates := ep.certificates
          obfsPassword := ep.obfsPassword
          pin := ep.pin
          trunk := env.region.type = .exit })

/-- The resolved inbounds of a node, one slot per inbound type. -/
structure Slots where
  xhttp : XhttpContext
  cdn : Option CdnContext
  proxy : Option ProxyContext := none
  xdns : Option XdnsContext := none
  wireguard : Option WireguardContext := none
  hysteria : Option HysteriaContext

/-- Resolve the inbounds of the node's role, in registry order. -/
def buildSlots : Except Error Slots := do
  let xhttp ← buildXhttp env
  let cdn ← buildCdn env
  match env.region.type with
  | .exit => pure { xhttp := xhttp, cdn := cdn, hysteria := ← buildHysteria env }
  | .hub =>
      pure {
        xhttp := xhttp
        cdn := cdn
        proxy := ← buildProxy env
        xdns := ← buildXdns env
        wireguard := ← buildWireguard env
        hysteria := ← buildHysteria env }

end Build

end HexRift
