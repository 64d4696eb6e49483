import HexRift.Model.Inbounds
import HexRift.Model.Stream

/-! # The rendered config of a node -/

namespace HexRift

open Checks

/-! ## Contexts -/

/-- Cross-inbound data of a node. -/
structure SharedContext where
  nodeId : String
  hostname : String
  ipv6 : Bool
  decryption : String
  dnsAddress : String
  dnsPort : ℤ
  trustedForwardedHeaders : List String
  haproxy : Bool
  routeOnly : Bool
  observability : ObservabilityConfig

def makeShared (cfg : ConglomerateConfig) (region : Region) (node : Node) (keys : NodeKeys) :
    SharedContext :=
  { nodeId := node.id.val
    hostname := node.hostname.val
    ipv6 := resolveNodeIpv6 node region cfg.defaults
    decryption := keys.decryption
    dnsAddress := cfg.global.dns.address
    dnsPort := cfg.global.dns.port
    trustedForwardedHeaders := cfg.global.cdn.elim [] (·.trustedForwardedHeaders)
    haproxy := resolveNodeHaproxy node region cfg.defaults
    routeOnly := region.type ≠ .exit
    observability := resolveNodeObservability node region cfg.defaults cfg.global }

structure ExitContext where
  shared : SharedContext
  slots : Slots
  warpDomains : List String
  extraRoutes : List Rule

structure HubContext where
  shared : SharedContext
  slots : Slots
  published : List PublishedPort
  outbounds : List LinkContext
  warpOutbounds : List LinkContext
  balancers : List Balancer
  routingRules : List Rule
  observatorySelectors : List String
  observatory : ObservatoryConfig

def exitEnv (crypto : Crypto) (cfg : ConglomerateConfig) (region : ExitRegion) (node : ExitNode)
    (keys : NodeKeys) : InboundEnv :=
  { crypto := crypto, cfg := cfg, region := .exit region, node := .exit node, nodeKeys := keys }

def hubEnv (crypto : Crypto) (cfg : ConglomerateConfig) (region : HubRegion) (node : HubNode)
    (keys : NodeKeys) : InboundEnv :=
  { crypto := crypto, cfg := cfg, region := .hub region, node := .hub node, nodeKeys := keys }

def exitRouteRules (route : ExitRoute) : List Rule :=
  (if given route.domains then [{ domain := route.domains, outTag := route.destination }]
    else []) ++
  (if given route.ips then [{ ip := route.ips, outTag := route.destination }] else [])

def buildExitContext (crypto : Crypto) (cfg : ConglomerateConfig) (region : ExitRegion)
    (node : ExitNode) (keys : NodeKeys) : Except Error ExitContext := do
  let routes := (region.routing.bind (·.routes)).getD [] ++ cfg.routing.exitRoutesGlobal
  pure {
    shared := makeShared cfg (.exit region) (.exit node) keys
    slots := ← buildSlots (exitEnv crypto cfg region node keys)
    warpDomains := (region.routing.bind (·.warpExtra)).getD [] ++ cfg.routing.exitWarpGlobal
    extraRoutes := routes.flatMap exitRouteRules }

/-- Prefix of the tag of an exit node's links. -/
def tagPrefix (node : ExitNode) : String :=
  if node.lbRole = some .backup then TagPrefix.backup else TagPrefix.none

/-- The plain link to one exit node, and its warp variant when the region has warp. -/
def buildLinks (crypto : Crypto) (cfg : ConglomerateConfig) (hub : HubNode)
    (exitKeys : String → Option NodeKeys) (region : ExitRegion) (node : ExitNode) :
    Except Error (LinkContext × Option LinkContext) :=
  match exitKeys node.id.val with
  | none => .error (.keyError node.id.val)
  | some keys => do
      let env : LinkEnv :=
        { crypto := crypto, cfg := cfg, hub := hub, exitRegion := region, exitNode := node
          exitKeys := keys, exitConnections := resolveExitConnections hub cfg.defaults }
      let uid := cfg.ns.hubExitUuid crypto.uuid5 hub.id.val node.id.val
      let link ← buildLink env uid (tagPrefix node)
      match region.warp with
      | none => pure (link, none)
      | some _ =>
          let warp ← buildLink env (warpUuid uid) (TagPrefix.warp ++ tagPrefix node)
          pure (link, some warp)

/-- Every rendered exit region with each of its nodes. -/
def renderedExitNodes (cfg : ConglomerateConfig) : List (ExitRegion × ExitNode) :=
  (renderedExitRegions cfg).flatMap fun r => r.nodes.map fun n => (r, n)

def buildHubContext (crypto : Crypto) (cfg : ConglomerateConfig) (region : HubRegion)
    (node : HubNode) (keys : NodeKeys) (exitKeys : String → Option NodeKeys) :
    Except Error HubContext := do
  let links ← mapEach (renderedExitNodes cfg) fun p => buildLinks crypto cfg node exitKeys p.1 p.2
  let published := resolveNodePublishes cfg node
  pure {
    shared := makeShared cfg (.hub region) (.hub node) keys
    slots := ← buildSlots (hubEnv crypto cfg region node keys)
    published := published
    outbounds := links.map (·.1)
    warpOutbounds := links.filterMap (·.2)
    balancers := ← buildBalancers (renderedExitRegions cfg)
    routingRules := ← buildHubRoutingRules cfg published
    observatorySelectors := buildBurstObservatorySelectors (renderedExitRegions cfg)
    observatory := cfg.defaults.hub.observatory }

/-! ## Inbounds -/

inductive InboundSettings where
  | vless (clients : List ClientEntry) (decryption : String)
  | mixed (accounts : List ProxyAccount) (udp : Bool)
  | wireguard (secretKey : String) (mtu : ℕ) (peers : List PeerEntry)
  | hysteria (users : List HysteriaUser)
  | dokodemo (address : String) (port : ℕ) (network : PublishNetwork)

/-- An inbound of the rendered config. -/
structure Inbound where
  tag : String
  listen : String
  /-- Absent when the inbound listens on a unix socket. -/
  port : Option ℕ := none
  protocol : XrayProtocol
  settings : InboundSettings
  network : Option XrayNetwork := none
  security : XraySecurity := .none
  stream : Option StreamSettings := none

def anyAddress (ipv6 : Bool) : String := if ipv6 then "::" else "0.0.0.0"

def DirectSecurity.xray : DirectSecurity → XraySecurity
  | .reality .. => .reality
  | .tls _ => .tls

def DirectSecurity.settings : DirectSecurity → SecuritySettings
  | .tls certificate =>
      .tlsListener { certificates := [.files certificate], alpn := xhttpTlsAlpn }
  | .reality shortIds dest serverNames privateKey fallbackLimits =>
      .realityListener {
        dest := dest
        serverNames := serverNames
        privateKey := privateKey
        shortIds := shortIds
        fallbackLimits := fallbackLimits }

def XhttpContext.fragment (ctx : XhttpContext) (shared : SharedContext) : Inbound :=
  { tag := "direct-xhttp"
    listen := if shared.haproxy then Socket.vlessReality else anyAddress shared.ipv6
    port := if shared.haproxy then none else some realityInboundPort
    protocol := .vless
    settings := .vless ctx.clients shared.decryption
    network := some .xhttp
    security := ctx.security.xray
    stream := some {
      transport := .xhttp (makeXhttpSettings ctx.xhttpHost ctx.xhttpPath false)
      security := some ctx.security.settings } }

def CdnContext.fragment (ctx : CdnContext) (shared : SharedContext) : Inbound :=
  { tag := "cdn-xhttp"
    listen := Socket.vlessTls
    protocol := .vless
    settings := .vless ctx.clients shared.decryption
    network := some .xhttp
    stream := some {
      transport := .xhttp (makeXhttpSettings ctx.xhttpHost ctx.xhttpPath true) } }

def ProxyContext.fragment (ctx : ProxyContext) : Inbound :=
  { tag := "mixed-inbound"
    listen := Socket.mixed
    port := some proxyInboundPort
    protocol := .mixed
    settings := .mixed ctx.accounts true }

def XdnsContext.fragment (ctx : XdnsContext) (shared : SharedContext) : Inbound :=
  { tag := "xdns"
    listen := "0.0.0.0"
    port := some ctx.config.port.val
    protocol := .vless
    settings := .vless ctx.clients shared.decryption
    network := some .mkcp
    stream := some { transport := .kcp ctx.config.domains } }

def WireguardContext.fragment (ctx : WireguardContext) : Inbound :=
  { tag := "wireguard-in"
    listen := "0.0.0.0"
    port := some ctx.config.port.val
    protocol := .wireguard
    settings := .wireguard ctx.secretKey ctx.config.mtu ctx.peers }

def HysteriaContext.fragment (ctx : HysteriaContext) (shared : SharedContext) : Inbound :=
  { tag := "hysteria-in"
    listen := anyAddress shared.ipv6
    port := some ctx.config.port.val
    protocol := .hysteria
    settings := .hysteria ctx.users
    network := some .hysteria
    security := .tls
    stream := some {
      transport := .hysteriaListener ctx.masqueradeUrl (makeHysteriaFinalmask
        ctx.config.congestion ctx.config.up ctx.config.down ctx.obfsPassword
        (if ctx.trunk then some hysteriaTrunkListenerQuic else none))
      security := some (.tlsListener {
        certificates := ctx.certificates
        alpn := hysteriaAlpn }) } }

/-- Dokodemo-door inbound forwarding a published port. -/
def forwardFragment (published : PublishedPort) (shared : SharedContext) : Inbound :=
  { tag := published.tag
    listen := anyAddress shared.ipv6
    port := some published.port
    protocol := .dokodemo
    settings := .dokodemo published.targetHost published.targetPort published.network }

/-- The inbounds of the filled slots, in registry order. -/
def buildInbounds (slots : Slots) (shared : SharedContext) : List Inbound :=
  [slots.xhttp.fragment shared] ++
    slots.cdn.toList.map (·.fragment shared) ++
    slots.proxy.toList.map (·.fragment) ++
    slots.xdns.toList.map (·.fragment shared) ++
    slots.wireguard.toList.map (·.fragment) ++
    slots.hysteria.toList.map (·.fragment shared)

/-! ## Configs -/

inductive OutboundSettings where
  | vless (address : String) (port : ℕ) (id : UUID) (encryption flow : String)
  | hysteria (address : String) (port : ℕ)

/-- An outbound of the rendered config, with the link it renders if it is one. -/
structure Outbound where
  tag : String
  protocol : XrayProtocol
  settings : Option OutboundSettings := none
  stream : Option StreamSettings := none
  link : Option LinkContext := none

def VlessDial.settings (dial : VlessDial) : OutboundSettings :=
  .vless dial.address 443 dial.userId dial.encryption dial.flow

def VlessDial.stream (dial : VlessDial) : StreamSettings :=
  { transport := .xhttp (makeXhttpSettings dial.xhttpHost dial.xhttpPath false)
    security := some (.realityDialer {
      publicKey := dial.publicKey
      fingerprint := dial.fingerprint
      serverName := dial.serverName
      shortId := dial.shortId }) }

def HysteriaDial.settings (dial : HysteriaDial) : OutboundSettings :=
  .hysteria dial.address dial.port

def HysteriaDial.stream (dial : HysteriaDial) : StreamSettings :=
  { transport := .hysteriaDialer dial.auth (makeHysteriaFinalmask dial.congestion dial.brutalUp
      dial.brutalDown dial.obfsPassword (some (hysteriaTrunkDialerQuic dial.chromeParrot)))
    security := some (.tlsDialer {
      serverName := dial.sni
      alpn := hysteriaAlpn
      pinnedPeerCertSha256 := dial.pin }) }

def LinkDial.settings : LinkDial → OutboundSettings
  | .vless dial => dial.settings
  | .hysteria dial => dial.settings

def LinkDial.stream : LinkDial → StreamSettings
  | .vless dial => dial.stream
  | .hysteria dial => dial.stream

def renderLink (link : LinkContext) : Outbound :=
  { tag := link.tag
    protocol := link.protocol
    settings := some link.dial.settings
    stream := some link.dial.stream
    link := some link }

def fixedOutbounds : List Outbound :=
  [{ tag := SpecialDestination.direct.value, protocol := .freedom },
    { tag := SpecialDestination.blocked.value, protocol := .blackhole },
    { tag := SpecialDestination.warp.value, protocol := .freedom }]

/-- Address, port and tag of the metrics api listener. -/
structure Api where
  tag : String
  listen : IPAddress
  port : ℕ

def observabilityBlocks (metrics : MetricsConfig) : Api :=
  { tag := "api", listen := metrics.listen, port := metrics.port.val }

/-- The config rendered for a node, with whether HAProxy fronts it. -/
structure XrayConfig where
  inbounds : List Inbound
  outbounds : List Outbound
  balancers : List Balancer := []
  rules : List Rule
  observatorySelectors : List String := []
  api : Option Api
  haproxy : Bool

def apiOf (shared : SharedContext) : Option Api :=
  if shared.observability.metrics.enabled then
    some (observabilityBlocks shared.observability.metrics)
  else none

def warpRule : Rule :=
  { vlessRoute := some (toString warpVlessRoute), outTag := SpecialDestination.warp.value }

def buildExitConfig (ctx : ExitContext) : XrayConfig :=
  { inbounds := buildInbounds ctx.slots ctx.shared
    outbounds := fixedOutbounds
    rules :=
      [makeDnsDirectRule ctx.shared.dnsAddress ctx.shared.dnsPort] ++ ctx.extraRoutes ++
        [warpRule] ++
        (if ctx.warpDomains = [] then []
          else [{ domain := some ctx.warpDomains, outTag := SpecialDestination.warp.value }])
    api := apiOf ctx.shared
    haproxy := ctx.shared.haproxy }

def buildHubConfig (ctx : HubContext) : XrayConfig :=
  { inbounds := buildInbounds ctx.slots ctx.shared ++
      ctx.published.map fun pub => forwardFragment pub ctx.shared
    outbounds := (ctx.outbounds ++ ctx.warpOutbounds).map renderLink ++ fixedOutbounds
    balancers := ctx.balancers
    rules := ctx.routingRules
    observatorySelectors := ctx.observatorySelectors
    api := apiOf ctx.shared
    haproxy := ctx.shared.haproxy }

/-- Stored keys of every node, by id. -/
abbrev KeyStore := String → Option NodeKeys

def loadNodeKeys (store : KeyStore) (nodeId : String) : Except Error NodeKeys :=
  match store nodeId with
  | some keys => .ok keys
  | none =>
      .error (.keysError
        s!"No keys found for node {Python.repr nodeId}. Run: hexrift gen-keys {nodeId}")

/-- The config of an exit node, from its stored keys. -/
def renderExit (crypto : Crypto) (cfg : ConglomerateConfig) (store : KeyStore)
    (region : ExitRegion) (node : ExitNode) : Except Error XrayConfig := do
  let keys ← loadNodeKeys store node.id.val
  pure (buildExitConfig (← buildExitContext crypto cfg region node keys))

/-- The config of a hub node, from its stored keys and those of every exit node. -/
def renderHub (crypto : Crypto) (cfg : ConglomerateConfig) (store : KeyStore)
    (region : HubRegion) (node : HubNode) : Except Error XrayConfig := do
  let keys ← loadNodeKeys store node.id.val
  let exitIds := cfg.exitRegions.flatMap fun r => r.nodes.map (·.id.val)
  let exitKeys ← mapEach exitIds fun id => do pure (id, ← loadNodeKeys store id)
  pure (buildHubConfig (← buildHubContext crypto cfg region node keys fun id => exitKeys.lookup id))

/-- A node in its region. -/
inductive Placed where
  | exit (region : ExitRegion) (node : ExitNode)
  | hub (region : HubRegion) (node : HubNode)

namespace Placed

def region : Placed → Region
  | exit r _ => .exit r
  | hub r _ => .hub r

def node : Placed → Node
  | exit _ n => .exit n
  | hub _ n => .hub n

end Placed

def Region.placed : Region → List Placed
  | .exit r => r.nodes.map (.exit r)
  | .hub r => r.nodes.map (.hub r)

/-- Every node of a topology. -/
def ConglomerateConfig.placed (cfg : ConglomerateConfig) : List Placed :=
  cfg.regions.flatMap Region.placed

def renderNode (crypto : Crypto) (cfg : ConglomerateConfig) (store : KeyStore) :
    Placed → Except Error XrayConfig
  | .exit r n => renderExit crypto cfg store r n
  | .hub r n => renderHub crypto cfg store r n

end HexRift
