import HexRift.Model.Fields
import Mathlib.Data.Rat.Defs

/-! # Schema models

The data of a topology file. What a model validator rejects about one model alone is a
proof field of its structure; the cross-references between models are checked in
`validateReferences`. -/

namespace HexRift

/-- A 128-bit UUID by its five printed segments. -/
structure UUID where
  timeLow : BitVec 32
  timeMid : BitVec 16
  timeHiVersion : BitVec 16
  clockSeq : BitVec 16
  node : BitVec 48
  deriving DecidableEq

/-! ## Observability -/

structure IPAddress where
  version : IPVersion
  text : String
  deriving DecidableEq

structure MetricsConfig where
  enabled : Bool := false
  listen : IPAddress := ⟨.v4, "127.0.0.1"⟩
  port : Port := { val := 10085 }
  userStats : Bool := true
  online : Bool := true
  deriving DecidableEq

structure MetricsOverride where
  enabled : Option Bool := none
  listen : Option IPAddress := none
  port : Option Port := none
  userStats : Option Bool := none
  online : Option Bool := none
  deriving DecidableEq

structure LoggingConfig where
  loglevel : LogLevel := .none
  access : String := "none"
  error : String := "none"
  dnsLog : Bool := false
  deriving DecidableEq

structure LoggingOverride where
  loglevel : Option LogLevel := none
  access : Option String := none
  error : Option String := none
  dnsLog : Option Bool := none
  deriving DecidableEq

structure ObservabilityConfig where
  metrics : MetricsConfig := {}
  logging : LoggingConfig := {}
  deriving DecidableEq

structure ObservabilityOverride where
  metrics : Option MetricsOverride := none
  logging : Option LoggingOverride := none
  deriving DecidableEq

/-! ## Shared blocks -/

structure RealityFallbackLimits where
  afterBytes : ℤ := 16384
  bytesPerSec : ℤ := 50000
  burstBytesPerSec : ℤ := 100000
  deriving DecidableEq

structure XhttpConfig where
  path : XrayPath
  /-- Host header, defaults to the reality dest host, or the node hostname under TLS. -/
  host : Option DnsName := none
  deriving DecidableEq

structure XhttpOverride where
  path : Option XrayPath := none
  host : Option DnsName := none
  deriving DecidableEq

structure RealityConfig where
  dest : HostPort
  serverNames : Option (List String) := none
  fallbackLimits : RealityFallbackLimits := {}
  serverNames_ne : serverNames ≠ some [] := by decide
  deriving DecidableEq

structure CertificateFiles where
  certFile : String
  keyFile : String
  deriving DecidableEq

structure HysteriaCertificate extends CertificateFiles where
  pinSha256 : Option String := none
  deriving DecidableEq

structure TlsConfig where
  certificate : CertificateFiles
  deriving DecidableEq

structure TlsOverride where
  certificate : Option CertificateFiles := none
  deriving DecidableEq

structure XdnsConfig where
  domains : List String
  port : Port := { val := 53 }
  deriving DecidableEq

structure WireguardConfig where
  port : Port := { val := 443 }
  mtu : ℕ := 1420
  subnet : IPNetwork
  keepalive : ℕ := 0
  kernelMode : Bool := false
  mtu_range : 576 ≤ mtu ∧ mtu ≤ 65535 := by decide
  deriving DecidableEq

structure NodeWireguardOverride where
  enabled : Option Bool := none
  port : Option Port := none
  mtu : Option ℕ := none
  subnet : Option IPNetwork := none
  keepalive : Option ℕ := none
  kernelMode : Option Bool := none
  mtu_range : ∀ m ∈ mtu, 576 ≤ m ∧ m ≤ 65535 := by decide
  deriving DecidableEq

structure HysteriaConfig where
  port : Port := { val := hysteriaInboundPort }
  obfs : Bool := false
  congestion : HysteriaCongestion := .bbr
  up : Option String := none
  down : Option String := none
  sni : Option DnsName := none
  masqueradeUrl : Option String := none
  keyType : Option HysteriaKeyType := none
  certificate : Option HysteriaCertificate := none
  deriving DecidableEq

structure HysteriaOverride where
  enabled : Option Bool := none
  port : Option Port := none
  obfs : Option Bool := none
  congestion : Option HysteriaCongestion := none
  up : Option String := none
  down : Option String := none
  sni : Option DnsName := none
  masqueradeUrl : Option String := none
  keyType : Option HysteriaKeyType := none
  certificate : Option HysteriaCertificate := none
  deriving DecidableEq

/-! ## `global` -/

structure CdnConfig where
  exitDomain : DnsName
  hubDomain : DnsName
  trustedForwardedHeaders : List String := ["X-Real-IP"]
  deriving DecidableEq

structure DnsServerConfig where
  address : String := "127.0.0.1"
  port : ℤ := 53
  address_ip : Python.isIpAddress address.toList = true := by decide
  deriving DecidableEq

structure GlobalConfig where
  «namespace» : DnsName
  aphelionDomain : DnsName
  cdn : Option CdnConfig := none
  dns : DnsServerConfig := {}
  observability : ObservabilityConfig := {}
  deriving DecidableEq

/-! ## `defaults` -/

structure ObservatoryConfig where
  sampling : ℕ := 8
  interval : String := "15s"
  timeout : String := "5s"
  concurrency : Bool := true
  sampling_range : 1 ≤ sampling ∧ sampling ≤ 24 := by decide
  deriving DecidableEq

structure KeysConfig where
  enabled : Bool := true
  mode : String
  sessionTime : String
  auth : AuthMethod := .mlkem768
  padding : Option String := none
  deriving DecidableEq

structure NodeKeysOverride where
  enabled : Option Bool := none
  mode : Option String := none
  sessionTime : Option String := none
  auth : Option AuthMethod := none
  padding : Option String := none
  sessionTime_duration : ∀ s ∈ sessionTime, isDuration s = true := by decide
  deriving DecidableEq

structure ExitConnectionsConfig where
  method : HandshakeMethod
  fingerprint : TlsFingerprint := .edge
  deriving DecidableEq

structure NodeExitConnectionsOverride where
  method : Option HandshakeMethod := none
  fingerprint : Option TlsFingerprint := none
  deriving DecidableEq

structure ExitDefaults where
  ipv6 : Bool
  haproxy : Bool := true
  keys : KeysConfig
  xhttp : Option XhttpConfig := none
  hysteria : Option HysteriaConfig := none
  observability : Option ObservabilityOverride := none
  deriving DecidableEq

structure HubDefaults where
  proxyInbound : Bool := false
  ipv6 : Bool
  haproxy : Bool := true
  keys : KeysConfig
  exitConnections : ExitConnectionsConfig
  reality : Option RealityConfig := none
  tls : Option TlsConfig := none
  xhttp : Option XhttpConfig := none
  xdns : Option XdnsConfig := none
  wireguard : Option WireguardConfig := none
  hysteria : Option HysteriaConfig := none
  observatory : ObservatoryConfig := {}
  observability : Option ObservabilityOverride := none
  one_direct_security : reality.isNone ≠ tls.isNone := by decide
  deriving DecidableEq

structure DefaultsConfig where
  exit : ExitDefaults
  hub : HubDefaults
  deriving DecidableEq

/-! ## Groups, users and portals -/

structure Group where
  id : Identifier
  shortId : Option ShortId := none
  deriving DecidableEq

structure User where
  username : Identifier
  group : Identifier
  access : List AccessType
  uuid : Option UUID := none
  guests : List Identifier := []
  deriving DecidableEq

/-- Destinations steered into a portal's reverse tunnel. -/
structure PortalRoutes where
  domains : Option (List String) := none
  ips : Option (List String) := none
  matchers : domains.getD [] ≠ [] ∨ ips.getD [] ≠ [] := by decide
  deriving DecidableEq

/-- A port forwarded from hub nodes into a portal's reverse tunnel. -/
structure PortalPublish where
  port : Port
  target : HostPort
  network : PublishNetwork := .tcp
  /-- Source allowlist; unset means any source. -/
  allow : Option (List String) := none
  /-- Hub nodes that bind the port; unset means every hub node. -/
  nodes : Option (List Identifier) := none
  allow_ne : allow ≠ some [] := by decide
  nodes_ne : nodes ≠ some [] := by decide
  unique_nodes : (nodes.getD []).Nodup := by decide
  deriving DecidableEq

/-- Reverse tunnel to a machine outside the hub/exit topology. -/
structure Portal where
  id : Identifier
  users : List Identifier
  routes : PortalRoutes
  uuid : Option UUID := none
  publish : List PortalPublish := []
  strict : Bool := true
  users_ne : users ≠ [] := by decide
  unique_users : users.Nodup := by decide
  deriving DecidableEq

/-! ## `routing` -/

structure ExitRoute where
  destination : String
  domains : Option (List String) := none
  ips : Option (List String) := none
  matchers : domains.getD [] ≠ [] ∨ ips.getD [] ≠ [] := by decide
  deriving DecidableEq

structure HubRoute where
  destination : String
  domains : Option (List String) := none
  ips : Option (List String) := none
  users : Option (List String) := none
  proxyUsers : Option (List String) := none
  matchers : domains.getD [] ≠ [] ∨ ips.getD [] ≠ [] ∨ users.getD [] ≠ [] ∨
    proxyUsers.getD [] ≠ [] := by decide
  deriving DecidableEq

structure RoutingConfig where
  exitWarpGlobal : List String := []
  exitRoutesGlobal : List ExitRoute := []
  hubRoutes : List HubRoute := []
  hubDefault : String
  deriving DecidableEq

/-! ## `regions` -/

structure RegionRouting where
  warpExtra : Option (List String) := none
  routes : Option (List ExitRoute) := none
  deriving DecidableEq

structure LeastLoadSettings where
  baselines : List String := ["30ms", "100ms", "250ms"]
  expected : ℕ := 1
  maxRtt : String := "750ms"
  tolerance : ℚ := 1 / 2
  deriving DecidableEq

structure WarpConfig where
  vlessRoute : VlessRoute
  deriving DecidableEq

structure ExitNode where
  id : Identifier
  hostname : DnsName
  ipv6 : Option Bool := none
  haproxy : Option Bool := none
  lbRole : Option LbRole := none
  reality : Option RealityConfig := none
  xhttp : Option XhttpOverride := none
  keys : Option NodeKeysOverride := none
  hysteria : Option HysteriaOverride := none
  observability : Option ObservabilityOverride := none
  deriving DecidableEq

structure HubNode where
  id : Identifier
  hostname : DnsName
  ipv6 : Option Bool := none
  haproxy : Option Bool := none
  reality : Option RealityConfig := none
  xhttp : Option XhttpOverride := none
  keys : Option NodeKeysOverride := none
  exitConnections : Option NodeExitConnectionsOverride := none
  proxyInbound : Option Bool := none
  xdns : Option XdnsConfig := none
  wireguard : Option NodeWireguardOverride := none
  hysteria : Option HysteriaOverride := none
  observability : Option ObservabilityOverride := none
  deriving DecidableEq

structure ExitRegion where
  id : Identifier
  vlessRoute : Option VlessRoute := none
  protocol : Option ExitProtocol := none
  hysteria : Option HysteriaOverride := none
  xhttp : Option XhttpOverride := none
  cdnXhttpPath : Option XrayPath := none
  lbStrategy : Option LbStrategy := none
  lbFallback : Option String := none
  lbLeastLoad : Option LeastLoadSettings := none
  routing : Option RegionRouting := none
  warp : Option WarpConfig := none
  nodes : List ExitNode
  deriving DecidableEq

structure HubRegion where
  id : Identifier
  reality : Option RealityConfig := none
  tls : Option TlsOverride := none
  xhttp : Option XhttpOverride := none
  cdnXhttpPath : Option XrayPath := none
  nodes : List HubNode
  one_direct_security : ¬ (reality.isSome ∧ tls.isSome) := by decide
  deriving DecidableEq

inductive Node where
  | exit (node : ExitNode)
  | hub (node : HubNode)
  deriving DecidableEq

inductive Region where
  | exit (region : ExitRegion)
  | hub (region : HubRegion)
  deriving DecidableEq

namespace Node

def id : Node → Identifier
  | .exit n => n.id
  | .hub n => n.id

def hostname : Node → DnsName
  | .exit n => n.hostname
  | .hub n => n.hostname

def ipv6 : Node → Option Bool
  | .exit n => n.ipv6
  | .hub n => n.ipv6

def haproxy : Node → Option Bool
  | .exit n => n.haproxy
  | .hub n => n.haproxy

def reality : Node → Option RealityConfig
  | .exit n => n.reality
  | .hub n => n.reality

def xhttp : Node → Option XhttpOverride
  | .exit n => n.xhttp
  | .hub n => n.xhttp

def hysteria : Node → Option HysteriaOverride
  | .exit n => n.hysteria
  | .hub n => n.hysteria

def observability : Node → Option ObservabilityOverride
  | .exit n => n.observability
  | .hub n => n.observability

end Node

namespace Region

def type : Region → RegionType
  | .exit _ => .exit
  | .hub _ => .hub

def id : Region → Identifier
  | .exit r => r.id
  | .hub r => r.id

def xhttp : Region → Option XhttpOverride
  | .exit r => r.xhttp
  | .hub r => r.xhttp

def cdnXhttpPath : Region → Option XrayPath
  | .exit r => r.cdnXhttpPath
  | .hub r => r.cdnXhttpPath

def nodes : Region → List Node
  | .exit r => r.nodes.map .exit
  | .hub r => r.nodes.map .hub

def exit? : Region → Option ExitRegion
  | .exit r => some r
  | .hub _ => none

def hub? : Region → Option HubRegion
  | .exit _ => none
  | .hub r => some r

end Region

/-! ## The topology -/

structure ConglomerateConfig where
  global : GlobalConfig
  defaults : DefaultsConfig
  groups : List Group
  users : List User
  portals : List Portal := []
  routing : RoutingConfig
  regions : List Region
  deriving DecidableEq

namespace ConglomerateConfig

def exitRegions (cfg : ConglomerateConfig) : List ExitRegion :=
  cfg.regions.filterMap Region.exit?

def hubRegions (cfg : ConglomerateConfig) : List HubRegion :=
  cfg.regions.filterMap Region.hub?

end ConglomerateConfig

end HexRift
