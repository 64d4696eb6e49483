import HexRift.Model.Schema

/-! # Overlay resolution of node, region and default settings -/

namespace HexRift

/-! ## Hub listeners -/

/-- Whether a hub node exposes the mixed proxy inbound. -/
def resolveNodeProxyInbound (node : HubNode) (defaults : DefaultsConfig) : Bool :=
  node.proxyInbound.getD defaults.hub.proxyInbound

def resolveNodeXdns (node : HubNode) (defaults : DefaultsConfig) : Option XdnsConfig :=
  node.xdns.or defaults.hub.xdns

/-- Wireguard port a hub node listens on, or none when wireguard is off for it. -/
def resolveNodeWireguardPort (node : HubNode) (defaults : DefaultsConfig) : Option Port :=
  match node.wireguard with
  | none => defaults.hub.wireguard.map (·.port)
  | some override =>
      if override.enabled = some false then none
      else some (override.port.getD (defaults.hub.wireguard.elim { val := 443 } (·.port)))

/-- The mtu of a wireguard overlay, in range because every layer is. -/
def overlayMtu (override : NodeWireguardOverride) (base : Option WireguardConfig) :
    {m : ℕ // 576 ≤ m ∧ m ≤ 65535} :=
  match h : override.mtu with
  | some m => ⟨m, override.mtu_range m h⟩
  | none =>
      match base with
      | some b => ⟨b.mtu, b.mtu_range⟩
      | none => ⟨1420, by decide⟩

/-- Wireguard config for a hub node after the node > defaults.hub overlay. -/
def resolveNodeWireguard (node : HubNode) (defaults : DefaultsConfig) :
    Except Error (Option WireguardConfig) :=
  let base := defaults.hub.wireguard
  match resolveNodeWireguardPort node defaults with
  | none => .ok none
  | some port =>
      match node.wireguard with
      | none => .ok base
      | some override =>
          match override.subnet.or (base.map (·.subnet)) with
          | none =>
              .error (.deriveError
                s!"Node {Python.repr node.id.val}: wireguard.subnet must be set (no default configured)")
          | some subnet =>
              .ok (some {
                port := port
                mtu := overlayMtu override base
                subnet := subnet
                keepalive := override.keepalive.getD (base.elim 0 (·.keepalive))
                kernelMode := override.kernelMode.getD (base.elim false (·.kernelMode))
                mtu_range := (overlayMtu override base).2 })

/-! ## Direct inbound -/

def TlsConfig.overlay (base : TlsConfig) (override : TlsOverride) : TlsConfig :=
  { certificate := override.certificate.getD base.certificate }

/-- TLS config of a hub region's direct inbounds, none when the region serves Reality. -/
def resolveRegionTls (region : HubRegion) (defaults : DefaultsConfig) :
    Except Error (Option TlsConfig) :=
  if region.reality.isSome then .ok none
  else
    match region.tls with
    | none => .ok defaults.hub.tls
    | some tls =>
        match defaults.hub.tls with
        | some base => .ok (some (base.overlay tls))
        | none =>
            match tls.certificate with
            | none =>
                .error (.deriveError
                  s!"Hub region {Python.repr region.id.val}: tls.certificate must be set (defaults.hub.tls is not configured)")
            | some certificate => .ok (some (TlsConfig.overlay ⟨certificate⟩ tls))

def XhttpOverride.overlay (base : XhttpOverride) (override : Option XhttpOverride) :
    XhttpOverride :=
  match override with
  | none => base
  | some o => { path := o.path.or base.path, host := o.host.or base.host }

def XhttpConfig.asOverride (xhttp : XhttpConfig) : XhttpOverride :=
  { path := some xhttp.path, host := xhttp.host }

/-- The default xhttp layer of a region's role. A default host names the security of
`defaults.hub`, so a hub region serving the other kind loses it. -/
def xhttpBase (region : Region) (defaults : DefaultsConfig) : Except Error (Option XhttpConfig) :=
  match region with
  | .exit _ => .ok defaults.exit.xhttp
  | .hub r =>
      match defaults.hub.xhttp with
      | none => .ok none
      | some base => do
          let tls ← resolveRegionTls r defaults
          if tls.isNone ≠ defaults.hub.tls.isNone then pure (some { base with host := none })
          else pure (some base)

/-- XHTTP settings of a node's direct inbound: node > region > defaults of the role. -/
def resolveNodeXhttp (node : Node) (region : Region) (defaults : DefaultsConfig) :
    Except Error XhttpConfig := do
  let base ← xhttpBase region defaults
  let xhttp := ((XhttpOverride.overlay {} (base.map XhttpConfig.asOverride)).overlay
    region.xhttp).overlay node.xhttp
  match xhttp.path with
  | none =>
      throw (.deriveError
        s!"Node {Python.repr node.id.val}: xhttp.path is not set on node, region or defaults.{region.type.value}")
  | some path => pure { path := path, host := xhttp.host }

/-- Reality config of a node: its own, else that of its hub region or of `defaults.hub`. -/
def resolveNodeReality (node : Node) (region : Region) (defaults : DefaultsConfig) :
    Except Error RealityConfig :=
  match node.reality with
  | some reality => .ok reality
  | none =>
      match region with
      | .hub r =>
          match r.reality.or defaults.hub.reality with
          | some reality => .ok reality
          | none =>
              .error (.deriveError
                s!"Hub region {Python.repr r.id.val} serves TLS, node {Python.repr node.id.val} has no reality config")
      | .exit _ =>
          .error (.deriveError s!"Exit node {Python.repr node.id.val} must have a reality config")

def resolveNodeIpv6 (node : Node) (region : Region) (defaults : DefaultsConfig) : Bool :=
  node.ipv6.getD (match region with
    | .exit _ => defaults.exit.ipv6
    | .hub _ => defaults.hub.ipv6)

def resolveNodeHaproxy (node : Node) (region : Region) (defaults : DefaultsConfig) : Bool :=
  node.haproxy.getD (match region with
    | .exit _ => defaults.exit.haproxy
    | .hub _ => defaults.hub.haproxy)

/-! ## Hysteria -/

/-- Protocol hubs use to dial an exit region. -/
def resolveLinkProtocol (region : ExitRegion) : ExitProtocol :=
  region.protocol.getD .vless

/-- Apply one hysteria override layer on top of a resolved hysteria config. -/
def overlayHysteria (base : HysteriaConfig) (override : Option HysteriaOverride) :
    HysteriaConfig :=
  match override with
  | none => base
  | some o =>
      { port := o.port.getD base.port
        obfs := o.obfs.getD base.obfs
        congestion := o.congestion.getD base.congestion
        up := o.up.or base.up
        down := o.down.or base.down
        sni := o.sni.or base.sni
        masqueradeUrl := o.masqueradeUrl.or base.masqueradeUrl
        keyType := o.keyType.or base.keyType
        certificate := o.certificate.or base.certificate }

/-- Fully overlaid hysteria config for a node, whether or not it renders a listener. -/
def resolveHysteriaOverlay (node : Node) (region : Region) (defaults : DefaultsConfig) :
    HysteriaConfig :=
  match region with
  | .exit r =>
      overlayHysteria (overlayHysteria (defaults.exit.hysteria.getD {}) r.hysteria) node.hysteria
  | .hub _ => overlayHysteria (defaults.hub.hysteria.getD {}) node.hysteria

/-- The settings the overlays of a role start from. -/
def defaultHysteria (region : Region) (defaults : DefaultsConfig) : HysteriaConfig :=
  match region with
  | .exit _ => defaults.exit.hysteria.getD {}
  | .hub _ => defaults.hub.hysteria.getD {}

/-- Hysteria listener config for a node, or none when it renders none. -/
def resolveNodeHysteria (node : Node) (region : Region) (defaults : DefaultsConfig) :
    Option HysteriaConfig :=
  match region with
  | .exit r =>
      if r.hysteria.isSome ∨ node.hysteria.isSome ∨ resolveLinkProtocol r = .hysteria then
        some (resolveHysteriaOverlay node region defaults)
      else none
  | .hub _ =>
      match node.hysteria with
      | none => defaults.hub.hysteria
      | some override =>
          if override.enabled = some false then none
          else some (resolveHysteriaOverlay node region defaults)

/-! ## Observability -/

/-- Apply one metrics override layer on top of a resolved metrics config. -/
def overlayMetrics (base : MetricsConfig) (override : Option MetricsOverride) : MetricsConfig :=
  match override with
  | none => base
  | some o =>
      { enabled := o.enabled.getD base.enabled
        listen := o.listen.getD base.listen
        port := o.port.getD base.port
        userStats := o.userStats.getD base.userStats
        online := o.online.getD base.online }

def overlayLogging (base : LoggingConfig) (override : Option LoggingOverride) : LoggingConfig :=
  match override with
  | none => base
  | some o =>
      { loglevel := o.loglevel.getD base.loglevel
        access := o.access.getD base.access
        error := o.error.getD base.error
        dnsLog := o.dnsLog.getD base.dnsLog }

def roleObservability (region : Region) (defaults : DefaultsConfig) :
    Option ObservabilityOverride :=
  match region with
  | .exit _ => defaults.exit.observability
  | .hub _ => defaults.hub.observability

/-- Metrics config of a node: node > defaults of the role > global > built-in defaults. -/
def resolveNodeMetrics (node : Node) (region : Region) (defaults : DefaultsConfig)
    (global : GlobalConfig) : MetricsConfig :=
  let metrics := overlayMetrics global.observability.metrics
    ((roleObservability region defaults).bind (·.metrics))
  overlayMetrics metrics (node.observability.bind (·.metrics))

def resolveNodeObservability (node : Node) (region : Region) (defaults : DefaultsConfig)
    (global : GlobalConfig) : ObservabilityConfig :=
  let logging := overlayLogging global.observability.logging
    ((roleObservability region defaults).bind (·.logging))
  { metrics := resolveNodeMetrics node region defaults global
    logging := overlayLogging logging (node.observability.bind (·.logging)) }

def resolveExitConnections (node : HubNode) (defaults : DefaultsConfig) :
    ExitConnectionsConfig :=
  let base := defaults.hub.exitConnections
  match node.exitConnections with
  | none => base
  | some o =>
      { method := o.method.getD base.method
        fingerprint := o.fingerprint.getD base.fingerprint }

/-! ## Names derived from a Reality dest -/

/-- Host of a dest, handling bracketed IPv6 literals and port suffixes. -/
def extractHost (dest : String) : Except Error String :=
  match dest.toList with
  | '[' :: rest =>
      match Python.partition ']' rest with
      | none =>
          .error (.deriveError s!"Malformed IPv6 address in dest (missing ']'): {Python.repr dest}")
      | some (host, _) => .ok (String.ofList host)
  | text => .ok (((Python.rpartition ':' text).map fun p => String.ofList p.1).getD dest)

def deriveServerNames (reality : RealityConfig) : Except Error (List String) :=
  match reality.serverNames with
  | some names => .ok names
  | none => do pure [← extractHost reality.dest.val]

def deriveXhttpHost (reality : RealityConfig) (xhttp : XhttpConfig) : Except Error String :=
  match xhttp.host with
  | some host => .ok host.val
  | none => extractHost reality.dest.val

end HexRift
