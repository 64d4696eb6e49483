import HexRift.Library.Checks
import HexRift.Model.Resolve

/-! # Cross-reference validation of a topology -/

namespace HexRift

open Checks

/-! ## Sockets a node binds -/

/-- A socket and what binds it. -/
structure SocketClaim where
  port : ℕ
  transport : Transport
  owner : String
  deriving DecidableEq

def SocketClaim.key (c : SocketClaim) : ℕ × Transport := (c.port, c.transport)

def hasAccess (users : List User) (access : AccessType) : Bool :=
  users.any fun u => access ∈ u.access

/-- What each inbound of a node asks to reserve, in order. -/
def socketClaims (region : Region) (node : Node) (defaults : DefaultsConfig)
    (global : GlobalConfig) (users : List User) : List SocketClaim :=
  let hysteria := resolveNodeHysteria node region defaults
  let metrics := resolveNodeMetrics node region defaults global
  [⟨realityInboundPort, .tcp, "the direct inbound"⟩] ++
    (match node with
      | .exit _ => hysteria.toList.map fun h => ⟨h.port.val, .udp, "the hysteria inbound"⟩
      | .hub hub =>
          (if resolveNodeProxyInbound hub defaults then
              [⟨proxyInboundPort, .tcp, "the proxy inbound"⟩]
            else []) ++
          (if hasAccess users .xdns then
              (resolveNodeXdns hub defaults).toList.map fun x =>
                ⟨x.port.val, .udp, "the xdns inbound"⟩
            else []) ++
          (if hasAccess users .wireguard then
              (resolveNodeWireguardPort hub defaults).toList.map fun p =>
                ⟨p.val, .udp, "the wireguard inbound"⟩
            else []) ++
          (if hasAccess users .hysteria then
              hysteria.toList.map fun h => ⟨h.port.val, .udp, "the hysteria inbound"⟩
            else [])) ++
    (if metrics.enabled then [⟨metrics.port.val, .tcp, "the metrics api listener"⟩] else [])

/-- Sockets bound by a node; rejects two inbounds on one socket. -/
def nodeReservedPorts (region : Region) (node : Node) (defaults : DefaultsConfig)
    (global : GlobalConfig) (users : List User) : Except Error (List SocketClaim) :=
  claimAll SocketClaim.key
    (fun c prior => .valueError
      s!"Node {Python.repr node.id.val}: {c.owner} and {prior.owner} both bind {c.transport.value} port {c.port}")
    (socketClaims region node defaults global users) []

/-! ## Regions and their nodes -/

/-- Cross-field checks that only hold on the fully overlaid hysteria config. -/
def validateHysteria (owner : String) (hy : HysteriaConfig) : Except Error Unit := do
  ensure (¬ (hy.congestion = .brutal ∧ (hy.up.isNone ∨ hy.down.isNone)))
    (.valueError s!"{owner}: hysteria congestion 'brutal' requires both up and down bandwidth")
  ensure (¬ (hy.certificate.isSome ∧ hy.sni.isNone))
    (.valueError s!"{owner}: hysteria certificate requires an explicit sni matching it")

def rejectHubOnlyEnabled (owner : String) (hysteria : Option HysteriaOverride) :
    Except Error Unit :=
  ensure ((hysteria.bind (·.enabled)).isNone)
    (.valueError s!"{owner}: hysteria.enabled is hub-only; set the exit region's protocol instead")

/-- A `vless_route` claimed by an exit region, or by its warp variant. -/
structure RouteClaim where
  route : ℕ
  region : String
  warp : Bool
  deriving DecidableEq

def RouteClaim.owner (c : RouteClaim) : String :=
  if c.warp then s!"{c.region}(warp)" else c.region

def RouteClaim.duplicate (c prior : RouteClaim) : Error :=
  let kind := if c.warp then "warp vless_route" else "vless_route"
  .valueError
    s!"Duplicate {kind} {c.route} in region {Python.repr c.region} (already used by {Python.repr prior.owner})"

def routeClaims (region : ExitRegion) (route : VlessRoute) : List RouteClaim :=
  ⟨route.val, region.id.val, false⟩ ::
    region.warp.toList.map fun w => ⟨w.vlessRoute.val, region.id.val, true⟩

/-- What the walk over the regions has collected so far. -/
structure References where
  nodeIds : List String := []
  routes : List RouteClaim := []
  hubNodes : List (String × HubRegion × HubNode) := []

def checkHysteria (cfg : ConglomerateConfig) (region : Region) (node : Node) :
    Except Error Unit :=
  match resolveNodeHysteria node region cfg.defaults with
  | none => .ok ()
  | some hy => validateHysteria s!"Node {Python.repr node.id.val}" hy

/-- Checks of one node that hold in any region; returns the node ids seen with it. -/
def checkNode (cfg : ConglomerateConfig) (region : Region) (nodeIds : List String) (node : Node) :
    Except Error (List String) := do
  let nodeIds ← claim id
    (fun n _ => .valueError s!"Duplicate node id: {Python.repr n}") nodeIds node.id.val
  ensure (¬ (cfg.global.cdn.isSome ∧ region.cdnXhttpPath.isSome ∧
      ¬ resolveNodeHaproxy node region cfg.defaults))
    (.valueError
      s!"Node {Python.repr node.id.val} disables haproxy but region {Python.repr region.id.val} enables CDN (cdn_xhttp_path); CDN requires HAProxy TLS termination")
  checkHysteria cfg region node
  pure nodeIds

def checkExitNode (region : ExitRegion) (node : ExitNode) : Except Error Unit := do
  ensure node.reality.isSome
    (.valueError
      s!"Exit node {Python.repr node.id.val} in region {Python.repr region.id.val} must have reality config")
  rejectHubOnlyEnabled s!"Exit node {Python.repr node.id.val}" node.hysteria

def checkExitRoute (region : ExitRegion) (route : ExitRoute) : Except Error Unit :=
  ensure (route.destination ∈ specialDestinations)
    (.valueError
      s!"exit route destination {Python.repr route.destination} in region {Python.repr region.id.val} must be a special destination")

def checkVlessRoute (region : ExitRegion) (routes : List RouteClaim) :
    Except Error (List RouteClaim) :=
  match region.vlessRoute with
  | none => .error (.valueError s!"Exit region {Python.repr region.id.val} must have vless_route")
  | some route => claimAll RouteClaim.route RouteClaim.duplicate (routeClaims region route) routes

def checkFallback (region : ExitRegion) : Except Error Unit :=
  match region.lbFallback with
  | none => .ok ()
  | some fallback =>
      ensure (fallback ∈ region.nodes.map (·.id.val))
        (.valueError
          s!"lb_fallback {Python.repr fallback} in region {Python.repr region.id.val} is not a node in that region")

/-- Checks of one exit region; returns the vless routes seen with it. -/
def checkExitRegion (region : ExitRegion) (routes : List RouteClaim) :
    Except Error (List RouteClaim) := do
  forEach region.nodes (checkExitNode region)
  let routes ← checkVlessRoute region routes
  forEach ((region.routing.bind (·.routes)).getD []) (checkExitRoute region)
  rejectHubOnlyEnabled s!"Exit region {Python.repr region.id.val}" region.hysteria
  checkFallback region
  pure routes

def checkHubNode (cfg : ConglomerateConfig) (region : HubRegion) (tls : Option TlsConfig)
    (node : HubNode) : Except Error Unit := do
  ensure (¬ (tls.isSome ∧ node.reality.isSome))
    (.valueError
      s!"Hub node {Python.repr node.id.val}: reality is not allowed in TLS region {Python.repr region.id.val}")
  ensure (¬ (tls.isSome ∧ (resolveNodeHysteria (.hub node) (.hub region) cfg.defaults).isSome))
    (.valueError
      s!"Hub node {Python.repr node.id.val}: hysteria is not supported in TLS region {Python.repr region.id.val}")

/-- `raise ValueError(str(e)) from e` -/
def asValueError {α : Type} (x : Except Error α) : Except Error α :=
  match x with
  | .ok a => .ok a
  | .error e => .error (.valueError e.str)

def checkHubRegion (cfg : ConglomerateConfig) (region : HubRegion) : Except Error Unit := do
  let tls ← asValueError (resolveRegionTls region cfg.defaults)
  forEach region.nodes (checkHubNode cfg region tls)

def checkXhttp (cfg : ConglomerateConfig) (region : Region) (node : Node) :
    Except Error Unit :=
  (asValueError (resolveNodeXhttp node region cfg.defaults)).map fun _ => ()

/-- Checks of the region's own kind; returns the vless routes seen with it. -/
def checkKind (cfg : ConglomerateConfig) (routes : List RouteClaim) :
    Region → Except Error (List RouteClaim)
  | .exit r => checkExitRegion r routes
  | .hub r => (checkHubRegion cfg r).map fun _ => routes

/-- The hub nodes of a region, keyed by id. -/
def Region.hubEntries : Region → List (String × HubRegion × HubNode)
  | .exit _ => []
  | .hub r => r.nodes.map fun n => (n.id.val, r, n)

/-- One step of the walk over the regions. -/
def checkRegion (cfg : ConglomerateConfig) (refs : References) (region : Region) :
    Except Error References := do
  let nodeIds ← foldEach region.nodes (checkNode cfg region) refs.nodeIds
  let routes ← checkKind cfg refs.routes region
  forEach region.nodes (checkXhttp cfg region)
  pure {
    nodeIds := nodeIds
    routes := routes
    hubNodes := refs.hubNodes ++ region.hubEntries }

def checkRegionIds (cfg : ConglomerateConfig) : Except Error (List String) :=
  claimAll id (fun r _ => .valueError s!"Duplicate region id: {Python.repr r}")
    (cfg.regions.map (·.id.val)) []

/-! ## Groups and users -/

def checkGroups (cfg : ConglomerateConfig) : Except Error (List String) :=
  claimAll id (fun g _ => .valueError s!"Duplicate group id: {Python.repr g}")
    (cfg.groups.map (·.id.val)) []

def checkUser (cfg : ConglomerateConfig) (usernames : List String) (user : User) :
    Except Error (List String) := do
  let usernames ← claim id
    (fun u _ => .valueError s!"Duplicate username: {Python.repr u}") usernames user.username.val
  ensure (user.group ∈ cfg.groups.map (·.id))
    (.valueError
      s!"User {Python.repr user.username.val} references unknown group {Python.repr user.group.val}")
  pure usernames

/-! ## Portals -/

def portalTag (portalId : Identifier) : String :=
  portalId.val ++ TagSuffix.portal

/-- Routable access types whose inbound this hub node actually renders. -/
def hubRenderedAccess (region : HubRegion) (node : HubNode) (defaults : DefaultsConfig)
    (global : GlobalConfig) : Except Error (List AccessType) := do
  let tls ← resolveRegionTls region defaults
  pure ([if tls.isSome then .tls else .xhttp] ++
    (if global.cdn.isSome ∧ region.cdnXhttpPath.isSome then [.cdn] else []) ++
    (if (resolveNodeXdns node defaults).isSome then [.xdns] else []) ++
    (if (resolveNodeWireguardPort node defaults).isSome then [.wireguard] else []) ++
    (if (resolveNodeHysteria (.hub node) (.hub region) defaults).isSome then [.hysteria] else []))

/-- Tags derived from node and region ids, which no portal tag may equal. -/
def derivedTags (cfg : ConglomerateConfig) (nodeIds : List String) : List String :=
  nodeIds ++ specialDestinations ++
    nodeIds.flatMap (fun n =>
      [TagPrefix.backup ++ n, TagPrefix.warp ++ n, TagPrefix.warp ++ TagPrefix.backup ++ n]) ++
    cfg.regions.flatMap fun r => [TagPrefix.lb ++ r.id.val, TagPrefix.lbWarp ++ r.id.val]

/-- What the portal checks read of the earlier ones. -/
structure PortalEnv where
  nodeIds : List String
  hubNodes : List (String × HubRegion × HubNode)
  reserved : List (String × List SocketClaim)
  rendered : List AccessType

/-- A port published on a node, and the portal publishing it. -/
structure PublishClaim where
  nodeId : String
  port : ℕ
  portal : String
  deriving DecidableEq

def publishClaim (portal : Portal) (entry : PortalPublish) (nodeId : String) : PublishClaim :=
  { nodeId := nodeId, port := entry.port.val, portal := portal.id.val }

def PublishClaim.key (c : PublishClaim) : String × ℕ := (c.nodeId, c.port)

def PublishClaim.duplicate (c prior : PublishClaim) : Error :=
  if prior.portal = c.portal then
    .valueError
      s!"Portal {Python.repr c.portal} publishes port {c.port} on node {Python.repr c.nodeId} more than once; each publish entry sharing a node must use a distinct port"
  else
    .valueError
      s!"Portal {Python.repr c.portal} publishes port {c.port} on node {Python.repr c.nodeId}, already published by portal {Python.repr prior.portal}; publish entries sharing a node must use distinct ports"

/-- Hub nodes a publish entry binds its port on. -/
def publishScope (env : PortalEnv) (entry : PortalPublish) : List String :=
  match entry.nodes with
  | some nodes => (nodes.map (·.val)).insertionSort (· ≤ ·)
  | none => (env.hubNodes.map (·.1)).insertionSort (· ≤ ·)

def checkPublishNode (env : PortalEnv) (portal : Portal) (entry : PortalPublish)
    (nodeId : String) : Except Error Unit := do
  ensure (nodeId ∈ env.nodeIds)
    (.valueError
      s!"Portal {Python.repr portal.id.val} publish port {entry.port.val} references unknown node {Python.repr nodeId}")
  ensure (nodeId ∈ env.hubNodes.map (·.1))
    (.valueError
      s!"Portal {Python.repr portal.id.val} publish port {entry.port.val} references node {Python.repr nodeId} outside a hub region; published ports are bound by hub nodes")

def checkPublishSocket (env : PortalEnv) (portal : Portal) (entry : PortalPublish)
    (nodeId : String) (transport : Transport) : Except Error Unit :=
  match ((env.reserved.lookup nodeId).getD []).find? fun c =>
      c.key = (entry.port.val, transport) with
  | none => .ok ()
  | some prior =>
      .error (.valueError
        s!"Portal {Python.repr portal.id.val} publishes {transport.value} port {entry.port.val} on node {Python.repr nodeId}, which already binds it for {prior.owner}")

/-- Claim an entry's port on one node of its scope. -/
def publishOn (env : PortalEnv) (portal : Portal) (entry : PortalPublish)
    (published : List PublishClaim) (nodeId : String) : Except Error (List PublishClaim) := do
  forEach entry.network.transports (checkPublishSocket env portal entry nodeId)
  -- keyed without transport: the inbound tag is `{id}-publish-{port}`
  claim PublishClaim.key PublishClaim.duplicate published (publishClaim portal entry nodeId)

def checkPublish (env : PortalEnv) (portal : Portal) (published : List PublishClaim)
    (entry : PortalPublish) : Except Error (List PublishClaim) := do
  forEach ((entry.nodes.getD []).map (·.val)) (checkPublishNode env portal entry)
  foldEach (publishScope env entry) (publishOn env portal entry) published

/-- Check one portal's published ports, recording each claim. -/
def validatePortalPublish (env : PortalEnv) (portal : Portal) (published : List PublishClaim) :
    Except Error (List PublishClaim) :=
  foldEach portal.publish (checkPublish env portal) published

def checkPortalTag (portal : Portal) (region : ExitRegion) : Except Error Unit :=
  let tag := portalTag portal.id
  ensure (¬ (Python.startswith tag region.id.val ∨
      Python.startswith tag (TagPrefix.warp ++ region.id.val)))
    (.valueError
      s!"Portal {Python.repr portal.id.val} tag {Python.repr tag} starts with exit region {Python.repr region.id.val}; balancer and observatory selectors match tag prefixes — rename the portal")

def noneIfEmpty (text : String) : String := if text = "" then "none" else text

def checkPortalUser (cfg : ConglomerateConfig) (env : PortalEnv) (portal : Portal)
    (username : Identifier) : Except Error Unit := do
  ensure (username ∈ cfg.users.map (·.username))
    (.valueError
      s!"Portal {Python.repr portal.id.val} references unknown user {Python.repr username.val}")
  let access := ((cfg.users.find? fun u => u.username = username).map (·.access)).getD []
  let has := noneIfEmpty (Python.joinSorted (access.map (·.value)))
  let render := noneIfEmpty (Python.joinSorted (env.rendered.map (·.value)))
  ensure (∃ a ∈ access, a ∈ routableAccess ∧ a ∈ env.rendered)
    (.valueError
      s!"Portal {Python.repr portal.id.val} member {Python.repr username.val} has no access type carrying a routable identity that a hub node renders (member has: {has}; hub nodes render: {render}); the portal routing rule would match no traffic")

/-- Portal ids and published ports seen so far. -/
structure PortalState where
  ids : List String := []
  published : List PublishClaim := []

def checkPortal (cfg : ConglomerateConfig) (env : PortalEnv) (state : PortalState)
    (portal : Portal) : Except Error PortalState := do
  let ids ← claim id
    (fun p _ => .valueError s!"Duplicate portal id: {Python.repr p}") state.ids portal.id.val
  ensure (portal.id.val ∉ env.nodeIds ∧ portal.id.val ∉ cfg.regions.map (·.id.val) ∧
      portal.id.val ∉ specialDestinations)
    (.valueError
      s!"Portal id {Python.repr portal.id.val} collides with a node id, region id, or special destination")
  ensure (portalTag portal.id ∉ derivedTags cfg env.nodeIds)
    (.valueError
      s!"Portal {Python.repr portal.id.val} tag {Python.repr (portalTag portal.id)} collides with a derived outbound tag")
  forEach cfg.exitRegions (checkPortalTag portal)
  forEach portal.users (checkPortalUser cfg env portal)
  let published ← validatePortalPublish env portal state.published
  pure { ids := ids, published := published }

/-- Every region with each of its nodes, in topology order. -/
def allNodes (cfg : ConglomerateConfig) : List (Region × Node) :=
  cfg.regions.flatMap fun r => r.nodes.map fun n => (r, n)

def reservedPorts (cfg : ConglomerateConfig) : Except Error (List (String × List SocketClaim)) :=
  mapEach (allNodes cfg) fun p => do
    pure (p.2.id.val, ← nodeReservedPorts p.1 p.2 cfg.defaults cfg.global cfg.users)

def renderedAccess (cfg : ConglomerateConfig) (refs : References) :
    Except Error (List AccessType) := do
  if cfg.portals = [] then pure []
  else
    ensure (refs.hubNodes ≠ [])
      (.valueError
        "Portals require at least one hub node; a portal opens its reverse tunnel by dialing hub nodes")
    let rendered ← mapEach refs.hubNodes fun h =>
      hubRenderedAccess h.2.1 h.2.2 cfg.defaults cfg.global
    pure rendered.flatten

def checkPortals (cfg : ConglomerateConfig) (refs : References) : Except Error PortalState := do
  let reserved ← reservedPorts cfg
  let rendered ← renderedAccess cfg refs
  let env : PortalEnv :=
    { nodeIds := refs.nodeIds, hubNodes := refs.hubNodes, reserved := reserved,
      rendered := rendered }
  foldEach cfg.portals (checkPortal cfg env) {}

/-! ## Routing -/

def regionIds (cfg : ConglomerateConfig) : List String := cfg.regions.map (·.id.val)

def hubRegionIds (cfg : ConglomerateConfig) : List String := cfg.hubRegions.map (·.id.val)

def emptyRegionIds (cfg : ConglomerateConfig) : List String :=
  (cfg.regions.filter fun r => r.nodes = []).map (·.id.val)

def checkHubDefault (cfg : ConglomerateConfig) : Except Error Unit := do
  let hubDefault := cfg.routing.hubDefault
  ensure (hubDefault ∉ hubRegionIds cfg)
    (.valueError
      s!"hub_default {Python.repr hubDefault} is a hub region; hubs dial exit regions or special destinations")
  ensure (hubDefault ∈ regionIds cfg ∨ hubDefault ∈ specialDestinations)
    (.valueError
      s!"hub_default {Python.repr hubDefault} is not a known region or special destination")
  ensure (hubDefault ∉ emptyRegionIds cfg)
    (.valueError s!"hub_default {Python.repr hubDefault} is a region with no nodes")

def checkExitRouteGlobal (route : ExitRoute) : Except Error Unit :=
  ensure (route.destination ∈ specialDestinations)
    (.valueError
      s!"exit_routes_global destination {Python.repr route.destination} must be a special destination")

def checkHubRoute (cfg : ConglomerateConfig) (refs : References) (route : HubRoute) :
    Except Error Unit := do
  let dest := Python.repr route.destination
  ensure (route.destination ∉ hubRegionIds cfg ∧
      route.destination ∉ refs.hubNodes.map (·.1))
    (.valueError
      s!"hub_route destination {dest} is a hub region or node; only exit regions, exit nodes and special destinations are dialable")
  ensure (route.destination ∈ specialDestinations ∨ route.destination ∈ regionIds cfg ∨
      route.destination ∈ refs.nodeIds)
    (.valueError s!"hub_route destination {dest} is unknown")
  ensure (route.destination ∉ emptyRegionIds cfg)
    (.valueError s!"hub_route destination {dest} is a region with no nodes")
  forEach (route.users.getD []) fun u =>
    ensure (u ∈ cfg.users.map (·.username.val))
      (.valueError s!"hub_route user {Python.repr u} is not a known user")
  forEach (route.proxyUsers.getD []) fun u =>
    ensure (u ∈ cfg.users.map (·.username.val))
      (.valueError s!"hub_route proxy_user {Python.repr u} is not a known user")

/-- The cross-reference validator of `ConglomerateConfig`. -/
def validateReferences (cfg : ConglomerateConfig) : Except Error Unit := do
  let _ ← checkRegionIds cfg
  let refs ← foldEach cfg.regions (checkRegion cfg) {}
  let _ ← checkGroups cfg
  let _ ← foldEach cfg.users (checkUser cfg) []
  let _ ← checkPortals cfg refs
  checkHubDefault cfg
  forEach cfg.routing.exitRoutesGlobal checkExitRouteGlobal
  forEach cfg.routing.hubRoutes (checkHubRoute cfg refs)

/-- A topology the schema loads: its cross-references have been validated. -/
structure AcceptedConfig extends ConglomerateConfig where
  accepted : (validateReferences toConglomerateConfig).isOk = true := by decide

end HexRift
