import HexRift.Model.Identity

/-! # Balancers and routing rules of a hub -/

namespace HexRift

open Checks

/-! ## Rules -/

/-- The key under which a rule names its target. -/
inductive OutKey where
  | outboundTag
  | balancerTag
  deriving DecidableEq, Repr

/-- A routing rule. An absent key matches every connection. -/
structure Rule where
  inboundTag : Option (List String) := none
  source : Option (List String) := none
  domain : Option (List String) := none
  ip : Option (List String) := none
  port : Option ℤ := none
  network : Option String := none
  user : Option (List String) := none
  vlessRoute : Option String := none
  outKey : OutKey := .outboundTag
  outTag : String
  deriving DecidableEq

structure Balancer where
  tag : String
  selector : List String
  fallbackTag : String
  strategy : LbStrategy
  settings : Option LeastLoadSettings
  deriving DecidableEq

def makeDnsDirectRule (address : String) (port : ℤ) : Rule :=
  let ips := ["127.0.0.1", "::1"]
  { ip := some (if address ∉ ips then ips ++ [address] else ips)
    port := some port
    outTag := SpecialDestination.direct.value }

/-! ## Published ports -/

def publishTag (portalId : String) (port : ℕ) : String :=
  portalId ++ TagSuffix.publish ++ "-" ++ toString port

/-- One portal published port resolved by a single hub node. -/
structure PublishedPort where
  tag : String
  reverseTag : String
  port : ℕ
  targetHost : String
  targetPort : ℕ
  network : PublishNetwork
  allow : List String
  deriving DecidableEq

def publishedPort (portal : Portal) (entry : PortalPublish) : PublishedPort :=
  { tag := publishTag portal.id.val entry.port.val
    reverseTag := portalTag portal.id
    port := entry.port.val
    targetHost := entry.target.hostPort.1
    targetPort := entry.target.hostPort.2
    network := entry.network
    allow := entry.allow.getD [] }

/-- Whether a publish entry binds its port on the node. -/
def PortalPublish.resolvesOn (entry : PortalPublish) (node : HubNode) : Bool :=
  match entry.nodes with
  | none => true
  | some nodes => node.id ∈ nodes

/-- Published ports resolved by a single hub node, in portal then declaration order. -/
def resolveNodePublishes (cfg : ConglomerateConfig) (node : HubNode) : List PublishedPort :=
  cfg.portals.flatMap fun portal =>
    (portal.publish.filter (·.resolvesOn node)).map (publishedPort portal)

def publishRules (pub : PublishedPort) : List Rule :=
  { inboundTag := some [pub.tag]
    source := if pub.allow = [] then none else some pub.allow
    outTag := pub.reverseTag } ::
  -- deny anything the allowlist did not match
  if pub.allow = [] then []
  else [{ inboundTag := some [pub.tag], outTag := SpecialDestination.blocked.value }]

/-- Rules keyed on the inbound tag, steering published ports into the portal tunnel. -/
def buildPublishRules (published : List PublishedPort) : List Rule :=
  published.flatMap publishRules

/-! ## Exit regions -/

def renderedExitRegions (cfg : ConglomerateConfig) : List ExitRegion :=
  cfg.exitRegions.filter fun r => r.nodes ≠ []

def primaryNodes (region : ExitRegion) : List ExitNode :=
  region.nodes.filter fun n => n.lbRole ≠ some .backup

def noNodes (region : ExitRegion) : Error :=
  .deriveError s!"Region {Python.repr region.id.val} has no nodes"

/-- The first primary node, else the first node. -/
def leadNode (region : ExitRegion) : Except Error ExitNode :=
  match primaryNodes region, region.nodes with
  | n :: _, _ => .ok n
  | [], n :: _ => .ok n
  | [], [] => .error (noNodes region)

def resolveFallbackTag (region : ExitRegion) : Except Error String :=
  match region.lbFallback with
  | none => do pure (← leadNode region).id.val
  | some fallback =>
      if region.nodes = [] then .error (noNodes region)
      else
        match region.nodes.find? fun n => n.id.val = fallback with
        | some node =>
            if node.lbRole = some .backup then .ok (TagPrefix.backup ++ fallback)
            else .ok fallback
        | none => .ok fallback

/-- Settings of a `leastLoad` balancer. -/
def buildStrategy (region : ExitRegion) (strategy : LbStrategy) : Option LeastLoadSettings :=
  if strategy = .leastLoad then some (region.lbLeastLoad.getD {}) else none

def balanced (region : ExitRegion) : Bool :=
  region.lbStrategy.isSome && 1 < region.nodes.length

def regionBalancers (region : ExitRegion) (strategy : LbStrategy) (fbTag : String) :
    List Balancer :=
  { tag := TagPrefix.lb ++ region.id.val
    selector := [region.id.val]
    fallbackTag := fbTag
    strategy := strategy
    settings := buildStrategy region strategy } ::
  if region.warp.isSome then
    [{ tag := TagPrefix.lbWarp ++ region.id.val
       selector := [TagPrefix.warp ++ region.id.val]
       fallbackTag := TagPrefix.warp ++ fbTag
       strategy := strategy
       settings := buildStrategy region strategy }]
  else []

/-- The `lb-` balancer of a balanced region, and its `lb-warp-` one when it has warp. -/
def buildRegionBalancers (region : ExitRegion) : Except Error (List Balancer) :=
  match balanced region, region.lbStrategy with
  | true, some strategy => do
      let fbTag ← resolveFallbackTag region
      pure (regionBalancers region strategy fbTag)
  | _, _ => .ok []

def buildBalancers (exitRegions : List ExitRegion) : Except Error (List Balancer) := do
  pure (← mapEach exitRegions buildRegionBalancers).flatten

/-- Tag for routing to a region: its balancer, or its single node. -/
def regionOutboundTag (region : ExitRegion) : Except Error String :=
  if balanced region then .ok (TagPrefix.lb ++ region.id.val)
  else do pure (← leadNode region).id.val

def regionWarpOutboundTag (region : ExitRegion) : Except Error String :=
  if balanced region then .ok (TagPrefix.lbWarp ++ region.id.val)
  else do pure (TagPrefix.warp ++ (← leadNode region).id.val)

def balancerKey (region : ExitRegion) : OutKey :=
  if balanced region then .balancerTag else .outboundTag

/-! ## `hub_routes` -/

def routeUserFilter (route : HubRoute) (ns : Namespace) : Option (List String) :=
  let emails := (route.users.getD []).map ns.userEmail ++ route.proxyUsers.getD []
  if emails = [] then none else some emails

/-- Whether a list-valued key is set to a non-empty list. -/
def given (entries : Option (List String)) : Bool := entries.getD [] ≠ []

/-- The route's domain, ip and bare-user-filter rules, pointing at one outbound. -/
def appendRouteRules (route : HubRoute) (uf : Option (List String)) (outKey : OutKey)
    (outTag : String) (includeIps : Bool := true) : List Rule :=
  (if given route.domains then
      [{ domain := route.domains, user := uf, outKey := outKey, outTag := outTag }]
    else []) ++
  (if includeIps && given route.ips then
      [{ ip := route.ips, user := uf, outKey := outKey, outTag := outTag }]
    else []) ++
  (if !given route.domains && !given route.ips && uf.isSome then
      [{ user := uf, outKey := outKey, outTag := outTag }]
    else [])

/-- Key and tag a route to a region, node or warp points at; `none` skips the route. -/
def routeTarget (cfg : ConglomerateConfig) (dest : String) :
    Except Error (Option (OutKey × String)) :=
  if dest = SpecialDestination.warp.value then .ok (some (.outboundTag, dest))
  else
    -- `region_map` keeps the last region of an id
    match cfg.exitRegions.reverse.find? fun r => r.id.val = dest with
    | some r => do pure (some (balancerKey r, ← regionOutboundTag r))
    | none =>
        if dest ∈ cfg.exitRegions.flatMap fun r => r.nodes.map (·.id.val) then
          .ok (some (.outboundTag, dest))
        else .ok none

/-! ## Routing rules -/

def vlessRouteText (route : Option VlessRoute) : String :=
  route.elim "None" fun r => toString r.val

def vlessRouteRule (region : ExitRegion) : Except Error Rule := do
  pure {
    vlessRoute := some (vlessRouteText region.vlessRoute)
    outKey := balancerKey region
    outTag := ← regionOutboundTag region }

def warpRouteRules (region : ExitRegion) : Except Error (List Rule) :=
  match region.warp with
  | none => .ok []
  | some warp => do
      pure [{
        vlessRoute := some (vlessRouteText (some warp.vlessRoute))
        outKey := balancerKey region
        outTag := ← regionWarpOutboundTag region }]

def blockedDomainRules (ns : Namespace) (route : HubRoute) : List Rule :=
  if route.destination ≠ SpecialDestination.blocked.value then []
  else
    appendRouteRules route (routeUserFilter route ns) .outboundTag
      SpecialDestination.blocked.value false

def portalRules (ns : Namespace) (portal : Portal) : List Rule :=
  let uf := some (portal.users.map fun u => ns.userEmail u.val)
  let pt := portalTag portal.id
  (if given portal.routes.domains then
      [{ domain := portal.routes.domains, user := uf, outTag := pt }]
    else []) ++
  (if given portal.routes.ips then
      [{ ip := portal.routes.ips, user := uf, outTag := pt }]
    else [])

def steeredRules (cfg : ConglomerateConfig) (ns : Namespace) (route : HubRoute) :
    Except Error (List Rule) :=
  if route.destination = SpecialDestination.blocked.value ∨
      route.destination = SpecialDestination.direct.value then .ok []
  else do
    match ← routeTarget cfg route.destination with
    | none => pure []
    | some (outKey, outTag) =>
        pure (appendRouteRules route (routeUserFilter route ns) outKey outTag)

def directRules (ns : Namespace) (route : HubRoute) : List Rule :=
  if route.destination ≠ SpecialDestination.direct.value then []
  else
    appendRouteRules route (routeUserFilter route ns) .outboundTag
      SpecialDestination.direct.value

def blockedIpRules (ns : Namespace) (route : HubRoute) : List Rule :=
  if route.destination ≠ SpecialDestination.blocked.value ∨ !given route.ips then []
  else
    [{ ip := route.ips, user := routeUserFilter route ns
       outTag := SpecialDestination.blocked.value }]

/-- The rule of `hub_default`, which every connection matches. -/
def defaultRule (cfg : ConglomerateConfig) : Except Error Rule :=
  if cfg.routing.hubDefault ∈ specialDestinations then
    .ok { network := some "TCP,UDP", outTag := cfg.routing.hubDefault }
  else
    match cfg.exitRegions.reverse.find? fun r => r.id.val = cfg.routing.hubDefault with
    | none => .error (.keyError cfg.routing.hubDefault)
    | some r => do
        pure {
          network := some "TCP,UDP"
          outKey := balancerKey r
          outTag := ← regionOutboundTag r }

/-- The ordered routing rules of a hub node. -/
def buildHubRoutingRules (cfg : ConglomerateConfig) (published : List PublishedPort) :
    Except Error (List Rule) := do
  let ns := cfg.ns
  let exitRegions := renderedExitRegions cfg
  let routes := cfg.routing.hubRoutes
  let vless ← mapEach exitRegions vlessRouteRule
  let warp ← mapEach exitRegions warpRouteRules
  let steered ← mapEach routes (steeredRules cfg ns)
  let default ← defaultRule cfg
  pure (buildPublishRules published ++
    [makeDnsDirectRule cfg.global.dns.address cfg.global.dns.port] ++
    vless ++ warp.flatten ++
    routes.flatMap (blockedDomainRules ns) ++
    cfg.portals.flatMap (portalRules ns) ++
    steered.flatten ++
    routes.flatMap (directRules ns) ++
    routes.flatMap (blockedIpRules ns) ++
    [default])

/-- Selectors for the burst observatory: each balanced region, and its warp variant. -/
def buildBurstObservatorySelectors (exitRegions : List ExitRegion) : List String :=
  exitRegions.flatMap fun region =>
    if balanced region then
      region.id.val ::
        if region.warp.isSome then [TagPrefix.warp ++ region.id.val] else []
    else []

end HexRift
