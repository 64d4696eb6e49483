import HexRift.Model.Root

/-! # What an accepted topology satisfies

`validateReferences` walks the topology with registries of the ids, routes and ports seen
so far. Each check is read as the condition it decides, and each walk as distinctness of
everything it collects. -/

namespace HexRift

open Checks

theorem isOk_iff {α : Type} {x : Except Error α} : x.isOk = true ↔ ∃ a, x = .ok a := by
  cases x <;> simp [Except.isOk, Except.toBool]

theorem asValueError_eq_ok {α : Type} {x : Except Error α} {a : α} :
    asValueError x = .ok a ↔ x = .ok a := by
  cases x <;> simp [asValueError]

/-! ## Nodes and regions -/

/-- Conditions on a fully overlaid hysteria config. -/
structure HysteriaOk (hy : HysteriaConfig) : Prop where
  brutal : ¬ (hy.congestion = .brutal ∧ (hy.up.isNone ∨ hy.down.isNone))
  sni : ¬ (hy.certificate.isSome ∧ hy.sni.isNone)

theorem validateHysteria_eq_ok {owner : String} {hy : HysteriaConfig} {u : Unit} :
    validateHysteria owner hy = .ok u ↔ HysteriaOk hy := by
  simp only [validateHysteria, bind_eq_ok, exists_const, ensure_eq_ok]
  exact ⟨fun h => ⟨h.1, h.2⟩, fun h => ⟨h.1, h.2⟩⟩

/-- Conditions on a node that do not depend on the kind of its region. -/
structure NodeOk (cfg : ConglomerateConfig) (region : Region) (node : Node) : Prop where
  cdn : ¬ (cfg.global.cdn.isSome ∧ region.cdnXhttpPath.isSome ∧
    ¬ resolveNodeHaproxy node region cfg.defaults)
  hysteria : ∀ hy, resolveNodeHysteria node region cfg.defaults = some hy → HysteriaOk hy

theorem checkHysteria_eq_ok {cfg : ConglomerateConfig} {region : Region} {node : Node} {u : Unit} :
    checkHysteria cfg region node = .ok u ↔
      ∀ hy, resolveNodeHysteria node region cfg.defaults = some hy → HysteriaOk hy := by
  unfold checkHysteria
  cases resolveNodeHysteria node region cfg.defaults with
  | none => simp
  | some hy => simp [validateHysteria_eq_ok]

theorem checkNode_eq_ok {cfg : ConglomerateConfig} {region : Region} {ids ids' : List String}
    {node : Node} (hids : (ids.map id).Nodup) :
    checkNode cfg region ids node = .ok ids' ↔
      (NodeOk cfg region node ∧ ((ids ++ [node.id.val]).map id).Nodup) ∧
        ids' = ids ++ [node.id.val] := by
  rw [nodup_append_singleton hids]
  simp only [checkNode, bind_eq_ok, exists_const, claim_eq_ok, ensure_eq_ok,
    checkHysteria_eq_ok, pure_eq_ok]
  constructor
  · rintro ⟨taken, ⟨hnot, rfl⟩, hcdn, hhy, rfl⟩
    exact ⟨⟨⟨hcdn, hhy⟩, hnot⟩, rfl⟩
  · rintro ⟨⟨hok, hnot⟩, rfl⟩
    exact ⟨_, ⟨hnot, rfl⟩, hok.cdn, hok.hysteria, rfl⟩

def idsOf (nodes : List Node) : List String := nodes.flatMap fun n => [n.id.val]

/-- Conditions on an exit region taken by itself. -/
structure ExitRegionOk (region : ExitRegion) : Prop where
  reality : ∀ n ∈ region.nodes, n.reality.isSome
  node_enabled : ∀ n ∈ region.nodes, (n.hysteria.bind (·.enabled)).isNone
  vlessRoute : region.vlessRoute.isSome
  routes : ∀ route ∈ (region.routing.bind (·.routes)).getD [],
    route.destination ∈ specialDestinations
  enabled : (region.hysteria.bind (·.enabled)).isNone
  fallback : ∀ f, region.lbFallback = some f → f ∈ region.nodes.map (·.id.val)

/-- The vless routes an exit region claims, its warp route included. -/
def ExitRegion.routeClaims (region : ExitRegion) : List RouteClaim :=
  region.vlessRoute.toList.flatMap (HexRift.routeClaims region)

theorem checkExitNode_eq_ok {region : ExitRegion} {node : ExitNode} {u : Unit} :
    checkExitNode region node = .ok u ↔
      node.reality.isSome ∧ (node.hysteria.bind (·.enabled)).isNone := by
  simp only [checkExitNode, rejectHubOnlyEnabled, bind_eq_ok, exists_const, ensure_eq_ok]

theorem checkVlessRoute_eq_ok {region : ExitRegion} {routes routes' : List RouteClaim}
    (hroutes : (routes.map RouteClaim.route).Nodup) :
    checkVlessRoute region routes = .ok routes' ↔
      (region.vlessRoute.isSome ∧
        ((routes ++ region.routeClaims).map RouteClaim.route).Nodup) ∧
          routes' = routes ++ region.routeClaims := by
  unfold checkVlessRoute ExitRegion.routeClaims
  cases region.vlessRoute with
  | none => simp
  | some route => simp [claimAll_eq_ok hroutes]

theorem checkFallback_eq_ok {region : ExitRegion} {u : Unit} :
    checkFallback region = .ok u ↔
      ∀ f, region.lbFallback = some f → f ∈ region.nodes.map (·.id.val) := by
  unfold checkFallback
  cases region.lbFallback with
  | none => simp
  | some f => simp

theorem checkExitRegion_eq_ok {region : ExitRegion} {routes routes' : List RouteClaim}
    (hroutes : (routes.map RouteClaim.route).Nodup) :
    checkExitRegion region routes = .ok routes' ↔
      (ExitRegionOk region ∧ ((routes ++ region.routeClaims).map RouteClaim.route).Nodup) ∧
        routes' = routes ++ region.routeClaims := by
  simp only [checkExitRegion, bind_eq_ok, exists_const, forEach_eq_ok, checkExitNode_eq_ok,
    checkVlessRoute_eq_ok hroutes, checkExitRoute, rejectHubOnlyEnabled, ensure_eq_ok,
    checkFallback_eq_ok, pure_eq_ok]
  constructor
  · rintro ⟨hnodes, taken, ⟨⟨hroute, hnodup⟩, rfl⟩, hexit, henabled, hfb, rfl⟩
    exact ⟨⟨⟨fun n hn => (hnodes n hn).1, fun n hn => (hnodes n hn).2, hroute, hexit,
      henabled, hfb⟩, hnodup⟩, rfl⟩
  · rintro ⟨⟨hok, hnodup⟩, rfl⟩
    exact ⟨fun n hn => ⟨hok.reality n hn, hok.node_enabled n hn⟩, _,
      ⟨⟨hok.vlessRoute, hnodup⟩, rfl⟩, hok.routes, hok.enabled, hok.fallback, rfl⟩

/-- Conditions on a hub region taken by itself. -/
def HubRegionOk (cfg : ConglomerateConfig) (region : HubRegion) : Prop :=
  ∃ tls, resolveRegionTls region cfg.defaults = .ok tls ∧ ∀ n ∈ region.nodes,
    ¬ (tls.isSome ∧ n.reality.isSome) ∧
      ¬ (tls.isSome ∧ (resolveNodeHysteria (.hub n) (.hub region) cfg.defaults).isSome)

theorem checkHubRegion_eq_ok {cfg : ConglomerateConfig} {region : HubRegion} {u : Unit} :
    checkHubRegion cfg region = .ok u ↔ HubRegionOk cfg region := by
  simp only [checkHubRegion, bind_eq_ok, asValueError_eq_ok, forEach_eq_ok, checkHubNode,
    exists_const, ensure_eq_ok, HubRegionOk]

def Region.routeClaims : Region → List RouteClaim
  | .exit r => r.routeClaims
  | .hub _ => []

/-- The conditions that depend on the kind of a region. -/
def Region.KindOk (cfg : ConglomerateConfig) : Region → Prop
  | .exit r => ExitRegionOk r
  | .hub r => HubRegionOk cfg r

theorem checkKind_eq_ok {cfg : ConglomerateConfig} {region : Region}
    {routes routes' : List RouteClaim} (hroutes : (routes.map RouteClaim.route).Nodup) :
    checkKind cfg routes region = .ok routes' ↔
      (region.KindOk cfg ∧ ((routes ++ region.routeClaims).map RouteClaim.route).Nodup) ∧
        routes' = routes ++ region.routeClaims := by
  cases region with
  | exit r => exact checkExitRegion_eq_ok hroutes
  | hub r =>
      have happend : routes ++ (Region.hub r).routeClaims = routes := List.append_nil routes
      simp only [checkKind, map_eq_ok, checkHubRegion_eq_ok, Region.KindOk, happend, hroutes,
        and_true, exists_const]
      exact and_congr_right fun _ => eq_comm

/-- Conditions on one region and its nodes. -/
structure RegionOk (cfg : ConglomerateConfig) (region : Region) : Prop where
  node : ∀ n ∈ region.nodes, NodeOk cfg region n
  kind : region.KindOk cfg
  xhttp : ∀ n ∈ region.nodes, ∃ x, resolveNodeXhttp n region cfg.defaults = .ok x

/-- What the walk holds after a region. -/
def References.extend (refs : References) (region : Region) : References :=
  { nodeIds := refs.nodeIds ++ idsOf region.nodes
    routes := refs.routes ++ region.routeClaims
    hubNodes := refs.hubNodes ++ region.hubEntries }

/-- Nothing the walk has collected occurs twice. -/
structure References.Distinct (refs : References) : Prop where
  nodeIds : (refs.nodeIds.map id).Nodup
  routes : (refs.routes.map RouteClaim.route).Nodup

theorem References.Distinct.back {refs : References} {region : Region}
    (h : (refs.extend region).Distinct) : refs.Distinct :=
  ⟨nodup_of_append h.nodeIds, nodup_of_append h.routes⟩

theorem checkXhttp_eq_ok {cfg : ConglomerateConfig} {region : Region} {node : Node} {u : Unit} :
    checkXhttp cfg region node = .ok u ↔
      ∃ x, resolveNodeXhttp node region cfg.defaults = .ok x := by
  simp [checkXhttp, map_eq_ok, asValueError_eq_ok]

theorem checkRegion_eq_ok {cfg : ConglomerateConfig} {refs refs' : References} {region : Region}
    (hrefs : refs.Distinct) :
    checkRegion cfg refs region = .ok refs' ↔
      (RegionOk cfg region ∧ (refs.extend region).Distinct) ∧ refs' = refs.extend region := by
  have hnodes : ∀ ids, foldEach region.nodes (checkNode cfg region) refs.nodeIds = .ok ids ↔
      ((∀ n ∈ region.nodes, NodeOk cfg region n) ∧
        ((refs.nodeIds ++ idsOf region.nodes).map id).Nodup) ∧
          ids = refs.nodeIds ++ idsOf region.nodes := by
    intro ids
    refine foldEach_claims_eq_ok ?_ hrefs.nodeIds
    exact fun taken n reg h => checkNode_eq_ok h
  simp only [checkRegion, bind_eq_ok, exists_const, hnodes, checkKind_eq_ok hrefs.routes,
    forEach_eq_ok, checkXhttp_eq_ok, pure_eq_ok]
  constructor
  · rintro ⟨ids, ⟨⟨hnode, hids⟩, rfl⟩, routes, ⟨⟨hkind, hroutes⟩, rfl⟩, hx, rfl⟩
    exact ⟨⟨⟨hnode, hkind, hx⟩, ⟨hids, hroutes⟩⟩, rfl⟩
  · rintro ⟨⟨hok, hdistinct⟩, rfl⟩
    exact ⟨_, ⟨⟨hok.node, hdistinct.nodeIds⟩, rfl⟩, _, ⟨⟨hok.kind, hdistinct.routes⟩, rfl⟩,
      hok.xhttp, rfl⟩

/-! ## Everything collected over the regions -/

/-- What the walk over the regions ends with. -/
def references (cfg : ConglomerateConfig) : References :=
  cfg.regions.foldl References.extend {}

theorem foldl_extend (regions : List Region) (refs : References) :
    regions.foldl References.extend refs =
      { nodeIds := refs.nodeIds ++ regions.flatMap fun r => idsOf r.nodes
        routes := refs.routes ++ regions.flatMap (·.routeClaims)
        hubNodes := refs.hubNodes ++ regions.flatMap (·.hubEntries) } := by
  induction regions generalizing refs with
  | nil => simp
  | cons r rs ih => simp [ih, References.extend]

def nodeIds (cfg : ConglomerateConfig) : List String := cfg.regions.flatMap fun r => idsOf r.nodes

def hubNodes (cfg : ConglomerateConfig) : List (String × HubRegion × HubNode) :=
  cfg.regions.flatMap (·.hubEntries)

theorem references_eq (cfg : ConglomerateConfig) :
    references cfg =
      { nodeIds := nodeIds cfg
        routes := cfg.regions.flatMap (·.routeClaims)
        hubNodes := hubNodes cfg } := by
  simp [references, foldl_extend, nodeIds, hubNodes]

theorem checkRegions_eq_ok {cfg : ConglomerateConfig} {refs : References} :
    foldEach cfg.regions (checkRegion cfg) {} = .ok refs ↔
      ((∀ r ∈ cfg.regions, RegionOk cfg r) ∧ (references cfg).Distinct) ∧
        refs = references cfg := by
  refine foldEach_extend_eq_ok ?_ ?_ ⟨List.nodup_nil, List.nodup_nil⟩
  · exact fun refs region h => h.back
  · exact fun refs region refs' h => checkRegion_eq_ok h

/-! ## Users -/

theorem checkUser_eq_ok {cfg : ConglomerateConfig} {names names' : List String} {user : User}
    (hnames : (names.map id).Nodup) :
    checkUser cfg names user = .ok names' ↔
      (user.group ∈ cfg.groups.map (·.id) ∧
        ((names ++ [user.username.val]).map id).Nodup) ∧
          names' = names ++ [user.username.val] := by
  rw [nodup_append_singleton hnames]
  simp only [checkUser, bind_eq_ok, exists_const, claim_eq_ok, ensure_eq_ok, pure_eq_ok]
  constructor
  · rintro ⟨taken, ⟨hnot, rfl⟩, hgroup, rfl⟩
    exact ⟨⟨hgroup, hnot⟩, rfl⟩
  · rintro ⟨⟨hgroup, hnot⟩, rfl⟩
    exact ⟨_, ⟨hnot, rfl⟩, hgroup, rfl⟩

def usernames (cfg : ConglomerateConfig) : List String :=
  cfg.users.flatMap fun u => [u.username.val]

theorem checkUsers_eq_ok {cfg : ConglomerateConfig} {names : List String} :
    foldEach cfg.users (checkUser cfg) [] = .ok names ↔
      ((∀ u ∈ cfg.users, u.group ∈ cfg.groups.map (·.id)) ∧ ((usernames cfg).map id).Nodup) ∧
        names = usernames cfg := by
  have hnil : (([] : List String).map id).Nodup := List.nodup_nil
  refine foldEach_claims_eq_ok ?_ hnil
  exact fun taken u reg h => checkUser_eq_ok h

/-! ## Portals -/

/-- Ports an entry claims, one for each node of its scope. -/
def PortalPublish.claims (env : PortalEnv) (portal : Portal) (entry : PortalPublish) :
    List PublishClaim :=
  (publishScope env entry).flatMap fun n => [publishClaim portal entry n]

def Portal.claims (env : PortalEnv) (portal : Portal) : List PublishClaim :=
  portal.publish.flatMap (·.claims env portal)

/-- Conditions on one publish entry: its nodes are hub nodes, and no node of its scope
already binds one of its sockets. -/
structure PublishOk (env : PortalEnv) (entry : PortalPublish) : Prop where
  nodes : ∀ n ∈ (entry.nodes.getD []).map (·.val), n ∈ env.nodeIds ∧ n ∈ env.hubNodes.map (·.1)
  free : ∀ n ∈ publishScope env entry, ∀ t ∈ entry.network.transports,
    (entry.port.val, t) ∉ ((env.reserved.lookup n).getD []).map SocketClaim.key

theorem checkPublishSocket_eq_ok {env : PortalEnv} {portal : Portal} {entry : PortalPublish}
    {n : String} {t : Transport} {u : Unit} :
    checkPublishSocket env portal entry n t = .ok u ↔
      (entry.port.val, t) ∉ ((env.reserved.lookup n).getD []).map SocketClaim.key := by
  unfold checkPublishSocket
  cases hfind : ((env.reserved.lookup n).getD []).find? fun c =>
      c.key = (entry.port.val, t) with
  | none =>
      rw [List.find?_eq_none] at hfind
      simpa using hfind
  | some prior =>
      have hkey := List.find?_some hfind
      have hmem := List.mem_of_find?_eq_some hfind
      simp only [decide_eq_true_eq] at hkey
      simp only [reduceCtorEq, false_iff, not_not]
      exact List.mem_map.mpr ⟨prior, hmem, hkey⟩

theorem publishOn_eq_ok {env : PortalEnv} {portal : Portal} {entry : PortalPublish}
    {taken reg : List PublishClaim} {n : String} (htaken : (taken.map PublishClaim.key).Nodup) :
    publishOn env portal entry taken n = .ok reg ↔
      ((∀ t ∈ entry.network.transports,
          (entry.port.val, t) ∉ ((env.reserved.lookup n).getD []).map SocketClaim.key) ∧
        ((taken ++ [publishClaim portal entry n]).map PublishClaim.key).Nodup) ∧
      reg = taken ++ [publishClaim portal entry n] := by
  rw [nodup_append_singleton htaken]
  simp only [publishOn, bind_eq_ok, exists_const, forEach_eq_ok, checkPublishSocket_eq_ok,
    claim_eq_ok, and_assoc]

theorem checkPublish_eq_ok {env : PortalEnv} {portal : Portal} {entry : PortalPublish}
    {taken reg : List PublishClaim} (htaken : (taken.map PublishClaim.key).Nodup) :
    checkPublish env portal taken entry = .ok reg ↔
      (PublishOk env entry ∧ ((taken ++ entry.claims env portal).map PublishClaim.key).Nodup) ∧
        reg = taken ++ entry.claims env portal := by
  have hscope : ∀ reg, foldEach (publishScope env entry) (publishOn env portal entry) taken =
      .ok reg ↔
      ((∀ n ∈ publishScope env entry, ∀ t ∈ entry.network.transports,
          (entry.port.val, t) ∉ ((env.reserved.lookup n).getD []).map SocketClaim.key) ∧
        ((taken ++ entry.claims env portal).map PublishClaim.key).Nodup) ∧
      reg = taken ++ entry.claims env portal := by
    intro reg
    refine foldEach_claims_eq_ok ?_ htaken
    exact fun taken n reg h => publishOn_eq_ok h
  simp only [checkPublish, bind_eq_ok, exists_const, forEach_eq_ok, checkPublishNode,
    ensure_eq_ok, hscope]
  constructor
  · rintro ⟨hnodes, ⟨hfree, hnodup⟩, rfl⟩
    exact ⟨⟨⟨hnodes, hfree⟩, hnodup⟩, rfl⟩
  · rintro ⟨⟨hok, hnodup⟩, rfl⟩
    exact ⟨hok.nodes, ⟨hok.free, hnodup⟩, rfl⟩

theorem validatePortalPublish_eq_ok {env : PortalEnv} {portal : Portal}
    {taken reg : List PublishClaim} (htaken : (taken.map PublishClaim.key).Nodup) :
    validatePortalPublish env portal taken = .ok reg ↔
      ((∀ e ∈ portal.publish, PublishOk env e) ∧
        ((taken ++ portal.claims env).map PublishClaim.key).Nodup) ∧
      reg = taken ++ portal.claims env := by
  refine foldEach_claims_eq_ok ?_ htaken
  exact fun taken e reg h => checkPublish_eq_ok h

/-- Conditions on one portal. -/
structure PortalOk (cfg : ConglomerateConfig) (env : PortalEnv) (portal : Portal) : Prop where
  id : portal.id.val ∉ env.nodeIds ∧ portal.id.val ∉ cfg.regions.map (·.id.val) ∧
    portal.id.val ∉ specialDestinations
  tag : portalTag portal.id ∉ derivedTags cfg env.nodeIds
  regionPrefix : ∀ r ∈ cfg.exitRegions, ¬ (Python.startswith (portalTag portal.id) r.id.val ∨
    Python.startswith (portalTag portal.id) (TagPrefix.warp ++ r.id.val))
  users : ∀ u ∈ portal.users, u ∈ cfg.users.map (·.username) ∧
    ∃ a ∈ ((cfg.users.find? fun x => x.username = u).map (·.access)).getD [],
      a ∈ routableAccess ∧ a ∈ env.rendered
  publish : ∀ e ∈ portal.publish, PublishOk env e

/-- What the walk over the portals holds after a portal. -/
def PortalState.extend (env : PortalEnv) (state : PortalState) (portal : Portal) : PortalState :=
  { ids := state.ids ++ [portal.id.val], published := state.published ++ portal.claims env }

structure PortalState.Distinct (state : PortalState) : Prop where
  ids : (state.ids.map id).Nodup
  published : (state.published.map PublishClaim.key).Nodup

theorem checkPortal_eq_ok {cfg : ConglomerateConfig} {env : PortalEnv} {state state' : PortalState}
    {portal : Portal} (hstate : state.Distinct) :
    checkPortal cfg env state portal = .ok state' ↔
      (PortalOk cfg env portal ∧ (state.extend env portal).Distinct) ∧
        state' = state.extend env portal := by
  have hids : ((state.ids ++ [portal.id.val]).map id).Nodup ↔
      portal.id.val ∉ state.ids.map id := nodup_append_singleton hstate.ids
  simp only [checkPortal, bind_eq_ok, exists_const, claim_eq_ok, ensure_eq_ok, forEach_eq_ok,
    checkPortalTag, checkPortalUser, validatePortalPublish_eq_ok hstate.published, pure_eq_ok]
  constructor
  · rintro ⟨ids, ⟨hnot, rfl⟩, hid, htag, hprefix, husers, reg, ⟨⟨hpub, hnodup⟩, rfl⟩, rfl⟩
    exact ⟨⟨⟨hid, htag, hprefix, husers, hpub⟩, ⟨hids.mpr hnot, hnodup⟩⟩, rfl⟩
  · rintro ⟨⟨hok, hdistinct⟩, rfl⟩
    exact ⟨_, ⟨hids.mp hdistinct.ids, rfl⟩, hok.id, hok.tag, hok.regionPrefix, hok.users, _,
      ⟨⟨hok.publish, hdistinct.published⟩, rfl⟩, rfl⟩

/-- Sockets the registry reserves on each node. -/
def reservedSockets (cfg : ConglomerateConfig) : List (String × List SocketClaim) :=
  (allNodes cfg).map fun p =>
    (p.2.id.val, socketClaims p.1 p.2 cfg.defaults cfg.global cfg.users)

/-- Access types the hub nodes render between them. -/
def renderedTypes (cfg : ConglomerateConfig) : List AccessType :=
  (hubNodes cfg).flatMap fun h =>
    (hubRenderedAccess h.2.1 h.2.2 cfg.defaults cfg.global).toOption.getD []

/-- What the portal checks of an accepted topology read. -/
def portalEnv (cfg : ConglomerateConfig) : PortalEnv :=
  { nodeIds := nodeIds cfg
    hubNodes := hubNodes cfg
    reserved := reservedSockets cfg
    rendered := if cfg.portals = [] then [] else renderedTypes cfg }

theorem nodeReservedPorts_eq_ok {region : Region} {node : Node} {defaults : DefaultsConfig}
    {global : GlobalConfig} {users : List User} {reg : List SocketClaim} :
    nodeReservedPorts region node defaults global users = .ok reg ↔
      ((socketClaims region node defaults global users).map SocketClaim.key).Nodup ∧
        reg = socketClaims region node defaults global users :=
  claimAll_nil_eq_ok

theorem reservedPorts_eq_ok {cfg : ConglomerateConfig} {reg : List (String × List SocketClaim)} :
    reservedPorts cfg = .ok reg ↔
      (∀ p ∈ allNodes cfg, ((socketClaims p.1 p.2 cfg.defaults cfg.global cfg.users).map
        SocketClaim.key).Nodup) ∧ reg = reservedSockets cfg := by
  have step : ∀ (p : Region × Node) (r : String × List SocketClaim),
      (nodeReservedPorts p.1 p.2 cfg.defaults cfg.global cfg.users >>= fun c =>
        pure (p.2.id.val, c)) = .ok r ↔
      ((socketClaims p.1 p.2 cfg.defaults cfg.global cfg.users).map SocketClaim.key).Nodup ∧
        r = (p.2.id.val, socketClaims p.1 p.2 cfg.defaults cfg.global cfg.users) := by
    intro p r
    simp only [bind_eq_ok, nodeReservedPorts_eq_ok, pure_eq_ok]
    constructor
    · rintro ⟨c, ⟨hnodup, rfl⟩, rfl⟩
      exact ⟨hnodup, rfl⟩
    · rintro ⟨hnodup, rfl⟩
      exact ⟨_, ⟨hnodup, rfl⟩, rfl⟩
  exact mapEach_map_eq_ok step

theorem eq_ok_iff_toOption {α : Type} {x : Except Error α} {a d : α} :
    x = .ok a ↔ x.isOk = true ∧ a = x.toOption.getD d := by
  cases x <;> simp [Except.isOk, Except.toBool, Except.toOption, eq_comm]

theorem mem_hubNodes {cfg : ConglomerateConfig} {h : String × HubRegion × HubNode} :
    h ∈ hubNodes cfg ↔
      Region.hub h.2.1 ∈ cfg.regions ∧ h.2.2 ∈ h.2.1.nodes ∧ h.1 = h.2.2.id.val := by
  obtain ⟨n, r, node⟩ := h
  simp only [hubNodes, List.mem_flatMap]
  constructor
  · rintro ⟨region, hregion, hmem⟩
    cases region with
    | exit q => simp [Region.hubEntries] at hmem
    | hub q =>
        obtain ⟨m, hm, heq⟩ := List.mem_map.mp hmem
        cases heq
        exact ⟨hregion, hm, rfl⟩
  · rintro ⟨hregion, hnode, rfl⟩
    exact ⟨_, hregion, List.mem_map.mpr ⟨node, hnode, rfl⟩⟩

theorem hubRenderedAccess_isOk {cfg : ConglomerateConfig}
    (hregions : ∀ r ∈ cfg.regions, RegionOk cfg r) {h : String × HubRegion × HubNode}
    (hmem : h ∈ hubNodes cfg) :
    (hubRenderedAccess h.2.1 h.2.2 cfg.defaults cfg.global).isOk = true := by
  obtain ⟨tls, htls, -⟩ := (hregions _ (mem_hubNodes.mp hmem).1).kind
  rw [hubRenderedAccess, htls]
  rfl

theorem renderedAccess_eq_ok {cfg : ConglomerateConfig} {rendered : List AccessType}
    (hregions : ∀ r ∈ cfg.regions, RegionOk cfg r) :
    renderedAccess cfg (references cfg) = .ok rendered ↔
      (cfg.portals ≠ [] → hubNodes cfg ≠ []) ∧ rendered = (portalEnv cfg).rendered := by
  have hmap : ∀ acc, mapEach (hubNodes cfg)
      (fun h => hubRenderedAccess h.2.1 h.2.2 cfg.defaults cfg.global) = .ok acc ↔
      acc = (hubNodes cfg).map fun h =>
        (hubRenderedAccess h.2.1 h.2.2 cfg.defaults cfg.global).toOption.getD [] := by
    intro acc
    rw [mapEach_map_eq_ok fun h y => eq_ok_iff_toOption (d := [])]
    exact and_iff_right fun h hmem => hubRenderedAccess_isOk hregions hmem
  unfold renderedAccess portalEnv
  by_cases hportals : cfg.portals = []
  · rw [if_pos hportals, if_pos hportals, pure_eq_ok]
    simp [hportals, eq_comm]
  · rw [if_neg hportals, if_neg hportals, renderedTypes, List.flatMap_def]
    simp only [references_eq, bind_eq_ok, exists_const, ensure_eq_ok, hmap, exists_eq_left,
      pure_eq_ok, ne_eq, hportals, not_false_eq_true, true_imp_iff]
    exact and_congr_right fun _ => eq_comm

/-- Conditions on the portals of a topology. -/
structure PortalsOk (cfg : ConglomerateConfig) : Prop where
  sockets : ∀ p ∈ allNodes cfg, ((socketClaims p.1 p.2 cfg.defaults cfg.global cfg.users).map
    SocketClaim.key).Nodup
  hub : cfg.portals ≠ [] → hubNodes cfg ≠ []
  portal : ∀ p ∈ cfg.portals, PortalOk cfg (portalEnv cfg) p
  ids : ((cfg.portals.map (·.id.val)).map id).Nodup
  published : ((cfg.portals.flatMap (·.claims (portalEnv cfg))).map PublishClaim.key).Nodup

theorem foldl_portalState (env : PortalEnv) (portals : List Portal) (state : PortalState) :
    portals.foldl (PortalState.extend env) state =
      { ids := state.ids ++ portals.map (·.id.val)
        published := state.published ++ portals.flatMap (·.claims env) } := by
  induction portals generalizing state with
  | nil => simp
  | cons p ps ih => simp [ih, PortalState.extend]

theorem checkPortals_isOk {cfg : ConglomerateConfig}
    (hregions : ∀ r ∈ cfg.regions, RegionOk cfg r) :
    (∃ state, checkPortals cfg (references cfg) = .ok state) ↔ PortalsOk cfg := by
  have hfold : ∀ state, foldEach cfg.portals (checkPortal cfg (portalEnv cfg)) {} = .ok state ↔
      ((∀ p ∈ cfg.portals, PortalOk cfg (portalEnv cfg) p) ∧
        (cfg.portals.foldl (PortalState.extend (portalEnv cfg)) {}).Distinct) ∧
          state = cfg.portals.foldl (PortalState.extend (portalEnv cfg)) {} := by
    intro state
    refine foldEach_extend_eq_ok ?_ ?_ ⟨List.nodup_nil, List.nodup_nil⟩
    · exact fun s p h => ⟨nodup_of_append h.ids, nodup_of_append h.published⟩
    · exact fun s p s' h => checkPortal_eq_ok h
  have hdistinct : (cfg.portals.foldl (PortalState.extend (portalEnv cfg)) {}).Distinct ↔
      ((cfg.portals.map (·.id.val)).map id).Nodup ∧
        ((cfg.portals.flatMap (·.claims (portalEnv cfg))).map PublishClaim.key).Nodup := by
    rw [foldl_portalState]
    exact ⟨fun h => ⟨h.ids, h.published⟩, fun h => ⟨h.1, h.2⟩⟩
  have henv : ∀ reserved rendered, reserved = reservedSockets cfg →
      rendered = (portalEnv cfg).rendered →
      (PortalEnv.mk (references cfg).nodeIds (references cfg).hubNodes reserved rendered) =
        portalEnv cfg := by
    rintro _ _ rfl rfl
    rw [references_eq]
    rfl
  simp only [checkPortals, bind_eq_ok, reservedPorts_eq_ok, renderedAccess_eq_ok hregions]
  constructor
  · rintro ⟨state, reserved, ⟨hsockets, hres⟩, rendered, ⟨hhub, hren⟩, h⟩
    rw [henv _ _ hres hren, hfold, hdistinct] at h
    exact ⟨hsockets, hhub, h.1.1, h.1.2.1, h.1.2.2⟩
  · intro h
    refine ⟨cfg.portals.foldl (PortalState.extend (portalEnv cfg)) {}, _, ⟨h.sockets, rfl⟩, _,
      ⟨h.hub, rfl⟩, ?_⟩
    rw [henv _ _ rfl rfl, hfold, hdistinct]
    exact ⟨⟨h.portal, h.ids, h.published⟩, rfl⟩

/-! ## Routing -/

/-- Conditions on one `hub_routes` entry. -/
structure HubRouteOk (cfg : ConglomerateConfig) (route : HubRoute) : Prop where
  dialable : route.destination ∉ hubRegionIds cfg ∧
    route.destination ∉ (hubNodes cfg).map (·.1)
  known : route.destination ∈ specialDestinations ∨ route.destination ∈ regionIds cfg ∨
    route.destination ∈ nodeIds cfg
  nonempty : route.destination ∉ emptyRegionIds cfg
  users : ∀ u ∈ route.users.getD [], u ∈ cfg.users.map (·.username.val)
  proxyUsers : ∀ u ∈ route.proxyUsers.getD [], u ∈ cfg.users.map (·.username.val)

theorem checkHubRoute_eq_ok {cfg : ConglomerateConfig} {route : HubRoute} {u : Unit} :
    checkHubRoute cfg (references cfg) route = .ok u ↔ HubRouteOk cfg route := by
  simp only [checkHubRoute, references_eq, bind_eq_ok, exists_const, ensure_eq_ok, forEach_eq_ok]
  constructor
  · rintro ⟨hdial, hknown, hne, husers, hproxy⟩
    exact ⟨hdial, hknown, hne, husers, hproxy⟩
  · intro h
    exact ⟨h.dialable, h.known, h.nonempty, h.users, h.proxyUsers⟩

structure HubDefaultOk (cfg : ConglomerateConfig) : Prop where
  notHub : cfg.routing.hubDefault ∉ hubRegionIds cfg
  known : cfg.routing.hubDefault ∈ regionIds cfg ∨ cfg.routing.hubDefault ∈ specialDestinations
  nonempty : cfg.routing.hubDefault ∉ emptyRegionIds cfg

theorem checkHubDefault_eq_ok {cfg : ConglomerateConfig} {u : Unit} :
    checkHubDefault cfg = .ok u ↔ HubDefaultOk cfg := by
  simp only [checkHubDefault, bind_eq_ok, exists_const, ensure_eq_ok]
  exact ⟨fun h => ⟨h.1, h.2.1, h.2.2⟩, fun h => ⟨h.notHub, h.known, h.nonempty⟩⟩

/-! ## The validator as a whole -/

/-- Everything `validateReferences` establishes. -/
structure Accepted (cfg : ConglomerateConfig) : Prop where
  regionIds : ((cfg.regions.map (·.id.val)).map id).Nodup
  region : ∀ r ∈ cfg.regions, RegionOk cfg r
  nodeIds : ((nodeIds cfg).map id).Nodup
  routes : ((cfg.regions.flatMap (·.routeClaims)).map RouteClaim.route).Nodup
  groups : ((cfg.groups.map (·.id.val)).map id).Nodup
  userGroup : ∀ u ∈ cfg.users, u.group ∈ cfg.groups.map (·.id)
  usernames : ((usernames cfg).map id).Nodup
  portals : PortalsOk cfg
  hubDefault : HubDefaultOk cfg
  exitRoutes : ∀ r ∈ cfg.routing.exitRoutesGlobal, r.destination ∈ specialDestinations
  hubRoutes : ∀ r ∈ cfg.routing.hubRoutes, HubRouteOk cfg r

theorem validateReferences_isOk {cfg : ConglomerateConfig} :
    (validateReferences cfg).isOk = true ↔ Accepted cfg := by
  simp only [isOk_iff, validateReferences, bind_eq_ok, exists_const, checkRegionIds, checkGroups,
    claimAll_nil_eq_ok, checkRegions_eq_ok, checkUsers_eq_ok, checkHubDefault_eq_ok,
    forEach_eq_ok, checkExitRouteGlobal, ensure_eq_ok]
  constructor
  · rintro ⟨_, ⟨hregions, rfl⟩, _, ⟨⟨hok, hdistinct⟩, rfl⟩, _, ⟨hgroups, rfl⟩, _,
      ⟨⟨huser, hnames⟩, rfl⟩, state, hportals, hdefault, hexit, hroutes⟩
    have hnodes := hdistinct.nodeIds
    have hvless := hdistinct.routes
    rw [references_eq] at hnodes hvless
    exact {
      regionIds := hregions, region := hok, nodeIds := hnodes, routes := hvless
      groups := hgroups, userGroup := huser, usernames := hnames
      portals := (checkPortals_isOk hok).mp ⟨state, hportals⟩
      hubDefault := hdefault, exitRoutes := hexit
      hubRoutes := fun r hr => checkHubRoute_eq_ok.mp (hroutes r hr) }
  · intro h
    obtain ⟨state, hportals⟩ := (checkPortals_isOk h.region).mpr h.portals
    have hdistinct : (references cfg).Distinct := by
      rw [references_eq]
      exact ⟨h.nodeIds, h.routes⟩
    exact ⟨_, ⟨h.regionIds, rfl⟩, _, ⟨⟨h.region, hdistinct⟩, rfl⟩, _, ⟨h.groups, rfl⟩, _,
      ⟨⟨h.userGroup, h.usernames⟩, rfl⟩, state, hportals, h.hubDefault, h.exitRoutes,
      fun r hr => checkHubRoute_eq_ok.mpr (h.hubRoutes r hr)⟩

theorem AcceptedConfig.spec (cfg : AcceptedConfig) : Accepted cfg.toConglomerateConfig :=
  validateReferences_isOk.mp cfg.accepted

end HexRift
