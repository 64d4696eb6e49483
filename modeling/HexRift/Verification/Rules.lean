import HexRift.Model.Render
import HexRift.Verification.Accepted

/-! # The rule list of an accepted topology

Building the rules of a hub raises only where a region has no node to name or a destination
is unknown. Neither happens in an accepted topology, where the list is a total function. -/

namespace HexRift

open Checks

variable {cfg : ConglomerateConfig}

/-! ## Exit regions and their nodes -/

theorem mem_exitRegions {r : ExitRegion} : r ∈ cfg.exitRegions ↔ Region.exit r ∈ cfg.regions := by
  simp only [ConglomerateConfig.exitRegions, List.mem_filterMap]
  constructor
  · rintro ⟨region, hmem, hexit⟩
    cases region with
    | exit q =>
        cases hexit
        exact hmem
    | hub q => cases hexit
  · exact fun h => ⟨_, h, rfl⟩

theorem mem_hubRegions {r : HubRegion} : r ∈ cfg.hubRegions ↔ Region.hub r ∈ cfg.regions := by
  simp only [ConglomerateConfig.hubRegions, List.mem_filterMap]
  constructor
  · rintro ⟨region, hmem, hhub⟩
    cases region with
    | exit q => cases hhub
    | hub q =>
        cases hhub
        exact hmem
  · exact fun h => ⟨_, h, rfl⟩

theorem mem_renderedExitRegions {r : ExitRegion} :
    r ∈ renderedExitRegions cfg ↔ r ∈ cfg.exitRegions ∧ r.nodes ≠ [] := by
  simp [renderedExitRegions]

theorem mem_renderedExitNodes {p : ExitRegion × ExitNode} :
    p ∈ renderedExitNodes cfg ↔ p.1 ∈ cfg.exitRegions ∧ p.2 ∈ p.1.nodes := by
  obtain ⟨r, n⟩ := p
  simp only [renderedExitNodes, List.mem_flatMap, List.mem_map, Prod.mk.injEq,
    mem_renderedExitRegions]
  constructor
  · rintro ⟨q, ⟨hq, -⟩, m, hm, rfl, rfl⟩
    exact ⟨hq, hm⟩
  · rintro ⟨hr, hn⟩
    exact ⟨r, ⟨hr, List.ne_nil_of_mem hn⟩, n, hn, rfl, rfl⟩

/-- Node of a rendered region, or the empty text when there is none to name. -/
def leadId (region : ExitRegion) : String :=
  ((primaryNodes region ++ region.nodes).head?.map (·.id.val)).getD ""

theorem leadNode_eq {region : ExitRegion} (h : region.nodes ≠ []) :
    ∃ n ∈ region.nodes, leadNode region = .ok n ∧ leadId region = n.id.val := by
  unfold leadNode leadId
  cases hprimary : primaryNodes region with
  | cons n ns =>
      have hmem : n ∈ primaryNodes region := by simp [hprimary]
      exact ⟨n, (List.mem_filter.mp hmem).1, rfl, rfl⟩
  | nil =>
      cases hnodes : region.nodes with
      | nil => exact absurd hnodes h
      | cons n ns => exact ⟨n, by simp, rfl, rfl⟩

theorem leadNode_map {region : ExitRegion} (h : region.nodes ≠ []) :
    ∃ n, leadNode region = .ok n ∧ n.id.val = leadId region := by
  obtain ⟨n, -, hn, hid⟩ := leadNode_eq h
  exact ⟨n, hn, hid.symm⟩

/-- Tag a rendered region is routed to by. -/
def regionTag (region : ExitRegion) : String :=
  if balanced region then TagPrefix.lb ++ region.id.val else leadId region

def regionWarpTag (region : ExitRegion) : String :=
  if balanced region then TagPrefix.lbWarp ++ region.id.val
  else TagPrefix.warp ++ leadId region

theorem regionOutboundTag_eq {region : ExitRegion} (h : region.nodes ≠ []) :
    regionOutboundTag region = .ok (regionTag region) := by
  obtain ⟨n, hn, hid⟩ := leadNode_map h
  unfold regionOutboundTag regionTag
  split
  · rfl
  · rw [hn, ← hid]
    rfl

theorem regionWarpOutboundTag_eq {region : ExitRegion} (h : region.nodes ≠ []) :
    regionWarpOutboundTag region = .ok (regionWarpTag region) := by
  obtain ⟨n, hn, hid⟩ := leadNode_map h
  unfold regionWarpOutboundTag regionWarpTag
  split
  · rfl
  · rw [hn, ← hid]
    rfl

/-! ## Balancers -/

/-- The fallback of a balanced region whose `lb_fallback` names one of its nodes. -/
def fallbackTag (region : ExitRegion) : String :=
  match region.lbFallback with
  | none => leadId region
  | some fallback =>
      match region.nodes.find? fun n => n.id.val = fallback with
      | some node => tagPrefix node ++ fallback
      | none => fallback

theorem resolveFallbackTag_eq {region : ExitRegion} (h : region.nodes ≠ []) :
    resolveFallbackTag region = .ok (fallbackTag region) := by
  unfold resolveFallbackTag fallbackTag
  cases region.lbFallback with
  | none =>
      obtain ⟨n, hn, hid⟩ := leadNode_map h
      simp only [hn, ← hid]
      rfl
  | some fallback =>
      simp only [if_neg h]
      cases region.nodes.find? fun n => n.id.val = fallback with
      | none => rfl
      | some node =>
          by_cases hrole : node.lbRole = some .backup
          · simp [hrole, tagPrefix]
          · simp [hrole, tagPrefix, TagPrefix.none]

def balancersOf (region : ExitRegion) : List Balancer :=
  match balanced region, region.lbStrategy with
  | true, some strategy => regionBalancers region strategy (fallbackTag region)
  | _, _ => []

theorem nodes_ne_nil_of_balanced {region : ExitRegion} (h : balanced region = true) :
    region.nodes ≠ [] := by
  rintro hnil
  simp [balanced, hnil] at h

theorem buildRegionBalancers_eq (region : ExitRegion) :
    buildRegionBalancers region = .ok (balancersOf region) := by
  unfold buildRegionBalancers balancersOf
  cases hbal : balanced region with
  | false => rfl
  | true =>
      cases region.lbStrategy with
      | none => rfl
      | some strategy =>
          rw [resolveFallbackTag_eq (nodes_ne_nil_of_balanced hbal)]
          rfl

theorem buildBalancers_eq (regions : List ExitRegion) :
    buildBalancers regions = .ok (regions.flatMap balancersOf) := by
  rw [buildBalancers, mapEach_eq_map fun region _ => buildRegionBalancers_eq region,
    List.flatMap_def]
  rfl

/-! ## Routing rules -/

/-- Key and tag of the outbound a destination stands for. -/
def targetOf (cfg : ConglomerateConfig) (dest : String) : OutKey × String :=
  if dest ∈ specialDestinations then (.outboundTag, dest)
  else
    match cfg.exitRegions.find? fun r => r.id.val = dest with
    | some r => (balancerKey r, regionTag r)
    | none => (.outboundTag, dest)

theorem targetOf_special {dest : String} (h : dest ∈ specialDestinations) :
    targetOf cfg dest = (.outboundTag, dest) := by
  rw [targetOf, if_pos h]

def steeredRulesOf (cfg : ConglomerateConfig) (route : HubRoute) : List Rule :=
  if route.destination = SpecialDestination.blocked.value ∨
      route.destination = SpecialDestination.direct.value then []
  else
    appendRouteRules route (routeUserFilter route cfg.ns) (targetOf cfg route.destination).1
      (targetOf cfg route.destination).2

def vlessRuleOf (region : ExitRegion) : Rule :=
  { vlessRoute := some (vlessRouteText region.vlessRoute), outKey := balancerKey region
    outTag := regionTag region }

def warpRulesOf (region : ExitRegion) : List Rule :=
  region.warp.toList.map fun warp =>
    { vlessRoute := some (vlessRouteText (some warp.vlessRoute)), outKey := balancerKey region
      outTag := regionWarpTag region }

def defaultRuleOf (cfg : ConglomerateConfig) : Rule :=
  { network := some "TCP,UDP", outKey := (targetOf cfg cfg.routing.hubDefault).1
    outTag := (targetOf cfg cfg.routing.hubDefault).2 }

/-- The rules that come before those of `hub_routes`, the portals' aside. -/
def selectorRules (cfg : ConglomerateConfig) (published : List PublishedPort) : List Rule :=
  buildPublishRules published ++
    [makeDnsDirectRule cfg.global.dns.address cfg.global.dns.port] ++
    (renderedExitRegions cfg).map vlessRuleOf ++ (renderedExitRegions cfg).flatMap warpRulesOf

/-- The rules of a hub of an accepted topology. -/
def hubRules (cfg : ConglomerateConfig) (published : List PublishedPort) : List Rule :=
  selectorRules cfg published ++
    cfg.routing.hubRoutes.flatMap (blockedDomainRules cfg.ns) ++
    cfg.portals.flatMap (portalRules cfg.ns) ++
    cfg.routing.hubRoutes.flatMap (steeredRulesOf cfg) ++
    cfg.routing.hubRoutes.flatMap (directRules cfg.ns) ++
    cfg.routing.hubRoutes.flatMap (blockedIpRules cfg.ns) ++
    [defaultRuleOf cfg]

/-! ## Where a rule comes from -/

def Rule.target (rule : Rule) : OutKey × String := (rule.outKey, rule.outTag)

/-- What the rules of an entry of `hub_routes` have in common, whichever pass lays them out. -/
structure Rule.OfRoute (cfg : ConglomerateConfig) (route : HubRoute) (rule : Rule) : Prop where
  target : rule.target = targetOf cfg route.destination
  user : rule.user = routeUserFilter route cfg.ns
  vlessRoute : rule.vlessRoute = none

structure Rule.OfPortal (cfg : ConglomerateConfig) (portal : Portal) (rule : Rule) : Prop where
  target : rule.target = (.outboundTag, portalTag portal.id)
  user : rule.user = some (portal.users.map fun u => cfg.ns.userEmail u.val)
  vlessRoute : rule.vlessRoute = none

structure Rule.OfPublish (published : List PublishedPort) (rule : Rule) : Prop where
  target : (∃ pub ∈ published, rule.target = (.outboundTag, pub.reverseTag)) ∨
    rule.target = (.outboundTag, SpecialDestination.blocked.value)
  user : rule.user = none
  vlessRoute : rule.vlessRoute = none

/-- The source of a rule of a hub. -/
inductive RuleOrigin (cfg : ConglomerateConfig) (published : List PublishedPort) (rule : Rule) :
    Prop where
  | publish (h : rule.OfPublish published)
  | dns (h : rule = makeDnsDirectRule cfg.global.dns.address cfg.global.dns.port)
  | region {r : ExitRegion} (hr : r ∈ renderedExitRegions cfg) (h : rule = vlessRuleOf r)
  | warp {r : ExitRegion} (hr : r ∈ renderedExitRegions cfg) (h : rule ∈ warpRulesOf r)
  | route {route : HubRoute} (hroute : route ∈ cfg.routing.hubRoutes)
      (h : rule.OfRoute cfg route)
  | portal {p : Portal} (hp : p ∈ cfg.portals) (h : rule ∈ portalRules cfg.ns p)
  | default (h : rule = defaultRuleOf cfg)

theorem ofPublish_of_mem {published : List PublishedPort} {rule : Rule}
    (h : rule ∈ buildPublishRules published) : rule.OfPublish published := by
  obtain ⟨pub, hpub, h⟩ := List.mem_flatMap.mp h
  rcases List.mem_cons.mp h with rfl | h
  · exact ⟨.inl ⟨pub, hpub, rfl⟩, rfl, rfl⟩
  · split at h
    · cases h
    · rw [List.mem_singleton] at h
      subst h
      exact ⟨.inr rfl, rfl, rfl⟩

theorem ofPortal_of_mem {portal : Portal} {rule : Rule}
    (h : rule ∈ portalRules cfg.ns portal) : rule.OfPortal cfg portal := by
  simp only [portalRules, List.mem_append] at h
  rcases h with h | h
  all_goals
    split at h
    · rw [List.mem_singleton] at h
      subst h
      exact ⟨rfl, rfl, rfl⟩
    · cases h

theorem ofRoute_of_mem_appendRouteRules {route : HubRoute} {outKey : OutKey} {outTag : String}
    {includeIps : Bool} {rule : Rule}
    (h : rule ∈ appendRouteRules route (routeUserFilter route cfg.ns) outKey outTag includeIps)
    (htarget : (outKey, outTag) = targetOf cfg route.destination) : rule.OfRoute cfg route := by
  simp only [appendRouteRules, List.mem_append] at h
  rcases h with (h | h) | h
  all_goals
    split at h
    · rw [List.mem_singleton] at h
      subst h
      exact ⟨htarget, rfl, rfl⟩
    · cases h

theorem target_of_destination {dest : String} (hspecial : dest ∈ specialDestinations)
    {route : HubRoute} (hdest : ¬route.destination ≠ dest) :
    (.outboundTag, dest) = targetOf cfg route.destination := by
  rw [not_not.mp hdest, targetOf_special hspecial]

theorem direct_special : SpecialDestination.direct.value ∈ specialDestinations := by decide

theorem blocked_special : SpecialDestination.blocked.value ∈ specialDestinations := by decide

theorem ofRoute_of_mem_blockedDomain {route : HubRoute} {rule : Rule}
    (h : rule ∈ blockedDomainRules cfg.ns route) : rule.OfRoute cfg route := by
  unfold blockedDomainRules at h
  split at h
  · cases h
  · rename_i hdest
    exact ofRoute_of_mem_appendRouteRules h (target_of_destination blocked_special hdest)

theorem ofRoute_of_mem_steered {route : HubRoute} {rule : Rule}
    (h : rule ∈ steeredRulesOf cfg route) : rule.OfRoute cfg route := by
  unfold steeredRulesOf at h
  split at h
  · cases h
  · exact ofRoute_of_mem_appendRouteRules h rfl

theorem ofRoute_of_mem_direct {route : HubRoute} {rule : Rule}
    (h : rule ∈ directRules cfg.ns route) : rule.OfRoute cfg route := by
  unfold directRules at h
  split at h
  · cases h
  · rename_i hdest
    exact ofRoute_of_mem_appendRouteRules h (target_of_destination direct_special hdest)

theorem ofRoute_of_mem_blockedIp {route : HubRoute} {rule : Rule}
    (h : rule ∈ blockedIpRules cfg.ns route) : rule.OfRoute cfg route := by
  unfold blockedIpRules at h
  split at h
  · cases h
  · rename_i hdest
    rw [not_or] at hdest
    rw [List.mem_singleton] at h
    subst h
    exact ⟨target_of_destination blocked_special hdest.1, rfl, rfl⟩

theorem mem_hubRules {published : List PublishedPort} {rule : Rule}
    (h : rule ∈ hubRules cfg published) : RuleOrigin cfg published rule := by
  simp only [hubRules, selectorRules, List.mem_append, List.mem_flatMap, List.mem_map,
    List.mem_singleton] at h
  rcases h with ((((((((hpub | hdns) | ⟨r, hr, hvless⟩) | ⟨r, hr, hwarp⟩) |
    ⟨route, hroute, hblocked⟩) | ⟨p, hp, hportal⟩) | ⟨route, hroute, hsteered⟩) |
    ⟨route, hroute, hdirect⟩) | ⟨route, hroute, hblockedIp⟩) | hdefault
  · exact .publish (ofPublish_of_mem hpub)
  · exact .dns hdns
  · exact .region hr hvless.symm
  · exact .warp hr hwarp
  · exact .route hroute (ofRoute_of_mem_blockedDomain hblocked)
  · exact .portal hp hportal
  · exact .route hroute (ofRoute_of_mem_steered hsteered)
  · exact .route hroute (ofRoute_of_mem_direct hdirect)
  · exact .route hroute (ofRoute_of_mem_blockedIp hblockedIp)
  · exact .default hdefault

/-! ## What an id names -/

theorem Accepted.region_eq (h : Accepted cfg) {r q : Region} (hr : r ∈ cfg.regions)
    (hq : q ∈ cfg.regions) (hid : r.id.val = q.id.val) : r = q := by
  have hnodup : (cfg.regions.map (·.id.val)).Nodup := by simpa using h.regionIds
  exact List.inj_on_of_nodup_map hnodup hr hq hid

theorem Accepted.exitRegion_eq (h : Accepted cfg) {r q : ExitRegion} (hr : r ∈ cfg.exitRegions)
    (hq : q ∈ cfg.exitRegions) (hid : r.id.val = q.id.val) : r = q := by
  have heq := h.region_eq (mem_exitRegions.mp hr) (mem_exitRegions.mp hq) hid
  cases heq
  rfl

theorem mem_allNodes {region : Region} {node : Node} (hregion : region ∈ cfg.regions)
    (hnode : node ∈ region.nodes) : (region, node) ∈ allNodes cfg :=
  List.mem_flatMap.mpr ⟨_, hregion, List.mem_map.mpr ⟨_, hnode, rfl⟩⟩

theorem allNodes_ids (cfg : ConglomerateConfig) :
    (allNodes cfg).map (fun p => p.2.id.val) = nodeIds cfg := by
  simp [allNodes, nodeIds, idsOf, List.map_eq_flatMap, List.flatMap_assoc]

theorem nodeIds_nodup (h : Accepted cfg) : ((allNodes cfg).map fun p => p.2.id.val).Nodup := by
  rw [allNodes_ids]
  simpa using h.nodeIds

/-- A node is told by its id. -/
theorem Accepted.node_eq (h : Accepted cfg) {p q : Region × Node} (hp : p ∈ allNodes cfg)
    (hq : q ∈ allNodes cfg) (hid : p.2.id.val = q.2.id.val) : p = q :=
  List.inj_on_of_nodup_map (nodeIds_nodup h) hp hq hid

theorem exit_mem_allNodes {p : ExitRegion × ExitNode} (hp : p ∈ renderedExitNodes cfg) :
    (Region.exit p.1, Node.exit p.2) ∈ allNodes cfg := by
  obtain ⟨hr, hn⟩ := mem_renderedExitNodes.mp hp
  exact mem_allNodes (mem_exitRegions.mp hr) (List.mem_map_of_mem hn)

/-- An exit node is known by its id. -/
theorem Accepted.exitNode_eq (h : Accepted cfg) {p q : ExitRegion × ExitNode}
    (hp : p ∈ renderedExitNodes cfg) (hq : q ∈ renderedExitNodes cfg)
    (hid : p.2.id.val = q.2.id.val) : p = q := by
  have heq := h.node_eq (exit_mem_allNodes hp) (exit_mem_allNodes hq) hid
  simp only [Prod.mk.injEq, Region.exit.injEq, Node.exit.injEq] at heq
  exact Prod.ext heq.1 heq.2

/-! ## The builder's list -/

/-- Looking a region up by id finds the only one that has it, from either end. -/
theorem Accepted.find_exitRegion (h : Accepted cfg) {r : ExitRegion} (hr : r ∈ cfg.exitRegions)
    {regions : List ExitRegion} (hregions : ∀ q, q ∈ regions ↔ q ∈ cfg.exitRegions) :
    regions.find? (fun q => q.id.val = r.id.val) = some r := by
  cases hfind : regions.find? fun q => q.id.val = r.id.val with
  | none => simpa using List.find?_eq_none.mp hfind r ((hregions r).mpr hr)
  | some q =>
      have hid := List.find?_some hfind
      have hmem := (hregions q).mp (List.mem_of_find?_eq_some hfind)
      simp only [decide_eq_true_eq] at hid
      rw [h.exitRegion_eq hmem hr hid]

theorem Accepted.find_reverse (h : Accepted cfg) (dest : String) :
    cfg.exitRegions.reverse.find? (fun q => q.id.val = dest) =
      cfg.exitRegions.find? fun q => q.id.val = dest := by
  cases hfind : cfg.exitRegions.find? fun q => q.id.val = dest with
  | none => simpa using hfind
  | some r =>
      have hid := List.find?_some hfind
      simp only [decide_eq_true_eq] at hid
      subst hid
      exact h.find_exitRegion (List.mem_of_find?_eq_some hfind) fun q => List.mem_reverse

theorem mem_regionIds_of_find {dest : String} {r : ExitRegion}
    (h : cfg.exitRegions.find? (fun q => q.id.val = dest) = some r) :
    r ∈ cfg.exitRegions ∧ r.id.val = dest := by
  have hid := List.find?_some h
  simp only [decide_eq_true_eq] at hid
  exact ⟨List.mem_of_find?_eq_some h, hid⟩

theorem nodes_ne_nil {r : ExitRegion} (hr : r ∈ cfg.exitRegions)
    (hid : r.id.val ∉ emptyRegionIds cfg) : r.nodes ≠ [] := by
  rintro hnil
  refine hid (List.mem_map.mpr ⟨.exit r, List.mem_filter.mpr ⟨mem_exitRegions.mp hr, ?_⟩, rfl⟩)
  simp [Region.nodes, hnil]

theorem mem_exitRegionIds {dest : String} (hregion : dest ∈ regionIds cfg)
    (hhub : dest ∉ hubRegionIds cfg) : ∃ r ∈ cfg.exitRegions, r.id.val = dest := by
  obtain ⟨region, hmem, rfl⟩ := List.mem_map.mp hregion
  cases region with
  | exit r => exact ⟨r, mem_exitRegions.mpr hmem, rfl⟩
  | hub r => exact absurd (List.mem_map.mpr ⟨r, mem_hubRegions.mpr hmem, rfl⟩) hhub

theorem mem_nodeIds {id : String} :
    id ∈ nodeIds cfg ↔ ∃ r ∈ cfg.regions, ∃ n ∈ r.nodes, n.id.val = id := by
  simp [nodeIds, idsOf, eq_comm]

theorem mem_exitNodeIds {dest : String} (hnode : dest ∈ nodeIds cfg)
    (hhub : dest ∉ (hubNodes cfg).map (·.1)) :
    ∃ p ∈ renderedExitNodes cfg, p.2.id.val = dest := by
  obtain ⟨region, hregion, node, hmem, rfl⟩ := mem_nodeIds.mp hnode
  cases region with
  | exit r =>
      obtain ⟨n, hn, rfl⟩ := List.mem_map.mp hmem
      exact ⟨(r, n), mem_renderedExitNodes.mpr ⟨mem_exitRegions.mpr hregion, hn⟩, rfl⟩
  | hub r =>
      obtain ⟨n, hn, rfl⟩ := List.mem_map.mp hmem
      refine absurd (List.mem_map.mpr ⟨(n.id.val, r, n), ?_, rfl⟩) hhub
      exact mem_hubNodes.mpr ⟨hregion, hn, rfl⟩

theorem routeTarget_eq (h : Accepted cfg) {route : HubRoute} (hroute : HubRouteOk cfg route)
    (hblocked : route.destination ≠ SpecialDestination.blocked.value)
    (hdirect : route.destination ≠ SpecialDestination.direct.value) :
    routeTarget cfg route.destination = .ok (some (targetOf cfg route.destination)) := by
  unfold routeTarget targetOf
  by_cases hwarp : route.destination = SpecialDestination.warp.value
  · simp [hwarp, specialDestinations]
  have hspecial : route.destination ∉ specialDestinations := by
    simp [specialDestinations, hblocked, hdirect, hwarp]
  rw [if_neg hwarp, if_neg hspecial, h.find_reverse]
  cases hfind : cfg.exitRegions.find? fun r => r.id.val = route.destination with
  | some r =>
      obtain ⟨hr, hid⟩ := mem_regionIds_of_find hfind
      have hnodes := nodes_ne_nil hr (hid ▸ hroute.nonempty)
      simp only [regionOutboundTag_eq hnodes]
      rfl
  | none =>
      have hnode : route.destination ∈ nodeIds cfg := by
        rcases hroute.known with hknown | hknown | hknown
        · exact absurd hknown hspecial
        · obtain ⟨r, hr, hid⟩ := mem_exitRegionIds hknown hroute.dialable.1
          simpa [hid] using List.find?_eq_none.mp hfind r hr
        · exact hknown
      obtain ⟨p, hp, hid⟩ := mem_exitNodeIds hnode hroute.dialable.2
      obtain ⟨hr, hn⟩ := mem_renderedExitNodes.mp hp
      have hmem : route.destination ∈ cfg.exitRegions.flatMap fun r => r.nodes.map (·.id.val) :=
        List.mem_flatMap.mpr ⟨p.1, hr, List.mem_map.mpr ⟨p.2, hn, hid⟩⟩
      rw [if_pos hmem]

theorem steeredRules_eq (h : Accepted cfg) {route : HubRoute} (hroute : HubRouteOk cfg route) :
    steeredRules cfg cfg.ns route = .ok (steeredRulesOf cfg route) := by
  unfold steeredRules steeredRulesOf
  split
  · rfl
  · rename_i hdest
    rw [not_or] at hdest
    rw [routeTarget_eq h hroute hdest.1 hdest.2]
    rfl

theorem defaultRule_eq (h : Accepted cfg) : defaultRule cfg = .ok (defaultRuleOf cfg) := by
  unfold defaultRule defaultRuleOf targetOf
  by_cases hspecial : cfg.routing.hubDefault ∈ specialDestinations
  · simp [hspecial]
  obtain ⟨r, hr, hid⟩ := mem_exitRegionIds (h.hubDefault.known.resolve_right hspecial)
    h.hubDefault.notHub
  have hnodes := nodes_ne_nil hr (hid ▸ h.hubDefault.nonempty)
  rw [if_neg hspecial, if_neg hspecial, h.find_reverse, ← hid,
    h.find_exitRegion hr fun _ => Iff.rfl]
  simp only [regionOutboundTag_eq hnodes]
  rfl

theorem vlessRouteRule_eq {region : ExitRegion} (h : region.nodes ≠ []) :
    vlessRouteRule region = .ok (vlessRuleOf region) := by
  rw [vlessRouteRule, regionOutboundTag_eq h]
  rfl

theorem warpRouteRules_eq {region : ExitRegion} (h : region.nodes ≠ []) :
    warpRouteRules region = .ok (warpRulesOf region) := by
  unfold warpRouteRules warpRulesOf
  cases region.warp with
  | none => rfl
  | some warp =>
      simp only [regionWarpOutboundTag_eq h]
      rfl

/-- The builder never raises on an accepted topology, and this is the list it returns. -/
theorem buildHubRoutingRules_eq (h : Accepted cfg) (published : List PublishedPort) :
    buildHubRoutingRules cfg published = .ok (hubRules cfg published) := by
  have hvless := mapEach_eq_map fun r (hr : r ∈ renderedExitRegions cfg) =>
    vlessRouteRule_eq (mem_renderedExitRegions.mp hr).2
  have hwarp := mapEach_eq_map fun r (hr : r ∈ renderedExitRegions cfg) =>
    warpRouteRules_eq (mem_renderedExitRegions.mp hr).2
  have hsteered := mapEach_eq_map fun r (hr : r ∈ cfg.routing.hubRoutes) =>
    steeredRules_eq h (h.hubRoutes r hr)
  simp only [buildHubRoutingRules, hvless, hwarp, hsteered, defaultRule_eq h, bind, Except.bind,
    pure, Except.pure, hubRules, selectorRules, List.flatMap_def]

end HexRift
