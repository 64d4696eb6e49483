import HexRift.Verification.Exposure
import HexRift.Verification.Segments
import HexRift.Verification.WarpSelector

/-! # The routing policy of a hub

What the rules of a hub are for, said without rules: a published port leads into its portal, the
local resolver is reached directly, a route segment selects a region, and only then do blocked
domains, portals and the other entries of `hub_routes` decide. The rule list refines this. -/

namespace HexRift

open Passes

variable {cfg : ConglomerateConfig} {crypto : Crypto} {store : KeyStore} {region : HubRegion}
  {node : HubNode} {config : XrayConfig} {c : Connection}

/-! ## The policy -/

/-- The segment is the region's own route. -/
def ExitRegion.Selected (r : ExitRegion) (c : Connection) : Prop :=
  ∃ route ∈ r.vlessRoute, c.vlessRoute = some route.val

def ExitRegion.WarpSelected (r : ExitRegion) (c : Connection) : Prop :=
  ∃ warp ∈ r.warp, c.vlessRoute = some warp.vlessRoute.val

/-- A member's connection to a destination the portal routes. -/
def Portal.serves (portal : Portal) (ns : Namespace) (c : Connection) : Bool :=
  decide (c.user ∈ portal.users.map fun u => ns.userEmail u.val) &&
    ((portal.routes.domains.getD []).any c.domain || (portal.routes.ips.getD []).any c.ip)

/-- Neither a published port nor the local resolver. -/
structure Entering (cfg : ConglomerateConfig) (node : HubNode) (c : Connection) : Prop where
  published : ∀ pub ∈ resolveNodePublishes cfg node, c.inboundTag ≠ pub.tag
  dns : ¬ LocalDns cfg c

/-- Entering, with a segment that selects no region. -/
structure Unselected (cfg : ConglomerateConfig) (node : HubNode) (c : Connection) : Prop extends
    Entering cfg node c where
  region : ∀ r ∈ renderedExitRegions cfg, ¬ r.Selected c ∧ ¬ r.WarpSelected c

/-- Unselected, and to no blocked domain. -/
structure Unblocked (cfg : ConglomerateConfig) (node : HubNode) (c : Connection) : Prop extends
    Unselected cfg node c where
  blocked : cfg.routing.hubRoutes.find? (Pass.blockedDomain.hit cfg.ns c) = none

/-- The passes behind the portals. -/
def laterPasses : List Pass := [.steered, .direct, .blockedIp]

/-- Where a hub node sends a connection. -/
inductive HubPolicy (cfg : ConglomerateConfig) (node : HubNode) (c : Connection) :
    OutKey × String → Prop
  | publish {pub : PublishedPort} (hpub : pub ∈ resolveNodePublishes cfg node)
      (htag : c.inboundTag = pub.tag) :
      HubPolicy cfg node c (.outboundTag,
        if pub.allows c then pub.reverseTag else SpecialDestination.blocked.value)
  | dns (hpublished : ∀ pub ∈ resolveNodePublishes cfg node, c.inboundTag ≠ pub.tag)
      (hdns : LocalDns cfg c) :
      HubPolicy cfg node c (.outboundTag, SpecialDestination.direct.value)
  | region (hc : Entering cfg node c) {r : ExitRegion} (hr : r ∈ renderedExitRegions cfg)
      (hselected : r.Selected c) : HubPolicy cfg node c (balancerKey r, regionTag r)
  | warp (hc : Entering cfg node c) {r : ExitRegion} (hr : r ∈ renderedExitRegions cfg)
      (hselected : r.WarpSelected c) : HubPolicy cfg node c (balancerKey r, regionWarpTag r)
  | blocked (hc : Unselected cfg node c) {route : HubRoute} (hroute : route ∈ cfg.routing.hubRoutes)
      (hhit : Pass.blockedDomain.hit cfg.ns c route = true) :
      HubPolicy cfg node c (.outboundTag, SpecialDestination.blocked.value)
  | portal (hc : Unblocked cfg node c) {portal : Portal}
      (hfirst : cfg.portals.find? (Portal.serves · cfg.ns c) = some portal) :
      HubPolicy cfg node c (.outboundTag, portalTag portal.id)
  | route (hc : Unblocked cfg node c)
      (hportals : cfg.portals.find? (Portal.serves · cfg.ns c) = none) {route : HubRoute}
      (hfirst : byPasses laterPasses (Pass.hit cfg.ns c) cfg.routing.hubRoutes = some route) :
      HubPolicy cfg node c (targetOf cfg route.destination)
  | default (hc : Unblocked cfg node c)
      (hportals : cfg.portals.find? (Portal.serves · cfg.ns c) = none)
      (hnone : byPasses laterPasses (Pass.hit cfg.ns c) cfg.routing.hubRoutes = none) :
      HubPolicy cfg node c (targetOf cfg cfg.routing.hubDefault)

/-! ## Dispatching in stages -/

/-- Rules that all lead one way decide as soon as one of them matches. -/
theorem dispatch_of_agree {rules : List Rule} {target : OutKey × String}
    (hmatch : ∃ rule ∈ rules, rule.matches c = true)
    (hagree : ∀ rule ∈ rules, rule.matches c = true → rule.target = target) :
    dispatch rules c = some target := by
  obtain ⟨rule, hrule⟩ := Option.isSome_iff_exists.mp (List.find?_isSome.mpr hmatch)
  have hfires := List.find?_some hrule
  have htarget := hagree rule (List.mem_of_find?_eq_some hrule) hfires
  rw [dispatch, hrule, Option.map_some, ← htarget]
  rfl

theorem dispatch_portalRules (ns : Namespace) (portal : Portal) :
    dispatch (portalRules ns portal) c =
      if portal.serves ns c then some (.outboundTag, portalTag portal.id) else none := by
  have hdomain : (given portal.routes.domains && Rule.matches
      { domain := portal.routes.domains
        user := some (portal.users.map fun u => ns.userEmail u.val)
        outTag := portalTag portal.id } c) =
      ((portal.routes.domains.getD []).any c.domain &&
        decide (c.user ∈ portal.users.map fun u => ns.userEmail u.val)) := by
    cases hgiven : given portal.routes.domains with
    | false => simp [given_eq_false hgiven]
    | true =>
        simp only [Rule.matches, given_eq_true hgiven, Option.all_none, Option.all_some,
          Bool.true_and, Bool.and_true]
  have hip : (given portal.routes.ips && Rule.matches
      { ip := portal.routes.ips
        user := some (portal.users.map fun u => ns.userEmail u.val)
        outTag := portalTag portal.id } c) =
      ((portal.routes.ips.getD []).any c.ip &&
        decide (c.user ∈ portal.users.map fun u => ns.userEmail u.val)) := by
    cases hgiven : given portal.routes.ips with
    | false => simp [given_eq_false hgiven]
    | true =>
        simp only [Rule.matches, given_eq_true hgiven, Option.all_none, Option.all_some,
          Bool.true_and, Bool.and_true]
  simp only [portalRules, dispatch_append, dispatch_ite_singleton, hdomain, hip, Portal.serves]
  by_cases hmember : c.user ∈ portal.users.map fun u => ns.userEmail u.val
  · simp only [decide_eq_true hmember, Bool.and_true, Bool.true_and]
    cases (portal.routes.domains.getD []).any c.domain <;>
      cases (portal.routes.ips.getD []).any c.ip <;> rfl
  · simp only [decide_eq_false hmember, Bool.and_false, Bool.false_and]
    rfl

theorem dispatch_portals (ns : Namespace) (portals : List Portal) :
    dispatch (portals.flatMap (portalRules ns)) c =
      (portals.find? (Portal.serves · ns c)).map fun p => (.outboundTag, portalTag p.id) :=
  find?_flatMap_map fun portal _ => dispatch_portalRules ns portal

theorem byPasses_laterPasses (ns : Namespace) (routes : List HubRoute) :
    byPasses laterPasses (Pass.hit ns c) routes =
      (routes.find? (Pass.steered.hit ns c)).or
        ((routes.find? (Pass.direct.hit ns c)).or (routes.find? (Pass.blockedIp.hit ns c))) := by
  simp only [byPasses, laterPasses, List.findSome?_cons, List.findSome?_nil]
  cases routes.find? (Pass.steered.hit ns c) <;>
    cases routes.find? (Pass.direct.hit ns c) <;>
      cases routes.find? (Pass.blockedIp.hit ns c) <;> rfl

/-! ## Route segments -/

theorem vlessRuleOf_matches {r : ExitRegion} {route : VlessRoute}
    (hroute : r.vlessRoute = some route) :
    (vlessRuleOf r).matches c = true ↔ r.Selected c := by
  simp only [Rule.matches, vlessRuleOf, vlessRouteText, hroute, Option.all_none, Option.all_some,
    Bool.true_and, decide_eq_true_eq, Option.map_eq_some_iff, Option.elim_some,
    ExitRegion.Selected, Option.mem_some_iff, exists_eq_left']
  constructor
  · rintro ⟨segment, hsegment, htext⟩
    rw [hsegment, Separator.toString_injective htext]
  · exact fun hsegment => ⟨_, hsegment, rfl⟩

theorem warpRulesOf_matches {r : ExitRegion} :
    (∃ rule ∈ warpRulesOf r, rule.matches c = true) ↔ r.WarpSelected c := by
  simp only [warpRulesOf, List.mem_map, Option.mem_toList, exists_exists_and_eq_and,
    ExitRegion.WarpSelected]
  refine exists_congr fun warp => and_congr_right fun _ => ?_
  simp only [Rule.matches, vlessRouteText, Option.all_none, Option.all_some, Bool.true_and,
    decide_eq_true_eq, Option.map_eq_some_iff, Option.elim_some]
  constructor
  · rintro ⟨segment, hsegment, htext⟩
    rw [hsegment, Separator.toString_injective htext]
  · exact fun hsegment => ⟨_, hsegment, rfl⟩

theorem warpRulesOf_target {r : ExitRegion} {rule : Rule} (h : rule ∈ warpRulesOf r) :
    rule.target = (balancerKey r, regionWarpTag r) := by
  obtain ⟨warp, -, rfl⟩ := List.mem_map.mp h
  rfl

theorem Accepted.vlessRoute_some (h : Accepted cfg) {r : ExitRegion}
    (hr : r ∈ renderedExitRegions cfg) : ∃ route, r.vlessRoute = some route := by
  obtain ⟨hexit, -⟩ := mem_renderedExitRegions.mp hr
  have hkind : ExitRegionOk r := (h.region _ (mem_exitRegions.mp hexit)).kind
  exact Option.isSome_iff_exists.mp hkind.vlessRoute

/-- A route number names one region, and one of its two routes. -/
theorem Accepted.routeClaim_eq (h : Accepted cfg) {r q : ExitRegion} (hr : r ∈ cfg.exitRegions)
    (hq : q ∈ cfg.exitRegions) {x y : RouteClaim} (hx : x ∈ r.routeClaims)
    (hy : y ∈ q.routeClaims) (hroute : x.route = y.route) : x = y := by
  have hmem : ∀ {s : ExitRegion} {z : RouteClaim}, s ∈ cfg.exitRegions → z ∈ s.routeClaims →
      z ∈ cfg.regions.flatMap (·.routeClaims) :=
    fun hs hz => List.mem_flatMap.mpr ⟨_, mem_exitRegions.mp hs, hz⟩
  exact List.inj_on_of_nodup_map h.routes (hmem hr hx) (hmem hq hy) hroute

theorem ExitRegion.Selected.claim {r : ExitRegion} (h : r.Selected c) :
    ∃ x ∈ r.routeClaims, c.vlessRoute = some x.route ∧ x.region = r.id.val ∧ x.warp = false := by
  obtain ⟨route, hroute, hsegment⟩ := h
  refine ⟨⟨route.val, r.id.val, false⟩, ?_, hsegment, rfl, rfl⟩
  rw [ExitRegion.routeClaims, Option.mem_def.mp hroute]
  exact List.mem_flatMap.mpr ⟨route, by simp, by simp [HexRift.routeClaims]⟩

theorem ExitRegion.WarpSelected.claim {r : ExitRegion} (h : r.WarpSelected c)
    (hroute : r.vlessRoute.isSome = true) :
    ∃ x ∈ r.routeClaims, c.vlessRoute = some x.route ∧ x.region = r.id.val ∧ x.warp = true := by
  obtain ⟨warp, hwarp, hsegment⟩ := h
  obtain ⟨route, hroute⟩ := Option.isSome_iff_exists.mp hroute
  refine ⟨⟨warp.vlessRoute.val, r.id.val, true⟩, ?_, hsegment, rfl, rfl⟩
  rw [ExitRegion.routeClaims, hroute]
  refine List.mem_flatMap.mpr ⟨route, by simp, ?_⟩
  rw [HexRift.routeClaims, Option.mem_def.mp hwarp]
  simp

/-- A segment selects at most one region. -/
theorem Accepted.selected_eq (h : Accepted cfg) {r q : ExitRegion}
    (hr : r ∈ renderedExitRegions cfg) (hq : q ∈ renderedExitRegions cfg)
    (hsr : r.Selected c ∨ r.WarpSelected c) (hsq : q.Selected c ∨ q.WarpSelected c) :
    r = q ∧ ¬ (r.Selected c ∧ q.WarpSelected c) := by
  have hclaim : ∀ {s : ExitRegion}, s ∈ renderedExitRegions cfg → s.WarpSelected c →
      ∃ x ∈ s.routeClaims, c.vlessRoute = some x.route ∧ x.region = s.id.val ∧ x.warp = true := by
    intro s hs hwarp
    obtain ⟨route, hroute⟩ := h.vlessRoute_some hs
    exact hwarp.claim (hroute ▸ rfl)
  have hexit := fun {s : ExitRegion} (hs : s ∈ renderedExitRegions cfg) =>
    (mem_renderedExitRegions.mp hs).1
  have hany : ∀ {s : ExitRegion}, s ∈ renderedExitRegions cfg → s.Selected c ∨ s.WarpSelected c →
      ∃ x ∈ s.routeClaims, c.vlessRoute = some x.route ∧ x.region = s.id.val := by
    intro s hs hselected
    rcases hselected with hselected | hselected
    · obtain ⟨x, hx, hroute, hid, -⟩ := hselected.claim
      exact ⟨x, hx, hroute, hid⟩
    · obtain ⟨x, hx, hroute, hid, -⟩ := hclaim hs hselected
      exact ⟨x, hx, hroute, hid⟩
  constructor
  · obtain ⟨x, hx, hxroute, hxid⟩ := hany hr hsr
    obtain ⟨y, hy, hyroute, hyid⟩ := hany hq hsq
    have hroute : x.route = y.route := Option.some.inj (hxroute.symm.trans hyroute)
    have heq : x = y := h.routeClaim_eq (hexit hr) (hexit hq) hx hy hroute
    exact h.exitRegion_eq (hexit hr) (hexit hq) (by rw [← hxid, ← hyid, heq])
  · rintro ⟨hselected, hwarp⟩
    obtain ⟨x, hx, hxroute, -, hxwarp⟩ := hselected.claim
    obtain ⟨y, hy, hyroute, -, hywarp⟩ := hclaim hq hwarp
    have hroute : x.route = y.route := Option.some.inj (hxroute.symm.trans hyroute)
    have heq : x = y := h.routeClaim_eq (hexit hr) (hexit hq) hx hy hroute
    rw [heq, hywarp] at hxwarp
    cases hxwarp

/-! ## The rules stage by stage -/

theorem dispatch_publish_none
    (h : ∀ pub ∈ resolveNodePublishes cfg node, c.inboundTag ≠ pub.tag) :
    dispatch (buildPublishRules (resolveNodePublishes cfg node)) c = none := by
  refine dispatch_eq_none fun rule hrule => ?_
  obtain ⟨pub, hpub, hmem⟩ := List.mem_flatMap.mp hrule
  rw [← Bool.not_eq_true]
  exact fun hmatch => h pub hpub (publishRules_inboundTag hmem hmatch)

/-- The rules before those on route segments. -/
def entryRules (cfg : ConglomerateConfig) (node : HubNode) : List Rule :=
  buildPublishRules (resolveNodePublishes cfg node) ++
    [makeDnsDirectRule cfg.global.dns.address cfg.global.dns.port]

theorem hubRules_stages (cfg : ConglomerateConfig) (node : HubNode) :
    hubRules cfg (resolveNodePublishes cfg node) =
      entryRules cfg node ++ (routeRules cfg ++ policyRules cfg) := by
  rw [hubRules_eq_policy, selectorRules_eq, entryRules]
  simp only [List.append_assoc]

theorem Entering.dispatch (hc : Entering cfg node c) :
    HexRift.dispatch (hubRules cfg (resolveNodePublishes cfg node)) c =
      HexRift.dispatch (routeRules cfg ++ policyRules cfg) c := by
  have hdns : (makeDnsDirectRule cfg.global.dns.address cfg.global.dns.port).matches c = false := by
    rw [← Bool.not_eq_true, dnsRule_matches]
    exact hc.dns
  have hentry : HexRift.dispatch (entryRules cfg node) c = none := by
    rw [entryRules, dispatch_append, dispatch_publish_none hc.published, Option.none_or]
    exact dispatch_eq_none (by simpa using hdns)
  rw [hubRules_stages, dispatch_append, hentry, Option.none_or]

/-- Only a region that is selected has a matching rule among those on segments. -/
theorem routeRules_matches (h : Accepted cfg) {rule : Rule} (hrule : rule ∈ routeRules cfg)
    (hmatch : rule.matches c = true) : ∃ r ∈ renderedExitRegions cfg,
      r.Selected c ∧ rule.target = (balancerKey r, regionTag r) ∨
        r.WarpSelected c ∧ rule.target = (balancerKey r, regionWarpTag r) := by
  rcases List.mem_append.mp hrule with hrule | hrule
  · obtain ⟨r, hr, rfl⟩ := List.mem_map.mp hrule
    obtain ⟨route, hroute⟩ := h.vlessRoute_some hr
    exact ⟨r, hr, .inl ⟨(vlessRuleOf_matches hroute).mp hmatch, rfl⟩⟩
  · obtain ⟨r, hr, hmem⟩ := List.mem_flatMap.mp hrule
    exact ⟨r, hr, .inr ⟨warpRulesOf_matches.mp ⟨rule, hmem, hmatch⟩, warpRulesOf_target hmem⟩⟩

theorem dispatch_selected (h : Accepted cfg) {r : ExitRegion} (hr : r ∈ renderedExitRegions cfg)
    (hselected : r.Selected c) :
    dispatch (routeRules cfg) c = some (balancerKey r, regionTag r) := by
  obtain ⟨route, hroute⟩ := h.vlessRoute_some hr
  refine dispatch_of_agree ⟨vlessRuleOf r, ?_, (vlessRuleOf_matches hroute).mpr hselected⟩ ?_
  · exact List.mem_append_left _ (List.mem_map_of_mem hr)
  · intro rule hrule hmatch
    obtain ⟨q, hq, ⟨hown, htarget⟩ | ⟨hwarp, htarget⟩⟩ := routeRules_matches h hrule hmatch
    · rw [htarget, (h.selected_eq hr hq (.inl hselected) (.inl hown)).1]
    · exact absurd ⟨hselected, hwarp⟩ (h.selected_eq hr hq (.inl hselected) (.inr hwarp)).2

theorem dispatch_warpSelected (h : Accepted cfg) {r : ExitRegion}
    (hr : r ∈ renderedExitRegions cfg) (hselected : r.WarpSelected c) :
    dispatch (routeRules cfg) c = some (balancerKey r, regionWarpTag r) := by
  obtain ⟨rule, hrule, hmatch⟩ := warpRulesOf_matches.mpr hselected
  refine dispatch_of_agree ⟨rule, ?_, hmatch⟩ ?_
  · exact List.mem_append_right _ (List.mem_flatMap.mpr ⟨r, hr, hrule⟩)
  · intro other hother hfires
    obtain ⟨q, hq, ⟨hown, htarget⟩ | ⟨hwarp, htarget⟩⟩ := routeRules_matches h hother hfires
    · exact absurd ⟨hown, hselected⟩ (h.selected_eq hq hr (.inl hown) (.inr hselected)).2
    · rw [htarget, (h.selected_eq hr hq (.inr hselected) (.inr hwarp)).1]

theorem Unselected.dispatch (h : Accepted cfg) (hc : Unselected cfg node c) :
    HexRift.dispatch (hubRules cfg (resolveNodePublishes cfg node)) c =
      HexRift.dispatch (policyRules cfg) c := by
  rw [hc.toEntering.dispatch, dispatch_append]
  have hroutes : HexRift.dispatch (routeRules cfg) c = none := by
    refine dispatch_eq_none fun rule hrule => ?_
    rw [← Bool.not_eq_true]
    intro hmatch
    obtain ⟨r, hr, ⟨hown, -⟩ | ⟨hwarp, -⟩⟩ := routeRules_matches h hrule hmatch
    · exact (hc.region r hr).1 hown
    · exact (hc.region r hr).2 hwarp
  rw [hroutes, Option.none_or]

theorem dispatch_policyRules (cfg : ConglomerateConfig) (c : Connection) :
    dispatch (policyRules cfg) c =
      ((cfg.routing.hubRoutes.find? (Pass.blockedDomain.hit cfg.ns c)).map
        fun route => targetOf cfg route.destination).or
      (((cfg.portals.find? (Portal.serves · cfg.ns c)).map
        fun p => (OutKey.outboundTag, portalTag p.id)).or
      (some (((byPasses laterPasses (Pass.hit cfg.ns c) cfg.routing.hubRoutes).map
        fun route => targetOf cfg route.destination).getD
          (targetOf cfg cfg.routing.hubDefault)))) := by
  have hblocked : dispatch (cfg.routing.hubRoutes.flatMap (blockedDomainRules cfg.ns)) c = _ :=
    dispatch_pass cfg c .blockedDomain cfg.routing.hubRoutes
  have hsteered : dispatch (cfg.routing.hubRoutes.flatMap (steeredRulesOf cfg)) c = _ :=
    dispatch_pass cfg c .steered cfg.routing.hubRoutes
  have hdirect : dispatch (cfg.routing.hubRoutes.flatMap (directRules cfg.ns)) c = _ :=
    dispatch_pass cfg c .direct cfg.routing.hubRoutes
  have hblockedIp : dispatch (cfg.routing.hubRoutes.flatMap (blockedIpRules cfg.ns)) c = _ :=
    dispatch_pass cfg c .blockedIp cfg.routing.hubRoutes
  simp only [policyRules, dispatch_append]
  rw [hblocked, dispatch_portals, hsteered, hdirect, hblockedIp, dispatch_default,
    byPasses_laterPasses]
  simp only [Option.map_or, Option.or_assoc, Option.or_some, Option.getD_or]

/-! ## Refinement -/

theorem HubPolicy.dispatch (h : Accepted cfg) (hregion : Region.hub region ∈ cfg.regions)
    (hnode : node ∈ region.nodes) {target : OutKey × String} (hp : HubPolicy cfg node c target) :
    HexRift.dispatch (hubRules cfg (resolveNodePublishes cfg node)) c = some target := by
  cases hp with
  | publish hpub htag =>
      rw [HexRift.dispatch, find?_hubRules_publish h hregion hnode hpub htag, Option.map_some]
      exact congrArg some (find?_publish_target c)
  | dns hpublished hdns =>
      rw [hubRules_stages, dispatch_append, entryRules, dispatch_append,
        dispatch_publish_none hpublished, Option.none_or, dispatch_cons,
        if_pos (dnsRule_matches.mpr hdns), Option.some_or]
      rfl
  | region hc hr hselected =>
      rw [hc.dispatch, dispatch_append, dispatch_selected h hr hselected, Option.some_or]
  | warp hc hr hselected =>
      rw [hc.dispatch, dispatch_append, dispatch_warpSelected h hr hselected, Option.some_or]
  | blocked hc hroute hhit =>
      rw [hc.dispatch h, dispatch_policyRules]
      obtain ⟨first, hfirst⟩ := Option.isSome_iff_exists.mp
        (List.find?_isSome.mpr ⟨_, hroute, hhit⟩)
      have hdest : first.destination = SpecialDestination.blocked.value := by
        have hfires := List.find?_some hfirst
        simp only [Pass.hit, Bool.and_eq_true, decide_eq_true_eq] at hfires
        exact hfires.2.1
      rw [hfirst, Option.map_some, Option.some_or, hdest, targetOf_special blocked_special]
  | portal hc hfirst =>
      rw [hc.toUnselected.dispatch h, dispatch_policyRules, hc.blocked, hfirst, Option.map_none,
        Option.none_or, Option.map_some, Option.some_or]
  | route hc hportals hfirst =>
      rw [hc.toUnselected.dispatch h, dispatch_policyRules, hc.blocked, hportals, hfirst]
      rfl
  | default hc hportals hnone =>
      rw [hc.toUnselected.dispatch h, dispatch_policyRules, hc.blocked, hportals, hnone]
      rfl

theorem HubPolicy.total (cfg : ConglomerateConfig) (node : HubNode) (c : Connection) :
    ∃ target, HubPolicy cfg node c target := by
  by_cases hpublished : ∀ pub ∈ resolveNodePublishes cfg node, c.inboundTag ≠ pub.tag
  swap
  · simp only [not_forall, not_not] at hpublished
    obtain ⟨pub, hpub, htag⟩ := hpublished
    exact ⟨_, .publish hpub htag⟩
  by_cases hdns : LocalDns cfg c
  · exact ⟨_, .dns hpublished hdns⟩
  have hc : Entering cfg node c := ⟨hpublished, hdns⟩
  by_cases hregion : ∀ r ∈ renderedExitRegions cfg, ¬ r.Selected c ∧ ¬ r.WarpSelected c
  swap
  · simp only [not_forall, not_and_or, not_not] at hregion
    obtain ⟨r, hr, hselected | hselected⟩ := hregion
    · exact ⟨_, .region hc hr hselected⟩
    · exact ⟨_, .warp hc hr hselected⟩
  have hunselected : Unselected cfg node c := { toEntering := hc, region := hregion }
  cases hblocked : cfg.routing.hubRoutes.find? (Pass.blockedDomain.hit cfg.ns c) with
  | some route =>
      exact ⟨_, .blocked hunselected (List.mem_of_find?_eq_some hblocked)
        (List.find?_some hblocked)⟩
  | none =>
      have hunblocked : Unblocked cfg node c :=
        { toUnselected := hunselected, blocked := hblocked }
      cases hportals : cfg.portals.find? (Portal.serves · cfg.ns c) with
      | some portal => exact ⟨_, .portal hunblocked hportals⟩
      | none =>
          cases hlater : byPasses laterPasses (Pass.hit cfg.ns c) cfg.routing.hubRoutes with
          | some route => exact ⟨_, .route hunblocked hportals hlater⟩
          | none => exact ⟨_, .default hunblocked hportals hlater⟩

theorem HubRendered.dispatch_iff (h : Accepted cfg) (hplaced : Placed.hub region node ∈ cfg.placed)
    (hr : HubRendered crypto cfg region node config) {target : OutKey × String} :
    dispatch config.rules c = some target ↔ HubPolicy cfg node c target := by
  obtain ⟨hregion, hnode⟩ := mem_placed_hub hplaced
  rw [hr.rules_eq h]
  constructor
  · intro hdispatch
    obtain ⟨decided, hp⟩ := HubPolicy.total cfg node c
    have heq := (hp.dispatch h hregion hnode).symm.trans hdispatch
    rwa [Option.some.inj heq] at hp
  · exact fun hp => hp.dispatch h hregion hnode

/-- The policy decides every connection in one way, and the rules of a rendered hub do as it
does. -/
theorem hub_refines_policy (cfg : AcceptedConfig) (hplaced : Placed.hub region node ∈ cfg.placed)
    (h : renderHub crypto cfg.toConglomerateConfig store region node = .ok config)
    (c : Connection) :
    (∃! target, HubPolicy cfg.toConglomerateConfig node c target) ∧
      ∀ target, dispatch config.rules c = some target ↔
        HubPolicy cfg.toConglomerateConfig node c target := by
  obtain ⟨hr⟩ := renderHub_eq_ok h
  have hdispatch : ∀ {target}, dispatch config.rules c = some target ↔
      HubPolicy cfg.toConglomerateConfig node c target := hr.dispatch_iff cfg.spec hplaced
  obtain ⟨target, hpolicy⟩ := HubPolicy.total cfg.toConglomerateConfig node c
  refine ⟨⟨target, hpolicy, fun other hother => ?_⟩, fun _ => hdispatch⟩
  exact Option.some.inj ((hdispatch.mpr hother).symm.trans (hdispatch.mpr hpolicy))

/-- The rules of the office's hub. -/
theorem hub_refines_policy_office :
    ∃ config, renderHub Sample.officeCrypto Sample.office.toConglomerateConfig
        Sample.officeStore Sample.officeRegion Sample.officeNode = .ok config ∧
      ∀ c : Connection,
        (∃! target, HubPolicy Sample.office.toConglomerateConfig Sample.officeNode c target) ∧
          ∀ target, dispatch config.rules c = some target ↔
            HubPolicy Sample.office.toConglomerateConfig Sample.officeNode c target := by
  obtain ⟨config, h⟩ := office_renders
  exact ⟨config, h, hub_refines_policy Sample.office office_placed h⟩

end HexRift
