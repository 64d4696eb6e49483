import HexRift.Library.Separator
import HexRift.Model.Picker
import HexRift.Verification.Dispatch
import HexRift.Verification.Identities

/-! # The third segment of an issued UUID

A hub compares the third segment of its client's UUID with the routes of the exit regions.
The segment of a derived UUID starts with the version nibble 5, so routes outside
`0x5000`..`0x5FFF` are selected by rewritten UUIDs only. -/

namespace HexRift

open Checks

variable {cfg : ConglomerateConfig} {uuid5 : Uuid5}

/-- The number a hub reads from a UUID as `vlessRoute`. -/
def UUID.segment (u : UUID) : ℕ := u.timeHiVersion.toNat

/-- Identities that are handed out: those of users, their servers and their guests. -/
def issuedIdentities (cfg : ConglomerateConfig) : List Identity := cfg.users.flatMap identitiesOf

/-- No UUID issued in the topology can have the route as its third segment. -/
def RouteReserved (cfg : ConglomerateConfig) (route : ℕ) : Prop :=
  (route < 0x5000 ∨ 0x6000 ≤ route) ∧ ∀ user ∈ cfg.users, ∀ u ∈ user.uuid, u.segment ≠ route

instance (route : ℕ) : Decidable (RouteReserved cfg route) :=
  inferInstanceAs (Decidable (_ ∧ ∀ user ∈ cfg.users, ∀ u ∈ user.uuid, _ ≠ _))

def RoutesReserved (cfg : ConglomerateConfig) : Prop :=
  ∀ route ∈ usedVlessRoutes cfg, RouteReserved cfg route

instance : Decidable (RoutesReserved cfg) :=
  inferInstanceAs (Decidable (∀ route ∈ usedVlessRoutes cfg, RouteReserved cfg route))

/-- The rules of `hub_routes`, the portals and `hub_default`. -/
def policyRules (cfg : ConglomerateConfig) : List Rule :=
  cfg.routing.hubRoutes.flatMap (blockedDomainRules cfg.ns) ++
    cfg.portals.flatMap (portalRules cfg.ns) ++
    cfg.routing.hubRoutes.flatMap (steeredRulesOf cfg) ++
    cfg.routing.hubRoutes.flatMap (directRules cfg.ns) ++
    cfg.routing.hubRoutes.flatMap (blockedIpRules cfg.ns) ++ [defaultRuleOf cfg]

/-- An issued UUID, dialled unmodified, selects no region. -/
structure SegmentsSelectNothing (uuid5 : Uuid5) (cfg : ConglomerateConfig) : Prop where
  clear : ∀ i ∈ issuedIdentities cfg, (i.uuid uuid5 cfg.ns).segment ∉ usedVlessRoutes cfg
  rules : ∀ published rules, buildHubRoutingRules cfg published = .ok rules →
    ∀ i ∈ issuedIdentities cfg, ∀ c : Connection,
      c.vlessRoute = some (i.uuid uuid5 cfg.ns).segment →
        ∀ rule ∈ rules, rule.vlessRoute.isSome = true → rule.matches c = false
  policy : ∀ published rules, buildHubRoutingRules cfg published = .ok rules →
    ∀ i ∈ issuedIdentities cfg, ∀ c : Connection,
      c.vlessRoute = some (i.uuid uuid5 cfg.ns).segment →
        (∀ rule ∈ buildPublishRules published, rule.matches c = false) →
        (makeDnsDirectRule cfg.global.dns.address cfg.global.dns.port).matches c = false →
          dispatch rules c = dispatch (policyRules cfg) c

/-! ## Segments of issued UUIDs -/

theorem segment_run (uuid5 : Uuid5) (base : UUID) (name : String) :
    0x5000 ≤ (uuid5.run base name).segment ∧ (uuid5.run base name).segment < 0x6000 := by
  have hversion := uuid5.version base name
  unfold UUID.segment
  omega

/-- An issued UUID is an override or carries the version nibble. -/
theorem segment_issued {i : Identity} (hi : i ∈ issuedIdentities cfg) :
    (∃ user ∈ cfg.users, ∃ u ∈ user.uuid, i.uuid uuid5 cfg.ns = u) ∨
      0x5000 ≤ (i.uuid uuid5 cfg.ns).segment ∧ (i.uuid uuid5 cfg.ns).segment < 0x6000 := by
  obtain ⟨user, huser, hmem⟩ := List.mem_flatMap.mp hi
  simp only [identitiesOf, List.mem_cons, List.mem_map] at hmem
  rcases hmem with rfl | rfl | ⟨label, -, rfl⟩
  · cases hoverride : user.uuid with
    | none =>
        rw [Identity.uuid, Identity.override, hoverride, Option.getD_none]
        exact .inr (segment_run _ _ _)
    | some u =>
        refine .inl ⟨user, huser, u, hoverride, ?_⟩
        rw [Identity.uuid, Identity.override, hoverride, Option.getD_some]
  · exact .inr (segment_run _ _ _)
  · exact .inr (segment_run _ _ _)

theorem RoutesReserved.clear (h : RoutesReserved cfg) {i : Identity}
    (hi : i ∈ issuedIdentities cfg) :
    (i.uuid uuid5 cfg.ns).segment ∉ usedVlessRoutes cfg := by
  intro hmem
  obtain ⟨hrange, hoverride⟩ := h _ hmem
  have hissued : (∃ user ∈ cfg.users, ∃ u ∈ user.uuid, i.uuid uuid5 cfg.ns = u) ∨ _ :=
    segment_issued hi
  rcases hissued with ⟨user, huser, u, hu, heq⟩ | hversion
  · exact hoverride user huser u hu (congrArg UUID.segment heq).symm
  · omega

/-! ## Rules -/

theorem hubRules_eq_policy (published : List PublishedPort) :
    hubRules cfg published = selectorRules cfg published ++ policyRules cfg := by
  simp only [hubRules, policyRules, List.append_assoc]

/-- Rules that look at `vlessRoute`: one for each route in use. -/
def routeRules (cfg : ConglomerateConfig) : List Rule :=
  (renderedExitRegions cfg).map vlessRuleOf ++ (renderedExitRegions cfg).flatMap warpRulesOf

theorem selectorRules_eq (published : List PublishedPort) :
    selectorRules cfg published =
      buildPublishRules published ++
        [makeDnsDirectRule cfg.global.dns.address cfg.global.dns.port] ++ routeRules cfg := by
  simp only [selectorRules, routeRules, List.append_assoc]

theorem routeRules_vlessRoute (h : Accepted cfg) {rule : Rule} (hrule : rule ∈ routeRules cfg) :
    ∃ route ∈ usedVlessRoutes cfg, rule.vlessRoute = some (toString route) := by
  simp only [usedVlessRoutes, List.mem_flatMap]
  rcases List.mem_append.mp hrule with hrule | hrule
  · obtain ⟨r, hr, rfl⟩ := List.mem_map.mp hrule
    obtain ⟨hexit, -⟩ := mem_renderedExitRegions.mp hr
    have hkind : ExitRegionOk r := (h.region _ (mem_exitRegions.mp hexit)).kind
    obtain ⟨route, hroute⟩ := Option.isSome_iff_exists.mp hkind.vlessRoute
    refine ⟨route.val, ⟨r, hexit, ?_⟩, ?_⟩
    · simp [hroute]
    · rw [vlessRuleOf, hroute]
      rfl
  · obtain ⟨r, hr, hrule⟩ := List.mem_flatMap.mp hrule
    obtain ⟨hexit, -⟩ := mem_renderedExitRegions.mp hr
    obtain ⟨warp, hwarp, rfl⟩ := List.mem_map.mp hrule
    refine ⟨warp.vlessRoute.val, ⟨r, hexit, ?_⟩, rfl⟩
    rw [List.map_append, List.map_map, List.mem_append]
    exact .inr (List.mem_map.mpr ⟨warp, hwarp, rfl⟩)

/-- A segment that is no route in use matches none of the rules on routes. -/
theorem routeRules_not_matches (h : Accepted cfg) {segment : ℕ}
    (hclear : segment ∉ usedVlessRoutes cfg) {c : Connection} (hc : c.vlessRoute = some segment)
    {rule : Rule} (hrule : rule ∈ routeRules cfg) : rule.matches c = false := by
  obtain ⟨route, hroute, htext⟩ := routeRules_vlessRoute h hrule
  have hne : segment ≠ route := fun heq => hclear (heq ▸ hroute)
  have htexts : some (toString segment) ≠ some (toString route) :=
    fun heq => hne (Separator.toString_injective (Option.some.inj heq))
  rw [Rule.matches, htext, hc, Option.all_some, Option.map_some, decide_eq_false htexts,
    Bool.and_false]

/-- Only the rules on routes look at the segment. -/
theorem mem_routeRules {published : List PublishedPort} {rule : Rule}
    (hrule : rule ∈ hubRules cfg published) (hsome : rule.vlessRoute.isSome = true) :
    rule ∈ routeRules cfg := by
  cases mem_hubRules hrule with
  | publish hpub => simp [hpub.vlessRoute] at hsome
  | dns hdns =>
      subst hdns
      cases hsome
  | region hr hvless => exact List.mem_append_left _ (List.mem_map.mpr ⟨_, hr, hvless.symm⟩)
  | warp hr hmem => exact List.mem_append_right _ (List.mem_flatMap.mpr ⟨_, hr, hmem⟩)
  | route _ hmem => simp [hmem.vlessRoute] at hsome
  | portal _ hmem => simp [(ofPortal_of_mem hmem).vlessRoute] at hsome
  | default hdefault =>
      subst hdefault
      cases hsome

theorem RoutesReserved.selectNothing (h : Accepted cfg) (hroutes : RoutesReserved cfg) :
    SegmentsSelectNothing uuid5 cfg := by
  refine ⟨fun i hi => hroutes.clear hi, ?_, ?_⟩
  · intro published rules hrules i hi c hc rule hrule hsome
    rw [buildHubRoutingRules_eq h] at hrules
    cases hrules
    exact routeRules_not_matches h (hroutes.clear hi) hc (mem_routeRules hrule hsome)
  · intro published rules hrules i hi c hc hpublish hdns
    rw [buildHubRoutingRules_eq h] at hrules
    cases hrules
    have hselectors : ∀ rule ∈ selectorRules cfg published, rule.matches c = false := by
      intro rule hrule
      rw [selectorRules_eq] at hrule
      simp only [List.mem_append, List.mem_singleton] at hrule
      rcases hrule with (hrule | rfl) | hrule
      · exact hpublish rule hrule
      · exact hdns
      · exact routeRules_not_matches h (hroutes.clear hi) hc hrule
    rw [hubRules_eq_policy, dispatch_append, dispatch_eq_none hselectors, Option.none_or]

/-! ## New regions -/

theorem usedVlessRoutes_createExitRegion (cfg : ConglomerateConfig) (id : Identifier)
    (route : VlessRoute) (node : ExitNode) :
    usedVlessRoutes (cfg.createExitRegion id route node) = usedVlessRoutes cfg ++ [route.val] := by
  simp [usedVlessRoutes, ConglomerateConfig.createExitRegion, ConglomerateConfig.exitRegions,
    Region.exit?]

theorem RoutesReserved.createExitRegion (h : RoutesReserved cfg) {id : Identifier}
    {route : VlessRoute} {node : ExitNode} (hroute : RouteReserved cfg route.val) :
    RoutesReserved (cfg.createExitRegion id route node) := by
  intro r hr
  rw [usedVlessRoutes_createExitRegion, List.mem_append, List.mem_singleton] at hr
  rcases hr with hr | rfl
  · exact h r hr
  · exact hroute

/-- Topologies reached by creating exit regions whose picked routes no issued UUID can have. -/
inductive RegionsCreated (cfg : ConglomerateConfig) : ConglomerateConfig → Prop where
  | refl : RegionsCreated cfg cfg
  | create {mid : ConglomerateConfig} (h : RegionsCreated cfg mid) (id : Identifier)
      (route : VlessRoute) (node : ExitNode) (choice : ℕ)
      (hpick : pickVlessRoute (usedVlessRoutes mid) choice = .ok route.val)
      (hroute : RouteReserved mid route.val) :
      RegionsCreated cfg (mid.createExitRegion id route node)

theorem RegionsCreated.routesReserved {cfg' : ConglomerateConfig} (h : RegionsCreated cfg cfg')
    (hroutes : RoutesReserved cfg) : RoutesReserved cfg' := by
  induction h with
  | refl => exact hroutes
  | create _ id route node choice _ hroute ih => exact ih.createExitRegion hroute

/-- With routes no issued UUID can have, before and after regions are created, an issued UUID
selects no region. -/
theorem issued_segments_select_nothing (cfg : AcceptedConfig) (uuid5 : Uuid5)
    (hroutes : RoutesReserved cfg.toConglomerateConfig) :
    SegmentsSelectNothing uuid5 cfg.toConglomerateConfig ∧
      ∀ cfg' : AcceptedConfig,
        RegionsCreated cfg.toConglomerateConfig cfg'.toConglomerateConfig →
          SegmentsSelectNothing uuid5 cfg'.toConglomerateConfig :=
  ⟨hroutes.selectNothing cfg.spec,
    fun cfg' hcreated => (hcreated.routesReserved hroutes).selectNothing cfg'.spec⟩

/-- One exit region, with a low route, and one user. -/
def lowRoute : AcceptedConfig :=
  { Sample.topology
      [Sample.exitRegion Sample.nl Sample.lowRoute [Sample.exitNode Sample.nl1]]
      [Sample.user Sample.aliceName] with }

/-- The same with a second region, whose route is the third segment of the user's UUID. -/
def segmentRoute : AcceptedConfig :=
  { lowRoute.toConglomerateConfig.createExitRegion { val := "fr" } { val := 0x537c }
      (Sample.exitNode { val := "fr-1" }) with }

def segmentUuid5 : Uuid5 :=
  let ns : UUID := ⟨0x1f6509cf, 0x6799, 0x5a56, 0x8716, 0x475d8fa28a4f⟩
  let alice : UUID := ⟨0xb9a626b3, 0x1033, 0x537c, 0x963c, 0xdcfae40dd07a⟩
  Sample.uuid5 [
    ((UUID.nil, "example.net"), ns),
    ((ns, "alice"), alice),
    ((alice, "alice-server"), ⟨0xd8724f12, 0x732b, 0x5eba, 0x9e01, 0x5d4562133fd7⟩)] (by decide)

theorem issued_segments_select_nothing_lowRoute :
    SegmentsSelectNothing segmentUuid5 lowRoute.toConglomerateConfig ∧
      ∀ cfg' : AcceptedConfig,
        RegionsCreated lowRoute.toConglomerateConfig cfg'.toConglomerateConfig →
          SegmentsSelectNothing segmentUuid5 cfg'.toConglomerateConfig :=
  issued_segments_select_nothing lowRoute segmentUuid5 (by decide)

/-- The picker can return the third segment of a user's UUID, which then selects the region. -/
theorem picked_route_hits_segment :
    (∃ choice, pickVlessRoute (usedVlessRoutes lowRoute.toConglomerateConfig) choice =
        .ok 0x537c) ∧
      ¬ ((checkIdentityCollisions segmentUuid5 segmentRoute.toConglomerateConfig).isOk = true →
        SegmentsSelectNothing segmentUuid5 segmentRoute.toConglomerateConfig) := by
  constructor
  · exact pickVlessRoute_eq_ok.mpr (by decide)
  · intro h
    have hclear := (h (by decide)).clear
    revert hclear
    decide

end HexRift
