import HexRift.Verification.Dispatch
import HexRift.Verification.Entries
import HexRift.Verification.Tags

/-! # What reaches a portal

A portal is a private network behind a hub. A connection enters it through a port the portal
publishes, or as a member whose destination the portal routes; nothing else does. -/

namespace HexRift

open Checks

variable {cfg : ConglomerateConfig} {crypto : Crypto} {store : KeyStore} {region : HubRegion}
  {node : HubNode} {config : XrayConfig} {c : Connection}

/-! ## Rules of one published port -/

/-- The entry has no allowlist, or the source of the connection is on it. -/
def PublishedPort.allows (pub : PublishedPort) (c : Connection) : Bool :=
  pub.allow = [] || pub.allow.any c.source

def PublishedPort.steerRule (pub : PublishedPort) : Rule :=
  { inboundTag := some [pub.tag]
    source := if pub.allow = [] then none else some pub.allow
    outTag := pub.reverseTag }

def PublishedPort.denyRule (pub : PublishedPort) : Rule :=
  { inboundTag := some [pub.tag], outTag := SpecialDestination.blocked.value }

theorem publishRules_eq (pub : PublishedPort) :
    publishRules pub = pub.steerRule :: if pub.allow = [] then [] else [pub.denyRule] := rfl

theorem steerRule_matches (pub : PublishedPort) (c : Connection) :
    pub.steerRule.matches c = (decide (c.inboundTag = pub.tag) && pub.allows c) := by
  unfold Rule.matches PublishedPort.steerRule PublishedPort.allows
  by_cases hallow : pub.allow = []
  · simp [hallow]
  · simp [hallow]

theorem denyRule_matches (pub : PublishedPort) (c : Connection) :
    pub.denyRule.matches c = decide (c.inboundTag = pub.tag) := by
  simp [Rule.matches, PublishedPort.denyRule]

/-- A rule of a published port looks at connections of its own forward only. -/
theorem publishRules_inboundTag {pub : PublishedPort} {rule : Rule} (h : rule ∈ publishRules pub)
    (hmatch : rule.matches c = true) : c.inboundTag = pub.tag := by
  rw [publishRules_eq, List.mem_cons] at h
  rcases h with rfl | h
  · simp only [steerRule_matches, Bool.and_eq_true, decide_eq_true_eq] at hmatch
    exact hmatch.1
  · split at h
    · cases h
    · rw [List.mem_singleton] at h
      subst h
      simpa [denyRule_matches] using hmatch

theorem find?_publishRules {pub : PublishedPort} (htag : c.inboundTag = pub.tag) :
    (publishRules pub).find? (·.matches c) =
      some (if pub.allows c then pub.steerRule else pub.denyRule) := by
  rw [publishRules_eq, List.find?_cons, steerRule_matches, decide_eq_true htag, Bool.true_and]
  cases hallows : pub.allows c with
  | true => rfl
  | false =>
      have hallow : pub.allow ≠ [] := by
        intro hnil
        simp [PublishedPort.allows, hnil] at hallows
      simp [hallow, denyRule_matches, htag]

/-! ## Published ports of a hub -/

theorem mem_resolveNodePublishes {pub : PublishedPort} :
    pub ∈ resolveNodePublishes cfg node ↔
      ∃ portal ∈ cfg.portals, ∃ entry ∈ portal.publish, entry.resolvesOn node = true ∧
        pub = publishedPort portal entry := by
  simp only [resolveNodePublishes, List.mem_flatMap, List.mem_map, List.mem_filter, and_assoc,
    eq_comm (b := pub)]

theorem publish_eq_of_tag (h : Accepted cfg) (hregion : Region.hub region ∈ cfg.regions)
    (hnode : node ∈ region.nodes) {pub pub' : PublishedPort}
    (hpub : pub ∈ resolveNodePublishes cfg node) (hpub' : pub' ∈ resolveNodePublishes cfg node)
    (htag : pub.tag = pub'.tag) : pub = pub' :=
  List.inj_on_of_nodup_map (publishTags_nodup h hregion hnode) hpub hpub' htag

/-- The rules of a published port decide what arrives on its forward. -/
theorem find?_hubRules_publish (h : Accepted cfg) (hregion : Region.hub region ∈ cfg.regions)
    (hnode : node ∈ region.nodes) {pub : PublishedPort}
    (hpub : pub ∈ resolveNodePublishes cfg node) (htag : c.inboundTag = pub.tag) :
    (hubRules cfg (resolveNodePublishes cfg node)).find? (·.matches c) =
      some (if pub.allows c then pub.steerRule else pub.denyRule) := by
  have hblock : (buildPublishRules (resolveNodePublishes cfg node)).find? (·.matches c) =
      some (if pub.allows c then pub.steerRule else pub.denyRule) := by
    refine Passes.find?_flatMap_of_isolated hpub (find?_publishRules htag) ?_
    intro other hother hne rule hrule
    rw [← Bool.not_eq_true]
    intro hmatch
    have hothertag := publishRules_inboundTag hrule hmatch
    exact hne (publish_eq_of_tag h hregion hnode hother hpub (hothertag.symm.trans htag))
  simp only [hubRules, selectorRules, List.append_assoc]
  rw [List.find?_append, hblock]
  rfl

theorem HubRendered.forward_mem (hr : HubRendered crypto cfg region node config)
    {pub : PublishedPort} (hpub : pub ∈ resolveNodePublishes cfg node) :
    forwardFragment pub hr.ctx.shared ∈ config.inbounds := by
  rw [hr.inbounds_eq]
  exact List.mem_append_right _ (List.mem_map_of_mem hpub)

/-- The forward inbound of a published port is the only one with its tag. -/
theorem HubRendered.forward_eq (hr : HubRendered crypto cfg region node config) (h : Accepted cfg)
    (hregion : Region.hub region ∈ cfg.regions) (hnode : node ∈ region.nodes)
    {pub : PublishedPort} (hpub : pub ∈ resolveNodePublishes cfg node) {forward : Inbound}
    (hforward : forward ∈ config.inbounds) (htag : forward.tag = pub.tag) :
    forward = forwardFragment pub hr.ctx.shared := by
  have hnodup : (config.inbounds.map (·.tag)).Nodup :=
    (hr.tags_nodup h hregion hnode).of_append_left
  exact List.inj_on_of_nodup_map hnodup hforward (hr.forward_mem hpub) htag

theorem publishedPort_allows (portal : Portal) (entry : PortalPublish) (c : Connection) :
    (publishedPort portal entry).allows c = entry.allow.all (·.any c.source) := by
  unfold PublishedPort.allows publishedPort
  cases hallow : entry.allow with
  | none => simp
  | some allow =>
      have hne : allow ≠ [] := fun hnil => entry.allow_ne (hnil ▸ hallow)
      simp [hne]

/-! ## Isolation of published ports -/

/-- A forward inbound is served by the rules of its publish entry alone, and they serve no
other inbound. -/
structure PublishIsolated (config : XrayConfig) (portal : Portal) (entry : PortalPublish)
    (forward : Inbound) : Prop where
  tag : forward.tag = publishTag portal.id.val entry.port.val
  target : forward.settings =
    .dokodemo entry.target.hostPort.1 entry.target.hostPort.2 entry.network
  decided : ∀ c : Connection, c.inboundTag = forward.tag →
    ∃ rule ∈ publishRules (publishedPort portal entry),
      config.rules.find? (·.matches c) = some rule ∧
        rule.target = (.outboundTag, if entry.allow.all (·.any c.source) then portalTag portal.id
          else SpecialDestination.blocked.value)
  others : ∀ tag ∈ config.inboundTags.erase forward.tag, ∀ c : Connection, c.inboundTag = tag →
    ∀ rule ∈ publishRules (publishedPort portal entry), rule.matches c = false

theorem find?_publish_target {pub : PublishedPort} (c : Connection) :
    (if pub.allows c then pub.steerRule else pub.denyRule).target =
      (.outboundTag,
        if pub.allows c then pub.reverseTag else SpecialDestination.blocked.value) := by
  cases pub.allows c <;> rfl

/-- Every port published on a hub is isolated. -/
theorem published_ports_isolated (cfg : AcceptedConfig)
    (hplaced : Placed.hub region node ∈ cfg.placed)
    (h : renderHub crypto cfg.toConglomerateConfig store region node = .ok config) :
    ∀ portal ∈ cfg.portals, ∀ entry ∈ portal.publish, entry.resolvesOn node = true →
      ∃ forward ∈ config.inbounds, PublishIsolated config portal entry forward := by
  obtain ⟨hregion, hnode⟩ := mem_placed_hub hplaced
  obtain ⟨hr⟩ := renderHub_eq_ok h
  intro portal hportal entry hentry hon
  have hpub : publishedPort portal entry ∈ resolveNodePublishes cfg.toConglomerateConfig node :=
    mem_resolveNodePublishes.mpr ⟨portal, hportal, entry, hentry, hon, rfl⟩
  refine ⟨forwardFragment (publishedPort portal entry) hr.ctx.shared, ?_, rfl, rfl, ?_, ?_⟩
  · exact hr.forward_mem hpub
  · intro c htag
    have hfind := find?_hubRules_publish cfg.spec hregion hnode hpub htag
    refine ⟨_, ?_, hr.rules_eq cfg.spec ▸ hfind, ?_⟩
    · exact List.mem_of_find?_eq_some (find?_publishRules htag)
    · rw [find?_publish_target, publishedPort_allows]
      rfl
  · intro tag htag c hc rule hrule
    rw [← Bool.not_eq_true]
    intro hmatch
    have hown := publishRules_inboundTag hrule hmatch
    have hnodup := hr.tags_nodup cfg.spec hregion hnode
    exact ((List.Nodup.mem_erase_iff hnodup).mp htag).1 (hc.symm.trans hown)

theorem published_ports_isolated_office :
    ∃ config, renderHub Sample.officeCrypto Sample.office.toConglomerateConfig Sample.officeStore
        Sample.officeRegion Sample.officeNode = .ok config ∧
      ∀ portal ∈ Sample.office.portals, ∀ entry ∈ portal.publish,
        entry.resolvesOn Sample.officeNode = true →
          ∃ forward ∈ config.inbounds, PublishIsolated config portal entry forward := by
  obtain ⟨config, h⟩ := office_renders
  exact ⟨config, h, published_ports_isolated Sample.office office_placed h⟩

/-! ## Targets other than portals

Every outbound tag that a rule or balancer for exit regions or destinations names is one of
those the validator keeps portal tags from. -/

/-- The target is a balancer, or a tag derived from a node or a fixed outbound. -/
def TargetDerived (cfg : ConglomerateConfig) (target : OutKey × String) : Prop :=
  target.1 = .outboundTag → target.2 ∈ derivedTags cfg (nodeIds cfg)

theorem leadId_mem_nodeIds {r : ExitRegion} (hr : r ∈ renderedExitRegions cfg) :
    leadId r ∈ nodeIds cfg := by
  obtain ⟨hexit, hnodes⟩ := mem_renderedExitRegions.mp hr
  obtain ⟨n, hn, -, hid⟩ := leadNode_eq hnodes
  rw [hid]
  exact exitNode_mem_nodeIds hexit hn

theorem region_derived {r : ExitRegion} (hr : r ∈ renderedExitRegions cfg) :
    TargetDerived cfg (balancerKey r, regionTag r) ∧
      TargetDerived cfg (balancerKey r, regionWarpTag r) := by
  have hderived := nodeId_derivedTags (leadId_mem_nodeIds hr)
  unfold TargetDerived balancerKey regionTag regionWarpTag
  cases balanced r with
  | true => exact ⟨fun h => OutKey.noConfusion h, fun h => OutKey.noConfusion h⟩
  | false => exact ⟨fun _ => hderived _ (by simp), fun _ => hderived _ (by simp)⟩

theorem targetOf_derived {dest : String} (hnonempty : dest ∉ emptyRegionIds cfg)
    (hknown : dest ∈ specialDestinations ∨ dest ∈ regionIds cfg ∨ dest ∈ nodeIds cfg)
    (hhub : dest ∉ hubRegionIds cfg) : TargetDerived cfg (targetOf cfg dest) := by
  unfold targetOf
  by_cases hspecial : dest ∈ specialDestinations
  · rw [if_pos hspecial]
    exact fun _ => special_mem_derivedTags hspecial
  · rw [if_neg hspecial]
    cases hfind : cfg.exitRegions.find? fun r => r.id.val = dest with
    | some r =>
        obtain ⟨hr, rfl⟩ := mem_regionIds_of_find hfind
        exact (region_derived (mem_renderedExitRegions.mpr ⟨hr, nodes_ne_nil hr hnonempty⟩)).1
    | none =>
        rcases hknown with h | hregion | hnode
        · exact absurd h hspecial
        · obtain ⟨r, hr, hid⟩ := mem_exitRegionIds hregion hhub
          simpa [hid] using List.find?_eq_none.mp hfind r hr
        · exact fun _ => nodeId_derivedTags hnode _ (by simp)

theorem route_derived (h : Accepted cfg) {route : HubRoute}
    (hroute : route ∈ cfg.routing.hubRoutes) :
    TargetDerived cfg (targetOf cfg route.destination) :=
  let hok := h.hubRoutes route hroute
  targetOf_derived hok.nonempty hok.known hok.dialable.1

theorem default_derived (h : Accepted cfg) :
    TargetDerived cfg (targetOf cfg cfg.routing.hubDefault) := by
  refine targetOf_derived h.hubDefault.nonempty ?_ h.hubDefault.notHub
  rcases h.hubDefault.known with hregion | hspecial
  · exact .inr (.inl hregion)
  · exact .inl hspecial

theorem fallbackTag_derived (h : Accepted cfg) {r : ExitRegion}
    (hr : r ∈ renderedExitRegions cfg) :
    fallbackTag r ∈ derivedTags cfg (nodeIds cfg) ∧
      TagPrefix.warp ++ fallbackTag r ∈ derivedTags cfg (nodeIds cfg) := by
  cases hfallback : r.lbFallback with
  | none =>
      have heq : fallbackTag r = leadId r := by simp [fallbackTag, hfallback]
      have hderived := nodeId_derivedTags (leadId_mem_nodeIds hr)
      rw [heq]
      exact ⟨hderived _ (by simp), hderived _ (by simp)⟩
  | some fallback =>
      obtain ⟨n, hn, heq⟩ := fallbackTag_link h (mem_renderedExitRegions.mp hr).1 hfallback
      rw [heq]
      exact linkTag_mem_derivedTags (mem_renderedExitNodes_of hr hn)

theorem hubRules_eq_append (cfg : ConglomerateConfig) (published : List PublishedPort) :
    hubRules cfg published = buildPublishRules published ++ hubRules cfg [] := by
  simp [hubRules, selectorRules, buildPublishRules]

/-- After the publish rules, only the portals' own rules name a portal. -/
theorem target_of_mem_hubRules (h : Accepted cfg) {rule : Rule} (hrule : rule ∈ hubRules cfg []) :
    TargetDerived cfg rule.target ∨ ∃ p ∈ cfg.portals, rule ∈ portalRules cfg.ns p := by
  cases mem_hubRules hrule with
  | publish hpub =>
      rcases hpub.target with ⟨pub, hmem, -⟩ | htarget
      · cases hmem
      · rw [htarget]
        exact .inl fun _ => special_mem_derivedTags blocked_special
  | dns hdns =>
      subst hdns
      exact .inl fun _ => special_mem_derivedTags direct_special
  | region hr hvless =>
      subst hvless
      exact .inl (region_derived hr).1
  | warp hr hmem =>
      obtain ⟨warp, -, rfl⟩ := List.mem_map.mp hmem
      exact .inl (region_derived hr).2
  | route hroute hof =>
      rw [hof.target]
      exact .inl (route_derived h hroute)
  | portal hp hmem => exact .inr ⟨_, hp, hmem⟩
  | default hdefault =>
      subst hdefault
      exact .inl (default_derived h)

/-! ## Ways out of a hub -/

/-- How rules and balancers can lead a connection out by a tag: as the tag of the first
matching rule, or as one its balancer selects or falls back to. -/
inductive XrayConfig.LeavesBy (config : XrayConfig) (c : Connection) : String → Prop where
  | outbound {tag : String} (h : dispatch config.rules c = some (.outboundTag, tag)) :
      config.LeavesBy c tag
  | selected {b : Balancer} {tag : String} (hb : b ∈ config.balancers)
      (h : dispatch config.rules c = some (.balancerTag, b.tag))
      (htag : tag ∈ config.outboundTags ++ config.reverseTags)
      (hselects : selects b.selector tag = true) : config.LeavesBy c tag
  | fallback {b : Balancer} (hb : b ∈ config.balancers)
      (h : dispatch config.rules c = some (.balancerTag, b.tag)) :
      config.LeavesBy c b.fallbackTag

/-- The connection came in by a forward of the portal, from a source the entry allows. -/
def Portal.PublishedTo (portal : Portal) (node : HubNode) (c : Connection) : Prop :=
  ∃ entry ∈ portal.publish, entry.resolvesOn node = true ∧
    c.inboundTag = publishTag portal.id.val entry.port.val ∧
    entry.allow.all (·.any c.source) = true

/-- The client is a member of the portal and the portal routes the destination. -/
def Portal.MemberRoute (portal : Portal) (ns : Namespace) (c : Connection) : Prop :=
  (∃ u ∈ portal.users, c.user = ns.userEmail u.val) ∧
    ((portal.routes.domains.getD []).any c.domain = true ∨
      (portal.routes.ips.getD []).any c.ip = true)

/-- What reaches a portal through a hub, and which of the hub's other rules and balancers
cannot lead there. -/
structure PortalGuarded (cfg : ConglomerateConfig) (node : HubNode) (config : XrayConfig)
    (portal : Portal) : Prop where
  reached : ∀ c : Connection, config.LeavesBy c (portalTag portal.id) →
    portal.PublishedTo node c ∨ portal.MemberRoute cfg.ns c
  vlessRoute : ∀ r ∈ renderedExitRegions cfg, ∀ rule, vlessRouteRule r = .ok rule →
    rule.target ≠ (.outboundTag, portalTag portal.id)
  warpRoute : ∀ r ∈ renderedExitRegions cfg, ∀ rules, warpRouteRules r = .ok rules →
    ∀ rule ∈ rules, rule.target ≠ (.outboundTag, portalTag portal.id)
  hubRoutes : ∀ route ∈ cfg.routing.hubRoutes, ∀ steered,
    steeredRules cfg cfg.ns route = .ok steered →
      ∀ rule ∈ blockedDomainRules cfg.ns route ++ steered ++ directRules cfg.ns route ++
        blockedIpRules cfg.ns route, rule.target ≠ (.outboundTag, portalTag portal.id)
  hubDefault : ∀ rule, defaultRule cfg = .ok rule →
    rule.target ≠ (.outboundTag, portalTag portal.id)
  balancers : ∀ b ∈ config.balancers,
    selects b.selector (portalTag portal.id) = false ∧ b.fallbackTag ≠ portalTag portal.id

/-- A derived target is no portal. -/
theorem TargetDerived.ne_portal (h : Accepted cfg) {portal : Portal} (hp : portal ∈ cfg.portals)
    {target : OutKey × String} (htarget : TargetDerived cfg target) :
    target ≠ (.outboundTag, portalTag portal.id) := by
  rintro rfl
  exact portalTag_ne_derived h hp (htarget rfl) rfl

theorem balancer_ne_portal (h : Accepted cfg) (hr : HubRendered crypto cfg region node config)
    {portal : Portal} (hp : portal ∈ cfg.portals) {b : Balancer} (hb : b ∈ config.balancers) :
    selects b.selector (portalTag portal.id) = false ∧ b.fallbackTag ≠ portalTag portal.id := by
  rw [hr.balancers_eq] at hb
  obtain ⟨r, hregion, hb⟩ := List.mem_flatMap.mp hb
  obtain ⟨hplain, hwarp⟩ := fallbackTag_derived h hregion
  obtain ⟨hbal, hfallback⟩ := mem_balancersOf hb
  obtain ⟨strategy, heq⟩ := balancersOf_balanced hbal
  have hprefix := (h.portals.portal portal hp).regionPrefix r
    (mem_renderedExitRegions.mp hregion).1
  rw [not_or, Bool.not_eq_true, Bool.not_eq_true] at hprefix
  constructor
  · rcases mem_regionBalancers (heq ▸ hb) with ⟨-, hsel⟩ | ⟨-, -, hsel⟩
    · rw [hsel, selects_singleton, hprefix.1]
    · rw [hsel, selects_singleton, hprefix.2]
  · rcases hfallback with hfb | ⟨-, hfb⟩
    · rw [hfb]
      exact (portalTag_ne_derived h hp hplain).symm
    · rw [hfb]
      exact (portalTag_ne_derived h hp hwarp).symm

/-- A publish rule that leads to the portal is one of the portal's own, and matched from an
allowed source. -/
theorem publishedTo_of_rule (h : Accepted cfg) {portal : Portal} (hp : portal ∈ cfg.portals)
    {rule : Rule} (hrule : rule ∈ buildPublishRules (resolveNodePublishes cfg node))
    (hmatch : rule.matches c = true) (htarget : rule.outTag = portalTag portal.id) :
    portal.PublishedTo node c := by
  obtain ⟨pub, hpub, hrule⟩ := List.mem_flatMap.mp hrule
  obtain ⟨owner, howner, entry, hentry, hon, rfl⟩ := mem_resolveNodePublishes.mp hpub
  rw [publishRules_eq, List.mem_cons] at hrule
  rcases hrule with rfl | hdeny
  · have hself : owner = portal := h.portal_eq howner hp (portalTag_inj htarget)
    subst hself
    simp only [steerRule_matches, Bool.and_eq_true, decide_eq_true_eq,
      publishedPort_allows] at hmatch
    exact ⟨entry, hentry, hon, hmatch.1, hmatch.2⟩
  · split at hdeny
    · cases hdeny
    · rw [List.mem_singleton] at hdeny
      subst hdeny
      exact absurd htarget.symm
        (portalTag_ne_derived h hp (special_mem_derivedTags blocked_special))

/-- A matching rule of the portal has matched its members and its routes. -/
theorem memberRoute_of_rule {portal : Portal} {rule : Rule}
    (hrule : rule ∈ portalRules cfg.ns portal) (hmatch : rule.matches c = true) :
    portal.MemberRoute cfg.ns c := by
  have husers : ∀ users : List Identifier,
      c.user ∈ users.map (fun u => cfg.ns.userEmail u.val) →
        ∃ u ∈ users, c.user = cfg.ns.userEmail u.val := by
    intro users hmem
    obtain ⟨u, hu, heq⟩ := List.mem_map.mp hmem
    exact ⟨u, hu, heq.symm⟩
  simp only [portalRules, List.mem_append] at hrule
  rcases hrule with hrule | hrule
  · split at hrule
    · rename_i hgiven
      rw [List.mem_singleton] at hrule
      subst hrule
      simp only [Rule.matches, given_eq_true hgiven, Option.all_some, Option.all_none,
        Bool.and_true, Bool.true_and, Bool.and_eq_true, decide_eq_true_eq] at hmatch
      exact ⟨husers _ hmatch.2, .inl hmatch.1⟩
    · cases hrule
  · split at hrule
    · rename_i hgiven
      rw [List.mem_singleton] at hrule
      subst hrule
      simp only [Rule.matches, given_eq_true hgiven, Option.all_some, Option.all_none,
        Bool.and_true, Bool.true_and, Bool.and_eq_true, decide_eq_true_eq] at hmatch
      exact ⟨husers _ hmatch.2, .inr hmatch.1⟩
    · cases hrule

theorem reached_of_dispatch (h : Accepted cfg) {portal : Portal} (hp : portal ∈ cfg.portals)
    (hdispatch : dispatch (hubRules cfg (resolveNodePublishes cfg node)) c =
      some (.outboundTag, portalTag portal.id)) :
    portal.PublishedTo node c ∨ portal.MemberRoute cfg.ns c := by
  obtain ⟨rule, hfind, htarget⟩ := Option.map_eq_some_iff.mp hdispatch
  have hmem := List.mem_of_find?_eq_some hfind
  have hmatch := List.find?_some hfind
  rw [hubRules_eq_append, List.mem_append] at hmem
  rcases hmem with hpub | hrest
  · exact .inl (publishedTo_of_rule h hp hpub hmatch (congrArg Prod.snd htarget))
  · rcases target_of_mem_hubRules h hrest with hderived | ⟨owner, howner, hrule⟩
    · exact absurd htarget (hderived.ne_portal h hp)
    · have htag := (ofPortal_of_mem hrule).target.symm.trans htarget
      have hself := h.portal_eq howner hp (portalTag_inj (congrArg Prod.snd htag))
      exact .inr (memberRoute_of_rule (hself ▸ hrule) hmatch)

theorem reached_of_leavesBy (h : Accepted cfg) (hr : HubRendered crypto cfg region node config)
    {portal : Portal} (hp : portal ∈ cfg.portals)
    (hleaves : config.LeavesBy c (portalTag portal.id)) :
    portal.PublishedTo node c ∨ portal.MemberRoute cfg.ns c := by
  generalize htag : portalTag portal.id = tag at hleaves
  cases hleaves with
  | outbound hdispatch =>
      rw [hr.rules_eq h, ← htag] at hdispatch
      exact reached_of_dispatch h hp hdispatch
  | selected hb _ _ hselects =>
      rw [← htag, (balancer_ne_portal h hr hp hb).1] at hselects
      cases hselects
  | fallback hb _ => exact absurd htag.symm (balancer_ne_portal h hr hp hb).2

theorem hubRoute_ne_portal (h : Accepted cfg) {portal : Portal} (hp : portal ∈ cfg.portals)
    {route : HubRoute} (hroute : route ∈ cfg.routing.hubRoutes) {rule : Rule}
    (hrule : rule ∈ blockedDomainRules cfg.ns route ++ steeredRulesOf cfg route ++
      directRules cfg.ns route ++ blockedIpRules cfg.ns route) :
    rule.target ≠ (.outboundTag, portalTag portal.id) := by
  simp only [List.mem_append] at hrule
  have hof : rule.OfRoute cfg route := by
    rcases hrule with ((hblocked | hsteered) | hdirect) | hip
    · exact ofRoute_of_mem_blockedDomain hblocked
    · exact ofRoute_of_mem_steered hsteered
    · exact ofRoute_of_mem_direct hdirect
    · exact ofRoute_of_mem_blockedIp hip
  rw [hof.target]
  exact (route_derived h hroute).ne_portal h hp

/-- A portal is reached through its members' rules and its published ports only. -/
theorem portals_guarded (cfg : AcceptedConfig)
    (h : renderHub crypto cfg.toConglomerateConfig store region node = .ok config) :
    ∀ portal ∈ cfg.portals, PortalGuarded cfg.toConglomerateConfig node config portal := by
  obtain ⟨hr⟩ := renderHub_eq_ok h
  intro portal hp
  constructor
  · exact fun c => reached_of_leavesBy cfg.spec hr hp
  · intro r hregion rule hrule
    rw [vlessRouteRule_eq (mem_renderedExitRegions.mp hregion).2] at hrule
    cases hrule
    exact TargetDerived.ne_portal cfg.spec hp (region_derived hregion).1
  · intro r hregion rules hrules rule hrule
    rw [warpRouteRules_eq (mem_renderedExitRegions.mp hregion).2] at hrules
    cases hrules
    obtain ⟨warp, -, rfl⟩ := List.mem_map.mp hrule
    exact TargetDerived.ne_portal cfg.spec hp (region_derived hregion).2
  · intro route hroute steered hsteered rule hrule
    rw [steeredRules_eq cfg.spec (cfg.spec.hubRoutes route hroute)] at hsteered
    cases hsteered
    exact hubRoute_ne_portal cfg.spec hp hroute hrule
  · intro rule hrule
    rw [defaultRule_eq cfg.spec] at hrule
    cases hrule
    exact (default_derived cfg.spec).ne_portal cfg.spec hp
  · exact fun b hb => balancer_ne_portal cfg.spec hr hp hb

theorem portals_guarded_office :
    ∃ config, renderHub Sample.officeCrypto Sample.office.toConglomerateConfig Sample.officeStore
        Sample.officeRegion Sample.officeNode = .ok config ∧
      ∀ portal ∈ Sample.office.portals,
        PortalGuarded Sample.office.toConglomerateConfig Sample.officeNode config portal := by
  obtain ⟨config, h⟩ := office_renders
  exact ⟨config, h, portals_guarded Sample.office h⟩

end HexRift
