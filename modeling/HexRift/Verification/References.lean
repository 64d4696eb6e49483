import HexRift.Verification.Rendered

/-! # Routing references of a hub config

Tags are composed in five places: the links, the balancer fallbacks, the region tags, their
warp variants and the destinations of `hub_routes`. All but the links name a node by its bare
id, while the link to a backup node is tagged `backup-{id}`. -/

namespace HexRift

variable {cfg : ConglomerateConfig} {crypto : Crypto} {store : KeyStore}

/-- Every tag a config names is the tag of something in it. -/
structure XrayConfig.ReferencesResolve (config : XrayConfig) : Prop where
  outbound : ∀ rule ∈ config.rules, rule.outKey = .outboundTag →
    rule.outTag ∈ config.outboundTags ∨ rule.outTag ∈ config.reverseTags
  balancer : ∀ rule ∈ config.rules, rule.outKey = .balancerTag →
    rule.outTag ∈ config.balancers.map (·.tag)
  fallback : ∀ b ∈ config.balancers, b.fallbackTag ∈ config.outboundTags

/-! ## Bare ids of backup nodes -/

/-- The text is spelled like a tag: a special destination, the id of a primary node, the
prefixed id of a backup node, or the `warp-` variant of one of these in a warp region. -/
def SpellsTag (cfg : ConglomerateConfig) (tag : String) : Prop :=
  tag ∈ specialDestinations ∨
    ∃ p ∈ renderedExitNodes cfg,
      p.2.lbRole ≠ some .backup ∧
          (tag = p.2.id.val ∨ p.1.warp.isSome ∧ tag = TagPrefix.warp ++ p.2.id.val) ∨
        p.2.lbRole = some .backup ∧
          (tag = TagPrefix.backup ++ p.2.id.val ∨
            p.1.warp.isSome ∧ tag = TagPrefix.warp ++ (TagPrefix.backup ++ p.2.id.val))

/-- A backup node is named by its bare id only where that happens to spell a tag: in a region
of backup nodes alone that is not balanced over an `lb_fallback`, and in a `hub_routes`
entry. -/
structure BareIdsSpellTags (cfg : ConglomerateConfig) : Prop where
  region : ∀ r ∈ cfg.exitRegions, (∀ n ∈ r.nodes, n.lbRole = some .backup) →
    (balanced r = true → r.lbFallback = none) → ∀ n ∈ r.nodes.head?,
      SpellsTag cfg n.id.val ∧ (r.warp.isSome → SpellsTag cfg (TagPrefix.warp ++ n.id.val))
  route : ∀ route ∈ cfg.routing.hubRoutes, ∀ p ∈ renderedExitNodes cfg,
    p.2.id.val = route.destination → p.2.lbRole = some .backup →
      route.destination ∉ specialDestinations → route.destination ∉ regionIds cfg →
        SpellsTag cfg route.destination

theorem mem_outboundTags {tag : String} : tag ∈ outboundTags cfg ↔ SpellsTag cfg tag := by
  simp only [outboundTags, plainTags, warpTags, List.mem_append, List.mem_map,
    List.mem_filterMap, SpellsTag]
  constructor
  · rintro ((⟨p, hp, rfl⟩ | ⟨p, hp, hwarp⟩) | hspecial)
    · by_cases hrole : p.2.lbRole = some .backup
      · exact .inr ⟨p, hp, .inr ⟨hrole, .inl (linkTag_backup hrole)⟩⟩
      · exact .inr ⟨p, hp, .inl ⟨hrole, .inl (linkTag_primary hrole)⟩⟩
    · obtain ⟨hsome, htag⟩ : p.1.warp.isSome = true ∧ warpLinkTag p.2 = tag := by simpa using hwarp
      subst htag
      by_cases hrole : p.2.lbRole = some .backup
      · exact .inr ⟨p, hp, .inr ⟨hrole, .inr ⟨hsome, by rw [warpLinkTag, linkTag_backup hrole]⟩⟩⟩
      · exact .inr ⟨p, hp, .inl ⟨hrole, .inr ⟨hsome, by rw [warpLinkTag, linkTag_primary hrole]⟩⟩⟩
    · exact .inl hspecial
  · rintro (hspecial | ⟨p, hp, ⟨hrole, rfl | ⟨hsome, rfl⟩⟩ | ⟨hrole, rfl | ⟨hsome, rfl⟩⟩⟩)
    · exact .inr hspecial
    · exact .inl (.inl ⟨p, hp, linkTag_primary hrole⟩)
    · exact .inl (.inr ⟨p, hp, by simp [hsome, warpLinkTag, linkTag_primary hrole]⟩)
    · exact .inl (.inl ⟨p, hp, linkTag_backup hrole⟩)
    · exact .inl (.inr ⟨p, hp, by simp [hsome, warpLinkTag, linkTag_backup hrole]⟩)

theorem linkTag_mem {p : ExitRegion × ExitNode} (hp : p ∈ renderedExitNodes cfg) :
    linkTag p.2 ∈ outboundTags cfg := by
  simp only [outboundTags, List.mem_append]
  exact .inl (.inl (List.mem_map.mpr ⟨p, hp, rfl⟩))

theorem warpLinkTag_mem {p : ExitRegion × ExitNode} (hp : p ∈ renderedExitNodes cfg)
    (hwarp : p.1.warp.isSome) : warpLinkTag p.2 ∈ outboundTags cfg := by
  simp only [outboundTags, List.mem_append]
  exact .inl (.inr (List.mem_filterMap.mpr ⟨p, hp, by simp [hwarp]⟩))

/-! ## The node a region is named by -/

/-- The node naming a region: a primary one, or the first of a region of backups. -/
theorem leadId_cases {r : ExitRegion} (h : r.nodes ≠ []) :
    (∃ n ∈ r.nodes, n.lbRole ≠ some .backup ∧ leadId r = n.id.val) ∨
      (∀ n ∈ r.nodes, n.lbRole = some .backup) ∧ ∃ n ∈ r.nodes.head?, leadId r = n.id.val := by
  unfold leadId
  cases hprimary : primaryNodes r with
  | cons n ns =>
      have hmem : n ∈ primaryNodes r := by simp [hprimary]
      obtain ⟨hn, hrole⟩ := List.mem_filter.mp hmem
      exact .inl ⟨n, hn, by simpa using hrole, rfl⟩
  | nil =>
      have hall : ∀ n ∈ r.nodes, n.lbRole = some .backup := by
        intro n hn
        by_contra hrole
        have hmem : n ∈ primaryNodes r := List.mem_filter.mpr ⟨hn, by simpa using hrole⟩
        simp [hprimary] at hmem
      cases hnodes : r.nodes with
      | nil => exact absurd hnodes h
      | cons n ns =>
          rw [hnodes] at hall
          exact .inr ⟨hall, n, by simp, by simp⟩

theorem leadId_eq_head {r : ExitRegion} (hall : ∀ n ∈ r.nodes, n.lbRole = some .backup)
    {n : ExitNode} (hn : n ∈ r.nodes.head?) : leadId r = n.id.val := by
  have hnil : primaryNodes r = [] := by
    rw [primaryNodes, List.filter_eq_nil_iff]
    intro m hm
    simp [hall m hm]
  rw [leadId, hnil, List.nil_append, Option.mem_def.mp hn]
  rfl

/-- The bare id of the node naming a region resolves, and its `warp-` variant with it. -/
theorem leadId_mem {r : ExitRegion} (hr : r ∈ cfg.exitRegions) (hnodes : r.nodes ≠ [])
    (hbare : BareIdsSpellTags cfg) (hfallback : balanced r = true → r.lbFallback = none) :
    leadId r ∈ outboundTags cfg ∧
      (r.warp.isSome → TagPrefix.warp ++ leadId r ∈ outboundTags cfg) := by
  rcases leadId_cases hnodes with ⟨n, hn, hrole, hid⟩ | ⟨hall, n, hn, hid⟩
  · have hp : (r, n) ∈ renderedExitNodes cfg := mem_renderedExitNodes.mpr ⟨hr, hn⟩
    rw [hid, ← linkTag_primary hrole]
    exact ⟨linkTag_mem hp, fun hwarp => warpLinkTag_mem hp hwarp⟩
  · obtain ⟨hspell, hwarp⟩ := hbare.region r hr hall hfallback n hn
    rw [hid]
    exact ⟨mem_outboundTags.mpr hspell, fun h => mem_outboundTags.mpr (hwarp h)⟩

/-! ## Balancers -/

def balancerTags (cfg : ConglomerateConfig) : List String :=
  (renderedExitRegions cfg).flatMap fun r => (balancersOf r).map (·.tag)

theorem strategy_of_balanced {r : ExitRegion} (h : balanced r = true) :
    ∃ strategy, r.lbStrategy = some strategy := by
  simp only [balanced, Bool.and_eq_true] at h
  exact Option.isSome_iff_exists.mp h.1

theorem balancersOf_balanced {r : ExitRegion} (h : balanced r = true) :
    ∃ strategy, balancersOf r = regionBalancers r strategy (fallbackTag r) := by
  obtain ⟨strategy, hstrategy⟩ := strategy_of_balanced h
  exact ⟨strategy, by simp [balancersOf, h, hstrategy]⟩

theorem mem_balancersOf {r : ExitRegion} {b : Balancer} (h : b ∈ balancersOf r) :
    balanced r = true ∧
      (b.fallbackTag = fallbackTag r ∨
        r.warp.isSome ∧ b.fallbackTag = TagPrefix.warp ++ fallbackTag r) := by
  cases hbal : balanced r with
  | false => simp [balancersOf, hbal] at h
  | true =>
      obtain ⟨strategy, heq⟩ := balancersOf_balanced hbal
      rw [heq, regionBalancers, List.mem_cons] at h
      refine ⟨rfl, ?_⟩
      rcases h with rfl | hwarp
      · exact .inl rfl
      · split at hwarp
        · rw [List.mem_singleton] at hwarp
          subst hwarp
          rename_i hsome
          exact .inr ⟨hsome, rfl⟩
        · cases hwarp

theorem lbTag_mem {r : ExitRegion} (hr : r ∈ renderedExitRegions cfg) (hbal : balanced r = true) :
    TagPrefix.lb ++ r.id.val ∈ balancerTags cfg := by
  obtain ⟨strategy, heq⟩ := balancersOf_balanced hbal
  refine List.mem_flatMap.mpr ⟨r, hr, ?_⟩
  rw [heq]
  exact List.mem_cons_self

theorem lbWarpTag_mem {r : ExitRegion} (hr : r ∈ renderedExitRegions cfg)
    (hbal : balanced r = true) (hwarp : r.warp.isSome) :
    TagPrefix.lbWarp ++ r.id.val ∈ balancerTags cfg := by
  obtain ⟨strategy, heq⟩ := balancersOf_balanced hbal
  refine List.mem_flatMap.mpr ⟨r, hr, ?_⟩
  rw [heq, regionBalancers, if_pos hwarp]
  exact List.mem_cons_of_mem _ List.mem_cons_self

/-- The node named by `lb_fallback` is fallen back to by its link. -/
theorem fallbackTag_link (h : Accepted cfg) {r : ExitRegion} (hr : r ∈ cfg.exitRegions)
    {fallback : String} (hfallback : r.lbFallback = some fallback) :
    ∃ n ∈ r.nodes, fallbackTag r = linkTag n := by
  have hexit : ExitRegionOk r := (h.region _ (mem_exitRegions.mp hr)).kind
  obtain ⟨n, hn, hid⟩ := List.mem_map.mp (hexit.fallback fallback hfallback)
  cases hfind : r.nodes.find? fun n => n.id.val = fallback with
  | none => simpa [hid] using List.find?_eq_none.mp hfind n hn
  | some m =>
      have hmid := List.find?_some hfind
      simp only [decide_eq_true_eq] at hmid
      refine ⟨m, List.mem_of_find?_eq_some hfind, ?_⟩
      simp only [fallbackTag, hfallback, hfind]
      rw [linkTag, hmid]

/-- A balanced region falls back to a link, unless it has none but backups and no
`lb_fallback`. -/
theorem fallbackTag_mem (h : Accepted cfg) {r : ExitRegion} (hr : r ∈ cfg.exitRegions)
    (hnodes : r.nodes ≠ []) (hbare : BareIdsSpellTags cfg) :
    fallbackTag r ∈ outboundTags cfg ∧
      (r.warp.isSome → TagPrefix.warp ++ fallbackTag r ∈ outboundTags cfg) := by
  cases hfallback : r.lbFallback with
  | none =>
      have heq : fallbackTag r = leadId r := by simp [fallbackTag, hfallback]
      rw [heq]
      exact leadId_mem hr hnodes hbare fun _ => hfallback
  | some fallback =>
      obtain ⟨n, hn, heq⟩ := fallbackTag_link h hr hfallback
      have hp : (r, n) ∈ renderedExitNodes cfg := mem_renderedExitNodes.mpr ⟨hr, hn⟩
      rw [heq]
      exact ⟨linkTag_mem hp, fun hwarp => warpLinkTag_mem hp hwarp⟩

/-! ## Rules -/

def portalTags (cfg : ConglomerateConfig) : List String := cfg.portals.map fun p => portalTag p.id

/-- What a key and tag name exists. -/
def TargetResolves (cfg : ConglomerateConfig) : OutKey × String → Prop
  | (.outboundTag, tag) => tag ∈ outboundTags cfg ∨ tag ∈ portalTags cfg
  | (.balancerTag, tag) => tag ∈ balancerTags cfg

/-- An entry has a matcher, so it always contributes a rule. -/
theorem appendRouteRules_ne_nil (route : HubRoute) (ns : Namespace) (outKey : OutKey)
    (outTag : String) : appendRouteRules route (routeUserFilter route ns) outKey outTag ≠ [] := by
  intro hnil
  simp only [appendRouteRules, given, List.append_eq_nil_iff, Bool.true_and] at hnil
  obtain ⟨⟨hdomains, hips⟩, huser⟩ := hnil
  have hmatchers := route.matchers
  simp_all [routeUserFilter]

theorem special_resolves {tag : String} (h : tag ∈ specialDestinations) :
    TargetResolves cfg (.outboundTag, tag) :=
  .inl (mem_outboundTags.mpr (.inl h))

theorem region_resolves {r : ExitRegion} (hr : r ∈ renderedExitRegions cfg)
    (hbare : BareIdsSpellTags cfg) : TargetResolves cfg (balancerKey r, regionTag r) := by
  obtain ⟨hexit, hnodes⟩ := mem_renderedExitRegions.mp hr
  by_cases hbal : balanced r = true
  · simp only [balancerKey, regionTag, hbal, if_true]
    exact lbTag_mem hr hbal
  · simp only [balancerKey, regionTag, hbal]
    exact .inl (leadId_mem hexit hnodes hbare fun h => absurd h hbal).1

theorem regionWarp_resolves {r : ExitRegion} (hr : r ∈ renderedExitRegions cfg)
    (hwarp : r.warp.isSome) (hbare : BareIdsSpellTags cfg) :
    TargetResolves cfg (balancerKey r, regionWarpTag r) := by
  obtain ⟨hexit, hnodes⟩ := mem_renderedExitRegions.mp hr
  by_cases hbal : balanced r = true
  · simp only [balancerKey, regionWarpTag, hbal, if_true]
    exact lbWarpTag_mem hr hbal hwarp
  · simp only [balancerKey, regionWarpTag, hbal]
    exact .inl ((leadId_mem hexit hnodes hbare fun h => absurd h hbal).2 hwarp)

theorem targetOf_region (h : Accepted cfg) {r : ExitRegion} (hr : r ∈ cfg.exitRegions)
    (hspecial : r.id.val ∉ specialDestinations) :
    targetOf cfg r.id.val = (balancerKey r, regionTag r) := by
  rw [targetOf, if_neg hspecial, h.find_exitRegion hr fun _ => Iff.rfl]

theorem targetOf_node {dest : String} (hregion : dest ∉ regionIds cfg) :
    targetOf cfg dest = (.outboundTag, dest) := by
  unfold targetOf
  split
  · rfl
  · split
    · rename_i r hfind
      obtain ⟨hr, rfl⟩ := mem_regionIds_of_find hfind
      exact absurd (List.mem_map.mpr ⟨_, mem_exitRegions.mp hr, rfl⟩) hregion
    · rfl

theorem route_resolves (h : Accepted cfg) (hbare : BareIdsSpellTags cfg) {route : HubRoute}
    (hroute : route ∈ cfg.routing.hubRoutes) :
    TargetResolves cfg (targetOf cfg route.destination) := by
  have hok := h.hubRoutes route hroute
  by_cases hspecial : route.destination ∈ specialDestinations
  · rw [targetOf_special hspecial]
    exact special_resolves hspecial
  by_cases hregion : route.destination ∈ regionIds cfg
  · obtain ⟨r, hr, hid⟩ := mem_exitRegionIds hregion hok.dialable.1
    have hnodes := nodes_ne_nil hr (hid ▸ hok.nonempty)
    rw [← hid, targetOf_region h hr (hid ▸ hspecial)]
    exact region_resolves (mem_renderedExitRegions.mpr ⟨hr, hnodes⟩) hbare
  · have hnode := (hok.known.resolve_left hspecial).resolve_left hregion
    obtain ⟨p, hp, hid⟩ := mem_exitNodeIds hnode hok.dialable.2
    rw [targetOf_node hregion]
    by_cases hrole : p.2.lbRole = some .backup
    · exact .inl (mem_outboundTags.mpr (hbare.route route hroute p hp hid hrole hspecial hregion))
    · rw [← hid, ← linkTag_primary hrole]
      exact .inl (linkTag_mem hp)

theorem default_resolves (h : Accepted cfg) (hbare : BareIdsSpellTags cfg) :
    TargetResolves cfg (targetOf cfg cfg.routing.hubDefault) := by
  by_cases hspecial : cfg.routing.hubDefault ∈ specialDestinations
  · rw [targetOf_special hspecial]
    exact special_resolves hspecial
  · obtain ⟨r, hr, hid⟩ := mem_exitRegionIds (h.hubDefault.known.resolve_right hspecial)
      h.hubDefault.notHub
    have hnodes := nodes_ne_nil hr (hid ▸ h.hubDefault.nonempty)
    rw [← hid, targetOf_region h hr (hid ▸ hspecial)]
    exact region_resolves (mem_renderedExitRegions.mpr ⟨hr, hnodes⟩) hbare

/-- A published port is steered into its portal's tunnel or blocked. -/
theorem publish_resolves {node : HubNode} {rule : Rule}
    (h : rule.OfPublish (resolveNodePublishes cfg node)) : TargetResolves cfg rule.target := by
  rcases h.target with ⟨pub, hpub, htarget⟩ | htarget
  · simp only [resolveNodePublishes, List.mem_flatMap, List.mem_map] at hpub
    obtain ⟨portal, hportal, entry, -, rfl⟩ := hpub
    rw [htarget]
    exact .inr (List.mem_map.mpr ⟨portal, hportal, rfl⟩)
  · rw [htarget]
    exact special_resolves blocked_special

theorem hubRules_resolve (h : Accepted cfg) (hbare : BareIdsSpellTags cfg) {node : HubNode}
    {rule : Rule} (hrule : rule ∈ hubRules cfg (resolveNodePublishes cfg node)) :
    TargetResolves cfg rule.target := by
  cases mem_hubRules hrule with
  | publish hpub => exact publish_resolves hpub
  | dns hdns =>
      subst hdns
      exact special_resolves direct_special
  | region hr hvless =>
      subst hvless
      exact region_resolves hr hbare
  | warp hr hmem =>
      obtain ⟨warp, hwarp, rfl⟩ := List.mem_map.mp hmem
      exact regionWarp_resolves hr (by simp [Option.mem_toList.mp hwarp]) hbare
  | route hroute hmem =>
      rw [hmem.target]
      exact route_resolves h hbare hroute
  | portal hp hmem =>
      rw [(ofPortal_of_mem hmem).target]
      exact .inr (List.mem_map.mpr ⟨_, hp, rfl⟩)
  | default hdefault =>
      subst hdefault
      exact default_resolves h hbare

/-! ## References of a rendered config -/

theorem HubRendered.rules_eq (h : Accepted cfg) {region : HubRegion} {node : HubNode}
    {config : XrayConfig} (hr : HubRendered crypto cfg region node config) :
    config.rules = hubRules cfg (resolveNodePublishes cfg node) := by
  have hrules := hr.rules
  rw [buildHubRoutingRules_eq h] at hrules
  rw [hr.config_eq, Except.ok.inj hrules]
  rfl

theorem HubRendered.balancers_eq {region : HubRegion} {node : HubNode} {config : XrayConfig}
    (hr : HubRendered crypto cfg region node config) :
    config.balancers = (renderedExitRegions cfg).flatMap balancersOf := by
  rw [hr.config_eq, ← hr.balancers]
  rfl

/-- The references of a config that renders, in terms of the topology. -/
theorem HubRendered.referencesResolve_iff (h : Accepted cfg) {region : HubRegion}
    {node : HubNode} {config : XrayConfig} (hr : HubRendered crypto cfg region node config) :
    config.ReferencesResolve ↔
      (∀ rule ∈ hubRules cfg (resolveNodePublishes cfg node), TargetResolves cfg rule.target) ∧
        ∀ r ∈ renderedExitRegions cfg, ∀ b ∈ balancersOf r,
          b.fallbackTag ∈ HexRift.outboundTags cfg := by
  have hportals : config.reverseTags = portalTags cfg := hr.reverseTags
  have hbalancers : config.balancers.map (·.tag) = balancerTags cfg := by
    rw [hr.balancers_eq, List.map_flatMap]
    rfl
  constructor
  · intro href
    refine ⟨fun rule hrule => ?_, fun r hmem b hb => ?_⟩
    · rw [← hr.rules_eq h] at hrule
      cases hkey : rule.outKey with
      | outboundTag =>
          rw [Rule.target, hkey, TargetResolves, ← hr.outboundTags, ← hportals]
          exact href.outbound rule hrule hkey
      | balancerTag =>
          rw [Rule.target, hkey, TargetResolves, ← hbalancers]
          exact href.balancer rule hrule hkey
    · rw [← hr.outboundTags]
      refine href.fallback b ?_
      rw [hr.balancers_eq]
      exact List.mem_flatMap.mpr ⟨r, hmem, hb⟩
  · rintro ⟨hrules, hfallback⟩
    rw [← hr.rules_eq h] at hrules
    refine ⟨fun rule hrule hkey => ?_, fun rule hrule hkey => ?_, fun b hb => ?_⟩
    · have htarget := hrules rule hrule
      rwa [Rule.target, hkey, TargetResolves, ← hr.outboundTags, ← hportals] at htarget
    · have htarget := hrules rule hrule
      rwa [Rule.target, hkey, TargetResolves, ← hbalancers] at htarget
    · rw [hr.balancers_eq] at hb
      obtain ⟨r, hmem, hb⟩ := List.mem_flatMap.mp hb
      rw [hr.outboundTags]
      exact hfallback r hmem b hb

theorem exitNode_mem_nodeIds {r : ExitRegion} (hr : r ∈ cfg.exitRegions) {n : ExitNode}
    (hn : n ∈ r.nodes) : n.id.val ∈ nodeIds cfg :=
  mem_nodeIds.mpr ⟨.exit r, mem_exitRegions.mp hr, .exit n, List.mem_map.mpr ⟨n, hn, rfl⟩, rfl⟩

/-- No portal tag is a node id or its `warp-` variant. -/
theorem not_mem_portalTags (h : Accepted cfg) {id : String} (hid : id ∈ nodeIds cfg) :
    id ∉ portalTags cfg ∧ TagPrefix.warp ++ id ∉ portalTags cfg := by
  have hderived : ∀ tag ∈ portalTags cfg, tag ∉ derivedTags cfg (nodeIds cfg) := by
    intro tag htag
    obtain ⟨p, hp, rfl⟩ := List.mem_map.mp htag
    exact (h.portals.portal p hp).tag
  refine ⟨fun hmem => hderived _ hmem ?_, fun hmem => hderived _ hmem ?_⟩
  · simp only [derivedTags, List.mem_append]
    exact .inl (.inl (.inl hid))
  · simp only [derivedTags, List.mem_append, List.mem_flatMap]
    exact .inl (.inr ⟨id, hid, by simp⟩)

/-! ## Bare ids that resolve

Conversely, a reference to a backup node by its bare id resolves only by coincidence: the
balancers and the rules on routes name the lead node of a region of backups, and an entry of
`hub_routes` names its destination. -/

theorem spellsTag_of_fallback {r : ExitRegion} (hall : ∀ n ∈ r.nodes, n.lbRole = some .backup)
    {n : ExitNode} (hn : n ∈ r.nodes.head?) (hbal : balanced r = true) (hlb : r.lbFallback = none)
    (hfallback : ∀ b ∈ balancersOf r, b.fallbackTag ∈ outboundTags cfg) :
    SpellsTag cfg n.id.val ∧ (r.warp.isSome → SpellsTag cfg (TagPrefix.warp ++ n.id.val)) := by
  obtain ⟨strategy, heq⟩ := balancersOf_balanced hbal
  have hfb : fallbackTag r = n.id.val := by simp [fallbackTag, hlb, leadId_eq_head hall hn]
  rw [heq, regionBalancers] at hfallback
  rw [← hfb]
  refine ⟨mem_outboundTags.mp (hfallback _ List.mem_cons_self), fun hwarp => ?_⟩
  rw [if_pos hwarp] at hfallback
  exact mem_outboundTags.mp (hfallback _ (List.mem_cons_of_mem _ List.mem_cons_self))

theorem spellsTag_of_route_rules (h : Accepted cfg) {published : List PublishedPort}
    (hrules : ∀ rule ∈ hubRules cfg published, TargetResolves cfg rule.target) {r : ExitRegion}
    (hr : r ∈ renderedExitRegions cfg) (hall : ∀ n ∈ r.nodes, n.lbRole = some .backup)
    {n : ExitNode} (hn : n ∈ r.nodes.head?) (hbal : balanced r ≠ true) :
    SpellsTag cfg n.id.val ∧ (r.warp.isSome → SpellsTag cfg (TagPrefix.warp ++ n.id.val)) := by
  have hlead := leadId_eq_head hall hn
  have hid := exitNode_mem_nodeIds (mem_renderedExitRegions.mp hr).1 (List.mem_of_mem_head? hn)
  obtain ⟨hbare, hwarpBare⟩ := not_mem_portalTags h hid
  have hvless : vlessRuleOf r ∈ hubRules cfg published := by
    simp only [hubRules, selectorRules, List.mem_append]
    simp [List.mem_map_of_mem hr]
  have htarget := hrules _ hvless
  simp only [Rule.target, vlessRuleOf, balancerKey, regionTag, hbal, hlead] at htarget
  refine ⟨mem_outboundTags.mp (htarget.resolve_right hbare), fun hwarp => ?_⟩
  obtain ⟨warp, hsome⟩ := Option.isSome_iff_exists.mp hwarp
  have hrule : ∀ rule ∈ warpRulesOf r, rule ∈ hubRules cfg published := by
    intro rule hrule
    have hflat : rule ∈ (renderedExitRegions cfg).flatMap warpRulesOf :=
      List.mem_flatMap.mpr ⟨r, hr, hrule⟩
    simp only [hubRules, selectorRules, List.mem_append]
    simp [hflat]
  have hwarpTarget := hrules _ (hrule _ (by
    rw [warpRulesOf, hsome]
    exact List.mem_singleton.mpr rfl))
  simp only [Rule.target, balancerKey, regionWarpTag, hbal, hlead] at hwarpTarget
  exact mem_outboundTags.mp (hwarpTarget.resolve_right hwarpBare)

theorem spellsTag_of_hub_route (h : Accepted cfg) {published : List PublishedPort}
    (hrules : ∀ rule ∈ hubRules cfg published, TargetResolves cfg rule.target) {route : HubRoute}
    (hroute : route ∈ cfg.routing.hubRoutes) {p : ExitRegion × ExitNode}
    (hp : p ∈ renderedExitNodes cfg) (hid : p.2.id.val = route.destination)
    (hspecial : route.destination ∉ specialDestinations)
    (hregion : route.destination ∉ regionIds cfg) : SpellsTag cfg route.destination := by
  obtain ⟨hr, hn⟩ := mem_renderedExitNodes.mp hp
  have hnot := (not_mem_portalTags h (exitNode_mem_nodeIds hr hn)).1
  rw [hid] at hnot
  have hdest : ¬ (route.destination = SpecialDestination.blocked.value ∨
      route.destination = SpecialDestination.direct.value) := by
    rintro (heq | heq)
    · exact hspecial (heq ▸ blocked_special)
    · exact hspecial (heq ▸ direct_special)
  obtain ⟨rule, hrule⟩ := List.exists_mem_of_ne_nil _ (appendRouteRules_ne_nil route cfg.ns
    (targetOf cfg route.destination).1 (targetOf cfg route.destination).2)
  have hsteered : rule ∈ steeredRulesOf cfg route := by
    rw [steeredRulesOf, if_neg hdest]
    exact hrule
  have hflat : rule ∈ cfg.routing.hubRoutes.flatMap (steeredRulesOf cfg) :=
    List.mem_flatMap.mpr ⟨route, hroute, hsteered⟩
  have hres := hrules rule (by
    simp only [hubRules, List.mem_append]
    simp [hflat])
  rw [(ofRoute_of_mem_steered hsteered).target, targetOf_node hregion] at hres
  exact mem_outboundTags.mp (hres.resolve_right hnot)

theorem bareIdsSpellTags_of_resolve (h : Accepted cfg) {published : List PublishedPort}
    (hrules : ∀ rule ∈ hubRules cfg published, TargetResolves cfg rule.target)
    (hfallback : ∀ r ∈ renderedExitRegions cfg, ∀ b ∈ balancersOf r,
      b.fallbackTag ∈ outboundTags cfg) : BareIdsSpellTags cfg := by
  constructor
  · intro r hr hall hlb n hn
    have hrendered : r ∈ renderedExitRegions cfg :=
      mem_renderedExitRegions.mpr ⟨hr, List.ne_nil_of_mem (List.mem_of_mem_head? hn)⟩
    by_cases hbal : balanced r = true
    · exact spellsTag_of_fallback hall hn hbal (hlb hbal) (hfallback r hrendered)
    · exact spellsTag_of_route_rules h hrules hrendered hall hn hbal
  · intro route hroute p hp hid _ hspecial hregion
    exact spellsTag_of_hub_route h hrules hroute hp hid hspecial hregion

/-! ## When every reference resolves -/

/-- Every reference of a rendered hub config resolves exactly when no backup node is named by
its bare id, coincidences of spelling aside. -/
theorem references_resolve_iff (cfg : AcceptedConfig) {region : HubRegion} {node : HubNode}
    {config : XrayConfig} (h : renderHub crypto cfg.toConglomerateConfig store region node =
      .ok config) :
    config.ReferencesResolve ↔ BareIdsSpellTags cfg.toConglomerateConfig := by
  obtain ⟨hr⟩ := renderHub_eq_ok h
  rw [hr.referencesResolve_iff cfg.spec]
  constructor
  · rintro ⟨hrules, hfallback⟩
    exact bareIdsSpellTags_of_resolve cfg.spec hrules hfallback
  · intro hbare
    refine ⟨fun rule hrule => hubRules_resolve cfg.spec hbare hrule, fun r hmem b hb => ?_⟩
    obtain ⟨hexit, hnodes⟩ := mem_renderedExitRegions.mp hmem
    obtain ⟨hfb, hwarp⟩ := fallbackTag_mem cfg.spec hexit hnodes hbare
    rcases (mem_balancersOf hb).2 with heq | ⟨hsome, heq⟩
    · rw [heq]
      exact hfb
    · rw [heq]
      exact hwarp hsome

/-- A region whose only node is a backup. -/
def backupOnly : AcceptedConfig :=
  { Sample.topology
      [Sample.exitRegion Sample.fra Sample.lowRoute
        [Sample.exitNode Sample.fra1 (some .backup)]]
      [Sample.user Sample.aliceName] with }

theorem references_resolve_iff_backupOnly :
    ∃ config, renderHub Sample.crypto backupOnly.toConglomerateConfig Sample.store
        Sample.hubRegion Sample.hubNode = .ok config ∧
      (config.ReferencesResolve ↔ BareIdsSpellTags backupOnly.toConglomerateConfig) := by
  obtain ⟨config, h⟩ := isOk_iff.mp (show (renderHub Sample.crypto
    backupOnly.toConglomerateConfig Sample.store Sample.hubRegion Sample.hubNode).isOk = true by
      decide)
  exact ⟨config, h, references_resolve_iff backupOnly h⟩

/-- The `vlessRoute` rule of the region names `fra-1`, while the link is `backup-fra-1`. -/
theorem bare_backup_dangles :
    ¬ ∀ config, renderHub Sample.crypto backupOnly.toConglomerateConfig Sample.store
        Sample.hubRegion Sample.hubNode = .ok config → config.ReferencesResolve := by
  intro h
  have hdangling : (renderHub Sample.crypto backupOnly.toConglomerateConfig Sample.store
      Sample.hubRegion Sample.hubNode).toOption.any (fun config =>
        config.rules.any fun rule => rule.outKey = .outboundTag ∧
          ¬ (rule.outTag ∈ config.outboundTags ∨ rule.outTag ∈ config.reverseTags)) = true := by
    decide
  cases hrender : renderHub Sample.crypto backupOnly.toConglomerateConfig Sample.store
      Sample.hubRegion Sample.hubNode with
  | error e => simp [hrender, Except.toOption] at hdangling
  | ok config =>
      simp only [hrender, Except.toOption, Option.any_some, List.any_eq_true,
        decide_eq_true_eq] at hdangling
      obtain ⟨rule, hrule, hkey, hmissing⟩ := hdangling
      exact hmissing ((h config hrender).outbound rule hrule hkey)

end HexRift
