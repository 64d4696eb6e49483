import HexRift.Library.Distinct
import HexRift.Model.Edit
import HexRift.Verification.Listeners

/-! # Topologies without one exit node

Removing an exit node takes with it the routes that lead to it, or to its region when it was
the last one there, and the region's `lb_fallback` when that names it. What is left refers to
nothing that is gone. -/

namespace HexRift

open Checks

/-! ## What a removal drops -/

/-- The region without a node, and without a fallback that names the node. -/
def ExitRegion.without (region : ExitRegion) (node : ExitNode) : ExitRegion :=
  { region with
    nodes := region.nodes.filter (·.id ≠ node.id)
    lbFallback := if region.lbFallback = some node.id.val then none else region.lbFallback }

/-- Ids that are gone with a node: that of its region once emptied, and its own unless a
region that stays has it. -/
def goneIds (cfg : ConglomerateConfig) (region : ExitRegion) (node : ExitNode) : List String :=
  let gone := if region.nodes.length = 1 then [region.id.val] else []
  if node.id.val ∉ (regionIds cfg).filter (· ∉ gone) then node.id.val :: gone else gone

def Region.without (region : ExitRegion) (node : ExitNode) (r : Region) : Region :=
  if r = .exit region then .exit (region.without node) else r

/-- The topology without an exit node and all that is dropped with it. -/
def ConglomerateConfig.without (cfg : ConglomerateConfig) (region : ExitRegion)
    (node : ExitNode) : ConglomerateConfig :=
  { cfg with
    regions := cfg.regions.map (Region.without region node)
    routing :=
      { cfg.routing with
        hubRoutes := cfg.routing.hubRoutes.filter (·.destination ∉ goneIds cfg region node) } }

variable {cfg : ConglomerateConfig} {region : ExitRegion} {node : ExitNode} {r : Region}

/-! ## One region -/

theorem without_cases (region : ExitRegion) (node : ExitNode) (r : Region) :
    (r = .exit region ∧ r.without region node = .exit (region.without node)) ∨
      (r ≠ .exit region ∧ r.without region node = r) := by
  unfold Region.without
  by_cases h : r = .exit region
  · exact .inl ⟨h, if_pos h⟩
  · exact .inr ⟨h, if_neg h⟩

theorem without_hub (h : HubRegion) : (Region.hub h).without region node = .hub h :=
  if_neg (by simp)

@[simp] theorem id_without : (r.without region node).id = r.id := by
  rcases without_cases region node r with ⟨rfl, h⟩ | ⟨-, h⟩ <;> rw [h]
  rfl

@[simp] theorem hubEntries_without : (r.without region node).hubEntries = r.hubEntries := by
  rcases without_cases region node r with ⟨rfl, h⟩ | ⟨-, h⟩ <;> rw [h]
  rfl

@[simp] theorem routeClaims_without : (r.without region node).routeClaims = r.routeClaims := by
  rcases without_cases region node r with ⟨rfl, h⟩ | ⟨-, h⟩ <;> rw [h]
  rfl

@[simp] theorem hub?_without : (r.without region node).hub? = r.hub? := by
  rcases without_cases region node r with ⟨rfl, h⟩ | ⟨-, h⟩ <;> rw [h]
  rfl

theorem nodes_without_sublist : (r.without region node).nodes.Sublist r.nodes := by
  rcases without_cases region node r with ⟨rfl, h⟩ | ⟨-, h⟩ <;> rw [h]
  exact List.filter_sublist.map _

/-- Every node that stays reads the same settings of its region. -/
theorem socketClaims_without (n : Node) :
    socketClaims (r.without region node) n cfg.defaults cfg.global cfg.users =
      socketClaims r n cfg.defaults cfg.global cfg.users := by
  rcases without_cases region node r with ⟨rfl, h⟩ | ⟨-, h⟩ <;> rw [h]
  cases n <;> rfl

theorem RegionOk.without (h : RegionOk cfg r) :
    RegionOk (cfg.without region node) (r.without region node) := by
  rcases without_cases region node r with ⟨rfl, heq⟩ | ⟨-, heq⟩
  · rw [heq]
    have hsub : ∀ n ∈ (region.without node).nodes, n ∈ region.nodes ∧ n.id ≠ node.id := by
      intro n hn
      simpa using List.mem_filter.mp hn
    have hok : ExitRegionOk region := h.kind
    constructor
    case node =>
      intro n hn
      obtain ⟨m, hm, rfl⟩ := List.mem_map.mp hn
      have hnode := h.node (.exit m) (List.mem_map_of_mem (hsub m hm).1)
      exact ⟨hnode.cdn, hnode.hysteria⟩
    case kind =>
      refine ⟨fun n hn => hok.reality n (hsub n hn).1, fun n hn => hok.node_enabled n (hsub n hn).1,
        hok.vlessRoute, hok.routes, hok.enabled, ?_⟩
      intro f hf
      simp only [ExitRegion.without] at hf
      split at hf
      · cases hf
      · rename_i hne
        obtain ⟨n, hn, rfl⟩ := List.mem_map.mp (hok.fallback f hf)
        refine List.mem_map_of_mem (List.mem_filter.mpr ⟨hn, decide_eq_true ?_⟩)
        rintro hid
        exact hne (by rw [hf, hid])
    case xhttp =>
      intro n hn
      obtain ⟨m, hm, rfl⟩ := List.mem_map.mp hn
      exact h.xhttp (.exit m) (List.mem_map_of_mem (hsub m hm).1)
  · rw [heq]
    refine ⟨fun n hn => ⟨(h.node n hn).cdn, (h.node n hn).hysteria⟩, ?_, h.xhttp⟩
    cases r with
    | exit q => exact h.kind
    | hub q => exact h.kind

/-! ## The whole topology -/

theorem regionIds_without : regionIds (cfg.without region node) = regionIds cfg := by
  simp [regionIds, ConglomerateConfig.without]

theorem hubRegionIds_without : hubRegionIds (cfg.without region node) = hubRegionIds cfg := by
  unfold hubRegionIds ConglomerateConfig.hubRegions ConglomerateConfig.without
  rw [List.filterMap_map]
  congr 1
  exact List.filterMap_congr fun r _ => hub?_without

theorem hubNodes_without : hubNodes (cfg.without region node) = hubNodes cfg := by
  unfold hubNodes ConglomerateConfig.without
  rw [List.flatMap_map]
  exact List.flatMap_congr fun r _ => hubEntries_without

theorem nodeIds_without_sublist : (nodeIds (cfg.without region node)).Sublist (nodeIds cfg) := by
  unfold nodeIds ConglomerateConfig.without
  rw [List.flatMap_map]
  exact List.Sublist.flatMap_right _ fun r _ => nodes_without_sublist.flatMap _

/-- Every id but the node's own is still there. -/
theorem mem_nodeIds_without {id : String} (h : id ∈ nodeIds cfg) (hne : id ≠ node.id.val) :
    id ∈ nodeIds (cfg.without region node) := by
  obtain ⟨r, hr, hid⟩ := List.mem_flatMap.mp h
  obtain ⟨n, hn, hid⟩ := List.mem_flatMap.mp hid
  rw [List.mem_singleton] at hid
  subst hid
  refine List.mem_flatMap.mpr ⟨r.without region node, List.mem_map_of_mem hr,
    List.mem_flatMap.mpr ⟨n, ?_, List.mem_singleton_self _⟩⟩
  rcases without_cases region node r with ⟨rfl, heq⟩ | ⟨-, heq⟩
  · rw [heq]
    obtain ⟨m, hm, rfl⟩ := List.mem_map.mp hn
    refine List.mem_map_of_mem (List.mem_filter.mpr ⟨hm, decide_eq_true ?_⟩)
    rintro hid
    exact hne (congrArg Identifier.val hid)
  · rw [heq]
    exact hn

theorem mem_allNodes_without {p : Region × Node}
    (h : p ∈ allNodes (cfg.without region node)) :
    ∃ r ∈ cfg.regions, p.1 = r.without region node ∧ p.2 ∈ r.nodes := by
  obtain ⟨q, hq, hp⟩ := List.mem_flatMap.mp h
  obtain ⟨r, hr, rfl⟩ := List.mem_map.mp hq
  obtain ⟨n, hn, rfl⟩ := List.mem_map.mp hp
  exact ⟨r, hr, rfl, nodes_without_sublist.subset hn⟩

/-! ## Portals -/

/-- The registry holds for every hub node what it binds. -/
theorem lookup_reservedSockets (hids : (nodeIds cfg).Nodup) {h : HubRegion}
    (hh : Region.hub h ∈ cfg.regions) {n : HubNode} (hn : n ∈ h.nodes) :
    (reservedSockets cfg).lookup n.id.val =
      some (socketClaims (.hub h) (.hub n) cfg.defaults cfg.global cfg.users) := by
  rw [← allNodes_ids] at hids
  exact lookup_map_of_mem (g := fun p : Region × Node =>
    socketClaims p.1 p.2 cfg.defaults cfg.global cfg.users) hids
    (mem_allNodes hh (List.mem_map_of_mem hn))

theorem mem_regions_without {h : HubRegion} (hh : Region.hub h ∈ cfg.regions) :
    Region.hub h ∈ (cfg.without region node).regions :=
  List.mem_map.mpr ⟨.hub h, hh, without_hub h⟩

theorem lookup_reservedSockets_without (hids : (nodeIds cfg).Nodup) {id : String}
    (hid : id ∈ (hubNodes cfg).map (·.1)) :
    (reservedSockets (cfg.without region node)).lookup id = (reservedSockets cfg).lookup id := by
  obtain ⟨⟨key, h, n⟩, hmem, rfl⟩ := List.mem_map.mp hid
  obtain ⟨hh, hn, hkey⟩ := mem_hubNodes.mp hmem
  simp only at hkey
  subst hkey
  rw [lookup_reservedSockets hids hh hn]
  exact lookup_reservedSockets (hids.sublist nodeIds_without_sublist) (mem_regions_without hh) hn

theorem hubNodes_sublist_nodeIds : ((hubNodes cfg).map (·.1)).Sublist (nodeIds cfg) := by
  unfold hubNodes nodeIds
  rw [List.map_flatMap]
  refine List.Sublist.flatMap_right _ fun r _ => ?_
  cases r with
  | exit q => exact List.nil_sublist _
  | hub q => simp [Region.hubEntries, idsOf, Region.nodes, Node.id, List.map_eq_flatMap,
      List.flatMap_assoc]

theorem publishScope_without (entry : PortalPublish) :
    publishScope (portalEnv (cfg.without region node)) entry =
      publishScope (portalEnv cfg) entry := by
  unfold publishScope portalEnv
  rw [hubNodes_without]

/-- A port is bound on hub nodes only. -/
theorem mem_hubNodes_of_scope {entry : PortalPublish} (h : PublishOk (portalEnv cfg) entry)
    {id : String} (hid : id ∈ publishScope (portalEnv cfg) entry) :
    id ∈ (hubNodes cfg).map (·.1) := by
  unfold publishScope at hid
  cases hnodes : entry.nodes with
  | none =>
      rw [hnodes] at hid
      exact (List.mem_insertionSort _).mp hid
  | some nodes =>
      rw [hnodes] at hid
      refine (h.nodes id ?_).2
      rw [hnodes]
      exact (List.mem_insertionSort _).mp hid

theorem PublishOk.without (hids : (nodeIds cfg).Nodup) {entry : PortalPublish}
    (h : PublishOk (portalEnv cfg) entry) :
    PublishOk (portalEnv (cfg.without region node)) entry := by
  have hhubs : (portalEnv (cfg.without region node)).hubNodes = hubNodes cfg := hubNodes_without
  constructor
  case nodes =>
    intro id hid
    have hhub : id ∈ (hubNodes cfg).map (·.1) := (h.nodes id hid).2
    rw [hhubs]
    refine ⟨?_, hhub⟩
    rw [← hubNodes_without] at hhub
    exact hubNodes_sublist_nodeIds.subset hhub
  case free =>
    intro id hid t ht
    rw [publishScope_without] at hid
    have hfree := h.free id hid t ht
    have hlookup : (portalEnv (cfg.without region node)).reserved.lookup id =
        (portalEnv cfg).reserved.lookup id :=
      lookup_reservedSockets_without hids (mem_hubNodes_of_scope h hid)
    rwa [hlookup]

theorem derivedTags_without_subset :
    derivedTags (cfg.without region node) (nodeIds (cfg.without region node)) ⊆
      derivedTags cfg (nodeIds cfg) := by
  have hsub : (nodeIds (cfg.without region node)).Sublist (nodeIds cfg) :=
    nodeIds_without_sublist
  have hlb : (cfg.without region node).regions.flatMap
      (fun r => [TagPrefix.lb ++ r.id.val, TagPrefix.lbWarp ++ r.id.val]) =
      cfg.regions.flatMap fun r => [TagPrefix.lb ++ r.id.val, TagPrefix.lbWarp ++ r.id.val] := by
    rw [ConglomerateConfig.without, List.flatMap_map]
    simp
  unfold derivedTags
  rw [hlb]
  exact List.Sublist.subset (((hsub.append (List.Sublist.refl _)).append (hsub.flatMap _)).append
    (List.Sublist.refl _))

theorem mem_exitRegions_without {q : ExitRegion}
    (h : q ∈ (cfg.without region node).exitRegions) : ∃ p ∈ cfg.exitRegions, p.id = q.id := by
  obtain ⟨r', hr', hq⟩ := List.mem_filterMap.mp h
  obtain ⟨r, hr, rfl⟩ := List.mem_map.mp hr'
  rcases without_cases region node r with ⟨rfl, heq⟩ | ⟨-, heq⟩
  · rw [heq] at hq
    cases hq
    exact ⟨region, List.mem_filterMap.mpr ⟨_, hr, rfl⟩, rfl⟩
  · rw [heq] at hq
    exact ⟨q, List.mem_filterMap.mpr ⟨r, hr, hq⟩, rfl⟩

theorem PortalOk.without (hids : (nodeIds cfg).Nodup) {portal : Portal}
    (h : PortalOk cfg (portalEnv cfg) portal) :
    PortalOk (cfg.without region node) (portalEnv (cfg.without region node)) portal := by
  have hrendered : (portalEnv (cfg.without region node)).rendered = (portalEnv cfg).rendered := by
    unfold portalEnv renderedTypes
    rw [hubNodes_without]
    rfl
  obtain ⟨hnode, hregion, hspecial⟩ := h.id
  constructor
  case id =>
    refine ⟨fun hmem => hnode (nodeIds_without_sublist.subset hmem), ?_, hspecial⟩
    have hregions : (cfg.without region node).regions.map (·.id.val) = cfg.regions.map (·.id.val) :=
      regionIds_without
    rwa [hregions]
  case tag => exact fun hmem => h.tag (derivedTags_without_subset hmem)
  case regionPrefix =>
    intro q hq
    obtain ⟨p, hp, hid⟩ := mem_exitRegions_without hq
    rw [← hid]
    exact h.regionPrefix p hp
  case users =>
    rw [hrendered]
    exact h.users
  case publish => exact fun entry hentry => (h.publish entry hentry).without hids

theorem PortalsOk.without (hids : (nodeIds cfg).Nodup) (h : PortalsOk cfg) :
    PortalsOk (cfg.without region node) := by
  constructor
  case sockets =>
    intro p hp
    obtain ⟨r, hr, hp1, hp2⟩ := mem_allNodes_without hp
    rw [hp1]
    have hsockets := h.sockets (r, p.2) (mem_allNodes hr hp2)
    have hsame : socketClaims (r.without region node) p.2 cfg.defaults cfg.global cfg.users =
        socketClaims r p.2 cfg.defaults cfg.global cfg.users := socketClaims_without p.2
    exact hsame.symm ▸ hsockets
  case hub =>
    rw [hubNodes_without]
    exact h.hub
  case portal => exact fun p hp => (h.portal p hp).without hids
  case ids => exact h.ids
  case published =>
    have hclaims : ∀ p : Portal, p.claims (portalEnv (cfg.without region node)) =
        p.claims (portalEnv cfg) := by
      intro p
      unfold Portal.claims PortalPublish.claims
      simp only [publishScope_without]
    simp only [hclaims]
    exact h.published

/-! ## Routing -/

/-- The region is left without nodes when it had but one. -/
theorem nodes_without_eq_nil (hids : (nodeIds cfg).Nodup) (hr : region ∈ cfg.exitRegions)
    (hn : node ∈ region.nodes) :
    (region.without node).nodes = [] ↔ region.nodes.length = 1 := by
  have hmap : (region.nodes.map (·.id)).Nodup := by
    have hregion : Region.exit region ∈ cfg.regions := mem_exitRegions.mp hr
    have hsub := (List.nodup_flatMap.mp hids).1 _ hregion
    rw [idsOf, ← List.map_eq_flatMap, Region.nodes, List.map_map] at hsub
    refine List.Nodup.of_map Identifier.val ?_
    rwa [List.map_map]
  have hone : region.nodes.filter (fun n => n.id = node.id) = [node] :=
    Distinct.filter_key_eq_singleton hmap hn
  have hsum := List.length_eq_length_filter_add (l := region.nodes) fun n => n.id = node.id
  rw [hone, List.length_singleton] at hsum
  rw [← List.length_eq_zero_iff]
  simp only [ExitRegion.without, ne_eq, decide_not]
  omega

/-- A region without nodes had none before, or is the one that was emptied. -/
theorem mem_emptyRegionIds_without (hids : (nodeIds cfg).Nodup) (hr : region ∈ cfg.exitRegions)
    (hn : node ∈ region.nodes) {id : String} :
    id ∈ emptyRegionIds (cfg.without region node) ↔
      id ∈ emptyRegionIds cfg ∨ region.nodes.length = 1 ∧ id = region.id.val := by
  have hemptied := nodes_without_eq_nil hids hr hn
  simp only [emptyRegionIds, ConglomerateConfig.without, List.mem_map, List.mem_filter,
    decide_eq_true_eq]
  constructor
  · rintro ⟨q, ⟨⟨r, hmem, rfl⟩, hnil⟩, rfl⟩
    rcases without_cases region node r with ⟨rfl, heq⟩ | ⟨-, heq⟩
    · rw [heq] at hnil
      exact .inr ⟨hemptied.mp (List.map_eq_nil_iff.mp hnil), by rw [id_without]; rfl⟩
    · rw [heq] at hnil
      exact .inl ⟨r, ⟨hmem, hnil⟩, by rw [id_without]⟩
  · rintro (⟨r, ⟨hmem, hnil⟩, rfl⟩ | ⟨hlast, rfl⟩)
    · have hne : r ≠ .exit region := by
        rintro rfl
        rw [Region.nodes, List.map_eq_nil_iff] at hnil
        exact List.ne_nil_of_mem hn hnil
      exact ⟨r, ⟨⟨r, hmem, if_neg hne⟩, hnil⟩, rfl⟩
    · refine ⟨.exit (region.without node), ⟨⟨.exit region, mem_exitRegions.mp hr, if_pos rfl⟩, ?_⟩,
        rfl⟩
      rw [Region.nodes, hemptied.mpr hlast]
      rfl

theorem region_mem_goneIds (hlast : region.nodes.length = 1) :
    region.id.val ∈ goneIds cfg region node := by
  unfold goneIds
  simp only [hlast, if_true]
  split
  · exact List.mem_cons_of_mem _ (List.mem_singleton_self _)
  · exact List.mem_singleton_self _

/-- The id of the node is gone with it, or still names a region. -/
theorem node_mem_goneIds :
    node.id.val ∈ goneIds cfg region node ∨ node.id.val ∈ regionIds cfg := by
  simp only [goneIds]
  generalize (if region.nodes.length = 1 then [region.id.val] else []) = gone
  by_cases hstays : node.id.val ∈ (regionIds cfg).filter (· ∉ gone)
  · exact .inr (List.mem_filter.mp hstays).1
  · rw [if_pos hstays]
    exact .inl List.mem_cons_self

theorem HubRouteOk.without (hids : (nodeIds cfg).Nodup) (hr : region ∈ cfg.exitRegions)
    (hn : node ∈ region.nodes) {route : HubRoute} (h : HubRouteOk cfg route)
    (hstays : route.destination ∉ goneIds cfg region node) :
    HubRouteOk (cfg.without region node) route := by
  constructor
  case dialable =>
    rw [hubRegionIds_without, hubNodes_without]
    exact h.dialable
  case known =>
    rw [regionIds_without]
    rcases h.known with hspecial | hregion | hnode
    · exact .inl hspecial
    · exact .inr (.inl hregion)
    · by_cases hself : route.destination = node.id.val
      · rw [hself] at hstays ⊢
        exact .inr (.inl (node_mem_goneIds.resolve_left hstays))
      · exact .inr (.inr (mem_nodeIds_without hnode hself))
  case nonempty =>
    rw [mem_emptyRegionIds_without hids hr hn]
    rintro (hempty | ⟨hlast, hdest⟩)
    · exact h.nonempty hempty
    · exact hstays (hdest ▸ region_mem_goneIds hlast)
  case users => exact h.users
  case proxyUsers => exact h.proxyUsers

theorem hubDefaultOk_without (hids : (nodeIds cfg).Nodup) (hr : region ∈ cfg.exitRegions)
    (hn : node ∈ region.nodes) (h : HubDefaultOk cfg) :
    HubDefaultOk (cfg.without region node) ↔
      ¬ (region.nodes.length = 1 ∧ cfg.routing.hubDefault = region.id.val) := by
  have hempty : cfg.routing.hubDefault ∈ emptyRegionIds (cfg.without region node) ↔
      region.nodes.length = 1 ∧ cfg.routing.hubDefault = region.id.val := by
    rw [mem_emptyRegionIds_without hids hr hn]
    exact or_iff_right h.nonempty
  constructor
  · exact fun hok => mt hempty.mpr hok.nonempty
  · intro hstays
    constructor
    case notHub =>
      rw [hubRegionIds_without]
      exact h.notHub
    case known =>
      rw [regionIds_without]
      exact h.known
    case nonempty => exact mt hempty.mp hstays

theorem Accepted.without (h : Accepted cfg) (hr : region ∈ cfg.exitRegions)
    (hn : node ∈ region.nodes)
    (hstays : ¬ (region.nodes.length = 1 ∧ cfg.routing.hubDefault = region.id.val)) :
    Accepted (cfg.without region node) := by
  have hids : (HexRift.nodeIds cfg).Nodup := by simpa using h.nodeIds
  have hregions : ∀ q ∈ (cfg.without region node).regions, ∃ r ∈ cfg.regions,
      q = r.without region node := by
    intro q hq
    obtain ⟨r, hr, rfl⟩ := List.mem_map.mp hq
    exact ⟨r, hr, rfl⟩
  have hclaims : (cfg.without region node).regions.flatMap (·.routeClaims) =
      cfg.regions.flatMap (·.routeClaims) := by
    rw [ConglomerateConfig.without, List.flatMap_map]
    exact List.flatMap_congr fun r _ => routeClaims_without
  constructor
  case regionIds =>
    have hsame : (cfg.without region node).regions.map (·.id.val) =
      cfg.regions.map (·.id.val) := regionIds_without
    rw [hsame]
    exact h.regionIds
  case region =>
    intro q hq
    obtain ⟨r, hr, rfl⟩ := hregions q hq
    exact (h.region r hr).without
  case nodeIds => exact (nodeIds_without_sublist.map id).nodup h.nodeIds
  case routes =>
    rw [hclaims]
    exact h.routes
  case groups => exact h.groups
  case userGroup => exact h.userGroup
  case usernames => exact h.usernames
  case portals => exact h.portals.without hids
  case hubDefault => exact (hubDefaultOk_without hids hr hn h.hubDefault).mpr hstays
  case exitRoutes => exact h.exitRoutes
  case hubRoutes =>
    intro route hroute
    obtain ⟨hroute, hgone⟩ := List.mem_filter.mp hroute
    exact (h.hubRoutes route hroute).without hids hr hn (of_decide_eq_true hgone)

/-! ## The editor's notion of what is dead -/

/-- What the editor reads of a topology file is what the loader reads: region ids, destinations
of the hub routes, and the region with its node ids and its fallback. -/
structure Topology.Reads (t : Topology) (cfg : ConglomerateConfig) (item : RegionItem)
    (region : ExitRegion) : Prop where
  regionIds : t.regions.map (·.id) = cfg.regions.map fun r => some r.id.val
  routes : t.hubRoutes.items.map (·.destination) =
    cfg.routing.hubRoutes.map fun r => some r.destination
  id : item.id = some region.id.val
  nodes : item.nodes.map (·.id) = region.nodes.map fun n => some n.id.val
  fallback : item.lbFallback = region.lbFallback
  fallbackLine : item.lbFallbackLine.isSome = region.lbFallback.isSome

variable {t : Topology} {item : RegionItem} {nodeItem : NodeItem}

theorem Topology.Reads.goneIds (h : t.Reads cfg item region)
    (hnode : nodeItem.id = some node.id.val) :
    t.goneIds item nodeItem = (HexRift.goneIds cfg region node).map some := by
  have hlength : item.nodes.length = region.nodes.length := by
    simpa using congrArg List.length h.nodes
  have hgone : (if item.nodes.length = 1 then [item.id] else []) =
      (if region.nodes.length = 1 then [region.id.val] else []).map some := by
    rw [hlength, h.id]
    split <;> rfl
  have hregions : t.regions.map (·.id) = (HexRift.regionIds cfg).map some := by
    rw [h.regionIds, HexRift.regionIds, List.map_map]
    rfl
  simp only [Topology.goneIds, HexRift.goneIds, hgone, hregions, hnode]
  generalize (if region.nodes.length = 1 then [region.id.val] else []) = gone
  have hmem : some node.id.val ∈ ((HexRift.regionIds cfg).map some).filter (· ∉ gone.map some) ↔
      node.id.val ∈ (HexRift.regionIds cfg).filter (· ∉ gone) := by
    have hsome : ∀ ids : List String, some node.id.val ∈ ids.map some ↔ node.id.val ∈ ids :=
      fun ids => List.mem_map_of_injective (Option.some_injective String)
    simp only [List.mem_filter, hsome, decide_eq_true_eq]
  simp only [hmem]
  split <;> rfl

/-- The editor deems dead the routes that are gone from the topology. -/
theorem Topology.Reads.deadRoutes (h : t.Reads cfg item region)
    (hnode : nodeItem.id = some node.id.val) :
    (t.deadRoutes item nodeItem).map (·.destination) =
      (cfg.routing.hubRoutes.filter (·.destination ∈ HexRift.goneIds cfg region node)).map
        fun r => some r.destination := by
  rw [Topology.deadRoutes, h.goneIds hnode]
  generalize HexRift.goneIds cfg region node = gone
  calc
    _ = (t.hubRoutes.items.map (·.destination)).filter
        fun d => d.isSome && d ∈ gone.map some := by
      rw [List.filter_map]
      rfl
    _ = (cfg.routing.hubRoutes.map fun r => some r.destination).filter
        fun d => d.isSome && d ∈ gone.map some := by rw [h.routes]
    _ = _ := by
      rw [List.filter_map]
      congr 1
      refine List.filter_congr fun r _ => ?_
      simp

/-- The editor names the destinations of these routes as dropped. -/
theorem Topology.Reads.droppedRoutes (h : t.Reads cfg item region)
    (hnode : nodeItem.id = some node.id.val) :
    (t.deadRoutes item nodeItem).filterMap (·.destination) =
      (cfg.routing.hubRoutes.filter (·.destination ∈ HexRift.goneIds cfg region node)).map
        (·.destination) := by
  have hdead := congrArg (List.filterMap fun d => d) (h.deadRoutes hnode)
  rw [List.filterMap_map, List.filterMap_map] at hdead
  rw [← List.filterMap_eq_map]
  exact hdead

/-- The editor drops the fallback of a region when it names the node. -/
theorem Topology.Reads.fallbackSpan (h : t.Reads cfg item region)
    (hnode : nodeItem.id = some node.id.val) :
    HexRift.Topology.fallbackSpan item nodeItem ≠ [] ↔ region.lbFallback = some node.id.val := by
  unfold Topology.fallbackSpan
  have hline := h.fallbackLine
  rw [h.fallback, hnode]
  cases hfallback : item.lbFallbackLine with
  | none =>
      rw [hfallback, Option.isSome_none, eq_comm, Option.isSome_eq_false_iff,
        Option.isNone_iff_eq_none] at hline
      simp [hline]
  | some line =>
      by_cases hself : region.lbFallback = some node.id.val
      · simp [hself]
      · simp [hself]

/-! ## Removing an exit node -/

/-- What an edit says it dropped is what the second topology lacks. -/
structure RemoveEdit.Reports (edit : RemoveEdit) (cfg cfg' : ConglomerateConfig)
    (region : ExitRegion) (node : ExitNode) : Prop where
  routes : edit.droppedRoutes =
    ((cfg.routing.hubRoutes.filter (· ∉ cfg'.routing.hubRoutes)).map (·.destination)).eraseDups
  fallback : edit.droppedLbFallback = true ↔ region.lbFallback = some node.id.val
  emptied : edit.emptied = true ↔ region.nodes.length = 1

theorem Topology.Reads.reports (h : t.Reads cfg item region)
    (hnode : nodeItem.id = some node.id.val) {edit : RemoveEdit}
    (hedit : t.removeFrom item nodeItem = .ok edit) :
    edit.Reports cfg (cfg.without region node) region node := by
  simp only [removeFrom, bind_eq_ok, pure_eq_ok] at hedit
  obtain ⟨_, -, _, -, spans, -, rfl⟩ := hedit
  constructor
  · show ((t.deadRoutes item nodeItem).filterMap (·.destination)).eraseDups = _
    rw [h.droppedRoutes hnode]
    congr 2
    refine List.filter_congr fun route hroute => ?_
    simp [ConglomerateConfig.without, hroute]
  · exact decide_eq_true_iff.trans (h.fallbackSpan hnode)
  · have hlength : item.nodes.length = region.nodes.length := by
      simpa using congrArg List.length h.nodes
    exact decide_eq_true_iff.trans (by rw [hlength])

/-- The topology without an exit node is accepted again unless its default destination was
emptied, and the editor drops just the routes and the fallback that are gone from it. -/
theorem removal_accepted_iff (cfg : AcceptedConfig) {region : ExitRegion} {node : ExitNode}
    (hr : region ∈ cfg.exitRegions) (hn : node ∈ region.nodes) :
    ((validateReferences (cfg.toConglomerateConfig.without region node)).isOk = true ↔
      ¬ (region.nodes.length = 1 ∧ cfg.routing.hubDefault = region.id.val)) ∧
    ∀ (t : Topology) (item : RegionItem) (nodeItem : NodeItem),
      t.Reads cfg.toConglomerateConfig item region → nodeItem.id = some node.id.val →
        (t.deadRoutes item nodeItem).map (·.destination) =
            (cfg.routing.hubRoutes.filter
              (· ∉ (cfg.toConglomerateConfig.without region node).routing.hubRoutes)).map
                (fun r => some r.destination) ∧
          (Topology.fallbackSpan item nodeItem ≠ [] ↔ region.lbFallback = some node.id.val) ∧
          ∀ edit, t.removeFrom item nodeItem = .ok edit →
            edit.Reports cfg.toConglomerateConfig
              (cfg.toConglomerateConfig.without region node) region node := by
  have hids : (nodeIds cfg.toConglomerateConfig).Nodup := by simpa using cfg.spec.nodeIds
  constructor
  · rw [validateReferences_isOk]
    constructor
    · exact fun h => (hubDefaultOk_without hids hr hn cfg.spec.hubDefault).mp h.hubDefault
    · exact cfg.spec.without hr hn
  · intro t item nodeItem hreads hnode
    refine ⟨?_, hreads.fallbackSpan hnode, fun edit => hreads.reports hnode⟩
    rw [hreads.deadRoutes hnode]
    congr 1
    refine List.filter_congr fun route hroute => ?_
    simp [ConglomerateConfig.without, hroute]

namespace Sample

/-- Two nodes, of which the second is the fallback and has a route of its own. -/
def pairedExit : ExitRegion :=
  { exitRegion fra lowRoute
      [exitNode fra1, exitNode { val := "fra-2" }] with
    lbStrategy := some .leastPing
    lbFallback := some "fra-2" }

def pairedExits : AcceptedConfig :=
  { toConglomerateConfig := topology [pairedExit] []
      [{ destination := "fra-2", domains := some ["domain:news.example"] }] }

def pairedItem : RegionItem :=
  { id := some "fra", type := some "exit", vlessRoutes := [2000]
    nodes := [⟨some "fra-1", none, false, 4, 7⟩, ⟨some "fra-2", none, false, 7, 10⟩]
    nodesLine := some 3, nodesError := none, emptyFlowNodes := none
    lbFallback := some "fra-2", lbFallbackLine := some 2, lbStrategyEnd := some 1
    hysteria := false, start := 1, stop := 10 }

/-- The file of the two nodes, as the editor reads it. -/
def pairedTopology : Topology :=
  { eol := "\n", lines := [], regionsLine := 0, emptyFlowRegions := none
    regions := [pairedItem, { pairedItem with id := some "hubs", type := some "hub", nodes := [] }]
    aphelionDomain := none
    hubRoutes := { line := some 12, items := [⟨some "fra-2", 13, 14⟩], error := none } }

end Sample

theorem removal_accepted_iff_pairedExits :
    (validateReferences (Sample.pairedExits.toConglomerateConfig.without Sample.pairedExit
      (Sample.exitNode { val := "fra-2" }))).isOk = true ∧
    (Sample.pairedTopology.deadRoutes Sample.pairedItem
      ⟨some "fra-2", none, false, 7, 10⟩).map (·.destination) = [some "fra-2"] := by
  have hregion : Sample.pairedExit ∈ Sample.pairedExits.exitRegions := by decide
  have hnode : Sample.exitNode { val := "fra-2" } ∈ Sample.pairedExit.nodes := by decide
  have h := removal_accepted_iff Sample.pairedExits hregion hnode
  have hreads : Sample.pairedTopology.Reads Sample.pairedExits.toConglomerateConfig
      Sample.pairedItem Sample.pairedExit := ⟨rfl, rfl, rfl, rfl, rfl, rfl⟩
  exact ⟨h.1.mpr (by decide), (h.2 _ _ ⟨some "fra-2", none, false, 7, 10⟩ hreads rfl).1.trans
    (by decide)⟩

end HexRift
