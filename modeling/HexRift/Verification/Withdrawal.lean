import HexRift.Verification.Fleet
import HexRift.Verification.Journeys
import HexRift.Verification.Removal

/-! # What the removal of an exit node leaves as it was

The other exits are rendered as before, and so is all that users and portals hold. A hub loses
its links to the node and no others, so that configs from before and after fit together. -/

namespace HexRift

open Checks

variable {cfg : ConglomerateConfig} {crypto : Crypto} {store store' : KeyStore}
  {region r : ExitRegion} {node n : ExitNode} {hubRegion : HubRegion} {hub : HubNode}

/-! ## The regions and nodes that remain -/

/-- What the removal of a node leaves of an exit region. -/
def ExitRegion.remaining (region : ExitRegion) (node : ExitNode) (r : ExitRegion) : ExitRegion :=
  if r = region then region.without node else r

theorem remaining_cases (region : ExitRegion) (node : ExitNode) (r : ExitRegion) :
    ∃ nodes fallback, ExitRegion.remaining region node r =
      { r with nodes := nodes, lbFallback := fallback } := by
  by_cases h : r = region
  · subst h
    exact ⟨_, _, if_pos rfl⟩
  · exact ⟨r.nodes, r.lbFallback, if_neg h⟩

theorem without_exit (region : ExitRegion) (node : ExitNode) (r : ExitRegion) :
    (Region.exit r).without region node = .exit (ExitRegion.remaining region node r) := by
  unfold Region.without ExitRegion.remaining
  by_cases h : r = region
  · rw [if_pos h, if_pos (congrArg Region.exit h)]
  · rw [if_neg h, if_neg (mt Region.exit.inj h)]

theorem hubRegions_without : (cfg.without region node).hubRegions = cfg.hubRegions := by
  rw [ConglomerateConfig.hubRegions, ConglomerateConfig.hubRegions, ConglomerateConfig.without,
    List.filterMap_map]
  exact List.filterMap_congr fun r _ => hub?_without

theorem exitRegions_without : (cfg.without region node).exitRegions =
    cfg.exitRegions.map (ExitRegion.remaining region node) := by
  rw [ConglomerateConfig.exitRegions, ConglomerateConfig.exitRegions, ConglomerateConfig.without,
    List.filterMap_map, List.map_filterMap]
  refine List.filterMap_congr fun r _ => ?_
  cases r with
  | exit r =>
      rw [Function.comp_apply, without_exit]
      rfl
  | hub r =>
      rw [Function.comp_apply, without_hub]
      rfl

theorem hubNodePairs_without : hubNodePairs (cfg.without region node) = hubNodePairs cfg := by
  rw [hubNodePairs, hubNodePairs, hubRegions_without]

theorem renderedExitNodes_eq (cfg : ConglomerateConfig) :
    renderedExitNodes cfg = cfg.exitRegions.flatMap fun r => r.nodes.map fun n => (r, n) := by
  rw [renderedExitNodes, renderedExitRegions]
  induction cfg.exitRegions with
  | nil => rfl
  | cons r rs ih =>
      by_cases hnodes : r.nodes = []
      · rw [List.filter_cons_of_neg (by simp [hnodes]), List.flatMap_cons, hnodes, ih]
        rfl
      · rw [List.filter_cons_of_pos (by simp [hnodes]), List.flatMap_cons, List.flatMap_cons, ih]

/-- An exit node in what remains of its region. -/
def remainingPair (region : ExitRegion) (node : ExitNode) (p : ExitRegion × ExitNode) :
    ExitRegion × ExitNode :=
  (ExitRegion.remaining region node p.1, p.2)

theorem remaining_nodes (h : Accepted cfg) (hr : region ∈ cfg.exitRegions)
    (hn : node ∈ region.nodes) (hmem : r ∈ cfg.exitRegions) :
    (ExitRegion.remaining region node r).nodes = r.nodes.filter fun n => n.id ≠ node.id := by
  by_cases hself : r = region
  · rw [ExitRegion.remaining, if_pos hself, hself]
    rfl
  · rw [ExitRegion.remaining, if_neg hself]
    refine (List.filter_eq_self.mpr fun n hmemn => decide_eq_true ?_).symm
    intro hid
    have hsame := h.exitNode_eq (p := (r, n)) (q := (region, node))
      (mem_renderedExitNodes.mpr ⟨hmem, hmemn⟩) (mem_renderedExitNodes.mpr ⟨hr, hn⟩)
      (congrArg Identifier.val hid)
    exact hself (congrArg Prod.fst hsame)

/-- The exit nodes but the one removed, in the same order. -/
theorem renderedExitNodes_without (h : Accepted cfg) (hr : region ∈ cfg.exitRegions)
    (hn : node ∈ region.nodes) : renderedExitNodes (cfg.without region node) =
      ((renderedExitNodes cfg).filter fun p => p.2.id ≠ node.id).map
        (remainingPair region node) := by
  rw [renderedExitNodes_eq, renderedExitNodes_eq, exitRegions_without, List.flatMap_map,
    List.filter_flatMap, List.map_flatMap]
  refine List.flatMap_congr fun r hmem => ?_
  rw [remaining_nodes h hr hn hmem, List.filter_map, List.map_map]
  rfl

/-! ## Rendering -/

/-- Nothing of an exit's inbounds hangs on the other nodes of its region. -/
theorem buildSlots_without (nodes : List ExitNode) (fallback : Option String) (keys : NodeKeys) :
    buildSlots (exitEnv crypto (cfg.without region node)
        { r with nodes := nodes, lbFallback := fallback } n keys) =
      buildSlots (exitEnv crypto cfg r n keys) := by
  have hhubs : (exitEnv crypto (cfg.without region node)
        { r with nodes := nodes, lbFallback := fallback } n keys).hubNodes =
      (exitEnv crypto cfg r n keys).hubNodes := by
    rw [InboundEnv.hubNodes, InboundEnv.hubNodes]
    exact congrArg _ hubRegions_without
  have hxhttp : buildXhttp (exitEnv crypto (cfg.without region node)
        { r with nodes := nodes, lbFallback := fallback } n keys) =
      buildXhttp (exitEnv crypto cfg r n keys) := by
    simp only [buildXhttp, buildExitXhttp, hhubs]
    rfl
  have hcdn : buildCdn (exitEnv crypto (cfg.without region node)
        { r with nodes := nodes, lbFallback := fallback } n keys) =
      buildCdn (exitEnv crypto cfg r n keys) := by
    simp only [buildCdn, hhubs]
    rfl
  have hhysteria : buildHysteria (exitEnv crypto (cfg.without region node)
        { r with nodes := nodes, lbFallback := fallback } n keys) =
      buildHysteria (exitEnv crypto cfg r n keys) := by
    simp only [buildHysteria, hysteriaClients, hhubs]
    rfl
  rw [buildSlots, buildSlots, hxhttp, hcdn, hhysteria]
  rfl

theorem buildContext_exit_without (hkeys : store' n.id.val = store n.id.val) :
    buildContext crypto (cfg.without region node) store'
        (.exit (ExitRegion.remaining region node r) n) =
      buildContext crypto cfg store (.exit r n) := by
  obtain ⟨nodes, fallback, heq⟩ := remaining_cases region node r
  have hload : loadNodeKeys store' n.id.val = loadNodeKeys store n.id.val := by
    rw [loadNodeKeys, loadNodeKeys, hkeys]
  rw [heq, buildContext, buildContext, hload]
  simp only [buildExitContext, buildSlots_without]
  rfl

theorem renderExit_without (hkeys : store' n.id.val = store n.id.val) :
    renderExit crypto (cfg.without region node) store' (ExitRegion.remaining region node r) n =
      renderExit crypto cfg store r n := by
  obtain ⟨nodes, fallback, heq⟩ := remaining_cases region node r
  have hload : loadNodeKeys store' n.id.val = loadNodeKeys store n.id.val := by
    rw [loadNodeKeys, loadNodeKeys, hkeys]
  rw [heq, renderExit, renderExit, hload]
  simp only [buildExitContext, buildSlots_without]
  rfl

theorem buildLinks_without {p : ExitRegion × ExitNode}
    (hkeys : store' p.2.id.val = store p.2.id.val) :
    buildLinks crypto (cfg.without region node) hub store' (remainingPair region node p).1 p.2 =
      buildLinks crypto cfg hub store p.1 p.2 := by
  obtain ⟨nodes, fallback, heq⟩ := remaining_cases region node p.1
  rw [remainingPair, heq, buildLinks, buildLinks, hkeys]
  rfl

theorem dialReady_without {p : ExitRegion × ExitNode}
    (hkeys : store' p.2.id.val = store p.2.id.val)
    (h : DialReady crypto cfg store p.1 p.2) :
    DialReady crypto (cfg.without region node) store' (remainingPair region node p).1 p.2 := by
  obtain ⟨nodes, fallback, heq⟩ := remaining_cases region node p.1
  obtain ⟨keys, hstored, hsigned⟩ := h
  rw [remainingPair, heq]
  exact ⟨keys, hkeys.trans hstored, hsigned⟩

theorem buildLinks_exitId {p : ExitRegion × ExitNode} {links : LinkContext × Option LinkContext}
    (h : buildLinks crypto cfg hub store p.1 p.2 = .ok links) :
    links.1.exitId = p.2.id.val ∧ ∀ link ∈ links.2, link.exitId = p.2.id.val := by
  obtain ⟨keys, -, hvariants, -⟩ := buildLinks_variants h
  have hid : ∀ link, link = links.1 ∨ links.2 = some link → link.exitId = p.2.id.val := by
    intro link hlink
    obtain ⟨variant, hdials⟩ := (hvariants link).mp hlink
    exact hdials.linkOf.exitId
  exact ⟨hid _ (.inl rfl), fun link hlink => hid link (.inr hlink)⟩

/-- A hub config in terms of the links, inbounds and shared data it is built from. -/
theorem renderHub_contents {config : XrayConfig}
    (h : renderHub crypto cfg store hubRegion hub = .ok config) :
    ∃ keys slots links, store hub.id.val = some keys ∧
      buildSlots (hubEnv crypto cfg hubRegion hub keys) = .ok slots ∧
      mapEach (renderedExitNodes cfg) (fun p => buildLinks crypto cfg hub store p.1 p.2) =
        .ok links ∧
      config.outbounds =
        (links.map (·.1) ++ links.filterMap (·.2)).map renderLink ++ fixedOutbounds ∧
      config.inbounds =
        buildInbounds slots (makeShared cfg (.hub hubRegion) (.hub hub) keys) ++
          (resolveNodePublishes cfg hub).map
            (forwardFragment · (makeShared cfg (.hub hubRegion) (.hub hub) keys)) ∧
      config.api = apiOf (makeShared cfg (.hub hubRegion) (.hub hub) keys) ∧
      config.haproxy = (makeShared cfg (.hub hubRegion) (.hub hub) keys).haproxy := by
  simp only [renderHub, buildHubContext, bind_eq_ok, pure_eq_ok] at h
  obtain ⟨keys, hkeys, loaded, hloaded, ctx, ⟨links, hlinks, slots, hslots, balancers, -, rules, -,
    rfl⟩, rfl⟩ := h
  refine ⟨keys, slots, links, loadNodeKeys_eq_ok.mp hkeys, hslots, ?_, rfl, rfl, rfl, rfl⟩
  rw [← hlinks]
  refine mapEach_congr fun p hp => ?_
  obtain ⟨hr, hn⟩ := mem_renderedExitNodes.mp hp
  have hstored : loaded.lookup p.2.id.val = store p.2.id.val := lookup_loaded (fun id => id) hloaded
    (List.mem_flatMap.mpr ⟨p.1, hr, List.mem_map_of_mem hn⟩)
  rw [buildLinks, buildLinks, hstored]

/-- The stores agree on every node but the one removed. -/
def KeysKept (node : ExitNode) (store store' : KeyStore) : Prop :=
  ∀ id, id ≠ node.id.val → store' id = store id

theorem mem_placed_without_hub :
    Placed.hub hubRegion hub ∈ (cfg.without region node).placed ↔
      Placed.hub hubRegion hub ∈ cfg.placed := by
  have hpair : ∀ cfg : ConglomerateConfig, Placed.hub hubRegion hub ∈ cfg.placed ↔
      (hubRegion, hub) ∈ hubNodePairs cfg :=
    fun cfg => ⟨fun h => mem_hubNodePairs.mpr (mem_placed_hub h), fun h => placed_of_mem h⟩
  rw [hpair, hpair, hubNodePairs_without]

theorem hub_ne_node (h : Accepted cfg) (hr : region ∈ cfg.exitRegions) (hn : node ∈ region.nodes)
    (hp : Placed.hub hubRegion hub ∈ cfg.placed) : hub.id.val ≠ node.id.val := by
  intro hid
  have hexit : Placed.exit region node ∈ cfg.placed := List.mem_flatMap.mpr
    ⟨.exit region, mem_exitRegions.mp hr, List.mem_map_of_mem hn⟩
  have hfirst := (getNode_placed h hp).symm.trans
    ((congrArg (getNode cfg) hid).trans (getNode_placed h hexit))
  cases hfirst

/-- A hub is rendered as before, less its links to the node. -/
structure HubWithdrawn (node : ExitNode) (config config' : XrayConfig) : Prop where
  inbounds : config'.inbounds = config.inbounds
  outbounds : config'.outbounds =
    config.outbounds.filter fun o => o.link.all (·.exitId ≠ node.id.val)
  api : config'.api = config.api
  haproxy : config'.haproxy = config.haproxy

theorem filter_outbounds {links : List (LinkContext × Option LinkContext)} {id : String}
    (hpairs : ∀ pair ∈ links, ∀ link ∈ pair.2, link.exitId = pair.1.exitId) :
    ((links.map (·.1) ++ links.filterMap (·.2)).map renderLink ++ fixedOutbounds).filter
        (fun o => o.link.all (·.exitId ≠ id)) =
      ((links.filter (·.1.exitId ≠ id)).map (·.1) ++
        (links.filter (·.1.exitId ≠ id)).filterMap (·.2)).map renderLink ++ fixedOutbounds := by
  have hfixed : fixedOutbounds.filter (fun o => o.link.all (·.exitId ≠ id)) = fixedOutbounds :=
    List.filter_eq_self.mpr fun o ho => by
      simp only [fixedOutbounds, List.mem_cons, List.not_mem_nil, or_false] at ho
      rcases ho with rfl | rfl | rfl <;> rfl
  have hlink : ∀ ls : List LinkContext,
      (ls.map renderLink).filter (fun o => o.link.all (·.exitId ≠ id)) =
        (ls.filter (·.exitId ≠ id)).map renderLink := fun ls => List.filter_map
  rw [List.filter_append, hfixed, hlink, List.filter_append, List.filter_map,
    List.filter_filterMap, List.filterMap_filter]
  congr 3
  refine List.filterMap_congr fun pair hpair => ?_
  cases hsome : pair.2 with
  | none => simp
  | some link =>
      have hid := hpairs pair hpair link hsome
      by_cases hkeep : pair.1.exitId = id <;> simp [hid, hkeep, Option.filter]

theorem renderHub_without (h : Accepted cfg) (hr : region ∈ cfg.exitRegions)
    (hn : node ∈ region.nodes)
    (hstays : ¬ (region.nodes.length = 1 ∧ cfg.routing.hubDefault = region.id.val))
    (hkept : KeysKept node store store') (hp : Placed.hub hubRegion hub ∈ cfg.placed)
    {config : XrayConfig} (hrender : renderHub crypto cfg store hubRegion hub = .ok config) :
    ∃ config', renderHub crypto (cfg.without region node) store' hubRegion hub = .ok config' ∧
      HubWithdrawn node config config' := by
  obtain ⟨hready, hexits, hfits⟩ := ready_of_renderHub hrender
  have hown := hkept hub.id.val (hub_ne_node h hr hn hp)
  have hremaining := renderedExitNodes_without h hr hn
  have hready' : (Placed.hub hubRegion hub).Ready crypto (cfg.without region node) store' := by
    refine ⟨?_, fun r' hr' n' hn' => ?_, hfits⟩
    · obtain ⟨keys, hstored, hsigned⟩ := hready
      exact ⟨keys, hown.trans hstored, hsigned⟩
    have hmem : (r', n') ∈ renderedExitNodes (cfg.without region node) :=
      mem_renderedExitNodes.mpr ⟨hr', hn'⟩
    rw [hremaining] at hmem
    obtain ⟨p, hpmem, heq⟩ := List.mem_map.mp hmem
    obtain ⟨hmemp, hid⟩ := List.mem_filter.mp hpmem
    cases heq
    obtain ⟨hpr, hpn⟩ := mem_renderedExitNodes.mp hmemp
    exact dialReady_without
      (hkept _ fun heq => (of_decide_eq_true hid) (Identifier.val_inj.mp heq))
      (hexits p.1 hpr p.2 hpn)
  obtain ⟨config', hrender'⟩ := (ready_iff (h.without hr hn hstays)
    (mem_placed_without_hub.mpr hp)).mp hready'
  refine ⟨config', hrender', ?_⟩
  obtain ⟨keys, slots, links, hkeys, hslots, hlinks, houtbounds, hinbounds, hapi, hhaproxy⟩ :=
    renderHub_contents hrender
  obtain ⟨keys', slots', links', hkeys', hslots', hlinks', houtbounds', hinbounds', hapi',
    hhaproxy'⟩ := renderHub_contents hrender'
  cases hkeys.symm.trans (hown.symm.trans hkeys')
  cases hslots.symm.trans hslots'
  have hfiltered : links' = links.filter (·.1.exitId ≠ node.id.val) := by
    have hexpected := mapEach_filter (fun p => decide (p.2.id ≠ node.id))
      (fun pair => decide (pair.1.exitId ≠ node.id.val)) (fun p _ pair hpair => by
        rw [(buildLinks_exitId hpair).1]
        simp [Identifier.val_inj]) hlinks
    rw [hremaining, mapEach_map] at hlinks'
    refine Except.ok.inj (hlinks'.symm.trans ((mapEach_congr fun p hpmem => ?_).trans hexpected))
    obtain ⟨-, hid⟩ := List.mem_filter.mp hpmem
    exact buildLinks_without
      (hkept _ fun heq => (of_decide_eq_true hid) (Identifier.val_inj.mp heq))
  constructor
  case inbounds => exact hinbounds'.trans hinbounds.symm
  case outbounds =>
    rw [houtbounds', houtbounds, hfiltered]
    refine (filter_outbounds fun pair hpair link hlink => ?_).symm
    obtain ⟨p, -, hbuild⟩ := (mem_mapEach hlinks).mp hpair
    obtain ⟨hfirst, hsecond⟩ := buildLinks_exitId hbuild
    exact (hsecond link hlink).trans hfirst.symm
  case api => exact hapi'.trans hapi.symm
  case haproxy => exact hhaproxy'.trans hhaproxy.symm

/-! ## Nodes by id -/

def Placed.remaining (region : ExitRegion) (node : ExitNode) : Placed → Placed
  | .exit r n => .exit (ExitRegion.remaining region node r) n
  | .hub r n => .hub r n

theorem find?_placed_without {id : String} (hid : id ≠ node.id.val) (r : Region) :
    (r.without region node).placed.find? (fun p => p.node.id.val = id) =
      (r.placed.find? fun p => p.node.id.val = id).map (Placed.remaining region node) := by
  cases r with
  | hub r =>
      rw [without_hub, Region.placed, List.find?_map]
      cases r.nodes.find? _ <;> rfl
  | exit r =>
      have hkept : (ExitRegion.remaining region node r).nodes.find? (fun n => n.id.val = id) =
          r.nodes.find? fun n => n.id.val = id := by
        unfold ExitRegion.remaining
        by_cases hself : r = region
        · rw [if_pos hself, hself, ExitRegion.without, List.find?_filter]
          refine congrArg (List.find? · region.nodes) (funext fun n => ?_)
          by_cases heq : n.id.val = id
          · have hne : n.id ≠ node.id := fun h => hid (heq.symm.trans (congrArg Identifier.val h))
            simp [heq, hne]
          · simp [heq]
        · rw [if_neg hself]
      rw [without_exit, Region.placed, Region.placed, List.find?_map, List.find?_map,
        Option.map_map]
      exact congrArg _ hkept

theorem getNode_without {id : String} (hid : id ≠ node.id.val) :
    getNode (cfg.without region node) id = (getNode cfg id).map (Placed.remaining region node) := by
  have hfind : (cfg.without region node).placed.find? (fun p => p.node.id.val = id) =
      (cfg.placed.find? fun p => p.node.id.val = id).map (Placed.remaining region node) := by
    rw [ConglomerateConfig.placed, ConglomerateConfig.placed, ConglomerateConfig.without,
      List.flatMap_map, List.find?_flatMap, List.find?_flatMap]
    simp only [find?_placed_without hid]
    rw [List.map_findSome?]
    rfl
  rw [getNode, getNode, hfind]
  cases cfg.placed.find? _ <;> rfl

/-! ## What is handed out -/

variable {pairs : List (HubRegion × HubNode)}

theorem loadNodeKeys_kept {id : String} (hkeys : store' id = store id) :
    loadNodeKeys store' id = loadNodeKeys store id := by
  rw [loadNodeKeys, loadNodeKeys, hkeys]

section Kinds

variable (identity : ResolvedIdentity) (shortId fingerprint : String)
  (hstored : ∀ q ∈ pairs, store' q.2.id.val = store q.2.id.val)

include hstored

theorem cdnShareUrlsFrom_without (seenRegions : List String) :
    cdnShareUrlsFrom crypto (cfg.without region node) store' identity shortId fingerprint
        seenRegions pairs =
      cdnShareUrlsFrom crypto cfg store identity shortId fingerprint seenRegions pairs := by
  induction pairs generalizing seenRegions with
  | nil => rfl
  | cons q rest ih =>
      rw [List.forall_mem_cons] at hstored
      simp only [cdnShareUrlsFrom, shareEnv, loadNodeKeys_kept hstored.1, ih hstored.2]
      split
      · rfl
      · cases loadNodeKeys store q.2.id.val <;> rfl

theorem directShareUrlsFrom_without (user : User) (server : Bool)
    (emitted : List (String × XhttpContext × NodeKeys)) :
    directShareUrlsFrom crypto (cfg.without region node) store' identity shortId fingerprint user
        server emitted pairs =
      directShareUrlsFrom crypto cfg store identity shortId fingerprint user server emitted
        pairs := by
  induction pairs generalizing emitted with
  | nil => rfl
  | cons q rest ih =>
      rw [List.forall_mem_cons] at hstored
      simp only [directShareUrlsFrom, shareEnv, loadNodeKeys_kept hstored.1, ih hstored.2]
      cases loadNodeKeys store q.2.id.val <;> rfl

/-- The listener as one of another topology. -/
def HysteriaListener.inCfg (cfg : ConglomerateConfig) (l : HysteriaListener) : HysteriaListener :=
  { l with env := { l.env with cfg := cfg } }

omit hstored in
theorem hysteriaListener_without {q : HubRegion × HubNode}
    (hkeys : store' q.2.id.val = store q.2.id.val) :
    hysteriaListener crypto (cfg.without region node) store' q.1 q.2 =
      (hysteriaListener crypto cfg store q.1 q.2).map
        (Option.map (HysteriaListener.inCfg (cfg.without region node))) := by
  have hslot : ∀ keys, buildHysteria (hubEnv crypto (cfg.without region node) q.1 q.2 keys) =
      buildHysteria (hubEnv crypto cfg q.1 q.2 keys) := fun keys => rfl
  simp only [hysteriaListener, shareEnv, loadNodeKeys_kept hkeys]
  cases loadNodeKeys store q.2.id.val with
  | error e => rfl
  | ok keys =>
      simp only [bind, Except.bind, pure, Except.pure, hslot]
      cases buildHysteria (hubEnv crypto cfg q.1 q.2 keys) with
      | error e => rfl
      | ok slot => cases slot <;> rfl

omit hstored in
theorem hysteriaShareUrlsFrom_inCfg (listeners rest : List HysteriaListener)
    (emitted : List (String × ℕ × String × Option String × Option String)) :
    hysteriaShareUrlsFrom identity shortId fingerprint (listeners.map (·.inCfg cfg)) emitted
        (rest.map (·.inCfg cfg)) =
      hysteriaShareUrlsFrom identity shortId fingerprint listeners emitted rest := by
  have hregion : ∀ id, perRegion (listeners.map (·.inCfg cfg)) id = perRegion listeners id := by
    intro id
    rw [perRegion, List.filter_map, List.map_map]
    rfl
  induction rest generalizing emitted with
  | nil => rfl
  | cons l rest ih =>
      have hurl : hysteriaShareUrl identity shortId fingerprint (listeners.map (·.inCfg cfg))
          (l.inCfg cfg) = hysteriaShareUrl identity shortId fingerprint listeners l := by
        unfold hysteriaShareUrl
        rw [show (l.inCfg cfg).region = l.region from rfl, hregion]
        rfl
      rw [List.map_cons, hysteriaShareUrlsFrom, hysteriaShareUrlsFrom, hurl, ih, ih]
      rfl

theorem hysteriaShareUrls_without :
    hysteriaShareUrls crypto (cfg.without region node) store' identity shortId fingerprint pairs =
      hysteriaShareUrls crypto cfg store identity shortId fingerprint pairs := by
  have hslots : mapEach pairs (fun q =>
        hysteriaListener crypto (cfg.without region node) store' q.1 q.2) =
      (mapEach pairs fun q => hysteriaListener crypto cfg store q.1 q.2).map
        (List.map (Option.map (HysteriaListener.inCfg (cfg.without region node)))) := by
    induction pairs with
    | nil => rfl
    | cons q rest ih =>
        rw [List.forall_mem_cons] at hstored
        rw [mapEach, mapEach, hysteriaListener_without hstored.1, ih hstored.2]
        cases hysteriaListener crypto cfg store q.1 q.2 with
        | error e => rfl
        | ok slot =>
            cases mapEach rest fun q => hysteriaListener crypto cfg store q.1 q.2 <;> rfl
  rw [hysteriaShareUrls, hysteriaShareUrls, hslots]
  cases mapEach pairs fun q => hysteriaListener crypto cfg store q.1 q.2 with
  | error e => rfl
  | ok slots =>
      have hlisteners : (slots.map (Option.map
            (HysteriaListener.inCfg (cfg.without region node)))).filterMap id =
          (slots.filterMap id).map (·.inCfg (cfg.without region node)) := by
        rw [List.filterMap_map, List.map_filterMap]
        rfl
      simp only [Except.map, bind, Except.bind, pure, Except.pure, hlisteners,
        hysteriaShareUrlsFrom_inCfg]

end Kinds

theorem requestedPairs_without {hubId : Option String} (hid : hubId ≠ some node.id.val) :
    requestedPairs (cfg.without region node) hubId = requestedPairs cfg hubId := by
  cases hubId with
  | none => rw [requestedPairs, requestedPairs, hubNodePairs_without]
  | some id =>
      rw [requestedPairs, requestedPairs, getNode_without (mt (congrArg some) hid)]
      cases getNode cfg id with
      | error e => rfl
      | ok p => cases p <;> rfl

theorem perIdentity_congr {α : Type} {req : ShareRequest}
    {f g : User → ShareRequest → Except Error (List α)}
    (h : ∀ user one, one.hubId = req.hubId → f user one = g user one) :
    perIdentity (cfg.without region node) req f = perIdentity cfg req g := by
  have huser : resolveUser (cfg.without region node) req.username = resolveUser cfg req.username :=
    rfl
  have hguests : ∀ user, (fun label => f user (req.forGuest label)) =
      fun label => g user (req.forGuest label) :=
    fun user => funext fun label => h user _ rfl
  rw [perIdentity, perIdentity, huser]
  cases resolveUser cfg req.username with
  | error e => rfl
  | ok user => simp only [bind, Except.bind, h user req rfl, hguests]

/-- The stores agree on every hub of a request. -/
theorem KeysKept.hub_stored (h : Accepted cfg) (hr : region ∈ cfg.exitRegions)
    (hn : node ∈ region.nodes) (hkept : KeysKept node store store') {hubId : Option String}
    (hpairs : requestedPairs cfg hubId = .ok pairs) :
    ∀ q ∈ pairs, store' q.2.id.val = store q.2.id.val := fun _ hq =>
  hkept _ (hub_ne_node h hr hn (placed_of_mem (mem_requestedPairs hpairs hq)))

theorem buildShareUrls_without (h : Accepted cfg) (hr : region ∈ cfg.exitRegions)
    (hn : node ∈ region.nodes) (hkept : KeysKept node store store') {req : ShareRequest}
    (hid : req.hubId ≠ some node.id.val) (fingerprint : String) (cdn hysteria : Bool) :
    buildShareUrls crypto (cfg.without region node) store' req fingerprint cdn hysteria =
      buildShareUrls crypto cfg store req fingerprint cdn hysteria := by
  refine perIdentity_congr fun user one hone => ?_
  have hshort : clientShortId crypto (cfg.without region node) user one =
      clientShortId crypto cfg user one := rfl
  have hidentity : resolveIdentity crypto.uuid5 user (cfg.without region node).ns one.guest
      one.server = resolveIdentity crypto.uuid5 user cfg.ns one.guest one.server := rfl
  simp only [shareUrlsOf, hshort, hidentity, requestedPairs_without (hone ▸ hid)]
  cases hpairs : requestedPairs cfg one.hubId with
  | error e => rfl
  | ok pairs =>
      have hstored := hkept.hub_stored h hr hn hpairs
      have hkind : ∀ identity shortId kind,
          kindShareUrls crypto (cfg.without region node) store' identity shortId fingerprint user
              one.server pairs kind =
            kindShareUrls crypto cfg store identity shortId fingerprint user one.server pairs
              kind := by
        intro identity shortId kind
        cases kind with
        | cdn =>
            rw [kindShareUrls, kindShareUrls, cdnShareUrls, cdnShareUrls,
              cdnShareUrlsFrom_without identity shortId fingerprint hstored]
            rfl
        | hysteria => exact hysteriaShareUrls_without identity shortId fingerprint hstored
        | direct =>
            exact directShareUrlsFrom_without identity shortId fingerprint hstored user one.server
              []
      simp only [bind, Except.bind, hkind]

theorem buildWireguardConfigs_without (h : Accepted cfg) (hr : region ∈ cfg.exitRegions)
    (hn : node ∈ region.nodes) (hkept : KeysKept node store store') {req : ShareRequest}
    (hid : req.hubId ≠ some node.id.val) :
    buildWireguardConfigs crypto (cfg.without region node) store' req =
      buildWireguardConfigs crypto cfg store req := by
  refine perIdentity_congr fun user one hone => ?_
  have hidentity : resolveIdentity crypto.uuid5 user (cfg.without region node).ns one.guest
      one.server = resolveIdentity crypto.uuid5 user cfg.ns one.guest one.server := rfl
  simp only [wireguardConfigsOf, hidentity, requestedPairs_without (hone ▸ hid)]
  cases hpairs : requestedPairs cfg one.hubId with
  | error e => rfl
  | ok pairs =>
      have hstored := hkept.hub_stored h hr hn hpairs
      have hconfigs : ∀ identity, mapEach pairs (fun q =>
            wireguardConfig crypto (cfg.without region node) store' identity q.2) =
          mapEach pairs fun q => wireguardConfig crypto cfg store identity q.2 := by
        refine fun identity => mapEach_congr fun q hq => ?_
        simp only [wireguardConfig, loadNodeKeys_kept (hstored q hq)]
        rfl
      simp only [bind, Except.bind, hconfigs]

theorem genPortal_without (h : Accepted cfg) (hr : region ∈ cfg.exitRegions)
    (hn : node ∈ region.nodes) (hkept : KeysKept node store store')
    (portalId fingerprint : String) :
    genPortal crypto (cfg.without region node) store' portalId fingerprint =
      genPortal crypto cfg store portalId fingerprint := by
  have hloaded : mapEach (hubNodePairs cfg) (fun q => do
        pure (q.2.id.val, ← loadNodeKeys store' q.2.id.val)) =
      mapEach (hubNodePairs cfg) (fun q => do
        pure (q.2.id.val, ← loadNodeKeys store q.2.id.val)) := by
    refine mapEach_congr fun q hq => ?_
    rw [loadNodeKeys_kept (hkept _ (hub_ne_node h hr hn (placed_of_mem hq)))]
  simp only [genPortal, buildPortalConfig, hubNodePairs_without, hloaded]
  rfl

/-! ## Keys -/

theorem siblingKeys_without (r : Region) (nodeId : String) (keysCfg : KeysConfig)
    (siblings : List Node) :
    siblingKeys (cfg.without region node) store r nodeId keysCfg siblings =
      siblingKeys cfg store r nodeId keysCfg siblings := by
  induction siblings with
  | nil => rfl
  | cons sibling rest ih =>
      rw [siblingKeys, siblingKeys, ih]
      rfl

theorem genKeys_without {nodeId : String} (hid : nodeId ≠ node.id.val) (fresh : FreshKeys)
    (force : Bool) :
    genKeys (cfg.without region node) fresh store nodeId force =
      genKeys cfg fresh store nodeId force := by
  rw [genKeys, genKeys, getNode_without hid]
  cases getNode cfg nodeId with
  | error e => rfl
  | ok p =>
      cases p with
      | hub r n =>
          simp only [reusedKeys, siblingKeys_without]
          rfl
      | exit r n =>
          obtain ⟨nodes, fallback, heq⟩ := remaining_cases region node r
          rw [Except.map, Placed.remaining, heq]
          rfl

/-- The stores agree off the node, and each has under the node what it had there. -/
structure LeavesNode (node : ExitNode) (store store' s s' : KeyStore) : Prop where
  kept : KeysKept node s s'
  own : s node.id.val = store node.id.val
  own' : s' node.id.val = store' node.id.val

theorem LeavesNode.save {s s' : KeyStore} (h : LeavesNode node store store' s s') {id : String}
    (hid : id ≠ node.id.val) (keys : NodeKeys) :
    Agree (LeavesNode node store store') (saveNodeKeys s id keys) (saveNodeKeys s' id keys) := by
  refine Agree.bind_same fun _ _ => .ok ⟨?_, ?_, ?_⟩
  · intro other hother
    by_cases hsame : other = id
    · simp [hsame]
    · rw [Function.update_of_ne hsame, Function.update_of_ne hsame, h.kept other hother]
  · rw [Function.update_of_ne (Ne.symm hid), h.own]
  · rw [Function.update_of_ne (Ne.symm hid), h.own']

/-- The nodes whose keys a call looks at besides its own are hubs. -/
theorem sibling_ne_node (h : Accepted cfg) (hr : region ∈ cfg.exitRegions)
    (hn : node ∈ region.nodes) {p : Placed} (hp : p ∈ cfg.placed) (hhub : p.region.type = .hub)
    {sibling : Node} (hsibling : sibling ∈ p.region.nodes) : sibling.id.val ≠ node.id.val := by
  cases p with
  | exit r n => cases hhub
  | hub r n =>
      obtain ⟨m, hm, rfl⟩ := List.mem_map.mp hsibling
      exact hub_ne_node h hr hn
        (List.mem_flatMap.mpr ⟨.hub r, (mem_placed_hub hp).1, List.mem_map_of_mem hm⟩)

theorem siblingKeys_kept {r : Region} {nodeId : String} {keysCfg : KeysConfig}
    {siblings : List Node} (h : ∀ s ∈ siblings, store' s.id.val = store s.id.val) :
    siblingKeys cfg store' r nodeId keysCfg siblings =
      siblingKeys cfg store r nodeId keysCfg siblings := by
  induction siblings with
  | nil => rfl
  | cons sibling rest ih =>
      simp only [siblingKeys, nodeKeysExist, loadNodeKeys, h sibling List.mem_cons_self,
        ih fun s hs => h s (List.mem_cons_of_mem sibling hs)]

theorem reusedKeys_kept (h : Accepted cfg) (hr : region ∈ cfg.exitRegions)
    (hn : node ∈ region.nodes) (hkept : KeysKept node store store') {p : Placed}
    (hp : p ∈ cfg.placed) (nodeId : String) (keysCfg : KeysConfig) (force : Bool) :
    reusedKeys cfg store' p.region nodeId keysCfg force =
      reusedKeys cfg store p.region nodeId keysCfg force := by
  unfold reusedKeys
  split
  · rename_i hhub
    exact siblingKeys_kept fun sibling hsibling =>
      hkept _ (sibling_ne_node h hr hn hp hhub.1 hsibling)
  · rfl

/-- A call of the key generation for another node tells the stores apart only where they were. -/
theorem genKeys_kept (h : Accepted cfg) (hr : region ∈ cfg.exitRegions) (hn : node ∈ region.nodes)
    (hkept : KeysKept node store store') {nodeId : String} (hid : nodeId ≠ node.id.val)
    (fresh : FreshKeys) (force : Bool) :
    Agree (fun a a' => a.1 = a'.1 ∧ LeavesNode node store store' a.2 a'.2)
      (genKeys cfg fresh store nodeId force)
      (genKeys (cfg.without region node) fresh store' nodeId force) := by
  rw [genKeys_without hid]
  have hstart : LeavesNode node store store' store store' := ⟨hkept, rfl, rfl⟩
  have hexists : nodeKeysExist store' nodeId = nodeKeysExist store nodeId := by
    rw [nodeKeysExist, nodeKeysExist, hkept nodeId hid]
  rw [genKeys, genKeys, hexists]
  refine Agree.bind_same fun _ _ => ?_
  split
  · exact .ok ⟨rfl, hstart⟩
  refine Agree.bind_same fun p hp => ?_
  obtain ⟨hplaced, -⟩ := getNode_eq_ok hp
  simp only [reusedKeys_kept h hr hn hkept hplaced]
  refine Agree.bind_same fun reused _ => ?_
  cases reused with
  | some keys =>
      exact (hstart.save hid keys).bind fun s s' hs => .ok ⟨rfl, hs⟩
  | none =>
      refine (hstart.save hid _).bind fun s s' hs => ?_
      split
      · rename_i hrotates
        refine Agree.bind (Agree.foldEach (fun sibling hsibling s s' hs => ?_) hs)
          fun s s' hs => .ok ⟨rfl, hs⟩
        unfold rotateSibling
        split
        · exact hs.save (sibling_ne_node h hr hn hplaced hrotates.1 hsibling) _
        · exact .ok hs
      · exact .ok ⟨rfl, hs⟩

/-! ## HAProxy -/

theorem haproxyConfig_congr {ctx ctx' : NodeContext} (hshared : ctx'.shared = ctx.shared)
    (hslots : ctx'.slots = ctx.slots) (htype : ctx'.nodeType = ctx.nodeType) :
    haproxyConfig ctx' = haproxyConfig ctx := by
  rw [haproxyConfig, haproxyConfig, hshared, hslots, htype]

theorem nodeHaproxy_without (h : Accepted cfg) (hr : region ∈ cfg.exitRegions)
    (hn : node ∈ region.nodes)
    (hstays : ¬ (region.nodes.length = 1 ∧ cfg.routing.hubDefault = region.id.val))
    (hkept : KeysKept node store store') {p : Placed} (hp : p ∈ cfg.placed)
    (hid : p.node.id.val ≠ node.id.val) {proxy : HaproxyConfig}
    (hproxy : nodeHaproxy crypto cfg store p = .ok proxy) :
    nodeHaproxy crypto (cfg.without region node) store' (p.remaining region node) = .ok proxy := by
  cases p with
  | exit r n =>
      rw [← hproxy, nodeHaproxy, nodeHaproxy, Placed.remaining,
        buildContext_exit_without (hkept _ hid)]
  | hub hubRegion hub =>
      obtain ⟨config, hconfig⟩ : ∃ config, renderNode crypto cfg store (.hub hubRegion hub) =
          .ok config := by
        rw [nodeHaproxy, bind_eq_ok] at hproxy
        obtain ⟨ctx, hctx, -⟩ := hproxy
        rw [renderNode_eq, hctx]
        exact ⟨_, rfl⟩
      obtain ⟨config', hconfig', -⟩ := renderHub_without h hr hn hstays hkept hp hconfig
      obtain ⟨hn⟩ := renderNode_eq_ok hconfig
      obtain ⟨hn'⟩ := renderNode_eq_ok
        (show renderNode crypto (cfg.without region node) store' (.hub hubRegion hub) = .ok config'
          from hconfig')
      have hkeys : hn.keys = hn'.keys :=
        Option.some.inj (hn.stored.symm.trans ((hkept _ hid).symm.trans hn'.stored))
      have hslots : hn'.slots = hn.slots := by
        have hbuilt : buildSlots (Placed.env crypto cfg hn.keys (.hub hubRegion hub)) =
          .ok hn'.slots := hkeys ▸ hn'.built
        exact Except.ok.inj (hbuilt.symm.trans hn.built)
      have hsame : haproxyConfig hn'.ctx = haproxyConfig hn.ctx := by
        refine haproxyConfig_congr ?_ ?_ (hn'.nodeType.trans hn.nodeType.symm)
        · rw [hn'.shared, hn.shared, ← hkeys]
          rfl
        · rw [hn'.ctx_slots, hn.ctx_slots, hslots]
      rw [Placed.remaining, nodeHaproxy, hn'.context]
      exact hsame.trans (nodeHaproxy_eq_ok hn hproxy)

/-! ## The whole fleet -/

/-- After the removal of an exit node, everything else is as it was. -/
structure Undisturbed (crypto : Crypto) (cfg : ConglomerateConfig) (store store' : KeyStore)
    (region : ExitRegion) (node : ExitNode) : Prop where
  exit : ∀ p ∈ renderedExitNodes cfg, p.2.id ≠ node.id →
    renderExit crypto (cfg.without region node) store' (ExitRegion.remaining region node p.1) p.2 =
      renderExit crypto cfg store p.1 p.2
  hub : ∀ q ∈ hubNodePairs cfg, ∀ config, renderHub crypto cfg store q.1 q.2 = .ok config →
    ∃ config', renderHub crypto (cfg.without region node) store' q.1 q.2 = .ok config' ∧
      HubWithdrawn node config config'
  haproxy : ∀ p ∈ cfg.placed, p.node.id ≠ node.id → ∀ proxy,
    nodeHaproxy crypto cfg store p = .ok proxy →
      nodeHaproxy crypto (cfg.without region node) store' (p.remaining region node) = .ok proxy
  portal : ∀ portalId fingerprint,
    genPortal crypto (cfg.without region node) store' portalId fingerprint =
      genPortal crypto cfg store portalId fingerprint
  urls : ∀ req : ShareRequest, req.hubId ≠ some node.id.val → ∀ fingerprint cdn hysteria,
    buildShareUrls crypto (cfg.without region node) store' req fingerprint cdn hysteria =
      buildShareUrls crypto cfg store req fingerprint cdn hysteria
  wireguard : ∀ req : ShareRequest, req.hubId ≠ some node.id.val →
    buildWireguardConfigs crypto (cfg.without region node) store' req =
      buildWireguardConfigs crypto cfg store req
  keys : ∀ nodeId, nodeId ≠ node.id.val → ∀ fresh force,
    Checks.Agree (fun a a' => a.1 = a'.1 ∧ LeavesNode node store store' a.2 a'.2)
      (genKeys cfg fresh store nodeId force)
      (genKeys (cfg.without region node) fresh store' nodeId force)

/-- Removing an exit node, and forgetting its keys, changes nothing of the other exits, of HAProxy,
of portals and of what users hold, and of each hub nothing but its links to the node and the
routing that follows from them. -/
theorem removal_undisturbed (cfg : AcceptedConfig) {region : ExitRegion} {node : ExitNode}
    (hr : region ∈ cfg.exitRegions) (hn : node ∈ region.nodes)
    (hstays : ¬ (region.nodes.length = 1 ∧ cfg.routing.hubDefault = region.id.val))
    (hkept : KeysKept node store store') :
    Undisturbed crypto cfg.toConglomerateConfig store store' region node := by
  constructor
  case exit => exact fun p _ hid => renderExit_without (hkept _ (mt Identifier.val_inj.mp hid))
  case hub =>
    exact fun q hq config h =>
      renderHub_without cfg.spec hr hn hstays hkept (placed_of_mem hq) h
  case haproxy =>
    exact fun p hp hid proxy h =>
      nodeHaproxy_without cfg.spec hr hn hstays hkept hp (mt Identifier.val_inj.mp hid) h
  case portal => exact genPortal_without cfg.spec hr hn hkept
  case urls => exact fun req => buildShareUrls_without cfg.spec hr hn hkept
  case wireguard => exact fun req => buildWireguardConfigs_without cfg.spec hr hn hkept
  case keys => exact fun nodeId hid => genKeys_kept cfg.spec hr hn hkept hid

namespace Sample

def firstOfPair : ExitNode := exitNode fra1

/-- The keys of the first node of the pair are gone. -/
def storeWithoutFirst : KeyStore := fun id =>
  if id = firstOfPair.id.val then none else Sample.store id

end Sample

theorem storeWithoutFirst_kept :
    KeysKept Sample.firstOfPair Sample.store Sample.storeWithoutFirst := fun _ hid => if_neg hid

theorem removal_undisturbed_pairedExits :
    Undisturbed Sample.crypto Sample.pairedExits.toConglomerateConfig Sample.store
      Sample.storeWithoutFirst Sample.pairedExit Sample.firstOfPair :=
  removal_undisturbed Sample.pairedExits (by decide) (by decide) (by decide) storeWithoutFirst_kept

end HexRift
